import EdgeSphere.Library.Faults
import EdgeSphere.Storage.MultipartFiles

/-!
# An upload that fails

`uploadFile` puts the object first, then clears the flag of the former row, then inserts its own, and takes nothing back
when a step fails.

* `Outage` — what one call meets: services that fail, and saves whose answers are lost;
* `Unseen` — downloads and listings reply as if the call had not been made;
* `uploadFile_left` — what a call that throws leaves behind;
* `failed_upload_unseen_iff` — **the exact condition**: MinIO has not taken the object, or no row is written and the
  object was there already, or no row names its key;
* `failed_overwrite_seen` — the new row is not saved, and the previous file is gone.
-/

namespace EdgeSphere.Storage

open EdgeSphere.Library
open EdgeSphere.Library.Program

/-! ### What a call meets -/

/-- Services that answer or fail, and saves that are executed although their answer is lost. -/
structure Outage where
  services : Services
  saveLost : Bool
  insertLost : Bool

namespace Outage

def lost (o : Outage) : Command → Option Exception
  | .fileSave _ => if o.saveLost then some (.thrown "Connection terminated unexpectedly") else none
  | .fileCreate _ => if o.insertLost then some (.thrown "Connection terminated unexpectedly") else none
  | _ => none

def handle (o : Outage) : Stores → (c : Command) → Stores × Except Exception (Answer c) :=
  lossy o.lost o.services.handle

/-- The call writes a row: it clears a former one, or inserts the first. -/
def WritesRow (o : Outage) (files : FileTable) (bucket : BucketEntity) (file : UploadedFile) (key etag : String) :
    Prop :=
  (o.services.answers (.fileFindOne (latestAt bucket key))).isSome = true ∧
    match o.services.findOne files (latestAt bucket key) with
    | some old => (o.services.answers (.fileSave old.clear)).isSome = true
    | none => (o.services.insertRow files (versionRow bucket file key etag 1)).2.isSome = true

/-- A program that only reads does not notice lost saves. -/
theorem exec_of_reads (o : Outage) {α : Type} {p : StorageProgram α} (hp : p.Within fun c => c.reads = true)
    (s : Stores) : exec o.handle s p = exec o.services.handle s p := by
  refine exec_lossy hp (fun c hc => ?_) _ s
  cases c with
  | fileSave row => cases hc
  | fileCreate row => cases hc
  | _ => rfl

end Outage

/-! ### What a call leaves behind -/

section Left

variable {o : Outage} {s s' : Stores} {bucket : BucketEntity} {file : UploadedFile} {key etag : String} {e : Exception}

/-- An insertion that throws leaves the rows, or adds one. -/
theorem insert_left (version : ℕ) (h : exec o.handle s (await (.fileCreate (versionRow bucket file key etag version)))
      = (s', .error e)) :
    s' = { s with files := (o.services.insertRow s.files (versionRow bucket file key etag version)).1 } := by
  have hstate : (o.handle s (.fileCreate (versionRow bucket file key etag version))).1
      = { s with files := (o.services.insertRow s.files (versionRow bucket file key etag version)).1 } := by
    show (Storage.handle o.services.answers s (.fileCreate (versionRow bucket file key etag version))).1 = _
    unfold Storage.handle Services.insertRow
    rw [if_neg (show ¬ (Command.fileCreate (versionRow bucket file key etag version)).inMemory = true
      from Bool.false_ne_true)]
    cases o.services.answers (.fileCreate (versionRow bucket file key etag version)) with
    | none => rfl
    | some id =>
      have hsize : ¬ (versionRow bucket file key etag version).size.den ≠ 1 := not_not.mpr (Rat.den_natCast _)
      dsimp only [execute]
      rw [if_neg hsize]
      cases s.files.insert { versionRow bucket file key etag version with id := id } with
      | none => rfl
      | some files => rfl
  rw [exec_command] at h
  rw [← hstate, h]

/-- A row that is inserted has a new id. -/
theorem insertRow_new {services : Services} {files : FileTable} {row : FileColumns} {new : FileEntity}
    (h : (services.insertRow files row).2 = some new) : new ∉ files.rows := by
  obtain ⟨hrows, -⟩ := Services.insertRow_of_some h
  have hids := (services.insertRow files row).1.ids
  rw [hrows, List.map_cons] at hids
  exact fun hmem => (List.nodup_cons.mp hids).1 (List.mem_map_of_mem hmem)

/-- A first version that is not recorded. -/
theorem firstVersion_left (hnone : o.services.findOne s.files (latestAt bucket key) = none)
    (hasked : (o.services.answers (.fileFindOne (latestAt bucket key))).isSome = true) :
    (¬ o.WritesRow s.files bucket file key etag →
      (o.services.insertRow s.files (versionRow bucket file key etag 1)).1 = s.files) ∧
    (o.WritesRow s.files bucket file key etag → ∃ row, row.bucketId = bucket.id ∧
      ¬ (row ∈ (o.services.insertRow s.files (versionRow bucket file key etag 1)).1.rows ↔ row ∈ s.files.rows)) := by
  have hwrites : o.WritesRow s.files bucket file key etag ↔
      (o.services.insertRow s.files (versionRow bucket file key etag 1)).2.isSome = true := by
    unfold Outage.WritesRow
    rw [hnone]
    exact and_iff_right hasked
  rw [hwrites]
  cases hinserted : (o.services.insertRow s.files (versionRow bucket file key etag 1)).2 with
  | none => exact ⟨fun _ => Services.insertRow_of_none hinserted, fun hsome => by cases hsome⟩
  | some new =>
    obtain ⟨hrows, hcolumns⟩ := Services.insertRow_of_some hinserted
    refine ⟨fun hnot => absurd rfl hnot, fun _ => ⟨new, by rw [hcolumns]; rfl, fun hiff => ?_⟩⟩
    rw [hrows] at hiff
    exact insertRow_new hinserted (hiff.mp List.mem_cons_self)

/-- The former row is gone once its flag is cleared. -/
theorem old_not_mem {old : FileEntity} (hold : o.services.findOne s.files (latestAt bucket key) = some old)
    (row : FileColumns) :
    old ∉ (s.files.update old.clear).rows ∧ old ∉ (o.services.insertRow (s.files.update old.clear) row).1.rows := by
  obtain ⟨hmem, hholds⟩ := o.services.findOne_eq_some hold
  have htrue := (latestAt_holds.mp hholds).2.2
  have hcleared : old ∉ (s.files.update old.clear).rows := by
    intro hin
    rcases (mem_cleared s.files.ids hmem).mp hin with heq | ⟨-, hne⟩
    · rw [heq] at htrue
      cases htrue
    · exact hne rfl
  refine ⟨hcleared, fun hin => ?_⟩
  cases hinserted : (o.services.insertRow (s.files.update old.clear) row).2 with
  | none =>
    rw [Services.insertRow_of_none hinserted] at hin
    exact hcleared hin
  | some new =>
    have hrows := (Services.insertRow_of_some hinserted).1
    have hids := (o.services.insertRow (s.files.update old.clear) row).1.ids
    rw [hrows] at hin hids
    rcases List.mem_cons.mp hin with rfl | hin
    · -- the cleared row has the id of the new one
      have hclear : old.clear ∈ (s.files.update old.clear).rows := (mem_cleared s.files.ids hmem).mpr (.inl rfl)
      exact (List.nodup_cons.mp hids).1 (List.mem_map.mpr ⟨old.clear, hclear, rfl⟩)
    · exact hcleared hin

/-- A next version that is not recorded: the former row is as it was, or its flag is cleared. -/
theorem nextVersion_left {old : FileEntity} (hmem : old ∈ s.files.rows) (row : FileColumns)
    (hinsert : ∀ t, exec o.handle t (await (.fileCreate row)) = (s', .error e) →
      s' = { t with files := (o.services.insertRow t.files row).1 })
    (h : exec o.handle s ((await (.fileSave old.clear)).bind fun _ => await (.fileCreate row)) = (s', .error e)) :
    o.services.answers (.fileSave old.clear) = none ∧ s' = s ∨
      (o.services.answers (.fileSave old.clear)).isSome = true ∧
        ∃ files, s' = { s with files } ∧
          (files = s.files.update old.clear ∨ files = (o.services.insertRow (s.files.update old.clear) row).1) := by
  rw [exec_bind, exec_command] at h
  cases hanswer : o.services.answers (.fileSave old.clear) with
  | none =>
    refine .inl ⟨rfl, ?_⟩
    have hrefused : o.services.handle s (.fileSave old.clear) = refused s "ECONNREFUSED" :=
      Services.handle_of_none rfl hanswer
    cases hlost : o.lost (.fileSave old.clear) with
    | some x =>
      rw [show o.handle s (.fileSave old.clear) = _ from lossy_of_some hlost _ s, hrefused] at h
      cases h
      rfl
    | none =>
      rw [show o.handle s (.fileSave old.clear) = _ from lossy_of_none hlost _ s, hrefused] at h
      cases h
      rfl
  | some text =>
    refine .inr ⟨rfl, ?_⟩
    have hsaved : o.services.handle s (.fileSave old.clear)
        = ({ s with files := s.files.update old.clear }, .ok old.clear) := by
      rw [Services.handle_of_some rfl (by simp) hanswer,
        ← s.files.save_of_mem hmem (show old.clear.id = old.id from rfl)]
      rfl
    cases hlost : o.lost (.fileSave old.clear) with
    | some x =>
      rw [show o.handle s (.fileSave old.clear) = _ from lossy_of_some hlost _ s, hsaved] at h
      cases h
      exact ⟨_, rfl, .inl rfl⟩
    | none =>
      rw [show o.handle s (.fileSave old.clear) = _ from lossy_of_none hlost _ s, hsaved] at h
      dsimp only at h
      have hleft := hinsert _ h
      exact ⟨_, hleft, .inr rfl⟩

/-- **The record of a version that throws** leaves the rows as they are if it writes none; else it leaves other rows of
the bucket. -/
theorem recordVersion_left (h : exec o.handle s (recordVersion bucket key file etag) = (s', .error e)) :
    ∃ files, s' = { s with files } ∧
      (¬ o.WritesRow s.files bucket file key etag → files = s.files) ∧
      (o.WritesRow s.files bucket file key etag →
        ∃ row, row.bucketId = bucket.id ∧ ¬ (row ∈ files.rows ↔ row ∈ s.files.rows)) := by
  unfold recordVersion at h
  have hfind : o.handle s (.fileFindOne (latestAt bucket key))
      = o.services.handle s (.fileFindOne (latestAt bucket key)) := rfl
  rw [bind_eq, exec_bind, exec_command, hfind, Services.handle_fileFindOne] at h
  cases hanswer : o.services.answers (.fileFindOne (latestAt bucket key)) with
  | none =>
    rw [hanswer] at h
    cases h
    refine ⟨s.files, rfl, fun _ => rfl, fun hwrites => ?_⟩
    have hsome := hwrites.1
    rw [hanswer] at hsome
    cases hsome
  | some text =>
    have hasked : (o.services.answers (.fileFindOne (latestAt bucket key))).isSome = true := by rw [hanswer]; rfl
    rw [hanswer] at h
    dsimp only at h
    rw [if_neg (by simp [latestAt])] at h
    cases hold : o.services.findOne s.files (latestAt bucket key) with
    | none =>
      rw [hold] at h
      exact ⟨_, insert_left 1 h, firstVersion_left hold hasked⟩
    | some old =>
      rw [hold] at h
      obtain ⟨hmem, hholds⟩ := o.services.findOne_eq_some hold
      have hbucket := (latestAt_holds.mp hholds).1
      have hwrites : o.WritesRow s.files bucket file key etag ↔
          (o.services.answers (.fileSave old.clear)).isSome = true := by
        unfold Outage.WritesRow
        rw [hold]
        exact and_iff_right hasked
      obtain ⟨hcleared, hinserted⟩ := old_not_mem hold (versionRow bucket file key etag (old.version + 1))
      rw [hwrites]
      rcases nextVersion_left hmem _ (fun t => insert_left (old.version + 1)) h with
        ⟨hrefused, hsame⟩ | ⟨hsaved, files, hleft, hfiles⟩
      · refine ⟨s.files, hsame, fun _ => rfl, fun hsome => ?_⟩
        rw [hrefused] at hsome
        cases hsome
      · have hnot : old ∉ files.rows := by
          rcases hfiles with rfl | rfl
          · exact hcleared
          · exact hinserted
        refine ⟨files, hleft, fun hunsaved => absurd hsaved hunsaved, fun _ => ⟨old, hbucket, fun hiff => ?_⟩⟩
        exact hnot (hiff.mpr hmem)

/-- The checks let the upload through. -/
structure Admitted (services : Services) (s : Stores) (userId : Option String) (bucketName : String)
    (sent : Option UploadedFile) (bucket : BucketEntity) (file : UploadedFile) : Prop where
  asked : (services.answers (.bucketFindByName bucketName)).isSome = true
  found : s.buckets.findByName bucketName = some bucket
  owner : userId = some bucket.userId
  sent : sent = some file
  fits : file.exceeds services.maxSizeMb = false

/-- The lookup returns a bucket of the caller, and changes nothing. -/
theorem exec_getBucketOrThrow_eq_ok {services : Services} {userId : Option String} {bucketName : String} :
    exec services.handle s (getBucketOrThrow userId bucketName true) = (s', .ok bucket) ↔
      s' = s ∧ (services.answers (.bucketFindByName bucketName)).isSome = true ∧
        s.buckets.findByName bucketName = some bucket ∧ userId = some bucket.userId := by
  cases hanswer : services.answers (.bucketFindByName bucketName) with
  | none =>
    unfold getBucketOrThrow
    rw [bind_eq, exec_bind, exec_command, Services.handle_of_none rfl hanswer]
    exact ⟨fun h => (by cases h), fun h => (by cases h.2.1)⟩
  | some text =>
    cases hfound : s.buckets.findByName bucketName with
    | none =>
      have hasked : services.handle s (.bucketFindByName bucketName) = (s, .ok (s.buckets.findByName bucketName)) :=
        Services.handle_of_some rfl (by simp) hanswer
      unfold getBucketOrThrow
      rw [bind_eq, exec_bind, exec_command, hasked, hfound]
      exact ⟨fun h => (by cases h), fun h => (by cases h.2.2.1)⟩
    | some b =>
      obtain ⟨-, rfl⟩ := s.buckets.findByName_eq_some hfound
      rw [services.exec_getBucketOrThrow hfound userId true, hanswer]
      dsimp only
      by_cases howner : some b.userId = userId
      · rw [if_pos (.inl howner)]
        constructor
        · intro h
          cases h
          exact ⟨rfl, rfl, rfl, howner.symm⟩
        · rintro ⟨rfl, -, hb, -⟩
          cases hb
          rfl
      · rw [if_neg fun h => howner (h.resolve_right fun h => by cases h.1)]
        refine ⟨fun h => (by cases h), fun h => ?_⟩
        cases h.2.2.1
        exact absurd h.2.2.2.symm howner

/-- What the checks return. -/
theorem admitted_iff {services : Services} {userId : Option String} {bucketName uuid chosen : String}
    {sent : Option UploadedFile} {given : Option String} :
    exec services.handle s (admitUpload userId bucketName sent given uuid) = (s, .ok (bucket, file, chosen)) ↔
      Admitted services s userId bucketName sent bucket file ∧ chosen = finalKey uuid given := by
  unfold admitUpload
  constructor
  · intro h
    obtain ⟨t, b, hbucket, hrest⟩ := exec_bind_ok services.handle h
    obtain ⟨rfl, hasked, hfound, howner⟩ := exec_getBucketOrThrow_eq_ok.mp hbucket
    rw [bind_eq, exec_bind, services.exec_getMaxFileSizeMb] at hrest
    cases sent with
    | none => cases hrest
    | some f =>
      change exec services.handle t (if f.exceeds services.maxSizeMb = true then _ else _) = _ at hrest
      by_cases hfits : f.exceeds services.maxSizeMb = true
      · rw [if_pos hfits] at hrest
        cases hrest
      · rw [if_neg hfits] at hrest
        cases hrest
        exact ⟨⟨hasked, hfound, howner, rfl, Bool.not_eq_true _ ▸ hfits⟩, rfl⟩
  · rintro ⟨h, rfl⟩
    rw [bind_eq, exec_bind, exec_getBucketOrThrow_eq_ok.mpr ⟨rfl, h.asked, h.found, h.owner⟩]
    dsimp only
    rw [bind_eq, exec_bind, services.exec_getMaxFileSizeMb, h.sent]
    show exec services.handle s (if file.exceeds services.maxSizeMb = true then _ else _) = _
    rw [h.fits]
    rfl

/-- MinIO has taken the object of the call, with this etag. -/
structure Taken (services : Services) (s : Stores) (userId : Option String) (bucketName : String)
    (sent : Option UploadedFile) (given : Option String) (uuid : String) (bucket : BucketEntity) (file : UploadedFile)
    (etag : String) : Prop where
  admitted : Admitted services s userId bucketName sent bucket file
  put : services.answers (.putObject bucket.name (finalKey uuid given) file.buffer file.mimetype) = some etag

/-- **What a call that throws leaves behind**: nothing, or the object and what the record of the version leaves. -/
theorem uploadFile_left {userId : Option String} {bucketName uuid : String} {sent : Option UploadedFile}
    {given : Option String} (h : exec o.handle s (uploadFile userId bucketName sent given uuid) = (s', .error e)) :
    s' = s ∧ (∀ bucket file etag, ¬ Taken o.services s userId bucketName sent given uuid bucket file etag) ∨
      ∃ bucket file etag files, Taken o.services s userId bucketName sent given uuid bucket file etag ∧
        s' = { s.setObject bucket.name (finalKey uuid given) (some (.put file.buffer file.mimetype)) with files } ∧
        (¬ o.WritesRow s.files bucket file (finalKey uuid given) etag → files = s.files) ∧
        (o.WritesRow s.files bucket file (finalKey uuid given) etag →
          ∃ row, row.bucketId = bucket.id ∧ ¬ (row ∈ files.rows ↔ row ∈ s.files.rows)) := by
  have hreads := Services.within_admitUpload userId bucketName sent given uuid
  rw [uploadFile_eq, exec_bind, o.exec_of_reads hreads] at h
  have hstate := o.services.exec_of_reads hreads s
  cases hcheck : exec o.services.handle s (admitUpload userId bucketName sent given uuid) with
  | mk t reply =>
    rw [hcheck] at h hstate
    cases hstate
    cases reply with
    | error x =>
      cases h
      refine .inl ⟨rfl, fun b f etag htaken => ?_⟩
      cases hcheck.symm.trans (admitted_iff.mpr ⟨htaken.admitted, rfl⟩)
    | ok admitted =>
      obtain ⟨b, f, chosen⟩ := admitted
      obtain ⟨hadmitted, rfl⟩ := admitted_iff.mp hcheck
      have hput : o.handle t (.putObject b.name (finalKey uuid given) f.buffer f.mimetype)
          = o.services.handle t (.putObject b.name (finalKey uuid given) f.buffer f.mimetype) := rfl
      dsimp only at h
      rw [storeFile_eq, exec_bind, exec_command, hput] at h
      cases hanswer : o.services.answers (.putObject b.name (finalKey uuid given) f.buffer f.mimetype) with
      | none =>
        rw [Services.handle_of_none rfl hanswer] at h
        cases h
        refine .inl ⟨rfl, fun b' f' etag htaken => ?_⟩
        cases hadmitted.found.symm.trans htaken.admitted.found
        cases hadmitted.sent.symm.trans htaken.admitted.sent
        cases hanswer.symm.trans htaken.put
      | some etag =>
        rw [Services.handle_of_some rfl (by simp) hanswer] at h
        dsimp only [execute] at h
        obtain ⟨files, hleft, hrows⟩ := recordVersion_left h
        exact .inr ⟨b, f, etag, files, ⟨hadmitted, hanswer⟩, hleft, hrows⟩

end Left

/-! ### Readers -/

/-- Nobody sees a difference between the two stores, by downloading or by listing. -/
structure Unseen (s s' : Stores) : Prop where
  downloads : ∀ (later : Services) (userId : Option String) (bucketName key : String) (version : Option IntNumber),
    (exec later.handle s' (downloadFile userId bucketName key version)).2
      = (exec later.handle s (downloadFile userId bucketName key version)).2
  listings : ∀ (later : Services) (userId : Option String) (bucketName : String) (page pageSize : ℕ),
    (exec later.handle s' (listFiles userId bucketName page pageSize)).2
      = (exec later.handle s (listFiles userId bucketName page pageSize)).2

section Readers

variable {s s' : Stores}

/-- The bucket a reader gets depends on the table of the buckets only. -/
theorem getBucketOrThrow_reply (later : Services) (userId : Option String) (bucketName : String) (checkOwner : Bool)
    (s : Stores) :
    ∃ reply, (∀ t : Stores, t.buckets = s.buckets →
        exec later.handle t (getBucketOrThrow userId bucketName checkOwner) = (t, reply)) ∧
      ∀ bucket, reply = .ok bucket → s.buckets.findByName bucketName = some bucket := by
  unfold getBucketOrThrow
  cases hanswer : later.answers (.bucketFindByName bucketName) with
  | none =>
    refine ⟨.error (.thrown "ECONNREFUSED"), fun t ht => ?_, fun bucket h => (by cases h)⟩
    rw [bind_eq, exec_bind, exec_command, Services.handle_of_none rfl hanswer]
    rfl
  | some text =>
    have hasked : ∀ t : Stores, t.buckets = s.buckets →
        later.handle t (.bucketFindByName bucketName) = (t, .ok (s.buckets.findByName bucketName)) := by
      intro t ht
      rw [← ht]
      exact Services.handle_of_some rfl (by simp) hanswer
    cases hfound : s.buckets.findByName bucketName with
    | none =>
      refine ⟨.error (.notFound "Bucket not found"), fun t ht => ?_, fun bucket h => (by cases h)⟩
      rw [bind_eq, exec_bind, exec_command, hasked t ht, hfound]
      rfl
    | some b =>
      by_cases hforbidden : checkOwner = true ∧ some b.userId ≠ userId ∨
          ¬ checkOwner = true ∧ ¬ b.isPublic = true ∧ some b.userId ≠ userId
      · refine ⟨.error (.forbidden "Access denied"), fun t ht => ?_, fun bucket h => (by cases h)⟩
        rw [bind_eq, exec_bind, exec_command, hasked t ht, hfound]
        dsimp only
        rcases hforbidden with hfirst | hsecond
        · rw [if_pos hfirst]
          rfl
        · rw [if_neg fun hfirst => hsecond.1 hfirst.1, if_pos hsecond]
          rfl
      · refine ⟨.ok b, fun t ht => ?_, fun bucket h => congrArg some (Except.ok.inj h)⟩
        rw [bind_eq, exec_bind, exec_command, hasked t ht, hfound]
        dsimp only
        rw [if_neg fun hfirst => hforbidden (.inl hfirst), if_neg fun hsecond => hforbidden (.inr hsecond)]
        rfl

/-- A listing depends on the two tables only. -/
theorem listFiles_congr (hbuckets : s'.buckets = s.buckets) (hfiles : s'.files = s.files) (later : Services)
    (userId : Option String) (bucketName : String) (page pageSize : ℕ) :
    (exec later.handle s' (listFiles userId bucketName page pageSize)).2
      = (exec later.handle s (listFiles userId bucketName page pageSize)).2 := by
  obtain ⟨reply, hreply, -⟩ := getBucketOrThrow_reply later userId bucketName true s
  unfold listFiles
  rw [bind_eq, exec_bind, hreply s' hbuckets, exec_bind, hreply s rfl]
  cases reply with
  | error x => rfl
  | ok bucket =>
    dsimp only
    rw [bind_eq, exec_bind, exec_command, exec_bind, exec_command]
    cases hanswer : later.answers (.fileFindAndCount bucket.id ((page - 1) * pageSize) pageSize) with
    | none =>
      rw [Services.handle_of_none rfl hanswer, Services.handle_of_none rfl hanswer]
      rfl
    | some text =>
      rw [Services.handle_of_some rfl (by simp) hanswer, Services.handle_of_some rfl (by simp) hanswer]
      dsimp only [execute]
      rw [hfiles]
      rfl

/-- A download depends on the two tables, and on the objects that have a row. -/
theorem downloadFile_congr {bucketName key : String} (hbuckets : s'.buckets = s.buckets) (hfiles : s'.files = s.files)
    (hobject : ∀ bucket, s.buckets.findByName bucketName = some bucket →
      (∃ row ∈ s.files.rows, row.bucketId = bucket.id ∧ row.key = key) →
        s'.object bucket.name key = s.object bucket.name key)
    (later : Services) (userId : Option String) (version : Option IntNumber) :
    (exec later.handle s' (downloadFile userId bucketName key version)).2
      = (exec later.handle s (downloadFile userId bucketName key version)).2 := by
  obtain ⟨reply, hreply, hfound⟩ := getBucketOrThrow_reply later userId bucketName false s
  unfold downloadFile
  rw [bind_eq, exec_bind, hreply s' hbuckets, exec_bind, hreply s rfl]
  cases reply with
  | error x => rfl
  | ok bucket =>
    dsimp only
    let criteria := DownloadCall.criteria bucket key ⟨userId, version, later⟩
    show (exec later.handle s' ((await (.fileFindOne criteria)).bind _)).2
      = (exec later.handle s ((await (.fileFindOne criteria)).bind _)).2
    rw [exec_bind, exec_command, exec_bind, exec_command, Services.handle_fileFindOne, Services.handle_fileFindOne,
      hfiles]
    cases later.answers (.fileFindOne criteria) with
    | none => rfl
    | some text =>
      dsimp only
      by_cases hnan : criteria.version = some .nan
      · rw [if_pos hnan, if_pos hnan]
        rfl
      · rw [if_neg hnan, if_neg hnan]
        dsimp only
        cases hrow : later.findOne s.files criteria with
        | none => rfl
        | some row =>
          obtain ⟨hmem, hholds⟩ := later.findOne_eq_some hrow
          obtain ⟨hb, hk, -⟩ := criteria_holds hholds
          have hsame := hobject bucket (hfound bucket rfl) ⟨row, hmem, hb, hk⟩
          dsimp only
          rw [bind_eq, exec_bind, exec_command, exec_bind, exec_command]
          cases hanswer : later.answers (.getObject bucket.name key) with
          | none =>
            rw [Services.handle_of_none rfl hanswer, Services.handle_of_none rfl hanswer]
            rfl
          | some text =>
            rw [Services.handle_of_some rfl (by simp) hanswer, Services.handle_of_some rfl (by simp) hanswer]
            dsimp only [execute]
            rw [hsame]
            cases s.object bucket.name key with
            | none => rfl
            | some object => rfl

/-- What is handed out is the object. -/
theorem object_of_download {later : Services} {bucket : BucketEntity} {userId : Option String} {key : String}
    {version : Option IntNumber} {content : Download} (hfound : s.buckets.findByName bucket.name = some bucket)
    (h : exec later.handle s (downloadFile userId bucket.name key version) = (s', .ok content)) :
    s.object bucket.name key = some content.stream := by
  obtain ⟨reply, hreply, hbucket⟩ := getBucketOrThrow_reply later userId bucket.name false s
  obtain ⟨s₁, b, hget, hrest⟩ := exec_bind_ok later.handle h
  rw [hreply s rfl] at hget
  cases hget
  cases hfound.symm.trans (hbucket b rfl)
  obtain ⟨s₂, record, hfile, hrest⟩ := exec_bind_ok later.handle hrest
  rw [exec_command] at hfile
  rw [findOne_of_isOk (by rw [hfile]; rfl)] at hfile
  cases hfile
  cases hrow : later.findOne s.files _ with
  | none =>
    rw [hrow] at hrest
    cases hrest
  | some row =>
    rw [hrow] at hrest
    obtain ⟨s₃, object, hobject, hrest⟩ := exec_bind_ok later.handle hrest
    cases hrest
    rw [exec_command] at hobject
    obtain ⟨text, htext⟩ := execute_of_isOk (by rw [hobject]; rfl) (by simp)
    rw [htext] at hobject
    dsimp only [execute] at hobject
    cases hstored : s.object bucket.name key with
    | none =>
      rw [hstored] at hobject
      cases hobject
    | some stored =>
      rw [hstored] at hobject
      cases hobject
      rfl

variable {bucket : BucketEntity}

/-- Services that answer. -/
def healthy : Services := ⟨fun _ => some "", .newest⟩

/-- The owner sees the rows of the bucket. -/
theorem Unseen.rows (h : Unseen s s') (hbuckets : s'.buckets = s.buckets)
    (hfound : s.buckets.findByName bucket.name = some bucket) {row : FileEntity} (hrow : row.bucketId = bucket.id) :
    row ∈ s'.files.rows ↔ row ∈ s.files.rows := by
  have hanswers : healthy.Answers := fun _ => rfl
  have hfound' : s'.buckets.findByName bucket.name = some bucket := by rw [hbuckets, hfound]
  have hlisted := h.listings healthy (some bucket.userId) bucket.name 1 (s.files.rows.length + s'.files.rows.length)
  rw [exec_listFiles hanswers hfound', exec_listFiles hanswers hfound, Except.ok.injEq, Page.mk.injEq] at hlisted
  have hpage := hlisted.1
  rw [Nat.sub_self, Nat.zero_mul, List.drop_zero, List.drop_zero,
    List.take_of_length_le ((List.length_filter_le _ _).trans (Nat.le_add_left _ _)),
    List.take_of_length_le ((List.length_filter_le _ _).trans (Nat.le_add_right _ _))] at hpage
  have hmem : row ∈ (s'.files.rows.filter fun f => decide (f.bucketId = bucket.id)) ↔
      row ∈ (s.files.rows.filter fun f => decide (f.bucketId = bucket.id)) := by rw [hpage]
  rwa [List.mem_filter, List.mem_filter, and_iff_left (decide_eq_true hrow), and_iff_left (decide_eq_true hrow)] at hmem

/-- The owner sees an object that has a row. -/
theorem Unseen.object (h : Unseen s s') (hbuckets : s'.buckets = s.buckets) (hfiles : s'.files = s.files)
    (hfound : s.buckets.findByName bucket.name = some bucket) {row : FileEntity} (hmem : row ∈ s.files.rows)
    (hrow : row.bucketId = bucket.id) {object : StoredObject} (hobject : s'.object bucket.name row.key = some object) :
    s.object bucket.name row.key = some object := by
  have hfound' : s'.buckets.findByName bucket.name = some bucket := by rw [hbuckets, hfound]
  have hcall : DownloadCall.Answered bucket row.key ⟨some bucket.userId, some (.int row.version), healthy⟩ :=
    ⟨.inl rfl, rfl, rfl, rfl⟩
  have hholds : (DownloadCall.criteria bucket row.key ⟨some bucket.userId, some (.int row.version), healthy⟩).holds row
      = true := by
    show (decide (row.bucketId = bucket.id) && decide (row.key = row.key)
      && decide (IntNumber.int row.version = .int row.version) && true) = true
    simp [hrow]
  cases hfind : healthy.findOne s.files
      (DownloadCall.criteria bucket row.key ⟨some bucket.userId, some (.int row.version), healthy⟩) with
  | none =>
    rw [healthy.findOne_eq_none hfind row hmem] at hholds
    cases hholds
  | some found =>
    have hreply := exec_downloadFile hfound' hcall (by rw [hfiles]; exact hfind) hobject
    exact object_of_download hfound (Prod.ext rfl ((h.downloads _ _ _ _ _).symm.trans hreply))

end Readers

/-! ### When a failure is not seen -/

/-- **The condition**: if MinIO has taken the object, no row is written, and the object was there already or no row
names its key. -/
def Spared (o : Outage) (s : Stores) (userId : Option String) (bucketName : String) (sent : Option UploadedFile)
    (given : Option String) (uuid : String) : Prop :=
  ∀ bucket file etag, Taken o.services s userId bucketName sent given uuid bucket file etag →
    ¬ o.WritesRow s.files bucket file (finalKey uuid given) etag ∧
      (s.object bucket.name (finalKey uuid given) = some (.put file.buffer file.mimetype) ∨
        ∀ row ∈ s.files.rows, ¬ (row.bucketId = bucket.id ∧ row.key = finalKey uuid given))

section Failure

variable {o : Outage} {s s' : Stores} {userId : Option String} {bucketName uuid : String} {sent : Option UploadedFile}
  {given : Option String} {bucket : BucketEntity} {file : UploadedFile} {etag : String} {files : FileTable}

/-- A call has one bucket and one file. -/
theorem Taken.unique (h : Taken o.services s userId bucketName sent given uuid bucket file etag)
    {bucket' : BucketEntity} {file' : UploadedFile} {etag' : String}
    (h' : Taken o.services s userId bucketName sent given uuid bucket' file' etag') :
    bucket' = bucket ∧ file' = file ∧ etag' = etag := by
  cases h.admitted.found.symm.trans h'.admitted.found
  cases h.admitted.sent.symm.trans h'.admitted.sent
  cases h.put.symm.trans h'.put
  exact ⟨rfl, rfl, rfl⟩

/-- An object that was there, or that no row names, is not seen. -/
theorem unseen_of_object (h : Taken o.services s userId bucketName sent given uuid bucket file etag)
    (hobject : s.object bucket.name (finalKey uuid given) = some (.put file.buffer file.mimetype) ∨
      ∀ row ∈ s.files.rows, ¬ (row.bucketId = bucket.id ∧ row.key = finalKey uuid given)) :
    Unseen s (s.setObject bucket.name (finalKey uuid given) (some (.put file.buffer file.mimetype))) := by
  have hbuckets : (s.setObject bucket.name (finalKey uuid given) (some (.put file.buffer file.mimetype))).buckets
      = s.buckets := rfl
  have hfiles : (s.setObject bucket.name (finalKey uuid given) (some (.put file.buffer file.mimetype))).files
      = s.files := rfl
  refine ⟨fun later reader name key version => ?_, fun later reader name page pageSize => ?_⟩
  swap
  · exact listFiles_congr hbuckets hfiles later reader name page pageSize
  refine downloadFile_congr hbuckets hfiles (fun b hb hnamed => ?_) later reader version
  obtain ⟨row, hrow, hid, hkey⟩ := hnamed
  by_cases hplace : (b.name, key) = (bucket.name, finalKey uuid given)
  · obtain ⟨hname, hkey'⟩ := Prod.mk.inj hplace
    have hbucket : b = bucket := s.buckets.eq_of_name (s.buckets.findByName_eq_some hb).1
      (s.buckets.findByName_eq_some h.admitted.found).1 hname
    rw [hkey', hname, setObject_object_self]
    rcases hobject with hsame | hnone
    · exact hsame.symm
    · exact absurd ⟨hbucket ▸ hid, hkey.trans hkey'⟩ (hnone row hrow)
  · exact setObject_object_of_ne s hplace _

/-- **When a failed upload is not seen.**  For every state of the rows and of MinIO, every call and every way in which
it throws: later downloads and listings reply as if the call had not been made iff MinIO has not taken the object, or no
row is written and the object was there already, or no row is written and none names the key. -/
theorem failed_upload_unseen_iff {e : Exception}
    (hthrows : exec o.handle s (uploadFile userId bucketName sent given uuid) = (s', .error e)) :
    Unseen s s' ↔ Spared o s userId bucketName sent given uuid := by
  rcases uploadFile_left hthrows with ⟨rfl, hnot⟩ | ⟨bucket, file, etag, files, htaken, rfl, hkept, hwritten⟩
  · refine ⟨fun _ bucket file etag htaken => absurd htaken (hnot bucket file etag), fun _ => ⟨?_, ?_⟩⟩
    · intro later reader name key version
      rfl
    · intro later reader name page pageSize
      rfl
  · obtain ⟨-, hname⟩ := s.buckets.findByName_eq_some htaken.admitted.found
    have hfound : s.buckets.findByName bucket.name = some bucket := by rw [hname, htaken.admitted.found]
    constructor
    · intro hunseen bucket' file' etag' htaken'
      obtain ⟨rfl, rfl, rfl⟩ := htaken.unique htaken'
      have hnot : ¬ o.WritesRow s.files bucket' file' (finalKey uuid given) etag' := by
        intro hwrites
        obtain ⟨row, hrow, hdiffers⟩ := hwritten hwrites
        exact hdiffers (hunseen.rows rfl hfound hrow)
      refine ⟨hnot, ?_⟩
      cases hkept hnot
      by_contra hboth
      obtain ⟨hobject, hrows⟩ := not_or.mp hboth
      refine hrows fun row hrow ⟨hid, hkey⟩ => hobject ?_
      rw [← hkey] at hunseen ⊢
      exact hunseen.object rfl rfl hfound hrow hid (setObject_object_self s bucket'.name row.key _)
    · intro hspared
      obtain ⟨hnot, hobject⟩ := hspared bucket file etag htaken
      cases hkept hnot
      exact unseen_of_object htaken hobject

end Failure

/-! ### A picture replaced -/

def pngRow : FileEntity :=
  { bucketId := "b-1", key := "a.png", size := 1, contentType := "image/png", etag := "etag-1", version := 1
    isLatest := true, id := "1" }

/-- The store with a picture. -/
def pngStore : Stores where
  buckets := ⟨[largeBucket "b-1"], List.nodup_singleton _, List.nodup_singleton _⟩
  files := ⟨[pngRow], List.nodup_singleton _⟩
  minioBuckets := ["photos"]
  objects := [⟨"photos", "a.png", .put [1] "image/png"⟩]
  sessions _ := none

/-- MinIO does not take the object. -/
def noPut : Command → Option String
  | .putObject _ _ _ _ => none
  | _ => some "2"

/-- Postgres does not take the new row. -/
def noInsert : Command → Option String
  | .fileCreate _ => none
  | _ => some "2"

/-- The picture is replaced by a larger one. -/
def pngUpload (answers : Command → Option String) : Stores × Except Exception FileEntity :=
  exec (Outage.mk ⟨answers, .newest⟩ false false).handle pngStore
    (uploadFile (some "user-1") "photos" (some ⟨[2, 3], "image/png"⟩) (some "a.png") "uuid")

def pngDownload (s : Stores) : Except Exception Download :=
  (exec healthy.handle s (downloadFile (some "user-1") "photos" "a.png" none)).2

/-- The rule when MinIO is away. -/
theorem failed_put_unseen :
    (pngUpload noPut).2 = .error (.thrown "ECONNREFUSED") ∧ Unseen pngStore (pngUpload noPut).1 := by
  have hfails : (pngUpload noPut).2 = .error (.thrown "ECONNREFUSED") := by decide +kernel
  have hthrows : exec (Outage.mk ⟨noPut, .newest⟩ false false).handle pngStore
      (uploadFile (some "user-1") "photos" (some ⟨[2, 3], "image/png"⟩) (some "a.png") "uuid")
        = ((pngUpload noPut).1, .error (.thrown "ECONNREFUSED")) := Prod.ext rfl hfails
  exact ⟨hfails, (failed_upload_unseen_iff hthrows).mpr fun bucket file etag htaken => by cases htaken.put⟩

/-- **The previous file is gone**: its flag is cleared, and the row that should replace it is not saved. -/
theorem failed_overwrite_seen :
    (pngUpload noInsert).2 = .error (.thrown "ECONNREFUSED") ∧
      pngDownload pngStore
        = .ok { stream := .put [1] "image/png", contentType := "image/png", size := 1, etag := "etag-1" } ∧
      pngDownload (pngUpload noInsert).1 = .error (.notFound "File not found") ∧
      ¬ Unseen pngStore (pngUpload noInsert).1 := by
  have hbefore : pngDownload pngStore
      = .ok { stream := .put [1] "image/png", contentType := "image/png", size := 1, etag := "etag-1" } := by
    decide +kernel
  have hafter : pngDownload (pngUpload noInsert).1 = .error (.notFound "File not found") := by decide +kernel
  refine ⟨by decide +kernel, hbefore, hafter, fun hunseen => ?_⟩
  have hsame : pngDownload (pngUpload noInsert).1 = pngDownload pngStore := hunseen.downloads _ _ _ _ _
  rw [hafter, hbefore] at hsame
  cases hsame

end EdgeSphere.Storage
