import EdgeSphere.Storage.Versions

/-!
# What a download returns

The rows of `files` keep every version, MinIO keeps the last object put under a key.  A history is a list
of uploads to one bucket and key by the bucket's owner, with whatever they meet; a download by version, or
of the latest, follows it.

* `Upload.stores` — the checks let the upload through, and MinIO takes its bytes;
* `Recorded` — the invariant: the object is that of the last upload that stores, and every row of the key
  is the row some upload of the history returned;
* `download_exact_iff` — **the exact condition**: the download is that of the upload whose row is found
  iff the last upload that stores sent the same bytes;
* `download_mixes_versions` — two uploads, and a download of the first.
-/

namespace EdgeSphere.Storage

open EdgeSphere.Library
open EdgeSphere.Library.Program
open EdgeSphere.Library.Runs

/-! ### One upload -/

/-- The size limit a call reads. -/
def Services.maxSizeMb (services : Services) : IntNumber :=
  match services.answers .maxFileSizeMb with
  | none => .int DEFAULT_MAX_FILE_SIZE_MB
  | some val => if val = "" then .int DEFAULT_MAX_FILE_SIZE_MB else parseInt val

/-- An upload of the history, and what it meets. -/
structure Upload where
  file : UploadedFile
  uuid : String
  services : Services

section History

variable (bucket : BucketEntity) (key : String)

/-- The checks let the upload through, and MinIO takes its bytes. -/
def Upload.stores (u : Upload) : Bool :=
  (u.services.answers (.bucketFindByName bucket.name)).isSome && !u.file.exceeds u.services.maxSizeMb
    && (u.services.answers (.putObject bucket.name key u.file.buffer u.file.mimetype)).isSome

/-- The upload, by the owner. -/
def Upload.step (s : Stores) (u : Upload) : Stores × Except Exception FileEntity :=
  exec u.services.handle s
    (uploadFile (some bucket.userId) bucket.name (some u.file) (some key) u.uuid)

/-- What `storeFile` does once MinIO has answered. -/
def recordVersion (file : UploadedFile) (etag : String) : StorageProgram FileEntity := do
  let existingFile : Option FileEntity ← await (.fileFindOne (latestAt bucket key))
  let version ← match existingFile with
    | none => pure 1
    | some existingFile => do
      let _ : FileEntity ← await (.fileSave existingFile.clear)
      pure (existingFile.version + 1)
  await (.fileCreate (versionRow bucket file key etag version))

theorem storeFile_eq (file : UploadedFile) : storeFile bucket file key
    = (await (.putObject bucket.name key file.buffer file.mimetype)).bind (recordVersion bucket key file) :=
  rfl

/-- Commands that touch neither MinIO nor the buckets. -/
def Aside (c : Command) : Prop := objectWritten c = none ∧ writesBuckets c = false

theorem within_recordVersion (file : UploadedFile) (etag : String) :
    (recordVersion bucket key file etag).Within Aside := by
  refine Within.bind (within_command ⟨rfl, rfl⟩) fun existingFile => ?_
  cases existingFile with
  | none => exact within_command ⟨rfl, rfl⟩
  | some existingFile =>
    exact Within.bind (within_command ⟨rfl, rfl⟩) fun _ => within_command ⟨rfl, rfl⟩

end History

namespace Services

variable (services : Services) (s : Stores)

/-- A command leaves the store alone, or is executed. -/
theorem handle_cases (c : Command) :
    (services.handle s c).1 = s ∨ ∃ text, (services.handle s c).1 = (execute text s c).1 := by
  cases c with
  | fileFindOne criteria =>
    refine Or.inl ?_
    rw [handle_fileFindOne]
    cases services.answers (.fileFindOne criteria) with
    | none => rfl
    | some text =>
      show (if _ then _ else _ : Stores × Except Exception (Option FileEntity)).1 = s
      split <;> rfl
  | _ =>
    rcases Storage.handle_cases services.answers s _ with hsame | ⟨text, htext⟩
    · exact Or.inl hsame
    · exact Or.inr ⟨text, congrArg Prod.fst htext⟩

/-- A program of commands that touch neither MinIO nor the buckets leaves both alone. -/
theorem exec_of_aside {α : Type} {p : StorageProgram α} (hp : p.Within Aside) (name key : String) :
    (exec services.handle s p).1.object name key = s.object name key ∧
      (exec services.handle s p).1.buckets = s.buckets := by
  have hkeep : ∀ t c, t.object name key = s.object name key ∧ t.buckets = s.buckets → Aside c →
      (services.handle t c).1.object name key = s.object name key ∧
        (services.handle t c).1.buckets = s.buckets := by
    intro t c ⟨hobject, hbuckets⟩ ⟨hnone, hfalse⟩
    rcases services.handle_cases t c with hsame | ⟨text, htext⟩
    · rw [hsame]
      exact ⟨hobject, hbuckets⟩
    · rw [htext, execute_buckets text hfalse]
      refine ⟨?_, hbuckets⟩
      by_contra hne
      have hwritten := (execute_object fun heq => hne (heq.trans hobject)).1
      rw [hnone] at hwritten
      cases hwritten
  have hobeys : p.Obeys (fun _ _ => True) Aside := hp.obeys
  exact (hobeys.exec (I := fun t : Stores => t.object name key = s.object name key ∧ t.buckets = s.buckets) hkeep
    (fun _ _ _ => trivial) ⟨rfl, rfl⟩).1

theorem exec_getMaxFileSizeMb :
    exec services.handle s (getMaxFileSizeMb DEFAULT_MAX_FILE_SIZE_MB) = (s, .ok services.maxSizeMb) := by
  have hask : services.handle s .maxFileSizeMb = match services.answers .maxFileSizeMb with
      | none => refused s "ECONNREFUSED"
      | some val => (s, .ok val) := rfl
  unfold getMaxFileSizeMb maxSizeMb
  rw [exec_catchAll, bind_eq, exec_bind, exec_command, hask]
  cases services.answers .maxFileSizeMb with
  | none => rfl
  | some val => rfl

variable {s} {bucket : BucketEntity}

theorem exec_bucketFindByName (h : s.buckets.findByName bucket.name = some bucket) :
    services.handle s (.bucketFindByName bucket.name)
      = match services.answers (.bucketFindByName bucket.name) with
        | none => refused s "ECONNREFUSED"
        | some _ => (s, .ok (some bucket)) := by
  rw [← h]
  rfl

/-- `getBucketOrThrow` finds the bucket and looks at the caller. -/
theorem exec_getBucketOrThrow (h : s.buckets.findByName bucket.name = some bucket)
    (userId : Option String) (checkOwner : Bool) :
    exec services.handle s (getBucketOrThrow userId bucket.name checkOwner)
      = match services.answers (.bucketFindByName bucket.name) with
        | none => (s, .error (.thrown "ECONNREFUSED"))
        | some _ =>
          if some bucket.userId = userId ∨ checkOwner = false ∧ bucket.isPublic = true then (s, .ok bucket)
          else (s, .error (.forbidden "Access denied")) := by
  unfold getBucketOrThrow
  rw [bind_eq, exec_bind, exec_command, services.exec_bucketFindByName h]
  cases services.answers (.bucketFindByName bucket.name) with
  | none => rfl
  | some text =>
    show exec services.handle s (if checkOwner = true ∧ some bucket.userId ≠ userId then _
      else if ¬ checkOwner = true ∧ ¬ bucket.isPublic = true ∧ some bucket.userId ≠ userId then _ else _) = _
    by_cases howner : some bucket.userId = userId
    · simp [howner]
    · cases checkOwner with
      | true => simp [howner]
      | false => cases hpublic : bucket.isPublic <;> simp [howner]

/-- The checks of an upload by the owner. -/
theorem exec_admitUpload (h : s.buckets.findByName bucket.name = some bucket) {key : String}
    (hkey : key ≠ "") (file : UploadedFile) (uuid : String) :
    (exec services.handle s
        (admitUpload (some bucket.userId) bucket.name (some file) (some key) uuid)).2.toOption
      = if (services.answers (.bucketFindByName bucket.name)).isSome = true ∧
            file.exceeds services.maxSizeMb = false
        then some (bucket, file, key) else none := by
  have hchosen : finalKey uuid (some key) = key := by
    unfold finalKey
    split
    · rename_i heq
      cases heq
    · rename_i heq
      exact absurd (Option.some.inj heq) hkey
    · rename_i heq
      exact (Option.some.inj heq).symm
  unfold admitUpload
  rw [bind_eq, exec_bind, services.exec_getBucketOrThrow h, hchosen]
  cases services.answers (.bucketFindByName bucket.name) with
  | none => rfl
  | some text =>
    rw [if_pos (Or.inl rfl)]
    show (exec services.handle s ((getMaxFileSizeMb DEFAULT_MAX_FILE_SIZE_MB).bind fun maxSizeMb =>
      if file.exceeds maxSizeMb = true then throw (tooLarge maxSizeMb) else ret (bucket, file, key))).2.toOption = _
    rw [exec_bind, services.exec_getMaxFileSizeMb]
    show (exec services.handle s (if _ then _ else _)).2.toOption = _
    cases file.exceeds services.maxSizeMb <;> rfl

/-- The rows after an `INSERT`. -/
theorem mem_insertRow {files : FileTable} {row : FileColumns} {f : FileEntity}
    (hf : f ∈ (services.insertRow files row).1.rows) :
    f ∈ files.rows ∨ (services.insertRow files row).2 = some f ∧ f.toFileColumns = row := by
  cases hinsert : (services.insertRow files row).2 with
  | none =>
    rw [insertRow_of_none hinsert] at hf
    exact Or.inl hf
  | some new =>
    obtain ⟨hrows, hnew⟩ := insertRow_of_some hinsert
    rw [hrows] at hf
    rcases List.mem_cons.mp hf with rfl | hf'
    · exact Or.inr ⟨rfl, hnew⟩
    · exact Or.inl hf'

/-- The rows after `storeFile`: former ones, one of them perhaps cleared, and the one it returns. -/
theorem mem_stored {files : FileTable} {file : UploadedFile} {key : String} {f : FileEntity}
    (hf : f ∈ (services.stored files bucket file key).1.rows) :
    f ∈ files.rows ∨ (∃ g ∈ files.rows, f = g.clear) ∨
      (services.stored files bucket file key).2 = some f ∧
        ∃ etag version, f.toFileColumns = versionRow bucket file key etag version := by
  unfold stored at hf ⊢
  split
  · rename_i etag text hput hfind
    simp only [hput, hfind] at hf
    cases hold : services.findOne files (latestAt bucket key) with
    | none =>
      simp only [hold] at hf
      rcases services.mem_insertRow hf with hf' | ⟨hreply, hcolumns⟩
      · exact Or.inl hf'
      · exact Or.inr (Or.inr ⟨hreply, etag, 1, hcolumns⟩)
    | some old =>
      simp only [hold] at hf ⊢
      split
      · rename_i hsave
        rw [if_pos hsave] at hf
        rcases services.mem_insertRow hf with hf' | ⟨hreply, hcolumns⟩
        · have hrow := (services.findOne_eq_some hold).1
          rcases (mem_cleared files.ids hrow).mp hf' with rfl | ⟨hf'', -⟩
          · exact Or.inr (Or.inl ⟨old, hrow, rfl⟩)
          · exact Or.inl hf''
        · exact Or.inr (Or.inr ⟨hreply, etag, old.version + 1, hcolumns⟩)
      · rename_i hsave
        rw [if_neg hsave] at hf
        exact Or.inl hf
  · rename_i hnone
    split at hf
    · rename_i etag text hput hfind
      exact absurd hfind (hnone etag text hput)
    · exact Or.inl hf

end Services

section History

variable {bucket : BucketEntity} {key : String}

/-- What an upload leaves behind. -/
structure Uploaded (bucket : BucketEntity) (key : String) (s : Stores) (u : Upload)
    (out : Stores × Except Exception FileEntity) : Prop where
  buckets : out.1.buckets = s.buckets
  object : out.1.object bucket.name key
    = if u.stores bucket key then some (.put u.file.buffer u.file.mimetype) else s.object bucket.name key
  rows : ∀ f ∈ out.1.files.rows, f ∈ s.files.rows ∨ (∃ g ∈ s.files.rows, f = g.clear) ∨
    out.2 = .ok f ∧ u.stores bucket key = true ∧
      ∃ etag version, f.toFileColumns = versionRow bucket u.file key etag version

theorem setObject_object_self (s : Stores) (name key : String) (object : StoredObject) :
    (s.setObject name key (some object)).object name key = some object := by
  unfold Stores.object Stores.setObject
  rw [List.find?_append]
  simp [ObjectEntry.isAt]

/-- An upload that has passed its checks. -/
theorem storeFile_spec (s : Stores) (u : Upload)
    (hchecks : (u.services.answers (.bucketFindByName bucket.name)).isSome = true ∧
      u.file.exceeds u.services.maxSizeMb = false) :
    Uploaded bucket key s u (exec u.services.handle s (storeFile bucket u.file key)) := by
  have hput : u.services.handle s (.putObject bucket.name key u.file.buffer u.file.mimetype)
      = match u.services.answers (.putObject bucket.name key u.file.buffer u.file.mimetype) with
        | none => refused s "ECONNREFUSED"
        | some etag =>
          (s.setObject bucket.name key (some (.put u.file.buffer u.file.mimetype)), .ok etag) := rfl
  have hrows := u.services.rowsAndReply_storeFile s bucket u.file key
  cases hanswer : u.services.answers (.putObject bucket.name key u.file.buffer u.file.mimetype) with
  | none =>
    have hnot : u.stores bucket key = false := by simp [Upload.stores, hanswer]
    rw [storeFile_eq, exec_bind, exec_command, hput, hanswer]
    refine ⟨rfl, ?_, fun f hf => Or.inl hf⟩
    rw [hnot]
    rfl
  | some etag =>
    have hstores : u.stores bucket key = true := by simp [Upload.stores, hanswer, hchecks]
    have hexec : exec u.services.handle s (storeFile bucket u.file key)
        = exec u.services.handle (s.setObject bucket.name key (some (.put u.file.buffer u.file.mimetype)))
            (recordVersion bucket key u.file etag) := by
      rw [storeFile_eq, exec_bind, exec_command, hput, hanswer]
    obtain ⟨hobject, hbuckets⟩ := u.services.exec_of_aside
      (s.setObject bucket.name key (some (.put u.file.buffer u.file.mimetype)))
      (within_recordVersion bucket key u.file etag) bucket.name key
    refine ⟨?_, ?_, fun f hf => ?_⟩
    · rw [hexec, hbuckets]
      rfl
    · rw [hexec, hobject, setObject_object_self, hstores]
      rfl
    · have hfiles : (exec u.services.handle s (storeFile bucket u.file key)).1.files
          = (u.services.stored s.files bucket u.file key).1 := congrArg Prod.fst hrows
      have hreply : (exec u.services.handle s (storeFile bucket u.file key)).2.toOption
          = (u.services.stored s.files bucket u.file key).2 := congrArg Prod.snd hrows
      rw [hfiles] at hf
      rcases u.services.mem_stored hf with hf' | hcleared | ⟨hsome, hcolumns⟩
      · exact Or.inl hf'
      · exact Or.inr (Or.inl hcleared)
      · refine Or.inr (Or.inr ⟨?_, hstores, hcolumns⟩)
        rw [hsome] at hreply
        cases hout : (exec u.services.handle s (storeFile bucket u.file key)).2 with
        | error e =>
          rw [hout] at hreply
          cases hreply
        | ok row =>
          rw [hout] at hreply
          exact congrArg Except.ok (Option.some.inj hreply)

/-- **One upload**, whatever it meets. -/
theorem upload_spec {s : Stores} (h : s.buckets.findByName bucket.name = some bucket) (hkey : key ≠ "")
    (u : Upload) : Uploaded bucket key s u (u.step bucket key s) := by
  have hstate := u.services.exec_of_reads
    (Services.within_admitUpload (some bucket.userId) bucket.name (some u.file) (some key) u.uuid) s
  have hadmitted := u.services.exec_admitUpload h hkey u.file u.uuid
  have hkept : ∀ e, u.stores bucket key = false → Uploaded bucket key s u (s, .error e) := by
    intro e hnot
    refine ⟨rfl, ?_, fun f hf => Or.inl hf⟩
    rw [if_neg (by rw [hnot]; decide)]
  unfold Upload.step
  rw [uploadFile_eq, exec_bind]
  cases hout : exec u.services.handle s
      (admitUpload (some bucket.userId) bucket.name (some u.file) (some key) u.uuid) with
  | mk s' r =>
    rw [hout] at hstate hadmitted
    have hs : s' = s := hstate
    rw [hs]
    cases r with
    | error e =>
      refine hkept e ?_
      unfold Upload.stores
      split at hadmitted
      · cases hadmitted
      · rename_i hrefused
        cases hbucket : (u.services.answers (.bucketFindByName bucket.name)).isSome with
        | false => rfl
        | true =>
          cases hsize : u.file.exceeds u.services.maxSizeMb with
          | true => rfl
          | false => exact absurd ⟨hbucket, hsize⟩ hrefused
    | ok admitted =>
      split at hadmitted
      · rename_i hchecks
        have hpassed : admitted = (bucket, u.file, key) := Option.some.inj hadmitted
        rw [hpassed]
        exact storeFile_spec s u hchecks
      · cases hadmitted

/-! ### A history of uploads -/

/-- The last upload whose bytes MinIO took. -/
def lastStored (bucket : BucketEntity) (key : String) (uploads : List Upload) : Option Upload :=
  (uploads.filter fun u => u.stores bucket key).getLast?

/-- The row is the one that the `i`-th upload returned, its flag perhaps cleared since. -/
structure MadeBy (bucket : BucketEntity) (key : String) (uploads : List Upload)
    (replies : List (Except Exception FileEntity)) (f : FileEntity) (u : Upload) (row : FileEntity) :
    Prop where
  reply : ∃ i : ℕ, uploads[i]? = some u ∧ replies[i]? = some (.ok row)
  same : f = row ∨ f = row.clear
  stores : u.stores bucket key = true
  columns : ∃ etag version, row.toFileColumns = versionRow bucket u.file key etag version

/-- What the store holds of a history. -/
structure Recorded (bucket : BucketEntity) (key : String) (s₀ : Stores) (uploads : List Upload)
    (out : Stores × List (Except Exception FileEntity)) : Prop where
  buckets : out.1.buckets = s₀.buckets
  object : out.1.object bucket.name key = match lastStored bucket key uploads with
    | some u => some (.put u.file.buffer u.file.mimetype)
    | none => s₀.object bucket.name key
  rows : ∀ f ∈ out.1.files.rows, f.bucketId = bucket.id → f.key = key →
    ∃ u row, MadeBy bucket key uploads out.2 f u row

/-- A longer history keeps what was made. -/
theorem MadeBy.snoc {uploads : List Upload} {replies : List (Except Exception FileEntity)}
    {f row : FileEntity} {u : Upload} (h : MadeBy bucket key uploads replies f u row) (v : Upload)
    (reply : Except Exception FileEntity) : MadeBy bucket key (uploads ++ [v]) (replies ++ [reply]) f u row := by
  obtain ⟨i, hupload, hreply⟩ := h.reply
  obtain ⟨hi, -⟩ := List.getElem?_eq_some_iff.mp hupload
  obtain ⟨hj, -⟩ := List.getElem?_eq_some_iff.mp hreply
  refine ⟨⟨i, ?_, ?_⟩, h.same, h.stores, h.columns⟩
  · rw [List.getElem?_append_left hi, hupload]
  · rw [List.getElem?_append_left hj, hreply]

theorem MadeBy.clear {uploads : List Upload} {replies : List (Except Exception FileEntity)}
    {f row : FileEntity} {u : Upload} (h : MadeBy bucket key uploads replies f u row) :
    MadeBy bucket key uploads replies f.clear u row := by
  refine ⟨h.reply, Or.inr ?_, h.stores, h.columns⟩
  rcases h.same with rfl | rfl
  · rfl
  · rfl

/-- **A history**: the object is that of the last upload, and every row of the key some upload's. -/
theorem recorded {s₀ : Stores} (h : s₀.buckets.findByName bucket.name = some bucket) (hkey : key ≠ "")
    (hnone : ∀ f ∈ s₀.files.rows, ¬ (f.bucketId = bucket.id ∧ f.key = key)) (uploads : List Upload) :
    Recorded bucket key s₀ uploads (runCalls (Upload.step bucket key) s₀ uploads) := by
  induction uploads using List.reverseRecOn with
  | nil => exact ⟨rfl, rfl, fun f hf hb hk => absurd ⟨hb, hk⟩ (hnone f hf)⟩
  | append_singleton uploads u ih =>
    have hlength := runCalls_length (Upload.step bucket key) s₀ uploads
    rw [runCalls_snoc]
    cases hrun : runCalls (Upload.step bucket key) s₀ uploads with
    | mk s replies =>
      rw [hrun] at ih hlength
      have hspec := upload_spec (by rw [ih.buckets]; exact h) hkey u
      refine ⟨hspec.buckets.trans ih.buckets, ?_, fun f hf hb hk => ?_⟩
      · refine hspec.object.trans ?_
        unfold lastStored
        rw [List.filter_append, List.filter_singleton]
        cases u.stores bucket key with
        | true => simp
        | false => simpa [lastStored] using ih.object
      · rcases hspec.rows f hf with hold | ⟨g, hg, rfl⟩ | ⟨hreply, hstores, hcolumns⟩
        · obtain ⟨v, row, hmade⟩ := ih.rows f hold hb hk
          exact ⟨v, row, hmade.snoc u _⟩
        · obtain ⟨v, row, hmade⟩ := ih.rows g hg hb hk
          exact ⟨v, row, (hmade.snoc u _).clear⟩
        · refine ⟨u, f, ⟨uploads.length, ?_, ?_⟩, Or.inl rfl, hstores, hcolumns⟩
          · exact List.getElem?_concat_length
          · rw [← hlength, ← hreply]
            exact List.getElem?_concat_length

/-! ### A download -/

/-- A download, and what it meets. -/
structure DownloadCall where
  userId : Option String
  version : Option IntNumber
  services : Services

/-- The row it asks for. -/
def DownloadCall.criteria (bucket : BucketEntity) (key : String) (d : DownloadCall) : FileWhere :=
  match d.version with
  | some version => { bucketId := bucket.id, key, version := some version }
  | none => latestAt bucket key

def DownloadCall.step (bucket : BucketEntity) (key : String) (s : Stores) (d : DownloadCall) :
    Stores × Except Exception Download :=
  exec d.services.handle s (downloadFile d.userId bucket.name key d.version)

/-- The caller may read the bucket, and nothing fails. -/
structure DownloadCall.Answered (bucket : BucketEntity) (key : String) (d : DownloadCall) : Prop where
  allowed : some bucket.userId = d.userId ∨ bucket.isPublic = true
  bucketFindByName : (d.services.answers (.bucketFindByName bucket.name)).isSome = true
  fileFindOne : (d.services.answers (.fileFindOne (d.criteria bucket key))).isSome = true
  getObject : (d.services.answers (.getObject bucket.name key)).isSome = true

/-- The content of an upload with its metadata: the row it returned. -/
def DownloadIs (u : Upload) (row : FileEntity) (reply : Except Exception Download) : Prop :=
  ∃ type, reply = .ok { stream := .put u.file.buffer type, contentType := u.file.mimetype
                        size := u.file.buffer.length, etag := row.etag }

theorem criteria_holds {d : DownloadCall} {f : FileEntity} (h : (d.criteria bucket key).holds f = true) :
    f.bucketId = bucket.id ∧ f.key = key ∧ (d.criteria bucket key).version ≠ some .nan := by
  unfold DownloadCall.criteria at h ⊢
  revert h
  cases d.version with
  | none =>
    intro h
    obtain ⟨hb, hk, -⟩ := latestAt_holds.mp h
    exact ⟨hb, hk, by simp [latestAt]⟩
  | some version =>
    intro h
    have hversion : (decide (f.bucketId = bucket.id) && decide (f.key = key)
        && decide (version = .int f.version) && true) = true := h
    simp only [Bool.and_true, Bool.and_eq_true, decide_eq_true_eq] at hversion
    obtain ⟨⟨hb, hk⟩, rfl⟩ := hversion
    exact ⟨hb, hk, by simp⟩

/-- A download hands out the object, with the columns of the row it finds. -/
theorem exec_downloadFile {s : Stores} (h : s.buckets.findByName bucket.name = some bucket)
    {d : DownloadCall} (hd : d.Answered bucket key) {f : FileEntity}
    (hf : d.services.findOne s.files (d.criteria bucket key) = some f) {object : StoredObject}
    (hobject : s.object bucket.name key = some object) :
    (d.step bucket key s).2
      = .ok { stream := object, contentType := f.contentType, size := f.size, etag := f.etag } := by
  obtain ⟨bucketText, hbucket⟩ := Option.isSome_iff_exists.mp hd.bucketFindByName
  obtain ⟨fileText, hfile⟩ := Option.isSome_iff_exists.mp hd.fileFindOne
  obtain ⟨objectText, hget⟩ := Option.isSome_iff_exists.mp hd.getObject
  have hallowed : some bucket.userId = d.userId ∨ false = false ∧ bucket.isPublic = true :=
    hd.allowed.imp_right fun hpublic => ⟨rfl, hpublic⟩
  have hnan := (criteria_holds (d.services.findOne_eq_some hf).2).2.2
  have hread : d.services.handle s (.getObject bucket.name key) = (s, .ok object) := by
    show Storage.handle d.services.answers s (.getObject bucket.name key) = _
    simp only [handle, Command.inMemory, Bool.false_eq_true, if_false, hget, execute, hobject]
  unfold DownloadCall.step downloadFile
  rw [bind_eq, exec_bind, d.services.exec_getBucketOrThrow h, hbucket]
  dsimp only
  rw [if_pos hallowed]
  show (exec d.services.handle s ((await (.fileFindOne (d.criteria bucket key))).bind _)).2 = _
  rw [exec_bind, exec_command, Services.handle_fileFindOne, hfile]
  simp only [if_neg hnan, hf]
  show (exec d.services.handle s ((await (.getObject bucket.name key)).bind _)).2 = _
  rw [exec_bind, exec_command, hread]
  rfl

/-- **What a download returns, after every history of uploads.**  Whatever was uploaded and whatever
failed: a download of a version that has a row, or of the latest, finds the row of some upload; its bytes,
size, content type and etag are that upload's iff the last upload whose bytes MinIO took sent the same
bytes. -/
theorem download_exact_iff {s₀ : Stores} (h : s₀.buckets.findByName bucket.name = some bucket)
    (hkey : key ≠ "") (hnone : ∀ f ∈ s₀.files.rows, ¬ (f.bucketId = bucket.id ∧ f.key = key))
    (uploads : List Upload) {d : DownloadCall} (hd : d.Answered bucket key)
    (hrow : ∃ f ∈ (runCalls (Upload.step bucket key) s₀ uploads).1.files.rows,
      (d.criteria bucket key).holds f = true) :
    ∃ f u row, (d.criteria bucket key).holds f = true ∧
      MadeBy bucket key uploads (runCalls (Upload.step bucket key) s₀ uploads).2 f u row ∧
      (DownloadIs u row (d.step bucket key (runCalls (Upload.step bucket key) s₀ uploads).1).2 ↔
        (lastStored bucket key uploads).map (fun last => last.file.buffer) = some u.file.buffer) := by
  have hrecorded := recorded h hkey hnone uploads
  cases hrun : runCalls (Upload.step bucket key) s₀ uploads with
  | mk s replies =>
    rw [hrun] at hrecorded hrow
    cases hf : d.services.findOne s.files (d.criteria bucket key) with
    | none =>
      obtain ⟨g, hg, hholds⟩ := hrow
      rw [d.services.findOne_eq_none hf g hg] at hholds
      cases hholds
    | some f =>
      obtain ⟨hmem, hholds⟩ := d.services.findOne_eq_some hf
      obtain ⟨hb, hk, -⟩ := criteria_holds hholds
      obtain ⟨u, row, hmade⟩ := hrecorded.rows f hmem hb hk
      refine ⟨f, u, row, hholds, hmade, ?_⟩
      obtain ⟨i, hupload, -⟩ := hmade.reply
      have hmem : u ∈ uploads.filter fun u => u.stores bucket key :=
        List.mem_filter.mpr ⟨List.mem_of_getElem? hupload, hmade.stores⟩
      obtain ⟨last, hlast⟩ : ∃ last, lastStored bucket key uploads = some last :=
        ⟨_, List.getLast?_eq_some_getLast (List.ne_nil_of_mem hmem)⟩
      have hobject := hrecorded.object
      rw [hlast] at hobject
      rw [exec_downloadFile (by rw [hrecorded.buckets]; exact h) hd hf hobject, hlast, Option.map_some,
        Option.some.injEq]
      obtain ⟨etag, version, hcolumns⟩ := hmade.columns
      have hf_columns : f.contentType = u.file.mimetype ∧ f.size = u.file.buffer.length ∧ f.etag = row.etag := by
        rcases hmade.same with rfl | rfl
        · exact ⟨by rw [hcolumns]; rfl, by rw [hcolumns]; rfl, rfl⟩
        · show row.contentType = _ ∧ row.size = _ ∧ row.etag = _
          exact ⟨by rw [hcolumns]; rfl, by rw [hcolumns]; rfl, rfl⟩
      constructor
      · intro ⟨type, heq⟩
        rw [Except.ok.injEq, Download.mk.injEq, StoredObject.put.injEq] at heq
        exact heq.1.1
      · intro hsame
        refine ⟨last.file.mimetype, ?_⟩
        rw [hf_columns.1, hf_columns.2.1, hf_columns.2.2, hsame]

end History

/-! ### Two versions -/

/-- The bucket of `ownedStore`. -/
def photos : BucketEntity :=
  { id := "b-1", userId := "user-1", name := "photos", region := "us-east-1", isPublic := false }

/-- Three bytes, then two others, under one key. -/
def twoUploads : List Upload :=
  [⟨⟨[1, 2, 3], "image/png"⟩, "uuid", ⟨fun _ => some "row-1", .newest⟩⟩,
    ⟨⟨[4, 5], "image/jpeg"⟩, "uuid", ⟨fun _ => some "row-2", .newest⟩⟩]

/-- The owner asks for the first version. -/
def firstVersion : DownloadCall := ⟨some "user-1", some (.int 1), ⟨fun _ => some "ok", .newest⟩⟩

/-- The rule at this history. -/
theorem download_exact_iff_two : ∃ f u row, (firstVersion.criteria photos "a.png").holds f = true ∧
    MadeBy photos "a.png" twoUploads (runCalls (Upload.step photos "a.png") ownedStore twoUploads).2 f u row ∧
    (DownloadIs u row (firstVersion.step photos "a.png"
        (runCalls (Upload.step photos "a.png") ownedStore twoUploads).1).2 ↔
      (lastStored photos "a.png" twoUploads).map (fun last => last.file.buffer) = some u.file.buffer) :=
  download_exact_iff (by decide +kernel) (by decide) (by decide) twoUploads
    ⟨Or.inl rfl, rfl, rfl, rfl⟩ (by decide +kernel)

/-- **The bytes of the second version**, with the length, the type and the etag of the first. -/
theorem download_mixes_versions :
    (firstVersion.step photos "a.png"
        (runCalls (Upload.step photos "a.png") ownedStore twoUploads).1).2
      = .ok { stream := .put [4, 5] "image/jpeg", contentType := "image/png", size := 3, etag := "row-1" } ∧
    ¬ ∃ f u row, (firstVersion.criteria photos "a.png").holds f = true ∧
      MadeBy photos "a.png" twoUploads (runCalls (Upload.step photos "a.png") ownedStore twoUploads).2 f u row ∧
      DownloadIs u row (firstVersion.step photos "a.png"
        (runCalls (Upload.step photos "a.png") ownedStore twoUploads).1).2 := by
  have hreply : (firstVersion.step photos "a.png"
        (runCalls (Upload.step photos "a.png") ownedStore twoUploads).1).2
      = .ok { stream := .put [4, 5] "image/jpeg", contentType := "image/png", size := 3, etag := "row-1" } := by
    decide +kernel
  refine ⟨hreply, fun ⟨f, u, row, _, _, type, hdownload⟩ => ?_⟩
  rw [hreply, Except.ok.injEq, Download.mk.injEq, StoredObject.put.injEq] at hdownload
  obtain ⟨⟨hbuffer, -⟩, -, hsize, -⟩ := hdownload
  rw [← hbuffer] at hsize
  exact absurd hsize (by decide +kernel)

end EdgeSphere.Storage
