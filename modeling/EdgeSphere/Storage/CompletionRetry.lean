import EdgeSphere.Storage.MultipartFiles

/-!
# Completing an upload again

`completeUpload` lets MinIO put the object together, saves the row, deletes the session and publishes an event, and
undoes none of this when a later step fails.  MinIO completes an upload once only, and the session is gone before the
event is sent.

* `Site`, `Attempt` — the stores with what MinIO remembers, and what the services do during one call;
* `Recovered` — a retry returns, and the two calls together have added one row;
* `completion_recovers_iff` — **the exact condition**: MinIO itself refused the first time, without having completed the
  upload before, and the size is an integer;
* `lost_event_loses_completion` — an event that Kafka does not take turns a finished upload into an error for good.
-/

namespace EdgeSphere.Storage

open EdgeSphere.Library
open EdgeSphere.Library.Program

/-! ### MinIO's memory -/

/-- The stores, and the uploads that MinIO has completed. -/
structure Site where
  stores : Stores
  finished : List String

/-- What the services do during one call: what they answer, and whether the database loses its answer to `save` when the
row is written already. -/
structure Attempt where
  answers : Command → Option String
  saveLost : Bool

/-- The upload that a command completes. -/
def Command.completes : Command → Option String
  | .completeMultipartUpload _ _ uploadId _ => some uploadId
  | _ => none

def Command.createsFile : Command → Bool
  | .fileCreate _ => true
  | _ => false

/-- Execute one command; MinIO does not complete an upload a second time. -/
def Attempt.handle (attempt : Attempt) (site : Site) (c : Command) : Site × Except Exception (Answer c) :=
  let (stores, answer) := Storage.handle attempt.answers site.stores c
  match c.completes with
  | some uploadId =>
    if uploadId ∈ site.finished then (site, .error (.thrown "NoSuchUpload"))
    else (⟨stores, if answer.isOk then uploadId :: site.finished else site.finished⟩, answer)
  | none =>
    (⟨stores, site.finished⟩,
      if c.createsFile && attempt.saveLost then .error (.thrown "Connection terminated unexpectedly") else answer)

def Site.setSession (site : Site) (uploadId : String) (session : Option UploadSession) : Site :=
  { site with stores := site.stores.setSession uploadId session }

@[simp] theorem Site.setSession_sessions (site : Site) (uploadId : String) (session : Option UploadSession) :
    (site.setSession uploadId session).stores.sessions uploadId = session :=
  Storage.setSession_sessions site.stores uploadId session

/-! ### The commands of `completeUpload` -/

/-- What MinIO is asked. -/
def UploadSession.completion (session : UploadSession) : Command :=
  .completeMultipartUpload session.bucketName session.key session.uploadId (partList (sortParts session.completedParts))

/-- The row that is saved. -/
def UploadSession.columns (session : UploadSession) : FileColumns :=
  { bucketId := session.bucketName, key := session.key, size := session.totalSize, contentType := session.contentType
    etag := "multipart-etag", version := 1, isLatest := true }

/-- The session with its parts in order. -/
def UploadSession.sorted (session : UploadSession) : UploadSession :=
  { session with completedParts := sortParts session.completedParts }

section Commands

variable (attempt : Attempt) (site : Site)

theorem Attempt.handle_sessionGet (uploadId : String) :
    attempt.handle site (.sessionGet uploadId) = (site, .ok (site.stores.sessions uploadId)) := rfl

theorem Attempt.handle_sessionSet (uploadId : String) (session : UploadSession) :
    attempt.handle site (.sessionSet uploadId session) = (site.setSession uploadId (some session), .ok ()) := rfl

theorem Attempt.handle_sessionDelete (uploadId : String) :
    attempt.handle site (.sessionDelete uploadId) = (site.setSession uploadId none, .ok ()) := rfl

/-- MinIO refuses, or completes the upload. -/
theorem Attempt.handle_complete (bucket key uploadId : String) (parts : List (IntNumber × String)) :
    ((uploadId ∈ site.finished ∨ attempt.answers (.completeMultipartUpload bucket key uploadId parts) = none) ∧
      ∃ e, attempt.handle site (.completeMultipartUpload bucket key uploadId parts) = (site, .error e)) ∨
    (uploadId ∉ site.finished ∧ attempt.answers (.completeMultipartUpload bucket key uploadId parts) ≠ none ∧
      attempt.handle site (.completeMultipartUpload bucket key uploadId parts) =
        (⟨site.stores.setObject bucket key (some (.assembled uploadId parts)), uploadId :: site.finished⟩,
          .ok ())) := by
  by_cases hfinished : uploadId ∈ site.finished
  · exact .inl ⟨.inl hfinished, _, if_pos hfinished⟩
  · cases hanswer : attempt.answers (.completeMultipartUpload bucket key uploadId parts) with
    | none =>
      refine .inl ⟨.inr rfl, .thrown "ECONNREFUSED", ?_⟩
      simp only [Attempt.handle, Command.completes, if_neg hfinished, Storage.handle, Command.inMemory, hanswer,
        refused]
      rfl
    | some text =>
      refine .inr ⟨hfinished, Option.some_ne_none text, ?_⟩
      simp only [Attempt.handle, Command.completes, if_neg hfinished, Storage.handle, Command.inMemory, hanswer,
        execute]
      rfl

/-- A save changes neither the sessions nor what MinIO remembers. -/
theorem Attempt.handle_create (row : FileColumns) :
    (attempt.handle site (.fileCreate row)).1.stores.sessions = site.stores.sessions ∧
      (attempt.handle site (.fileCreate row)).1.finished = site.finished := by
  refine ⟨?_, rfl⟩
  show (Storage.handle attempt.answers site.stores (.fileCreate row)).1.sessions = site.stores.sessions
  unfold Storage.handle
  rw [if_neg (show ¬ (Command.fileCreate row).inMemory = true from Bool.false_ne_true)]
  cases attempt.answers (.fileCreate row) with
  | none => rfl
  | some text =>
    unfold execute
    dsimp only
    by_cases hsize : row.size.den ≠ 1
    · rw [if_pos hsize]
      rfl
    · rw [if_neg hsize]
      cases site.stores.files.insert _ with
      | none => rfl
      | some files => rfl

/-- An event changes nothing. -/
theorem Attempt.handle_publish (type bucket key : String) (size : ℚ) :
    (attempt.handle site (.publishStorageEvent type bucket key size)).1 = site := by
  show Site.mk (Storage.handle attempt.answers site.stores (.publishStorageEvent type bucket key size)).1 site.finished
    = site
  unfold Storage.handle
  rw [if_neg (show ¬ (Command.publishStorageEvent type bucket key size).inMemory = true from Bool.false_ne_true)]
  cases attempt.answers (.publishStorageEvent type bucket key size) with
  | none => rfl
  | some text => rfl

end Commands

/-! ### One completion -/

/-- Every part has been uploaded once. -/
def UploadSession.AllUploaded (session : UploadSession) : Prop :=
  (session.completedParts.map UploadedPart.partNumber).Perm (partNumbers session.partCount)

theorem UploadSession.AllUploaded.length_eq {session : UploadSession} (h : session.AllUploaded) :
    session.completedParts.length = session.partCount := by
  have hlength := List.Perm.length_eq h
  rwa [List.length_map, length_partNumbers] at hlength

theorem UploadSession.AllUploaded.sorted {session : UploadSession} (h : session.AllUploaded) :
    session.sorted.AllUploaded :=
  ((sortParts_perm session.completedParts).map UploadedPart.partNumber).trans h

section Complete

variable {attempt : Attempt} {site : Site} {uploadId : String} {session : UploadSession}

/-- Without its session, an upload is not found. -/
theorem exec_completeUpload_of_none (hs : site.stores.sessions uploadId = none) (userId : String) :
    exec attempt.handle site (completeUpload uploadId userId)
      = (site, .error (.notFound "Upload session not found")) := by
  unfold completeUpload
  rw [bind_eq, exec_bind, exec_command, Attempt.handle_sessionGet, hs]
  rfl

/-- What follows the object: the row, the end of the session, the event. -/
def recordUpload (uploadId : String) (session : UploadSession) : StorageProgram FileEntity := do
  let savedFile : FileEntity ← await (.fileCreate session.columns)
  await (.sessionDelete uploadId)
  await (.publishStorageEvent "file.uploaded" session.bucketName session.key session.totalSize)
  return savedFile

/-- With every part there, the parts are put in order, MinIO is asked, and the file is recorded. -/
theorem exec_completeUpload_of_all (hs : site.stores.sessions uploadId = some session) (hall : session.AllUploaded)
    (userId : String) :
    exec attempt.handle site (completeUpload uploadId userId)
      = exec attempt.handle (site.setSession uploadId (some session.sorted))
          ((await session.completion).bind fun _ => recordUpload uploadId session) := by
  unfold completeUpload
  rw [bind_eq, exec_bind, exec_command, Attempt.handle_sessionGet, hs]
  dsimp only
  rw [if_neg (not_not.mpr hall.length_eq), bind_eq, exec_bind, exec_command, Attempt.handle_sessionSet]
  rfl

/-- **MinIO refuses**: only the order of the parts has changed. -/
theorem exec_completeUpload_of_refused (attempt : Attempt) (hs : site.stores.sessions uploadId = some session)
    (hall : session.AllUploaded)
    (hrefuses : session.uploadId ∈ site.finished ∨ attempt.answers session.completion = none) (userId : String) :
    ∃ e, exec attempt.handle site (completeUpload uploadId userId)
      = (site.setSession uploadId (some session.sorted), .error e) := by
  rcases attempt.handle_complete (site.setSession uploadId (some session.sorted)) session.bucketName session.key
    session.uploadId (partList (sortParts session.completedParts)) with ⟨-, e, hhandle⟩ | ⟨hfinished, hanswer, -⟩
  · refine ⟨e, ?_⟩
    rw [exec_completeUpload_of_all hs hall, exec_bind, exec_command,
      show attempt.handle _ session.completion = _ from hhandle]
  · rcases hrefuses with hin | hnone
    · exact absurd hin hfinished
    · exact absurd hnone hanswer

/-- The site after MinIO has completed the upload. -/
def Site.complete (site : Site) (uploadId : String) (session : UploadSession) : Site :=
  { stores := (site.stores.setSession uploadId (some session.sorted)).setObject session.bucketName session.key
      (some session.assembled)
    finished := session.uploadId :: site.finished }

/-- **MinIO completes the upload**; the rest is the record. -/
theorem exec_completeUpload_of_taken (hs : site.stores.sessions uploadId = some session) (hall : session.AllUploaded)
    (hnew : session.uploadId ∉ site.finished) (hanswer : attempt.answers session.completion ≠ none) (userId : String) :
    exec attempt.handle site (completeUpload uploadId userId)
      = exec attempt.handle (site.complete uploadId session) (recordUpload uploadId session) := by
  rcases attempt.handle_complete (site.setSession uploadId (some session.sorted)) session.bucketName session.key
    session.uploadId (partList (sortParts session.completedParts)) with ⟨hin | hnone, -⟩ | ⟨-, -, hhandle⟩
  · exact absurd hin hnew
  · exact absurd hnone hanswer
  · rw [exec_completeUpload_of_all hs hall, exec_bind, exec_command,
      show attempt.handle _ session.completion = _ from hhandle]
    rfl

/-- **A record that fails** leaves a session behind that is over for MinIO, or no session. -/
theorem recordUpload_of_error {left : Site} {e : Exception}
    (h : exec attempt.handle site (recordUpload uploadId session) = (left, .error e)) :
    left.finished = site.finished ∧
      (left.stores.sessions uploadId = site.stores.sessions uploadId ∨ left.stores.sessions uploadId = none) := by
  obtain ⟨hsessions, hfinished⟩ := attempt.handle_create site session.columns
  unfold recordUpload at h
  rw [bind_eq, exec_bind, exec_command] at h
  generalize attempt.handle site (.fileCreate session.columns) = created at h hsessions hfinished
  obtain ⟨site₁, answer | row⟩ := created
  · cases h
    exact ⟨hfinished, .inl (congrFun hsessions uploadId)⟩
  · dsimp only at h
    rw [bind_eq, exec_bind, exec_command, Attempt.handle_sessionDelete] at h
    dsimp only at h
    have hpublished := attempt.handle_publish (site₁.setSession uploadId none) "file.uploaded" session.bucketName
      session.key session.totalSize
    rw [bind_eq, exec_bind, exec_command] at h
    generalize attempt.handle (site₁.setSession uploadId none) _ = published at h hpublished
    obtain ⟨site₂, answer | _⟩ := published
    · cases h
      cases hpublished
      exact ⟨hfinished, .inr (Site.setSession_sessions site₁ uploadId none)⟩
    · cases h

/-- No service fails, and the database gives out an id that no row has. -/
structure Attempt.Healthy (attempt : Attempt) (site : Site) : Prop where
  answers : ∀ c, (attempt.answers c).isSome = true
  saves : attempt.saveLost = false
  fresh : ∀ row id, attempt.answers (.fileCreate row) = some id → id ∉ site.stores.files.rows.map FileEntity.id

/-- A size that is not an integer is refused. -/
theorem recordUpload_of_fraction (attempt : Attempt) (site : Site) (uploadId : String)
    (hsize : session.totalSize.den ≠ 1) :
    ∃ e, (exec attempt.handle site (recordUpload uploadId session)).2 = .error e := by
  have hrefused : ∃ e, (attempt.handle site (.fileCreate session.columns)).2 = .error e := by
    show ∃ e, (if attempt.saveLost = true then .error (.thrown "Connection terminated unexpectedly") else
      (Storage.handle attempt.answers site.stores (.fileCreate session.columns)).2) = .error e
    cases attempt.saveLost with
    | true => exact ⟨_, rfl⟩
    | false =>
      show ∃ e, (Storage.handle attempt.answers site.stores (.fileCreate session.columns)).2 = .error e
      unfold Storage.handle
      rw [if_neg (show ¬ (Command.fileCreate session.columns).inMemory = true from Bool.false_ne_true)]
      cases attempt.answers (.fileCreate session.columns) with
      | none => exact ⟨_, rfl⟩
      | some text => exact ⟨_, congrArg Prod.snd (if_pos hsize)⟩
  obtain ⟨e, hrefused⟩ := hrefused
  unfold recordUpload
  rw [bind_eq, exec_bind, exec_command]
  generalize attempt.handle site (.fileCreate session.columns) = created at hrefused
  obtain ⟨site₁, answer⟩ := created
  cases hrefused
  exact ⟨e, rfl⟩

/-- With healthy services the row is added. -/
theorem recordUpload_of_healthy (h : attempt.Healthy site) (uploadId : String) (hsize : session.totalSize.den = 1) :
    ∃ row after, exec attempt.handle site (recordUpload uploadId session) = (after, .ok row) ∧
      after.stores.files.rows = row :: site.stores.files.rows ∧ row.toFileColumns = session.columns := by
  obtain ⟨id, hid⟩ := Option.isSome_iff_exists.mp (h.answers (.fileCreate session.columns))
  have hfresh := h.fresh _ id hid
  obtain ⟨text, htext⟩ := Option.isSome_iff_exists.mp
    (h.answers (.publishStorageEvent "file.uploaded" session.bucketName session.key session.totalSize))
  have hinsert : site.stores.files.insert { session.columns with id := id } =
      some ⟨{ session.columns with id := id } :: site.stores.files.rows,
        List.nodup_cons.mpr ⟨hfresh, site.stores.files.ids⟩⟩ := dif_pos hfresh
  have hcreate : attempt.handle site (.fileCreate session.columns) =
      (⟨{ site.stores with files := ⟨{ session.columns with id := id } :: site.stores.files.rows,
          List.nodup_cons.mpr ⟨hfresh, site.stores.files.ids⟩⟩ }, site.finished⟩,
        .ok { session.columns with id := id }) := by
    have hnotfraction : ¬ session.columns.size.den ≠ 1 := not_not.mpr hsize
    simp only [Attempt.handle, Command.completes, Command.createsFile, h.saves, Storage.handle, Command.inMemory, hid,
      execute, if_neg hnotfraction, hinsert, Bool.and_false, Bool.false_eq_true, if_false]
  have hpublish : ∀ site' : Site, attempt.handle site'
      (.publishStorageEvent "file.uploaded" session.bucketName session.key session.totalSize) = (site', .ok ()) := by
    intro site'
    simp only [Attempt.handle, Command.completes, Command.createsFile, Storage.handle, Command.inMemory, htext, execute,
      Bool.false_and, Bool.false_eq_true, if_false]
  unfold recordUpload
  simp only [bind_eq, await, exec_bind, exec_command, hcreate, Attempt.handle_sessionDelete, hpublish]
  exact ⟨_, _, rfl, rfl, rfl⟩

end Complete

/-! ### A later completion -/

/-- Other requests leave the session and MinIO's upload as they are. -/
structure Elsewhere (uploadId : String) (session : UploadSession) (left between : Site) : Prop where
  sessions : between.stores.sessions uploadId = left.stores.sessions uploadId
  finished : session.uploadId ∈ between.finished ↔ session.uploadId ∈ left.finished

/-- The rows at the place of an upload. -/
def rowsFor (session : UploadSession) (site : Site) : ℕ :=
  site.stores.files.rows.countP fun f => decide (f.bucketId = session.bucketName) && decide (f.key = session.key)

/-- **A retry makes up for a failure**: it returns, and the two calls together have added one row for the upload. -/
structure Recovered (session : UploadSession) (before left between : Site)
    (retry : Site × Except Exception FileEntity) : Prop where
  returns : ∃ row, retry.2 = .ok row
  oneRow : (rowsFor session left - rowsFor session before) + (rowsFor session retry.1 - rowsFor session between) = 1

/-- A retry that rejects makes up for nothing. -/
theorem not_recovered {session : UploadSession} {before left between : Site}
    {retry : Site × Except Exception FileEntity} {e : Exception} (h : retry.2 = .error e) :
    ¬ Recovered session before left between retry := by
  intro hrecovered
  obtain ⟨row, hrow⟩ := hrecovered.returns
  cases h.symm.trans hrow

section Retry

variable {site left between : Site} {uploadId userId : String} {session : UploadSession} {first retry : Attempt}

/-- After MinIO has completed the upload, no retry returns. -/
theorem retry_rejects (hs : site.stores.sessions uploadId = some session) (hall : session.AllUploaded) {e : Exception}
    (hfailed : exec first.handle site (completeUpload uploadId userId) = (left, .error e))
    (hbetween : Elsewhere uploadId session left between)
    (htaken : ¬ (session.uploadId ∉ site.finished ∧ first.answers session.completion = none)) (user : String) :
    ∃ e, (exec retry.handle between (completeUpload uploadId user)).2 = .error e := by
  -- what the failed call has left of the session
  have hleft : session.uploadId ∈ left.finished ∧ left.stores.sessions uploadId = some session.sorted ∨
      left.stores.sessions uploadId = none := by
    by_cases hfinished : session.uploadId ∈ site.finished
    · obtain ⟨_, hrefused⟩ := exec_completeUpload_of_refused first hs hall (.inl hfinished) userId
      cases hrefused.symm.trans hfailed
      exact .inl ⟨hfinished, Site.setSession_sessions site uploadId _⟩
    · have hanswer : first.answers session.completion ≠ none := fun hnone => htaken ⟨hfinished, hnone⟩
      rw [exec_completeUpload_of_taken hs hall hfinished hanswer] at hfailed
      obtain ⟨hmemory, hsame | hgone⟩ := recordUpload_of_error hfailed
      · refine .inl ⟨?_, hsame.trans (Storage.setSession_sessions site.stores uploadId _)⟩
        rw [hmemory]
        exact List.mem_cons_self
      · exact .inr hgone
  rcases hleft with ⟨hfinished, hsession⟩ | hgone
  · obtain ⟨_, hrefused⟩ := exec_completeUpload_of_refused retry (hbetween.sessions.trans hsession) hall.sorted
      (.inl (hbetween.finished.mpr hfinished)) user
    exact ⟨_, congrArg Prod.snd hrefused⟩
  · exact ⟨_, congrArg Prod.snd (exec_completeUpload_of_none (hbetween.sessions.trans hgone) user)⟩

/-- **When a completion can be repeated.**  However the first call fails, and whatever other requests do meanwhile: with
healthy services a later call returns and leaves one row for the upload iff MinIO had not completed the upload, refused
it during the first call, and the size is an integer. -/
theorem completion_recovers_iff (hs : site.stores.sessions uploadId = some session) (hall : session.AllUploaded)
    {e : Exception} (hfailed : exec first.handle site (completeUpload uploadId userId) = (left, .error e))
    (hbetween : Elsewhere uploadId session left between) (hhealthy : retry.Healthy between) (user : String) :
    Recovered session site left between (exec retry.handle between (completeUpload uploadId user)) ↔
      session.uploadId ∉ site.finished ∧ first.answers session.completion = none ∧ session.totalSize.den = 1 := by
  by_cases htaken : session.uploadId ∉ site.finished ∧ first.answers session.completion = none
  · obtain ⟨hnew, hnone⟩ := htaken
    obtain ⟨_, hrefused⟩ := exec_completeUpload_of_refused first hs hall (.inr hnone) userId
    cases hrefused.symm.trans hfailed
    have hsession : between.stores.sessions uploadId = some session.sorted :=
      hbetween.sessions.trans (Site.setSession_sessions site uploadId _)
    have hopen : session.sorted.uploadId ∉ between.finished := fun hin => hnew (hbetween.finished.mp hin)
    have hanswer : retry.answers session.sorted.completion ≠ none :=
      Option.isSome_iff_ne_none.mp (hhealthy.answers _)
    rw [exec_completeUpload_of_taken hsession hall.sorted hopen hanswer]
    by_cases hsize : session.totalSize.den = 1
    · refine ⟨fun _ => ⟨hnew, hnone, hsize⟩, fun _ => ?_⟩
      have hready : retry.Healthy (between.complete uploadId session.sorted) :=
        ⟨hhealthy.answers, hhealthy.saves, hhealthy.fresh⟩
      have hsize' : session.sorted.totalSize.den = 1 := hsize
      obtain ⟨row, after, hreturns, hrows, hcolumns⟩ := recordUpload_of_healthy hready uploadId hsize'
      rw [hreturns]
      refine ⟨⟨row, rfl⟩, ?_⟩
      have hadded : rowsFor session after = rowsFor session between + 1 := by
        unfold rowsFor
        rw [hrows]
        refine List.countP_cons_of_pos ?_
        rw [hcolumns]
        exact Bool.and_eq_true_iff.mpr ⟨decide_eq_true rfl, decide_eq_true rfl⟩
      have hkept : rowsFor session (site.setSession uploadId (some session.sorted)) = rowsFor session site := rfl
      rw [hadded, hkept, Nat.sub_self, Nat.add_sub_cancel_left]
    · have hsize' : session.sorted.totalSize.den ≠ 1 := hsize
      obtain ⟨e, herror⟩ :=
        recordUpload_of_fraction retry (between.complete uploadId session.sorted) uploadId hsize'
      exact ⟨fun h => absurd h (not_recovered herror), fun h => absurd h.2.2 hsize⟩
  · obtain ⟨e, herror⟩ := retry_rejects hs hall hfailed hbetween htaken user
    exact ⟨fun h => absurd h (not_recovered herror), fun h => absurd ⟨h.1, h.2.1⟩ htaken⟩

end Retry

/-! ### A large picture -/

/-- The upload of a large picture, with its only part there. -/
def largeSite : Site := ⟨largeStore "photos", []⟩

/-- Services of which one may be away. -/
def without (away : Command → Bool) (id : String) : Attempt := ⟨fun c => if away c then none else some id, false⟩

def Command.completesUpload (c : Command) : Bool := c.completes.isSome

def Command.publishes : Command → Bool
  | .publishStorageEvent _ _ _ _ => true
  | _ => false

/-- The call and its retry. -/
def largeFailure (away : Command → Bool) : Site × Except Exception FileEntity :=
  exec (without away "row-1").handle largeSite (completeUpload "upload-1" "user-1")

def largeRetry (away : Command → Bool) : Site × Except Exception FileEntity :=
  exec (without (fun _ => false) "row-2").handle (largeFailure away).1 (completeUpload "upload-1" "user-1")

theorem large_allUploaded : largeSession.AllUploaded := List.Perm.refl [IntNumber.int 1]

theorem large_healthy (away : Command → Bool)
    (h : "row-2" ∉ (largeFailure away).1.stores.files.rows.map FileEntity.id) :
    (without (fun _ => false) "row-2").Healthy (largeFailure away).1 where
  answers _ := rfl
  saves := rfl
  fresh _ id hid := by
    cases hid
    exact h

/-- The rule when MinIO is away for a while. -/
theorem completion_recovers_large : ∃ e, (largeFailure Command.completesUpload).2 = .error e ∧
    Recovered largeSession largeSite (largeFailure Command.completesUpload).1 (largeFailure Command.completesUpload).1
      (largeRetry Command.completesUpload) := by
  have hfails : (largeFailure Command.completesUpload).2 = .error (.thrown "ECONNREFUSED") := by decide +kernel
  have hfailed : exec (without Command.completesUpload "row-1").handle largeSite (completeUpload "upload-1" "user-1")
      = ((largeFailure Command.completesUpload).1, .error (.thrown "ECONNREFUSED")) := Prod.ext rfl hfails
  refine ⟨_, hfails, ?_⟩
  exact (completion_recovers_iff rfl large_allUploaded hfailed ⟨rfl, Iff.rfl⟩
    (large_healthy Command.completesUpload (by decide +kernel)) "user-1").mpr
    ⟨List.not_mem_nil, rfl, rfl⟩

/-- **An event that Kafka does not take** turns a finished upload into an error for good: the row is there, and the
retry finds no session. -/
theorem lost_event_loses_completion :
    largeSession.AllUploaded ∧ (largeFailure Command.publishes).2 = .error (.thrown "ECONNREFUSED") ∧
      rowsFor largeSession (largeFailure Command.publishes).1 = 1 ∧
      (without (fun _ => false) "row-2").Healthy (largeFailure Command.publishes).1 ∧
      (largeRetry Command.publishes).2 = .error (.notFound "Upload session not found") ∧
      ¬ Recovered largeSession largeSite (largeFailure Command.publishes).1 (largeFailure Command.publishes).1
        (largeRetry Command.publishes) := by
  have hretry : (largeRetry Command.publishes).2 = .error (.notFound "Upload session not found") := by decide +kernel
  exact ⟨large_allUploaded, by decide +kernel, by decide +kernel,
    large_healthy Command.publishes (by decide +kernel), hretry, not_recovered hretry⟩

end EdgeSphere.Storage
