import EdgeSphere.Library.Runs
import EdgeSphere.Storage.Commands
import Mathlib.Data.List.Sort
import Mathlib.Data.List.Range

/-!
# Multipart uploads

The methods of `MultipartService` and what a sequence of part uploads leaves for `completeUpload`.

Every part that MinIO takes is appended to the record, whether or not the record holds that part
already, and `completeUpload` compares lengths only.

* `recordedParts` — the parts a sequence of requests appends;
* `Sound` — the record holds parts `1 .. partCount` only, the upload can be completed iff each of them has
  been uploaded, and MinIO is then handed each of them once, in order, with its latest etag;
* `multipart_sound_iff` — **the exact condition**: no part number is NaN, and fewer than `partCount` parts
  are recorded, or exactly that many and no number twice;
* `multipart_repeat_accepted` — a part sent twice stands in for one that is missing.
-/

namespace EdgeSphere.Storage

open EdgeSphere.Library
open EdgeSphere.Library.Program
open EdgeSphere.Library.Runs

/-! ### The service -/

/-- 5 MB. -/
def partSize : ℕ := 5 * 1024 * 1024

/-- `totalSize <= partSize ? 1 : Math.ceil(totalSize / partSize)`. -/
def partCountOf (totalSize : ℚ) : ℕ := if totalSize ≤ partSize then 1 else ⌈totalSize / partSize⌉.toNat

theorem partCountOf_pos (totalSize : ℚ) : 0 < partCountOf totalSize := by
  unfold partCountOf
  split
  · exact Nat.one_pos
  · rename_i hlarge
    have hpart : (0 : ℚ) < partSize := by norm_num [partSize]
    have hsize : 0 < totalSize / partSize := div_pos (hpart.trans (not_le.mp hlarge)) hpart
    have hceil : 0 < ⌈totalSize / partSize⌉ := Int.ceil_pos.mpr hsize
    omega

structure InitiateUploadResponse where
  uploadId : String
  partCount : ℕ
  partSize : ℕ
  expiresAt : ℕ
  deriving DecidableEq, Repr

/-- `MultipartService.initiateUpload`; `uploadId` is the fresh UUID and `now` the clock. -/
def initiateUpload (userId bucketName key contentType : String) (totalSize : ℚ) (uploadId : String)
    (now : ℕ) : StorageProgram InitiateUploadResponse := do
  let partCount := partCountOf totalSize
  let minioUploadId : String ← await (.initiateNewMultipartUpload bucketName key contentType)
  let expiresAt := now + 24 * 60 * 60 * 1000
  await (.sessionSet uploadId
    { uploadId := minioUploadId, internalUploadId := uploadId, bucketName, key, userId, contentType
      totalSize, partCount, partCount_pos := partCountOf_pos totalSize, completedParts := []
      expiresAt })
  return { uploadId, partCount, partSize, expiresAt }

structure UploadPartResponse where
  partNumber : IntNumber
  etag : String
  uploadedBytes : ℕ
  deriving DecidableEq, Repr

/-- `partNumber < 1 || partNumber > partCount`. -/
def invalidPart (partNumber : IntNumber) (partCount : ℕ) : Bool :=
  partNumber.lt (.int 1) || (IntNumber.int partCount).lt partNumber

/-- `MultipartService.uploadPart`. -/
def uploadPart (uploadId : String) (partNumber : IntNumber) (data : Data) :
    StorageProgram UploadPartResponse := do
  let found : Option UploadSession ← await (.sessionGet uploadId)
  match found with
  | none => throw (.notFound "Upload session not found")
  | some session =>
    if invalidPart partNumber session.partCount then throw (.badRequest "Invalid part number")
    else
      let etag : String ←
        await (.uploadPart session.bucketName session.key partNumber data session.uploadId)
      await (.sessionSet uploadId (session.push ⟨partNumber, etag, data.length⟩))
      return { partNumber, etag, uploadedBytes := data.length }

/-- The place of a number in the order of the parts.  With a NaN among them the comparator
`a.partNumber - b.partNumber` is inconsistent, and the order is up to the engine. -/
def rank : IntNumber → ℤ
  | .nan => 0
  | .int n => n

/-- `completedParts.sort((a, b) => a.partNumber - b.partNumber)`, which is stable. -/
def sortParts (parts : List UploadedPart) : List UploadedPart :=
  parts.insertionSort fun a b => rank a.partNumber ≤ rank b.partNumber

/-- The list MinIO is handed. -/
def partList (parts : List UploadedPart) : List (IntNumber × String) :=
  parts.map fun p => (p.partNumber, p.etag)

/-- `MultipartService.completeUpload`; the caller's id is not looked at. -/
def completeUpload (uploadId _userId : String) : StorageProgram FileEntity := do
  let found : Option UploadSession ← await (.sessionGet uploadId)
  match found with
  | none => throw (.notFound "Upload session not found")
  | some session =>
    if session.completedParts.length ≠ session.partCount then
      throw (.badRequest "Not all parts completed")
    else
      -- `sort` works in place
      let sortedParts := sortParts session.completedParts
      await (.sessionSet uploadId { session with completedParts := sortedParts })
      await (.completeMultipartUpload session.bucketName session.key session.uploadId
        (partList sortedParts))
      let savedFile : FileEntity ← await (.fileCreate
        { bucketId := session.bucketName, key := session.key, size := session.totalSize
          contentType := session.contentType, etag := "multipart-etag", version := 1
          isLatest := true })
      await (.sessionDelete uploadId)
      await (.publishStorageEvent "file.uploaded" session.bucketName session.key session.totalSize)
      return savedFile

/-- `MultipartService.abortUpload`. -/
def abortUpload (uploadId _userId : String) : StorageProgram Unit := do
  let found : Option UploadSession ← await (.sessionGet uploadId)
  match found with
  | none => return ()
  | some session =>
    await (.abortMultipartUpload session.bucketName session.key session.uploadId)
    await (.sessionDelete uploadId)

structure UploadStatus where
  uploadId : String
  key : String
  totalSize : ℚ
  completedParts : ℕ
  totalParts : ℕ
  progress : ℤ
  expiresAt : ℕ
  status : String
  deriving DecidableEq, Repr

/-- `MultipartService.getUploadStatus`; `Math.round` rounds halves up. -/
def getUploadStatus (uploadId _userId : String) : StorageProgram UploadStatus := do
  let found : Option UploadSession ← await (.sessionGet uploadId)
  match found with
  | none => throw (.notFound "Upload session not found")
  | some session =>
    let done := session.completedParts.length
    return {
      uploadId, key := session.key, totalSize := session.totalSize, completedParts := done
      totalParts := session.partCount, progress := ⌊(done : ℚ) / session.partCount * 100 + 1 / 2⌋
      expiresAt := session.expiresAt, status := "in_progress" }

/-! ### A sequence of part uploads -/

/-- `PUT :uploadId/parts/:partNumber`, and what the services answer meanwhile. -/
structure PartUpload where
  partNumber : String
  data : Data
  answers : Command → Option String

/-- `MultipartController.uploadPart`. -/
def PartUpload.serve (uploadId : String) (s : Stores) (upload : PartUpload) :
    Stores × Except Exception UploadPartResponse :=
  exec (handle upload.answers) s (uploadPart uploadId (parseInt upload.partNumber) upload.data)

/-- The store after a sequence of part uploads. -/
def uploadedStore (uploadId : String) (s : Stores) (uploads : List PartUpload) : Stores :=
  (runCalls (PartUpload.serve uploadId) s uploads).1

/-- The part a request records, if it passes the range check and MinIO takes it. -/
def recordedPart (session : UploadSession) (upload : PartUpload) : Option UploadedPart :=
  let partNumber := parseInt upload.partNumber
  if invalidPart partNumber session.partCount then none
  else (upload.answers (.uploadPart session.bucketName session.key partNumber upload.data
    session.uploadId)).map fun etag => ⟨partNumber, etag, upload.data.length⟩

def recordedParts (session : UploadSession) (uploads : List PartUpload) : List UploadedPart :=
  uploads.filterMap (recordedPart session)

theorem recordedParts_append (session : UploadSession) (done todo : List PartUpload) :
    recordedParts session (done ++ todo) = recordedParts session done ++ recordedParts session todo :=
  List.filterMap_append

@[simp] theorem setSession_sessions (s : Stores) (uploadId : String) (session : Option UploadSession) :
    (s.setSession uploadId session).sessions uploadId = session := Function.update_self _ _ _

/-- **One part upload** records its part, or leaves the store as it is. -/
theorem serve_fst {uploadId : String} {s : Stores} {session : UploadSession}
    (hs : s.sessions uploadId = some session) (upload : PartUpload) :
    (upload.serve uploadId s).1 = match recordedPart session upload with
      | some part => s.setSession uploadId (some (session.push part))
      | none => s := by
  unfold PartUpload.serve uploadPart recordedPart
  simp only [await, bind_eq, exec_bind, exec_command, handle, Command.inMemory, execute, if_true, hs]
  split
  · rfl
  · simp only [exec_bind, exec_command, handle, Command.inMemory, Bool.false_eq_true, if_false]
    cases upload.answers _ with
    | none => rfl
    | some etag => rfl

/-- **A sequence of part uploads** appends the recorded parts. -/
theorem uploadedStore_sessions {uploadId : String} {s : Stores} {session : UploadSession}
    (hs : s.sessions uploadId = some session) (uploads : List PartUpload) :
    (uploadedStore uploadId s uploads).sessions uploadId = some { session with
      completedParts := session.completedParts ++ recordedParts session uploads } := by
  induction uploads generalizing s session with
  | nil =>
    show s.sessions uploadId = _
    rw [hs, recordedParts, List.filterMap_nil, List.append_nil]
  | cons upload uploads ih =>
    show (uploadedStore uploadId (upload.serve uploadId s).1 uploads).sessions uploadId = _
    rw [serve_fst hs, recordedParts, List.filterMap_cons]
    cases recordedPart session upload with
    | none => exact ih hs
    | some part =>
      rw [ih (setSession_sessions s uploadId (some (session.push part)))]
      show some { session with completedParts := session.completedParts ++ [part] ++ _ } = _
      rw [List.append_assoc]
      rfl

/-- A recorded number is NaN or one of `1 .. partCount`. -/
theorem recordedPart_number {session : UploadSession} {upload : PartUpload} {part : UploadedPart}
    (h : recordedPart session upload = some part) :
    part.partNumber = .nan ∨ ∃ k : ℕ, 1 ≤ k ∧ k ≤ session.partCount ∧ part.partNumber = .int k := by
  simp only [recordedPart] at h
  split at h
  · cases h
  · rename_i hvalid
    obtain ⟨etag, -, rfl⟩ := Option.map_eq_some_iff.mp h
    rcases (IntNumber.in_range_iff _ _ _).mp (Bool.eq_false_iff.mpr hvalid) with hnan | ⟨n, hn, hlow, hhigh⟩
    · exact Or.inl hnan
    · refine Or.inr ⟨n.toNat, by omega, by omega, ?_⟩
      rw [hn, Int.toNat_of_nonneg (by omega)]

/-! ### Completing -/

/-- The list that `completeUpload` hands to MinIO, if it gets so far. -/
def handedParts (answers : Command → Option String) (s : Stores) (uploadId userId : String) :
    Option (List (IntNumber × String)) :=
  (trace (handle answers) s (completeUpload uploadId userId)).findSome? fun e =>
    match e.1 with
    | .completeMultipartUpload _ _ _ parts => some parts
    | _ => none

/-- Only the length counts. -/
theorem handedParts_eq {answers : Command → Option String} {s : Stores} {uploadId : String}
    {session : UploadSession} (hs : s.sessions uploadId = some session) (userId : String) :
    handedParts answers s uploadId userId = if session.completedParts.length = session.partCount
      then some (partList (sortParts session.completedParts)) else none := by
  unfold handedParts completeUpload
  simp only [await, bind_eq, trace_bind, trace_command, exec_command, handle, Command.inMemory, execute,
    if_true, hs, List.singleton_append, List.findSome?_cons]
  by_cases hlength : session.completedParts.length = session.partCount
  · rw [if_neg (not_not.mpr hlength), if_pos hlength]
    simp only [trace_bind, trace_command, exec_command, handle, Command.inMemory, execute, if_true,
      List.singleton_append, List.findSome?_cons]
  · rw [if_pos hlength, if_neg hlength]
    rfl

/-- The etag of the most recent upload of a part. -/
def latestEtag (parts : List UploadedPart) (partNumber : IntNumber) : Option String :=
  (parts.reverse.find? fun p => decide (p.partNumber = partNumber)).map UploadedPart.etag

/-- Every part from `1` to `n` has been uploaded. -/
def Covers (n : ℕ) (parts : List UploadedPart) : Prop :=
  ∀ k : ℕ, 1 ≤ k → k ≤ n → ∃ p ∈ parts, p.partNumber = .int k

/-- **What multipart uploads promise** of a store in which `parts` have been uploaded, out of
`partCount`. -/
structure Sound (s : Stores) (uploadId : String) (partCount : ℕ) (parts : List UploadedPart) : Prop where
  numbers : ∀ session, s.sessions uploadId = some session → ∀ p ∈ session.completedParts,
    ∃ k : ℕ, 1 ≤ k ∧ k ≤ partCount ∧ p.partNumber = .int k
  accepted : ∀ answers userId, (handedParts answers s uploadId userId).isSome = true ↔
    Covers partCount parts
  handed : ∀ answers userId list, handedParts answers s uploadId userId = some list →
    (list.map fun p => (p.1, some p.2))
      = (List.range' 1 partCount).map fun k : ℕ => (.int k, latestEtag parts (.int k))

/-! ### Counting part numbers -/

section Numbers

variable {n : ℕ} {parts : List UploadedPart}

/-- The part numbers of a complete upload. -/
def partNumbers (n : ℕ) : List IntNumber := (List.range' 1 n).map fun k : ℕ => .int k

theorem mem_partNumbers {x : IntNumber} :
    x ∈ partNumbers n ↔ ∃ k : ℕ, 1 ≤ k ∧ k ≤ n ∧ x = .int k := by
  simp only [partNumbers, List.mem_map, List.mem_range'_1]
  constructor
  · intro ⟨k, hk, hx⟩
    exact ⟨k, hk.1, by omega, hx.symm⟩
  · intro ⟨k, hlow, hhigh, hx⟩
    exact ⟨k, ⟨hlow, by omega⟩, hx.symm⟩

theorem partNumbers_nodup : (partNumbers n).Nodup := by
  refine List.Nodup.map (fun j k hjk => ?_) (List.nodup_range' 1)
  have hint := IntNumber.int.inj hjk
  omega

theorem length_partNumbers : (partNumbers n).length = n := by simp [partNumbers]

theorem covers_iff_subset : Covers n parts ↔ partNumbers n ⊆ parts.map UploadedPart.partNumber := by
  constructor
  · intro hcovers x hx
    obtain ⟨k, hlow, hhigh, rfl⟩ := mem_partNumbers.mp hx
    obtain ⟨p, hp, hnumber⟩ := hcovers k hlow hhigh
    exact List.mem_map.mpr ⟨p, hp, hnumber⟩
  · intro hsub k hlow hhigh
    obtain ⟨p, hp, hnumber⟩ := List.mem_map.mp (hsub (mem_partNumbers.mpr ⟨k, hlow, hhigh, rfl⟩))
    exact ⟨p, hp, hnumber⟩

/-- Fewer than `n` uploads do not cover `n` parts. -/
theorem le_length_of_covers (h : Covers n parts) : n ≤ parts.length := by
  have hle := (List.subperm_of_subset partNumbers_nodup (covers_iff_subset.mp h)).length_le
  rwa [length_partNumbers, List.length_map] at hle

/-- `n` uploads that cover `n` parts are these parts, in some order. -/
theorem perm_of_covers (h : Covers n parts) (hlength : parts.length ≤ n) :
    (parts.map UploadedPart.partNumber).Perm (partNumbers n) := by
  refine ((List.subperm_of_subset partNumbers_nodup (covers_iff_subset.mp h)).perm_of_length_le ?_).symm
  rwa [length_partNumbers, List.length_map]

/-- `n` uploads of different parts among `1 .. n` are all of them. -/
theorem perm_of_nodup (hrange : ∀ p ∈ parts, ∃ k : ℕ, 1 ≤ k ∧ k ≤ n ∧ p.partNumber = .int k)
    (hnodup : (parts.map UploadedPart.partNumber).Nodup) (hlength : parts.length = n) :
    (parts.map UploadedPart.partNumber).Perm (partNumbers n) := by
  refine (List.subperm_of_subset hnodup fun x hx => ?_).perm_of_length_le ?_
  · obtain ⟨p, hp, rfl⟩ := List.mem_map.mp hx
    exact mem_partNumbers.mpr (hrange p hp)
  · rw [length_partNumbers, List.length_map, hlength]

/-- Where no number comes twice, the only upload of a part is its latest. -/
theorem latestEtag_of_nodup (hnodup : (parts.map UploadedPart.partNumber).Nodup) {p : UploadedPart}
    (hp : p ∈ parts) : latestEtag parts p.partNumber = some p.etag := by
  unfold latestEtag
  cases hfind : parts.reverse.find? fun q => decide (q.partNumber = p.partNumber) with
  | none =>
    have hnone := List.find?_eq_none.mp hfind p (List.mem_reverse.mpr hp)
    exact absurd (decide_eq_true rfl) hnone
  | some q =>
    have hq := List.mem_reverse.mp (List.mem_of_find?_eq_some hfind)
    have hnumber : q.partNumber = p.partNumber := by simpa using List.find?_some hfind
    rw [List.inj_on_of_nodup_map hnodup hq hp hnumber]
    rfl

theorem sortParts_perm (parts : List UploadedPart) : (sortParts parts).Perm parts :=
  List.perm_insertionSort _ parts

/-- Sorting a complete upload puts the parts in their order. -/
theorem sortParts_numbers (hperm : (parts.map UploadedPart.partNumber).Perm (partNumbers n)) :
    (sortParts parts).map UploadedPart.partNumber = partNumbers n := by
  have hsorted : ((sortParts parts).map UploadedPart.partNumber).Pairwise fun a b => rank a ≤ rank b := by
    rw [List.pairwise_map]
    have : Std.Total fun a b : UploadedPart => rank a.partNumber ≤ rank b.partNumber :=
      ⟨fun a b => le_total _ _⟩
    have : IsTrans UploadedPart fun a b => rank a.partNumber ≤ rank b.partNumber :=
      ⟨fun a b c => le_trans⟩
    exact List.pairwise_insertionSort _ parts
  have hexpected : (partNumbers n).Pairwise fun a b => rank a ≤ rank b := by
    refine List.pairwise_map.mpr (List.Pairwise.imp ?_ (List.pairwise_le_range' 1))
    intro j k hjk
    show (j : ℤ) ≤ k
    omega
  have hsame := ((sortParts_perm parts).map UploadedPart.partNumber).trans hperm
  refine hsame.eq_of_pairwise ?_ hsorted hexpected
  intro a b ha hb hab hba
  obtain ⟨j, -, -, rfl⟩ := mem_partNumbers.mp (hsame.subset ha)
  obtain ⟨k, -, -, rfl⟩ := mem_partNumbers.mp hb
  exact congrArg IntNumber.int (le_antisymm hab hba)

/-- **What MinIO is handed** of a complete upload: each part once, in order, with its latest etag. -/
theorem partList_sortParts (hperm : (parts.map UploadedPart.partNumber).Perm (partNumbers n)) :
    ((partList (sortParts parts)).map fun p => (p.1, some p.2))
      = (List.range' 1 n).map fun k : ℕ => (.int k, latestEtag parts (.int k)) := by
  have hnodup := hperm.nodup_iff.mpr partNumbers_nodup
  calc ((partList (sortParts parts)).map fun p => (p.1, some p.2))
      = (sortParts parts).map fun p => (p.partNumber, some p.etag) := by
        rw [partList, List.map_map]
        rfl
    _ = (sortParts parts).map fun p => (p.partNumber, latestEtag parts p.partNumber) := by
        refine List.map_congr_left fun p hp => ?_
        rw [latestEtag_of_nodup hnodup ((sortParts_perm parts).subset hp)]
    _ = ((sortParts parts).map UploadedPart.partNumber).map fun x => (x, latestEtag parts x) := by
        rw [List.map_map]
        rfl
    _ = (List.range' 1 n).map fun k : ℕ => (.int k, latestEtag parts (.int k)) := by
        rw [sortParts_numbers hperm, partNumbers, List.map_map]
        rfl

end Numbers

/-! ### Soundness -/

/-- The condition on the uploads: no part number is NaN, and fewer than `partCount` parts are recorded,
or exactly that many and no number twice. -/
def OncePerPart (session : UploadSession) (uploads : List PartUpload) : Prop :=
  let parts := recordedParts session uploads
  (∀ p ∈ parts, p.partNumber ≠ .nan) ∧ (parts.length < session.partCount ∨
    parts.length = session.partCount ∧ (parts.map UploadedPart.partNumber).Nodup)

section Soundness

variable {uploadId : String} {s : Stores} {session : UploadSession}

theorem recordedParts_range {uploads : List PartUpload}
    (hnan : ∀ p ∈ recordedParts session uploads, p.partNumber ≠ .nan) :
    ∀ p ∈ recordedParts session uploads,
      ∃ k : ℕ, 1 ≤ k ∧ k ≤ session.partCount ∧ p.partNumber = .int k := by
  intro p hp
  obtain ⟨upload, -, hrecorded⟩ := List.mem_filterMap.mp hp
  exact (recordedPart_number hrecorded).resolve_left (hnan p hp)

/-- The condition passes to every earlier moment. -/
theorem OncePerPart.earlier {done todo : List PartUpload}
    (h : OncePerPart session (done ++ todo)) : OncePerPart session done := by
  obtain ⟨hnan, hcount⟩ := h
  rw [recordedParts_append] at hnan hcount
  refine ⟨fun p hp => hnan p (List.mem_append_left _ hp), ?_⟩
  rcases hcount with hshort | ⟨hfull, hnodup⟩
  · rw [List.length_append] at hshort
    exact Or.inl (by omega)
  · rw [List.length_append] at hfull
    rw [List.map_append] at hnodup
    rcases Nat.lt_or_ge (recordedParts session done).length session.partCount with hlt | hge
    · exact Or.inl hlt
    · exact Or.inr ⟨by omega, (List.nodup_append.mp hnodup).1⟩

/-- A new upload after a sequence of part uploads. -/
theorem uploadedStore_new (hs : s.sessions uploadId = some session)
    (hnew : session.completedParts = []) (uploads : List PartUpload) :
    (uploadedStore uploadId s uploads).sessions uploadId
      = some { session with completedParts := recordedParts session uploads } := by
  rw [uploadedStore_sessions hs, hnew, List.nil_append]

/-- It can be completed when its record has the right length. -/
theorem handedParts_isSome (hs : s.sessions uploadId = some session)
    (hnew : session.completedParts = []) (uploads : List PartUpload)
    (answers : Command → Option String) (userId : String) :
    (handedParts answers (uploadedStore uploadId s uploads) uploadId userId).isSome = true ↔
      (recordedParts session uploads).length = session.partCount := by
  rw [handedParts_eq (uploadedStore_new hs hnew uploads)]
  by_cases hfull : (recordedParts session uploads).length = session.partCount
  · rw [if_pos hfull]
    exact ⟨fun _ => hfull, fun _ => rfl⟩
  · rw [if_neg hfull]
    exact ⟨fun hsome => absurd hsome Bool.false_ne_true, fun h => absurd h hfull⟩

/-- Under the condition the store is sound. -/
theorem sound_of_oncePerPart (hs : s.sessions uploadId = some session)
    (hnew : session.completedParts = []) {uploads : List PartUpload}
    (h : OncePerPart session uploads) :
    Sound (uploadedStore uploadId s uploads) uploadId session.partCount
      (recordedParts session uploads) := by
  obtain ⟨hnan, hcount⟩ := h
  have hrange := recordedParts_range hnan
  have hsession := uploadedStore_new hs hnew uploads
  have hcovers : (recordedParts session uploads).length = session.partCount ↔
      Covers session.partCount (recordedParts session uploads) := by
    constructor
    · intro hfull
      have hnodup := (hcount.resolve_left (by omega)).2
      exact covers_iff_subset.mpr (perm_of_nodup hrange hnodup hfull).symm.subset
    · intro hall
      have hle := le_length_of_covers hall
      omega
  refine ⟨?_, ?_, ?_⟩
  · intro session' hs' p hp
    rw [hsession, Option.some.injEq] at hs'
    subst hs'
    exact hrange p hp
  · intro answers userId
    rw [handedParts_isSome hs hnew, hcovers]
  · intro answers userId list hlist
    have hfull := (handedParts_isSome hs hnew uploads answers userId).mp (by rw [hlist]; rfl)
    rw [handedParts_eq hsession, if_pos hfull] at hlist
    cases hlist
    exact partList_sortParts (perm_of_nodup hrange (hcount.resolve_left (by omega)).2 hfull)

/-- A sequence that records at least `n` parts has a beginning that records exactly `n`. -/
theorem exists_prefix_recorded {n : ℕ} {uploads : List PartUpload}
    (h : n ≤ (recordedParts session uploads).length) :
    ∃ done todo, uploads = done ++ todo ∧ (recordedParts session done).length = n := by
  induction uploads using List.reverseRecOn with
  | nil => exact ⟨[], [], rfl, (Nat.le_zero.mp h).symm⟩
  | append_singleton uploads upload ih =>
    rcases Nat.lt_or_ge (recordedParts session uploads).length n with hlt | hge
    · refine ⟨uploads ++ [upload], [], (List.append_nil _).symm, ?_⟩
      have hone : (recordedParts session [upload]).length ≤ 1 := List.length_filterMap_le _ _
      rw [recordedParts_append, List.length_append] at h ⊢
      omega
    · obtain ⟨done, todo, hsplit, hlength⟩ := ih hge
      exact ⟨done, todo ++ [upload], by rw [hsplit, List.append_assoc], hlength⟩

/-- In a sound store the record that is full holds every part once. -/
theorem Sound.full (hs : s.sessions uploadId = some session) (hnew : session.completedParts = [])
    {uploads : List PartUpload} (h : Sound (uploadedStore uploadId s uploads) uploadId session.partCount
      (recordedParts session uploads)) :
    (recordedParts session uploads).length = session.partCount ↔
      Covers session.partCount (recordedParts session uploads) := by
  rw [← h.accepted (fun _ => none) "", handedParts_isSome hs hnew]

/-- **When multipart uploads keep their promise.**  From a new upload on, the store is sound after every
part upload of a sequence iff no recorded number is NaN, and fewer than `partCount` parts are recorded,
or exactly that many and no number twice. -/
theorem multipart_sound_iff (hs : s.sessions uploadId = some session)
    (hnew : session.completedParts = []) (uploads : List PartUpload) :
    (∀ done todo, uploads = done ++ todo →
        Sound (uploadedStore uploadId s done) uploadId session.partCount (recordedParts session done)) ↔
      OncePerPart session uploads := by
  constructor
  · intro hsound
    have hend := hsound uploads [] (List.append_nil _).symm
    have hsession := uploadedStore_new hs hnew uploads
    refine ⟨?_, ?_⟩
    · intro p hp hnan
      obtain ⟨k, -, -, hint⟩ := hend.numbers _ hsession p hp
      rw [hnan] at hint
      cases hint
    · rcases Nat.lt_or_ge (recordedParts session uploads).length session.partCount with hlt | hge
      · exact Or.inl hlt
      · -- the record was full once, and held every part then
        obtain ⟨done, todo, hsplit, hfull⟩ := exists_prefix_recorded hge
        have hcovers := ((hsound done todo hsplit).full hs hnew).mp hfull
        have hmore : Covers session.partCount (recordedParts session uploads) := by
          intro k hlow hhigh
          obtain ⟨p, hp, hnumber⟩ := hcovers k hlow hhigh
          rw [hsplit, recordedParts_append]
          exact ⟨p, List.mem_append_left _ hp, hnumber⟩
        have hlength := (hend.full hs hnew).mpr hmore
        have hperm := perm_of_covers hmore (le_of_eq hlength)
        exact Or.inr ⟨hlength, hperm.nodup_iff.mpr partNumbers_nodup⟩
  · intro honce done todo hsplit
    subst hsplit
    exact sound_of_oncePerPart hs hnew honce.earlier

end Soundness

/-! ### Two parts -/

/-- An upload of two parts, just begun. -/
def twoParts : UploadSession :=
  { uploadId := "minio-1", internalUploadId := "upload-1", bucketName := "photos", key := "a.png"
    userId := "anonymous", contentType := "image/png", totalSize := 6000000, partCount := 2
    partCount_pos := by decide, completedParts := [], expiresAt := 86400000 }

def twoPartsStore : Stores :=
  { buckets := ⟨[], by decide, by decide⟩, files := ⟨[], List.nodup_nil⟩, minioBuckets := ["photos"]
    objects := [], sessions := fun uploadId => if uploadId = "upload-1" then some twoParts else none }

/-- A part that MinIO takes. -/
def taken (partNumber etag : String) : PartUpload := ⟨partNumber, [], fun _ => some etag⟩

/-- **A part sent twice stands in for one that is missing.**  Part 1 is sent again after a lost reply, and
the upload is completed from two copies of it. -/
theorem multipart_repeat_accepted :
    handedParts (fun _ => some "") (uploadedStore "upload-1" twoPartsStore [taken "1" "a", taken "1" "b"])
        "upload-1" "anonymous" = some [(.int 1, "a"), (.int 1, "b")] ∧
      ¬ Sound (uploadedStore "upload-1" twoPartsStore [taken "1" "a", taken "1" "b"]) "upload-1" 2
        (recordedParts twoParts [taken "1" "a", taken "1" "b"]) := by
  have hhanded : handedParts (fun _ => some "")
      (uploadedStore "upload-1" twoPartsStore [taken "1" "a", taken "1" "b"]) "upload-1" "anonymous"
        = some [(.int 1, "a"), (.int 1, "b")] := by decide +kernel
  refine ⟨hhanded, fun hsound => ?_⟩
  have hcovers := (hsound.accepted (fun _ => some "") "anonymous").mp (by rw [hhanded]; rfl)
  obtain ⟨p, hp, hnumber⟩ := hcovers 2 (by omega) (le_refl 2)
  revert p
  decide +kernel

theorem multipart_sound_two_parts :
    Sound (uploadedStore "upload-1" twoPartsStore [taken "2" "a", taken "1" "b"]) "upload-1" 2
      (recordedParts twoParts [taken "2" "a", taken "1" "b"]) := by
  have honce : OncePerPart twoParts [taken "2" "a", taken "1" "b"] := by
    unfold OncePerPart
    decide +kernel
  have hs : twoPartsStore.sessions "upload-1" = some twoParts := by
    show (if "upload-1" = "upload-1" then some twoParts else none) = some twoParts
    exact if_pos rfl
  exact (multipart_sound_iff hs rfl _).mpr honce _ [] (List.append_nil _).symm

end EdgeSphere.Storage
