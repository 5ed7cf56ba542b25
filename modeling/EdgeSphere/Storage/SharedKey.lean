import EdgeSphere.Storage.Downloads
import EdgeSphere.Library.Exclusion
import Mathlib.Data.Fintype.Basic

/-!
# Uploads and deletions that share a key

Calls of `uploadFile` and `deleteFile` by the owner of a bucket, all on one key, interleaved command by command.
Nothing keeps one call out while another is between its first and its last command on the object and the rows.

* `Consistent` — the rows of the key agree with each other and with the object; `Coherent` says besides that the
  latest row is the greatest version, which is what an upload relies on;
* `inside`, `InTurn` — a call that has begun to write, and the condition on a step: a call begins when no other call
  is inside, and a deletion finds one row at most;
* `consistent_of_turns` — **whenever nobody is inside, the key is consistent**, in every run whose steps meet it.
-/

namespace EdgeSphere.Storage

open EdgeSphere.Library
open EdgeSphere.Library.Program
open EdgeSphere.Library.Runs

/-! ### Rows and object -/

/-- What MinIO reports of an object. -/
structure Minio where
  etag : StoredObject → String
  size : StoredObject → ℚ
  size_put : ∀ data contentType, size (.put data contentType) = data.length

section Key

variable (minio : Minio) (bucket : BucketEntity) (key : String)

def rowsAt (files : FileTable) : List FileEntity := files.rows.filter (anyAt bucket key).holds

/-- The etag and the size of the row are those of the object. -/
def Describes (row : FileEntity) (s : Stores) : Prop :=
  ∃ object, s.object bucket.name key = some object ∧ row.etag = minio.etag object ∧ row.size = minio.size object

/-- Neither row nor object; or the versions are distinct, exactly one row is latest, and it describes the object. -/
def Consistent (s : Stores) : Prop :=
  rowsAt bucket key s.files = [] ∧ s.object bucket.name key = none ∨
    ((rowsAt bucket key s.files).map fun f => f.version).Nodup ∧
      ∃ row, (rowsAt bucket key s.files).filter (fun f => f.isLatest) = [row] ∧ Describes minio bucket key row s

/-- The same, and the latest row is the greatest version. -/
def Coherent (s : Stores) : Prop :=
  Versioned (rowsAt bucket key s.files) ∧
    (rowsAt bucket key s.files = [] ∧ s.object bucket.name key = none ∨
      ∃ row ∈ rowsAt bucket key s.files, row.isLatest = true ∧ Describes minio bucket key row s)

variable {minio bucket key}

theorem mem_rowsAt {files : FileTable} {f : FileEntity} :
    f ∈ rowsAt bucket key files ↔ f ∈ files.rows ∧ f.bucketId = bucket.id ∧ f.key = key := by
  unfold rowsAt
  rw [List.mem_filter, anyAt_holds]

theorem rowsAt_sameObject {files : FileTable} {f g : FileEntity} (hf : f ∈ rowsAt bucket key files)
    (hg : g ∈ rowsAt bucket key files) : f.sameObject g := by
  obtain ⟨-, hfb, hfk⟩ := mem_rowsAt.mp hf
  obtain ⟨-, hgb, hgk⟩ := mem_rowsAt.mp hg
  exact ⟨hfb.trans hgb.symm, hfk.trans hgk.symm⟩

theorem rowsAt_ids (files : FileTable) : ((rowsAt bucket key files).map FileEntity.id).Nodup :=
  files.ids.sublist (List.filter_sublist.map _)

/-- A list without repetitions whose elements are all the same. -/
theorem eq_singleton_of_nodup {α : Type*} {l : List α} {a : α} (hnodup : l.Nodup) (ha : a ∈ l)
    (hall : ∀ b ∈ l, b = a) : l = [a] := by
  cases l with
  | nil => cases ha
  | cons b l =>
    obtain rfl := hall b List.mem_cons_self
    cases l with
    | nil => rfl
    | cons c l =>
      obtain rfl := hall c (List.mem_cons_of_mem _ List.mem_cons_self)
      exact absurd List.mem_cons_self (List.nodup_cons.mp hnodup).1

theorem Coherent.consistent {s : Stores} (h : Coherent minio bucket key s) : Consistent minio bucket key s := by
  obtain ⟨hversioned, hnone | ⟨row, hrow, hlatest, hobject⟩⟩ := h
  · exact .inl hnone
  · have hnodup : (rowsAt bucket key s.files).Nodup := (rowsAt_ids s.files).of_map
    refine .inr ⟨hnodup.map_on fun f hf g hg => ?_, row, ?_, hobject⟩
    · exact hversioned.distinct f hf g hg (rowsAt_sameObject hf hg)
    · refine eq_singleton_of_nodup (hnodup.filter _) (List.mem_filter.mpr ⟨hrow, hlatest⟩) fun f hf => ?_
      obtain ⟨hf, hflatest⟩ := List.mem_filter.mp hf
      exact (hversioned.dominates hrow hlatest f hf (rowsAt_sameObject hf hrow)).2 hflatest

/-! ### What writes to the table do to the rows of the key -/

theorem rowsAt_update {files : FileTable} {old : FileEntity} (hold : old ∈ rowsAt bucket key files) :
    rowsAt bucket key (files.update old.clear) = cleared (rowsAt bucket key files) old := by
  obtain ⟨hrow, hbucket, hkey⟩ := mem_rowsAt.mp hold
  unfold rowsAt cleared FileTable.update
  rw [List.filter_map]
  refine congrArg _ (List.filter_congr fun f hf => ?_)
  show (anyAt bucket key).holds (if f.id = old.clear.id then old.clear else f) = _
  split
  · rename_i heq
    rw [List.inj_on_of_nodup_map files.ids hf hrow heq]
    rfl
  · rfl

theorem rowsAt_insert {files files' : FileTable} {row : FileEntity} (h : files.insert row = some files')
    (hbucket : row.bucketId = bucket.id) (hkey : row.key = key) :
    rowsAt bucket key files' = row :: rowsAt bucket key files := by
  unfold FileTable.insert at h
  split at h
  · cases h
    exact List.filter_cons_of_pos (anyAt_holds.mpr ⟨hbucket, hkey⟩)
  · cases h

theorem rowsAt_remove {files : FileTable} {f : FileEntity} (h : rowsAt bucket key files = [f]) :
    rowsAt bucket key (files.remove f.id) = [] := by
  unfold rowsAt FileTable.remove
  rw [List.filter_filter, List.filter_eq_nil_iff]
  intro g hg
  rw [Bool.and_eq_true, not_and, decide_eq_true_eq]
  intro hholds hne
  have hmem : g ∈ rowsAt bucket key files := List.mem_filter.mpr ⟨hg, hholds⟩
  rw [h, List.mem_singleton] at hmem
  exact hne (congrArg FileEntity.id hmem)

theorem setObject_object_none (s : Stores) (name key : String) : (s.setObject name key none).object name key = none := by
  unfold Stores.object Stores.setObject
  rw [Option.toList_none, List.map_nil, List.nil_append, Option.map_eq_none_iff, List.find?_eq_none]
  intro o ho hat
  rw [List.mem_filter, hat] at ho
  cases ho.2

end Key

/-! ### Calls -/

/-- A call on the key: an upload names it, or lets it be the fresh UUID. -/
inductive KeyCall (key : String) where
  | upload (file : Option UploadedFile) (given : Option String) (uuid : String) (hkey : finalKey uuid given = key)
  | delete

/-- What `deleteFile` does once it has its bucket. -/
def eraseFile (bucket : BucketEntity) (key : String) : StorageProgram Unit := do
  let fileRecord : Option FileEntity ← await (.fileFindOne (anyAt bucket key))
  match fileRecord with
  | none => throw (.notFound "File not found")
  | some fileRecord =>
    await (.removeObject bucket.name key)
    await (.fileRemove fileRecord)

theorem deleteFile_eq (userId : Option String) (bucketName key : String) : deleteFile userId bucketName key
    = (getBucketOrThrow userId bucketName true).bind fun bucket => eraseFile bucket key := rfl

/-- The result does not matter. -/
def finish {α : Type} (p : StorageProgram α) : StorageProgram Unit := p.bind fun _ => ret ()

/-- The call, by the owner of the bucket. -/
def KeyCall.program (bucket : BucketEntity) {key : String} : KeyCall key → StorageProgram Unit
  | .upload file given uuid _ => finish (uploadFile (some bucket.userId) bucket.name file given uuid)
  | .delete => deleteFile (some bucket.userId) bucket.name key

abbrev KeyPool (ι : Type*) := Pool Stores ι Command Answer Exception Unit

def keyPool {ι : Type*} (bucket : BucketEntity) {key : String} (calls : ι → KeyCall key) (s : Stores) : KeyPool ι :=
  ⟨s, fun i => (calls i).program bucket⟩

/-! ### Conditions on a step -/

/-- The first command of a call on the object or the rows. -/
def Command.enters : Command → Bool
  | .putObject _ _ _ _ => true
  | .fileFindOne criteria => criteria.isLatest.isNone
  | _ => false

/-- The commands that come after it. -/
def Command.goesOn : Command → Bool
  | .fileFindOne criteria => criteria.isLatest.isSome
  | .fileSave _ | .fileCreate _ | .removeObject _ _ | .fileRemove _ => true
  | _ => false

/-- The call has begun to write, and has not ended. -/
def inside {α : Type} (p : StorageProgram α) : Bool := p.nextCommand.any Command.goesOn

/-- A deletion finds one row at most. -/
def findsOne (s : Stores) : Command → Bool
  | .fileFindOne criteria => criteria.isLatest.isSome || decide ((s.files.rows.filter criteria.holds).length ≤ 1)
  | _ => true

/-- **The condition on a step.**  A call begins to write when no other call is inside, and a deletion finds one row
at most. -/
def InTurn {ι : Type*} (pool : KeyPool ι) (e : ι × Services) : Prop :=
  (∀ c ∈ (pool.procs e.1).nextCommand, c.enters = true → ∀ j, inside (pool.procs j) = false) ∧
    (pool.procs e.1).nextCommand.all (findsOne pool.state) = true

instance {ι : Type*} [Fintype ι] (pool : KeyPool ι) (e : ι × Services) : Decidable (InTurn pool e) :=
  inferInstanceAs (Decidable (_ ∧ _))

/-- No store fails, and MinIO answers a `putObject` with the etag of the object. -/
def works (minio : Minio) (services : Services) (s : Stores) : Command → Bool
  | .maxFileSizeMb => true
  | .putObject bucket key data contentType => decide
      (services.answers (.putObject bucket key data contentType) = some (minio.etag (.put data contentType)))
  | c => (services.handle s c).2.isOk

def Works {ι : Type*} (minio : Minio) (pool : KeyPool ι) (e : ι × Services) : Prop :=
  (pool.procs e.1).nextCommand.all (works minio e.2 pool.state) = true

instance {ι : Type*} (minio : Minio) (pool : KeyPool ι) (e : ι × Services) : Decidable (Works minio pool e) :=
  inferInstanceAs (Decidable (_ = true))

section Works

variable {minio : Minio} {services : Services} {s : Stores}

theorem putObject_of_works {bucket key : String} {data : Data} {contentType : String}
    (h : works minio services s (.putObject bucket key data contentType) = true) :
    services.handle s (.putObject bucket key data contentType)
      = (s.setObject bucket key (some (.put data contentType)), .ok (minio.etag (.put data contentType))) := by
  have hanswer := of_decide_eq_true h
  show Storage.handle services.answers s _ = _
  unfold Storage.handle
  rw [if_neg (by simp [Command.inMemory]), hanswer]
  rfl

end Works

/-! ### How far a call has come -/

section Stages

variable (minio : Minio) (bucket : BucketEntity) (key : String)

/-- The commands of the checks. -/
def Check (c : Command) : Prop := (∃ name, c = .bucketFindByName name) ∨ c = .maxFileSizeMb

/-- The bucket is found. -/
def Finds (c : Command) (r : Except Exception (Answer c)) : Prop :=
  match c, r with
  | .bucketFindByName name, .ok found => name = bucket.name → found = some bucket
  | _, _ => True

/-- A call that is about to begin. -/
def Entering (p : StorageProgram Unit) : Prop :=
  (∃ file, p = finish (storeFile bucket file key)) ∨ p = eraseFile bucket key

/-- A call that checks until it begins, or that has ended. -/
def Approaching : StorageProgram Unit → Prop
  | .ret _ => True
  | .throw _ => True
  | .call c next =>
    Entering bucket key (.call c next) ∨ Check c ∧ ∀ r, Finds bucket c r → Approaching (next r)

/-- What an upload does once it has found the latest row. -/
def replaceVersion (file : UploadedFile) (old : FileEntity) : StorageProgram FileEntity := do
  let _ : FileEntity ← await (.fileSave old.clear)
  await (.fileCreate (versionRow bucket file key (minio.etag (.put file.buffer file.mimetype)) (old.version + 1)))

/-- A call that is inside, by what the stores hold meanwhile. -/
inductive Writing (s : Stores) : StorageProgram Unit → Prop
  | stored {file : UploadedFile} (hversioned : Versioned (rowsAt bucket key s.files))
      (hobject : s.object bucket.name key = some (.put file.buffer file.mimetype)) :
      Writing s (finish (recordVersion bucket key file (minio.etag (.put file.buffer file.mimetype))))
  | found {file : UploadedFile} {old : FileEntity} (hversioned : Versioned (rowsAt bucket key s.files))
      (hold : old ∈ rowsAt bucket key s.files) (hlatest : old.isLatest = true)
      (hobject : s.object bucket.name key = some (.put file.buffer file.mimetype)) :
      Writing s (finish (replaceVersion minio bucket key file old))
  | cleared {file : UploadedFile} {version : ℕ}
      (hnext : ∀ new : FileEntity,
        new.toFileColumns = versionRow bucket file key (minio.etag (.put file.buffer file.mimetype)) version →
          Versioned (new :: rowsAt bucket key s.files))
      (hobject : s.object bucket.name key = some (.put file.buffer file.mimetype)) :
      Writing s (finish (await (.fileCreate
        (versionRow bucket file key (minio.etag (.put file.buffer file.mimetype)) version))))
  | erasing {f : FileEntity} (hrows : rowsAt bucket key s.files = [f]) :
      Writing s ((await (.removeObject bucket.name key)).bind fun _ => await (.fileRemove f))
  | erased {f : FileEntity} (hrows : rowsAt bucket key s.files = [f]) (hobject : s.object bucket.name key = none) :
      Writing s (await (.fileRemove f))

variable {minio bucket key}

theorem Writing.inside {s : Stores} {p : StorageProgram Unit} (h : Writing minio bucket key s p) :
    inside p = true := by
  cases h with
  | stored hversioned hobject => rfl
  | found hversioned hold hlatest hobject => rfl
  | cleared hnext hobject => rfl
  | erasing hrows => rfl
  | erased hrows hobject => rfl

theorem Approaching.outside {p : StorageProgram Unit} (h : Approaching bucket key p) : Storage.inside p = false := by
  cases p with
  | ret a => rfl
  | throw e => rfl
  | call c next =>
    rcases h with (⟨file, heq⟩ | heq) | ⟨⟨name, rfl⟩ | rfl, -⟩
    · rw [heq]
      rfl
    · rw [heq]
      rfl
    · rfl
    · rfl

variable (minio bucket key)

/-- **The invariant** is that these are exclusive: at most one call is inside, and the key is coherent when there is
none. -/
def writers (ι : Type*) : Stages Stores ι Command Answer Exception Unit where
  free _ _ p := Approaching bucket key p
  busy _ s p := Writing minio bucket key s p
  calm := Coherent minio bucket key
  disjoint := by
    intro i s p hfree hbusy
    have hout := hfree.outside
    rw [hbusy.inside] at hout
    cases hout

variable {minio bucket key}

/-- The rule of the checks. -/
theorem approaching_bind {α : Type} {Q : α → Prop} {p : StorageProgram α} {f : α → StorageProgram Unit}
    (hp : p.Within Check) (hmid : p.Ensures (Finds bucket) Q fun _ => True)
    (hf : ∀ a, Q a → Approaching bucket key (f a)) : Approaching bucket key (p.bind f) := by
  induction p with
  | ret a => exact hf a hmid
  | throw e => trivial
  | call c next ih => exact .inr ⟨hp.1, fun r hr => ih r (hp.2 r) (hmid r hr)⟩

/-- The owner is let through to his bucket. -/
theorem approaching_getBucketOrThrow {f : BucketEntity → StorageProgram Unit} (hf : Approaching bucket key (f bucket)) :
    Approaching bucket key ((getBucketOrThrow (some bucket.userId) bucket.name true).bind f) := by
  have hwithin : (getBucketOrThrow (some bucket.userId) bucket.name true).Within Check := by
    refine Within.bind (within_command (.inl ⟨_, rfl⟩)) fun found => ?_
    cases found with
    | none => exact True.intro
    | some found =>
      show Within _ (if _ then _ else _)
      split
      · exact True.intro
      · split
        · exact True.intro
        · exact True.intro
  refine approaching_bind (Q := fun b => b = bucket) hwithin ?_ fun b hb => hb ▸ hf
  refine Ensures.bind (Q := fun found => found = some bucket) (ensures_command (fun a ha => ha rfl) fun _ _ => trivial)
    fun found hfound => ?_
  rw [hfound]
  show Ensures _ _ _ (if _ then _ else _)
  rw [if_neg (by simp), if_neg (by simp)]
  rfl

theorem approaching_of_entering {p : StorageProgram Unit} (h : Entering bucket key p) : Approaching bucket key p := by
  cases p with
  | ret a => trivial
  | throw e => trivial
  | call c next => exact .inl h

/-- A call at its start. -/
theorem approaching_program (call : KeyCall key) : Approaching bucket key (call.program bucket) := by
  cases call with
  | delete => exact approaching_getBucketOrThrow (approaching_of_entering (.inr rfl))
  | upload file given uuid hkey =>
    have hlimit : (getMaxFileSizeMb DEFAULT_MAX_FILE_SIZE_MB).Within Check := by
      refine Within.catchAll ?_ fun e => True.intro
      exact Within.bind (within_command (.inr rfl)) fun val => True.intro
    have hany : (getMaxFileSizeMb DEFAULT_MAX_FILE_SIZE_MB).Ensures (Finds bucket) (fun _ => True) fun _ => True := by
      refine Ensures.catchAll (Q := fun _ => True) ?_ fun e _ => trivial
      exact (ensures_command (fun _ _ => trivial) fun _ _ => trivial).bind fun val _ => trivial
    show Approaching bucket key (((getBucketOrThrow (some bucket.userId) bucket.name true).bind _).bind _)
    rw [bind_assoc]
    refine approaching_getBucketOrThrow ?_
    show Approaching bucket key (((getMaxFileSizeMb DEFAULT_MAX_FILE_SIZE_MB).bind _).bind _)
    rw [bind_assoc]
    refine approaching_bind hlimit hany fun maxSizeMb _ => ?_
    cases file with
    | none => exact True.intro
    | some file =>
      show Approaching bucket key ((if _ then _ else storeFile bucket file (finalKey uuid given)).bind _)
      split
      · exact True.intro
      · rw [hkey]
        exact approaching_of_entering (.inl ⟨file, rfl⟩)

/-! ### What a call does next -/

theorem finish_await (c : Command) {α : Type} (f : Answer c → StorageProgram α) :
    ∃ next, finish ((await c).bind f) = .call c next ∧ ∀ a, next (.ok a) = finish (f a) := ⟨_, rfl, fun _ => rfl⟩

theorem finish_command (c : Command) : ∃ next, finish (await c) = .call c next ∧ ∀ a, next (.ok a) = .ret () :=
  ⟨_, rfl, fun _ => rfl⟩

theorem eraseFile_eq : ∃ next, eraseFile bucket key = .call (.fileFindOne (anyAt bucket key)) next ∧
    next (.ok none) = .throw (.notFound "File not found") ∧
    ∀ f, next (.ok (some f)) = (await (.removeObject bucket.name key)).bind fun _ => await (.fileRemove f) :=
  ⟨_, rfl, rfl, fun _ => rfl⟩

theorem recordVersion_eq (file : UploadedFile) (etag : String) :
    ∃ next, finish (recordVersion bucket key file etag) = .call (.fileFindOne (latestAt bucket key)) next ∧
      next (.ok none) = finish (await (.fileCreate (versionRow bucket file key etag 1))) ∧
      (etag = minio.etag (.put file.buffer file.mimetype) →
        ∀ old, next (.ok (some old)) = finish (replaceVersion minio bucket key file old)) :=
  ⟨_, rfl, rfl, fun hetag old => by rw [hetag]; rfl⟩

variable {services : Services} {s : Stores} {c : Command} {rest : Except Exception (Answer c) → StorageProgram Unit}

/-- A check changes nothing, and finds the bucket. -/
theorem handle_check (hc : Check c) (hfound : s.buckets.findByName bucket.name = some bucket)
    (hworks : works minio services s c = true) :
    (services.handle s c).1 = s ∧ Finds bucket c (services.handle s c).2 := by
  rcases hc with ⟨name, rfl⟩ | rfl
  · obtain ⟨text, htext⟩ : ∃ text, services.handle s _ = execute text s _ := execute_of_isOk hworks fun w => by simp
    rw [htext]
    refine ⟨rfl, fun heq => ?_⟩
    rw [heq]
    exact hfound
  · rcases services.handle_cases s .maxFileSizeMb with hsame | ⟨text, htext⟩
    · exact ⟨hsame, trivial⟩
    · exact ⟨htext, trivial⟩

theorem eq_singleton_of_findsOne {f : FileEntity} (hone : findsOne s (.fileFindOne (anyAt bucket key)) = true)
    (hrow : services.findOne s.files (anyAt bucket key) = some f) : rowsAt bucket key s.files = [f] := by
  have hle : (rowsAt bucket key s.files).length ≤ 1 := of_decide_eq_true hone
  have hmem : f ∈ rowsAt bucket key s.files := services.choice.mem hrow
  generalize rowsAt bucket key s.files = rows at hle hmem
  match rows, hle, hmem with
  | [g], _, hmem => rw [List.mem_singleton.mp hmem]

/-- A call that has not begun checks, or begins. -/
theorem Approaching.next (h : Approaching bucket key (.call c rest))
    (hfound : s.buckets.findByName bucket.name = some bucket) (hworks : works minio services s c = true) :
    c.enters = false ∧ (services.handle s c).1 = s ∧ Approaching bucket key (rest (services.handle s c).2) ∨
      c.enters = true ∧ (Coherent minio bucket key s → findsOne s c = true →
        Writing minio bucket key (services.handle s c).1 (rest (services.handle s c).2) ∨
          Approaching bucket key (rest (services.handle s c).2) ∧
            Coherent minio bucket key (services.handle s c).1) := by
  rcases h with (⟨file, heq⟩ | heq) | ⟨hcheck, hnext⟩
  · -- an upload stores its object
    obtain ⟨next', hprogram, hanswer⟩ := finish_await (.putObject bucket.name key file.buffer file.mimetype)
      (recordVersion bucket key file)
    cases heq.trans hprogram
    refine .inr ⟨rfl, fun hcoherent _ => .inl ?_⟩
    rw [putObject_of_works hworks, hanswer]
    exact .stored hcoherent.1 (setObject_object_self s bucket.name key _)
  · -- a deletion looks for a row
    obtain ⟨next', hprogram, hnone, hsome⟩ := @eraseFile_eq bucket key
    cases heq.trans hprogram
    refine .inr ⟨rfl, fun hcoherent hone => ?_⟩
    rw [findOne_of_isOk hworks]
    cases hrow : services.findOne s.files (anyAt bucket key) with
    | none =>
      rw [hnone]
      exact .inr ⟨True.intro, hcoherent⟩
    | some f =>
      rw [hsome]
      exact .inl (.erasing (eq_singleton_of_findsOne hone hrow))
  · obtain ⟨hsame, hfinds⟩ := handle_check hcheck hfound hworks
    refine .inl ⟨?_, hsame, hnext _ hfinds⟩
    rcases hcheck with ⟨name, rfl⟩ | rfl
    · rfl
    · rfl

/-- Nothing is latest: the first version. -/
theorem Versioned.first_of_findOne (h : Versioned (rowsAt bucket key s.files))
    (hnone : services.findOne s.files (latestAt bucket key) = none) {new : FileEntity} {file : UploadedFile}
    {etag : String} (hnew : new.toFileColumns = versionRow bucket file key etag 1) :
    Versioned (new :: rowsAt bucket key s.files) := by
  refine h.first (fun g hg _ => Bool.eq_false_iff.mpr fun htrue => ?_) (by rw [hnew]; rfl)
  obtain ⟨hrow, hbucket, hkey⟩ := mem_rowsAt.mp hg
  have hholds : (latestAt bucket key).holds g = true := latestAt_holds.mpr ⟨hbucket, hkey, htrue⟩
  rw [services.findOne_eq_none hnone g hrow] at hholds
  cases hholds

/-- The row that an upload inserts is the latest, and describes what the upload has stored. -/
theorem coherent_of_insert {files : FileTable} {file : UploadedFile} {version : ℕ} {new : FileEntity}
    (hinsert : s.files.insert new = some files)
    (hnew : new.toFileColumns = versionRow bucket file key (minio.etag (.put file.buffer file.mimetype)) version)
    (hversioned : Versioned (new :: rowsAt bucket key s.files))
    (hobject : s.object bucket.name key = some (.put file.buffer file.mimetype)) :
    Coherent minio bucket key { s with files := files } := by
  have hrows : rowsAt bucket key files = new :: rowsAt bucket key s.files :=
    rowsAt_insert hinsert (by rw [hnew]; rfl) (by rw [hnew]; rfl)
  refine ⟨?_, .inr ⟨new, ?_, by rw [hnew]; rfl, _, hobject, by rw [hnew]; rfl, ?_⟩⟩
  · show Versioned (rowsAt bucket key files)
    rw [hrows]
    exact hversioned
  · show new ∈ rowsAt bucket key files
    rw [hrows]
    exact List.mem_cons_self
  · rw [hnew, minio.size_put]
    rfl

/-- A call that is inside goes on, or leaves the key coherent. -/
theorem Writing.next (h : Writing minio bucket key s (.call c rest)) (hworks : works minio services s c = true) :
    Writing minio bucket key (services.handle s c).1 (rest (services.handle s c).2) ∨
      Approaching bucket key (rest (services.handle s c).2) ∧ Coherent minio bucket key (services.handle s c).1 := by
  generalize hp : Program.call c rest = p at h
  cases h with
  | @stored file hversioned hobject =>
    obtain ⟨next, hprogram, hnone, hsome⟩ := @recordVersion_eq minio bucket key file
      (minio.etag (.put file.buffer file.mimetype))
    cases hp.trans hprogram
    rw [findOne_of_isOk hworks]
    cases hold : services.findOne s.files (latestAt bucket key) with
    | none =>
      rw [hnone]
      exact .inl (.cleared (fun new hnew => hversioned.first_of_findOne hold hnew) hobject)
    | some old =>
      obtain ⟨hrow, hholds⟩ := services.findOne_eq_some hold
      obtain ⟨hbucket, hkey, hlatest⟩ := latestAt_holds.mp hholds
      rw [hsome rfl]
      exact .inl (.found hversioned (mem_rowsAt.mpr ⟨hrow, hbucket, hkey⟩) hlatest hobject)
  | @found file old hversioned hold hlatest hobject =>
    obtain ⟨next, hprogram, hanswer⟩ := finish_await (.fileSave old.clear) fun _ => await (.fileCreate
      (versionRow bucket file key (minio.etag (.put file.buffer file.mimetype)) (old.version + 1)))
    cases hp.trans hprogram
    obtain ⟨text, htext⟩ : ∃ text, services.handle s _ = execute text s _ := execute_of_isOk hworks fun w => by simp
    obtain ⟨hrow, hbucket, hkey⟩ := mem_rowsAt.mp hold
    rw [htext]
    refine .inl ?_
    show Writing minio bucket key { s with files := s.files.save old.clear } (next (.ok old.clear))
    have hsave : s.files.save old.clear = s.files.update old.clear := s.files.save_of_mem hrow rfl
    rw [hanswer, hsave]
    refine .cleared (fun new hnew => ?_) hobject
    show Versioned (new :: rowsAt bucket key (s.files.update old.clear))
    rw [rowsAt_update hold]
    refine hversioned.next (rowsAt_ids s.files) hold hlatest ?_ (by rw [hnew]; rfl) (by rw [hnew]; rfl)
    unfold FileEntity.sameObject
    rw [hnew]
    exact ⟨hbucket.symm, hkey.symm⟩
  | @cleared file version hnext hobject =>
    obtain ⟨next, hprogram, hanswer⟩ := finish_command (.fileCreate
      (versionRow bucket file key (minio.etag (.put file.buffer file.mimetype)) version))
    cases hp.trans hprogram
    obtain ⟨id, files, hinsert, hhandle⟩ := @fileCreate_of_isOk services s _ hworks
    rw [hhandle, hanswer]
    exact .inr ⟨True.intro, coherent_of_insert hinsert rfl (hnext _ rfl) hobject⟩
  | @erasing f hrows =>
    obtain ⟨next, hprogram, hanswer⟩ : ∃ next, ((await (.removeObject bucket.name key)).bind fun _ =>
        await (.fileRemove f)) = .call (.removeObject bucket.name key) next ∧ ∀ a, next (.ok a) = await (.fileRemove f) :=
      ⟨_, rfl, fun _ => rfl⟩
    cases hp.trans hprogram
    obtain ⟨text, htext⟩ : ∃ text, services.handle s _ = execute text s _ := execute_of_isOk hworks fun w => by simp
    rw [htext]
    refine .inl ?_
    show Writing minio bucket key (s.setObject bucket.name key none) (next (.ok ()))
    rw [hanswer]
    exact .erased hrows (setObject_object_none s bucket.name key)
  | @erased f hrows hobject =>
    obtain ⟨next, hprogram, hanswer⟩ : ∃ next, (await (.fileRemove f) : StorageProgram Unit)
        = .call (.fileRemove f) next ∧ ∀ a, next (.ok a) = .ret a := ⟨_, rfl, fun _ => rfl⟩
    cases hp.trans hprogram
    obtain ⟨text, htext⟩ : ∃ text, services.handle s _ = execute text s _ := execute_of_isOk hworks fun w => by simp
    rw [htext]
    refine .inr ?_
    show Approaching bucket key (next (.ok ())) ∧ Coherent minio bucket key { s with files := s.files.remove f.id }
    rw [hanswer]
    have hnil : rowsAt bucket key (s.files.remove f.id) = [] := rowsAt_remove hrows
    refine ⟨True.intro, ?_, .inl ⟨hnil, hobject⟩⟩
    show Versioned (rowsAt bucket key (s.files.remove f.id))
    rw [hnil]
    exact versioned_nil

end Stages

/-! ### All runs -/

section Runs

variable {ι : Type*} [DecidableEq ι] {minio : Minio} {bucket : BucketEntity} {key : String} {pool pool' : KeyPool ι}
  {i : ι} {services : Services}

omit [DecidableEq ι] in
theorem nextCommand_call {c : Command} {rest : Except Exception (Answer c) → StorageProgram Unit}
    (hi : pool.procs i = .call c rest) : (pool.procs i).nextCommand = some c := by
  rw [hi]
  rfl

/-- No call on a key writes the table `buckets`. -/
theorem handle_found {s : Stores} {c : Command} (hc : writesBuckets c = false)
    (hfound : s.buckets.findByName bucket.name = some bucket) :
    (services.handle s c).1.buckets.findByName bucket.name = some bucket := by
  rcases services.handle_cases s c with hsame | ⟨text, htext⟩
  · rw [hsame]
    exact hfound
  · rw [htext, execute_buckets text hc]
    exact hfound

theorem writesBuckets_of_check {c : Command} (hc : Check c) : writesBuckets c = false := by
  rcases hc with ⟨name, rfl⟩ | rfl
  · rfl
  · rfl

/-- What a call sends next never writes the table `buckets`. -/
theorem writesBuckets_of_stands {s : Stores} {c : Command} {rest : Except Exception (Answer c) → StorageProgram Unit}
    (h : Approaching bucket key (.call c rest) ∨ Writing minio bucket key s (.call c rest)) :
    writesBuckets c = false := by
  rcases h with ((⟨file, heq⟩ | heq) | ⟨hcheck, -⟩) | hwriting
  · cases heq
    rfl
  · cases heq
    rfl
  · exact writesBuckets_of_check hcheck
  · have hinside := hwriting.inside
    unfold inside nextCommand at hinside
    cases c with
    | bucketSave userId name region isPublic => cases hinside
    | bucketRemove row => cases hinside
    | _ => rfl

/-- A step that meets the condition. -/
theorem writers_step (h : pool.Exclusive (writers minio bucket key ι))
    (hfound : pool.state.buckets.findByName bucket.name = some bucket) (hworks : Works minio pool (i, services))
    (hturn : InTurn pool (i, services)) (hstep : Pool.step Services.handle pool (i, services) = some pool') :
    pool'.Exclusive (writers minio bucket key ι) ∧
      pool'.state.buckets.findByName bucket.name = some bucket := by
  obtain ⟨c, rest, hi, hstate, hself, hothers⟩ := Pool.step_cases hstep
  obtain ⟨henters, hone⟩ := hturn
  unfold Works at hworks
  rw [nextCommand_call hi, Option.all_some] at hworks hone
  have hstands : Approaching bucket key (pool.procs i) ∨ Writing minio bucket key pool.state (pool.procs i) :=
    h.stands i
  refine ⟨h.step hstep (fun j _ p hfree => hfree) ?_, ?_⟩
  · rcases hstands with hfree | hbusy
    · have hnext := hfree
      rw [hi] at hnext
      rcases hnext.next hfound hworks with ⟨-, hsame, hafter⟩ | ⟨henter, hbegins⟩
      · -- a check
        rw [← hstate] at hsame
        rw [← hself] at hafter
        refine .inl ⟨hfree, hafter, fun j _ p => ?_, fun hcalm => ?_⟩
        · rw [hsame]
        · rw [hsame]
          exact hcalm
      · -- its first command, which finds nobody inside
        have hnone : ∀ j, ¬ Writing minio bucket key pool.state (pool.procs j) := by
          intro j hj
          have hout := henters c (nextCommand_call hi) henter j
          rw [hj.inside] at hout
          cases hout
        have hafter := hbegins (h.calm hnone) hone
        rw [← hstate, ← hself] at hafter
        exact .inr ⟨fun j _ => hnone j, hafter⟩
    · refine .inr ⟨fun j hj hbusy' => hj (h.alone j i hbusy' hbusy), ?_⟩
      rw [hi] at hbusy
      have hafter := hbusy.next hworks
      rw [← hstate, ← hself] at hafter
      exact hafter
  · rw [hstate]
    rw [hi] at hstands
    exact handle_found (writesBuckets_of_stands hstands) hfound

omit [DecidableEq ι] in
theorem writers_start (calls : ι → KeyCall key) {s : Stores} (hstart : Coherent minio bucket key s) :
    (keyPool bucket calls s).Exclusive (writers minio bucket key ι) :=
  Pool.exclusive_of_free (fun i => approaching_program (calls i)) hstart

/-- A run that meets the condition. -/
theorem writers_run {calls : ι → KeyCall key} {s : Stores} (hfound : s.buckets.findByName bucket.name = some bucket)
    (hstart : Coherent minio bucket key s) {es : List (ι × Services)}
    (hrun : run (Pool.step Services.handle) (keyPool bucket calls s) es = some pool)
    (hworks : Throughout (Pool.step Services.handle) (Works minio) (keyPool bucket calls s) es)
    (hturn : Throughout (Pool.step Services.handle) InTurn (keyPool bucket calls s) es) :
    pool.Exclusive (writers minio bucket key ι) ∧ pool.state.buckets.findByName bucket.name = some bucket := by
  revert hworks hturn
  refine run_induction (Pool.step Services.handle) (keyPool bucket calls s)
    (fun es t => Throughout (Pool.step Services.handle) (Works minio) (keyPool bucket calls s) es →
      Throughout (Pool.step Services.handle) InTurn (keyPool bucket calls s) es →
        t.Exclusive (writers minio bucket key ι) ∧ t.state.buckets.findByName bucket.name = some bucket)
    (fun _ _ => ⟨writers_start calls hstart, hfound⟩) (fun es m e t hm ih hstep hworks hturn => ?_) es pool hrun
  obtain ⟨hworks, hlast⟩ := (throughout_snoc hm).mp hworks
  obtain ⟨hturn, hlast'⟩ := (throughout_snoc hm).mp hturn
  obtain ⟨hexclusive, hfound⟩ := ih hworks hturn
  exact writers_step hexclusive hfound hlast hlast' hstep

end Runs

/-- **Whenever nobody is inside, so in particular when all calls have ended, the key is consistent.** -/
theorem consistent_of_turns {ι : Type*} [DecidableEq ι] (minio : Minio) (bucket : BucketEntity) (key : String)
    (calls : ι → KeyCall key) (s : Stores) (hfound : s.buckets.findByName bucket.name = some bucket)
    (hstart : Coherent minio bucket key s) (es : List (ι × Services)) (pool : KeyPool ι)
    (hrun : run (Pool.step Services.handle) (keyPool bucket calls s) es = some pool)
    (hworks : Throughout (Pool.step Services.handle) (Works minio) (keyPool bucket calls s) es)
    (hturn : Throughout (Pool.step Services.handle) InTurn (keyPool bucket calls s) es)
    (hquiet : ∀ i, inside (pool.procs i) = false) : Consistent minio bucket key pool.state := by
  obtain ⟨hexclusive, -⟩ := writers_run hfound hstart hrun hworks hturn
  refine Coherent.consistent (hexclusive.calm fun i hbusy => ?_)
  have hinside := hquiet i
  rw [Writing.inside hbusy] at hinside
  cases hinside

/-! ### Two uploads -/

/-- A MinIO whose etags are the lengths of the objects, written out. -/
def sampleMinio : Minio where
  etag object := match object with
    | .put data _ => toString data.length
    | .assembled uploadId _ => uploadId
  size object := match object with
    | .put data _ => data.length
    | .assembled _ _ => 0
  size_put _ _ := rfl

def photosBucket : BucketEntity :=
  { id := "b-1", userId := "user-1", name := "photos", region := "us-east-1", isPublic := false }

/-- The bucket, with nothing in it. -/
def emptyStore : Stores where
  buckets := ⟨[photosBucket], by decide, by decide⟩
  files := ⟨[], List.nodup_nil⟩
  minioBuckets := ["photos"]
  objects := []
  sessions _ := none

/-- Two uploads of different lengths. -/
def pngUploads : Bool → KeyCall "a.png"
  | false => .upload (some ⟨[1, 2, 3], "image/png"⟩) (some "a.png") "uuid" rfl
  | true => .upload (some ⟨[4, 5], "image/png"⟩) (some "a.png") "uuid" rfl

/-- Services that take everything; rows of the first upload have the id `row-1`, those of the second `row-2`. -/
def takesAll (i : Bool) : Services where
  answers c := some (match c with
    | .putObject _ _ data contentType => sampleMinio.etag (.put data contentType)
    | .maxFileSizeMb => ""
    | _ => if i then "row-2" else "row-1")
  choice := .newest

/-- One upload after the other. -/
def uploadsInTurn : List (Bool × Services) :=
  List.replicate 5 (false, takesAll false) ++ List.replicate 6 (true, takesAll true)

/-- Both uploads look for the latest row before either inserts its own. -/
def uploadsAtOnce : List (Bool × Services) :=
  List.replicate 4 (false, takesAll false) ++ List.replicate 4 (true, takesAll true) ++
    [(false, takesAll false), (true, takesAll true)]

theorem coherent_emptyStore : Coherent sampleMinio photosBucket "a.png" emptyStore :=
  ⟨versioned_nil, .inl ⟨rfl, rfl⟩⟩

theorem consistent_in_turn : ∃ pool,
    run (Pool.step Services.handle) (keyPool photosBucket pngUploads emptyStore) uploadsInTurn = some pool ∧
      Consistent sampleMinio photosBucket "a.png" pool.state := by
  obtain ⟨pool, hrun, hquiet⟩ := (Option.any_eq_true _ _).mp (show
    ((run (Pool.step Services.handle) (keyPool photosBucket pngUploads emptyStore) uploadsInTurn).any fun pool =>
      decide (∀ i, inside (pool.procs i) = false)) = true by decide +kernel)
  rw [decide_eq_true_eq] at hquiet
  exact ⟨pool, hrun, consistent_of_turns sampleMinio photosBucket "a.png" pngUploads emptyStore rfl coherent_emptyStore
    uploadsInTurn pool hrun (by decide +kernel) (by decide +kernel) hquiet⟩

/-- **Two uploads at once leave two rows of version 1, both latest.** -/
theorem uploads_collide : ∃ pool,
    run (Pool.step Services.handle) (keyPool photosBucket pngUploads emptyStore) uploadsAtOnce = some pool ∧
      Throughout (Pool.step Services.handle) (Works sampleMinio) (keyPool photosBucket pngUploads emptyStore)
        uploadsAtOnce ∧
      (∀ i, (pool.procs i).Ended) ∧
      (pool.state.files.rows.map fun f => (f.version, f.isLatest)) = [(1, true), (1, true)] ∧
      ¬ Consistent sampleMinio photosBucket "a.png" pool.state := by
  obtain ⟨pool, hrun, hseen⟩ := (Option.any_eq_true _ _).mp (show
    ((run (Pool.step Services.handle) (keyPool photosBucket pngUploads emptyStore) uploadsAtOnce).any fun pool =>
      decide (∀ i, (pool.procs i).nextCommand = none) &&
        decide ((pool.state.files.rows.map fun f => (f.version, f.isLatest)) = [(1, true), (1, true)]) &&
        decide (((rowsAt photosBucket "a.png" pool.state.files).map fun f => f.version) = [1, 1])) = true by decide +kernel)
  rw [Bool.and_eq_true, Bool.and_eq_true, decide_eq_true_eq, decide_eq_true_eq, decide_eq_true_eq] at hseen
  obtain ⟨⟨hended, hrows⟩, hversions⟩ := hseen
  refine ⟨pool, hrun, by decide +kernel, fun i => ended_iff.mpr (hended i), hrows, fun hconsistent => ?_⟩
  rcases hconsistent with ⟨hnil, -⟩ | ⟨hnodup, -⟩
  · rw [hnil] at hversions
    cases hversions
  · rw [hversions] at hnodup
    exact absurd hnodup (by decide)

end EdgeSphere.Storage
