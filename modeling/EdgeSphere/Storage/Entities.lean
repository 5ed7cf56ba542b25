import EdgeSphere.Library.Buffer
import EdgeSphere.Library.ParseInt
import Mathlib.Data.List.Nodup
import Mathlib.Data.Rat.Floor

/-!
# Entities of the storage-service

The rows of the tables `buckets` and `files`, what MinIO stores, and the record of a multipart upload.
A table carries its unique indexes, so that no two rows share an id, nor two buckets a name; an upload
has at least one part.
-/

namespace EdgeSphere.Storage

open EdgeSphere.Library

/-- The exceptions of the services; `thrown` is any other error. -/
inductive Exception where
  | unauthorized (message : String)
  | forbidden (message : String)
  | notFound (message : String)
  | conflict (message : String)
  | badRequest (message : String)
  | thrown (message : String)
  deriving DecidableEq, Repr

/-! ### Rows -/

structure BucketEntity where
  id : String
  userId : String
  name : String
  region : String
  isPublic : Bool
  deriving DecidableEq, Repr

/-- A row of `files` before the database gives it an id. -/
structure FileColumns where
  bucketId : String
  key : String
  size : ℚ
  contentType : String
  etag : String
  version : ℕ
  isLatest : Bool
  deriving DecidableEq, Repr

structure FileEntity extends FileColumns where
  id : String
  deriving DecidableEq, Repr

/-- The table `buckets` with its primary key and the unique index on `name`. -/
structure BucketTable where
  rows : List BucketEntity
  ids : (rows.map BucketEntity.id).Nodup
  names : (rows.map BucketEntity.name).Nodup

namespace BucketTable

variable (t : BucketTable)

/-- Insert a row, unless an index refuses it. -/
def insert (row : BucketEntity) : Option BucketTable :=
  if h : row.id ∉ t.rows.map BucketEntity.id ∧ row.name ∉ t.rows.map BucketEntity.name then
    some ⟨row :: t.rows, List.nodup_cons.mpr ⟨h.1, t.ids⟩, List.nodup_cons.mpr ⟨h.2, t.names⟩⟩
  else none

def remove (id : String) : BucketTable where
  rows := t.rows.filter fun b => decide (b.id ≠ id)
  ids := t.ids.sublist (List.filter_sublist.map _)
  names := t.names.sublist (List.filter_sublist.map _)

/-- `findOne({ where: { name } })`. -/
def findByName (name : String) : Option BucketEntity := t.rows.find? fun b => decide (b.name = name)

theorem findByName_eq_some {name : String} {b : BucketEntity} (h : t.findByName name = some b) :
    b ∈ t.rows ∧ b.name = name :=
  ⟨List.mem_of_find?_eq_some h, by simpa using List.find?_some h⟩

/-- An id names one row. -/
theorem eq_of_id {b c : BucketEntity} (hb : b ∈ t.rows) (hc : c ∈ t.rows) (h : b.id = c.id) : b = c :=
  List.inj_on_of_nodup_map t.ids hb hc h

/-- A name names one row. -/
theorem eq_of_name {b c : BucketEntity} (hb : b ∈ t.rows) (hc : c ∈ t.rows) (h : b.name = c.name) :
    b = c :=
  List.inj_on_of_nodup_map t.names hb hc h

end BucketTable

/-- The table `files` with its primary key. -/
structure FileTable where
  rows : List FileEntity
  ids : (rows.map FileEntity.id).Nodup

namespace FileTable

variable (t : FileTable)

def insert (row : FileEntity) : Option FileTable :=
  if h : row.id ∉ t.rows.map FileEntity.id then some ⟨row :: t.rows, List.nodup_cons.mpr ⟨h, t.ids⟩⟩
  else none

/-- Write the columns of the row with this id. -/
def update (row : FileEntity) : FileTable where
  rows := t.rows.map fun f => if f.id = row.id then row else f
  ids := by
    have hsame : (t.rows.map fun f => if f.id = row.id then row else f).map FileEntity.id
        = t.rows.map FileEntity.id := by
      rw [List.map_map]
      refine List.map_congr_left fun f _ => ?_
      show (if f.id = row.id then row else f).id = f.id
      split
      · rename_i heq
        exact heq.symm
      · rfl
    rw [hsame]
    exact t.ids

/-- `save` of an entity that has an id: a row that is not there any more is inserted again. -/
def save (row : FileEntity) : FileTable :=
  if h : row.id ∈ t.rows.map FileEntity.id then t.update row
  else ⟨row :: t.rows, List.nodup_cons.mpr ⟨h, t.ids⟩⟩

theorem save_of_mem {row old : FileEntity} (h : old ∈ t.rows) (hid : row.id = old.id) :
    t.save row = t.update row :=
  dif_pos (by rw [hid]; exact List.mem_map_of_mem h)

def remove (id : String) : FileTable where
  rows := t.rows.filter fun f => decide (f.id ≠ id)
  ids := t.ids.sublist (List.filter_sublist.map _)

end FileTable

/-- What the code asks `files` for; a criterion that is `undefined` is left out of the query. -/
structure FileWhere where
  bucketId : String
  key : String
  version : Option IntNumber := none
  isLatest : Option Bool := none
  deriving DecidableEq, Repr

def FileWhere.holds (w : FileWhere) (f : FileEntity) : Bool :=
  decide (f.bucketId = w.bucketId) && decide (f.key = w.key)
    && (match w.version with | none => true | some n => decide (n = .int f.version))
    && (match w.isLatest with | none => true | some latest => decide (f.isLatest = latest))

/-! ### MinIO -/

/-- The bytes of a request body. -/
abbrev Data := List Buffer.Byte

/-- What is stored at a bucket and a key. -/
inductive StoredObject where
  | put (data : Data) (contentType : String)
  /-- The parts of a multipart upload, in the order of the list given to MinIO. -/
  | assembled (uploadId : String) (parts : List (IntNumber × String))
  deriving DecidableEq, Repr

structure ObjectEntry where
  bucket : String
  key : String
  object : StoredObject
  deriving DecidableEq, Repr

def ObjectEntry.isAt (o : ObjectEntry) (bucket key : String) : Bool :=
  decide (o.bucket = bucket) && decide (o.key = key)

/-! ### Multipart uploads -/

structure UploadedPart where
  partNumber : IntNumber
  etag : String
  size : ℕ
  deriving DecidableEq, Repr

/-- The record kept while the parts arrive; `uploadId` is MinIO's. -/
structure UploadSession where
  uploadId : String
  internalUploadId : String
  bucketName : String
  key : String
  userId : String
  contentType : String
  totalSize : ℚ
  partCount : ℕ
  partCount_pos : 0 < partCount
  completedParts : List UploadedPart
  expiresAt : ℕ
  deriving DecidableEq

/-- `session.completedParts.push(part)`. -/
def UploadSession.push (session : UploadSession) (part : UploadedPart) : UploadSession :=
  { session with completedParts := session.completedParts ++ [part] }

@[simp] theorem UploadSession.push_completedParts (session : UploadSession) (part : UploadedPart) :
    (session.push part).completedParts = session.completedParts ++ [part] := rfl

@[simp] theorem UploadSession.push_partCount (session : UploadSession) (part : UploadedPart) :
    (session.push part).partCount = session.partCount := rfl

end EdgeSphere.Storage
