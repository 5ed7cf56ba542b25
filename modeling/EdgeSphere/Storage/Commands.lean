import EdgeSphere.Library.Program
import EdgeSphere.Storage.Entities

/-!
# What the storage-service awaits

The commands its services send to Postgres, MinIO, Redis and Kafka, and to the map that stands for
Redis in `MultipartService`.

`handle` executes one command.  Whatever is decided outside the service comes from `answers`: whether a
call fails (so also what MinIO thinks of a bucket, a part or a list of parts), and the text it returns (an
id, an etag, a URL, a setting).  The rest is the state: the two tables, MinIO's buckets and objects, and
the records of the uploads.
-/

namespace EdgeSphere.Storage

open EdgeSphere.Library
open EdgeSphere.Library.Program

structure Stores where
  buckets : BucketTable
  files : FileTable
  minioBuckets : List String
  objects : List ObjectEntry
  sessions : String → Option UploadSession

inductive Command where
  /-- `findOne({ where: { name } })`. -/
  | bucketFindByName (name : String)
  /-- `findOne({ where: { userId, name } })`. -/
  | bucketFindOwned (userId : Option String) (name : String)
  | bucketFindAndCount (userId : Option String) (skip take : ℕ)
  | bucketSave (userId : Option String) (name region : String) (isPublic : Bool)
  | bucketRemove (row : BucketEntity)
  | fileCount (bucketId : String)
  | fileFindOne (criteria : FileWhere)
  | fileFindAndCount (bucketId : String) (skip take : ℕ)
  | fileCreate (row : FileColumns)
  | fileSave (row : FileEntity)
  | fileRemove (row : FileEntity)
  /-- `hget('edgesphere:platform_config', 'maxFileSizeMb')`. -/
  | maxFileSizeMb
  | bucketExists (name : String)
  | makeBucket (name region : String)
  | removeBucket (name : String)
  | putObject (bucket key : String) (data : Data) (contentType : String)
  | getObject (bucket key : String)
  | removeObject (bucket key : String)
  | presignedObject (method bucket key : String) (expirySeconds : ℕ)
  | initiateNewMultipartUpload (bucket key contentType : String)
  | uploadPart (bucket key : String) (partNumber : IntNumber) (data : Data) (uploadId : String)
  | completeMultipartUpload (bucket key uploadId : String) (parts : List (IntNumber × String))
  | abortMultipartUpload (bucket key uploadId : String)
  | publishStorageEvent (type bucket key : String) (size : ℚ)
  | sessionGet (uploadId : String)
  | sessionSet (uploadId : String) (session : UploadSession)
  | sessionDelete (uploadId : String)
  deriving DecidableEq

abbrev Answer : Command → Type
  | .bucketFindByName _ => Option BucketEntity
  | .bucketFindOwned _ _ => Option BucketEntity
  | .bucketFindAndCount _ _ _ => List BucketEntity × ℕ
  | .bucketSave _ _ _ _ => BucketEntity
  | .bucketRemove _ => Unit
  | .fileCount _ => ℕ
  | .fileFindOne _ => Option FileEntity
  | .fileFindAndCount _ _ _ => List FileEntity × ℕ
  | .fileCreate _ => FileEntity
  | .fileSave _ => FileEntity
  | .fileRemove _ => Unit
  | .maxFileSizeMb => String
  | .bucketExists _ => Bool
  | .makeBucket _ _ => Unit
  | .removeBucket _ => Unit
  | .putObject _ _ _ _ => String
  | .getObject _ _ => StoredObject
  | .removeObject _ _ => Unit
  | .presignedObject _ _ _ _ => String
  | .initiateNewMultipartUpload _ _ _ => String
  | .uploadPart _ _ _ _ _ => String
  | .completeMultipartUpload _ _ _ _ => Unit
  | .abortMultipartUpload _ _ _ => Unit
  | .publishStorageEvent _ _ _ _ => Unit
  | .sessionGet _ => Option UploadSession
  | .sessionSet _ _ => Unit
  | .sessionDelete _ => Unit

abbrev StorageProgram (α : Type) := Program Command Answer Exception α

abbrev await (c : Command) : StorageProgram (Answer c) := command c

namespace Stores

variable (s : Stores)

/-- What MinIO stores at a bucket and a key. -/
def object (bucket key : String) : Option StoredObject :=
  (s.objects.find? fun o => o.isAt bucket key).map ObjectEntry.object

/-- Store an object, or none. -/
def setObject (bucket key : String) (object : Option StoredObject) : Stores :=
  { s with
    objects := (object.toList.map fun o => ⟨bucket, key, o⟩) ++ s.objects.filter fun o => !o.isAt bucket key }

def setSession (uploadId : String) (session : Option UploadSession) : Stores :=
  { s with sessions := Function.update s.sessions uploadId session }

end Stores

/-- The answer of a service that refuses. -/
def refused {c : Command} (s : Stores) (message : String) : Stores × Except Exception (Answer c) :=
  (s, .error (.thrown message))

/-- Execute a command that does not fail on the way; `text` is what the service returns.  TypeORM leaves
a criterion that is `undefined` out of the query, and newest rows stand first. -/
def execute (text : String) (s : Stores) : (c : Command) → Stores × Except Exception (Answer c)
  | .bucketFindByName name => (s, .ok (s.buckets.findByName name))
  | .bucketFindOwned userId name =>
    (s, .ok (s.buckets.rows.find? fun b =>
      decide (b.name = name) && userId.all fun u => decide (b.userId = u)))
  | .bucketFindAndCount userId skip take =>
    let rows := s.buckets.rows.filter fun b => userId.all fun u => decide (b.userId = u)
    (s, .ok ((rows.drop skip).take take, rows.length))
  | .bucketSave userId name region isPublic =>
    match userId with
    | none => refused s "QueryFailedError"
    | some userId =>
      let row : BucketEntity := { id := text, userId, name, region, isPublic }
      match s.buckets.insert row with
      | none => refused s "QueryFailedError"
      | some buckets => ({ s with buckets }, .ok row)
  | .bucketRemove row => ({ s with buckets := s.buckets.remove row.id }, .ok ())
  | .fileCount bucketId => (s, .ok (s.files.rows.countP fun f => decide (f.bucketId = bucketId)))
  | .fileFindOne criteria =>
    if criteria.version = some .nan then refused s "QueryFailedError"
    else (s, .ok (s.files.rows.find? criteria.holds))
  | .fileFindAndCount bucketId skip take =>
    let rows := s.files.rows.filter fun f => decide (f.bucketId = bucketId)
    (s, .ok ((rows.drop skip).take take, rows.length))
  | .fileCreate row =>
    -- the column `size` is a bigint
    if row.size.den ≠ 1 then refused s "QueryFailedError"
    else
      let saved : FileEntity := { row with id := text }
      match s.files.insert saved with
      | none => refused s "QueryFailedError"
      | some files => ({ s with files }, .ok saved)
  | .fileSave row => ({ s with files := s.files.save row }, .ok row)
  | .fileRemove row => ({ s with files := s.files.remove row.id }, .ok ())
  | .maxFileSizeMb => (s, .ok text)
  | .bucketExists name => (s, .ok (decide (name ∈ s.minioBuckets)))
  | .makeBucket name _ =>
    if name ∈ s.minioBuckets then refused s "BucketAlreadyOwnedByYou"
    else ({ s with minioBuckets := name :: s.minioBuckets }, .ok ())
  | .removeBucket name =>
    if s.objects.any fun o => decide (o.bucket = name) then refused s "BucketNotEmpty"
    else ({ s with minioBuckets := s.minioBuckets.filter fun b => decide (b ≠ name) }, .ok ())
  | .putObject bucket key data contentType =>
    (s.setObject bucket key (some (.put data contentType)), .ok text)
  | .getObject bucket key =>
    match s.object bucket key with
    | none => refused s "NoSuchKey"
    | some object => (s, .ok object)
  | .removeObject bucket key => (s.setObject bucket key none, .ok ())
  | .presignedObject _ _ _ _ => (s, .ok text)
  | .initiateNewMultipartUpload _ _ _ => (s, .ok text)
  | .uploadPart _ _ _ _ _ => (s, .ok text)
  | .completeMultipartUpload bucket key uploadId parts =>
    (s.setObject bucket key (some (.assembled uploadId parts)), .ok ())
  | .abortMultipartUpload _ _ _ => (s, .ok ())
  | .publishStorageEvent _ _ _ _ => (s, .ok ())
  | .sessionGet uploadId => (s, .ok (s.sessions uploadId))
  | .sessionSet uploadId session => (s.setSession uploadId (some session), .ok ())
  | .sessionDelete uploadId => (s.setSession uploadId none, .ok ())

/-- The map in memory never fails. -/
def Command.inMemory : Command → Bool
  | .sessionGet _ | .sessionSet _ _ | .sessionDelete _ => true
  | _ => false

/-- Execute one command; `answers c` is the text of the service that executes `c`, or `none` if the call
fails. -/
def handle (answers : Command → Option String) (s : Stores) (c : Command) :
    Stores × Except Exception (Answer c) :=
  if c.inMemory then execute "" s c
  else match answers c with
    | none => refused s "ECONNREFUSED"
    | some text => execute text s c

end EdgeSphere.Storage
