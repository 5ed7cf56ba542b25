import EdgeSphere.Storage.Commands

/-!
# Buckets and files

The methods of `BucketsService` and `FilesService`, written as the programs of their awaits.  A caller is
known by the `sub` of his token, which a token need not have.
-/

namespace EdgeSphere.Storage

open EdgeSphere.Library
open EdgeSphere.Library.Program

/-! ### `BucketsService` -/

structure CreateBucketDto where
  name : String
  region : Option String
  isPublic : Option Bool
  deriving DecidableEq, Repr

/-- `region || 'us-east-1'`. -/
def CreateBucketDto.regionOrDefault (dto : CreateBucketDto) : String :=
  match dto.region with
  | none | some "" => "us-east-1"
  | some region => region

def createBucket (userId : Option String) (dto : CreateBucketDto) : StorageProgram BucketEntity := do
  let existing : Option BucketEntity ← await (.bucketFindByName dto.name)
  match existing with
  | some _ => throw (.conflict "Bucket name already exists")
  | none =>
    let existsInMinio : Bool ← await (.bucketExists dto.name)
    if existsInMinio then pure () else await (.makeBucket dto.name dto.regionOrDefault)
    await (.bucketSave userId dto.name dto.regionOrDefault (dto.isPublic.getD false))

/-- A page of a listing. -/
structure Page (α : Type) where
  data : List α
  total : ℕ
  page : ℕ
  pageSize : ℕ
  deriving DecidableEq, Repr

def listBuckets (userId : Option String) (page pageSize : ℕ) : StorageProgram (Page BucketEntity) := do
  let (data, total) ← await (.bucketFindAndCount userId ((page - 1) * pageSize) pageSize)
  return { data, total, page, pageSize }

def getBucket (userId : Option String) (name : String) : StorageProgram BucketEntity := do
  let bucket : Option BucketEntity ← await (.bucketFindOwned userId name)
  match bucket with
  | none => throw (.notFound "Bucket not found")
  | some bucket => return bucket

def deleteBucket (userId : Option String) (name : String) : StorageProgram Unit := do
  let bucket ← getBucket userId name
  let count : ℕ ← await (.fileCount bucket.id)
  if 0 < count then throw (.badRequest "Bucket is not empty")
  else
    let present : Bool ← await (.bucketExists name)
    if present then await (.removeBucket name) else pure ()
    await (.bucketRemove bucket)

/-! ### `FilesService` -/

def DEFAULT_MAX_FILE_SIZE_MB : ℕ := 5120

/-- `FilesService.getBucketOrThrow`; `checkOwner` is off for downloads. -/
def getBucketOrThrow (userId : Option String) (bucketName : String) (checkOwner : Bool) :
    StorageProgram BucketEntity := do
  let bucket : Option BucketEntity ← await (.bucketFindByName bucketName)
  match bucket with
  | none => throw (.notFound "Bucket not found")
  | some bucket =>
    if checkOwner ∧ some bucket.userId ≠ userId then throw (.forbidden "Access denied")
    else if ¬ checkOwner ∧ ¬ bucket.isPublic ∧ some bucket.userId ≠ userId then
      throw (.forbidden "Access denied")
    else return bucket

/-- `PlatformConfigService.getMaxFileSizeMb`; a missing setting is the empty text. -/
def getMaxFileSizeMb (defaultMb : ℕ) : StorageProgram IntNumber :=
  (do
    let val : String ← await .maxFileSizeMb
    return if val = "" then IntNumber.int defaultMb else parseInt val).catchAll fun _ =>
      pure (.int defaultMb)

/-- What multer hands over. -/
structure UploadedFile where
  buffer : Data
  mimetype : String
  deriving DecidableEq, Repr

/-- `file.size > maxSizeMb * 1024 * 1024`. -/
def UploadedFile.exceeds (file : UploadedFile) : IntNumber → Bool
  | .nan => false
  | .int maxSizeMb => decide (maxSizeMb * 1024 * 1024 < file.buffer.length)

def tooLarge : IntNumber → Exception
  | .nan => .badRequest "File exceeds the maximum allowed size of NaN MB"
  | .int maxSizeMb => .badRequest ("File exceeds the maximum allowed size of " ++ toString maxSizeMb ++ " MB")

/-- The part of `uploadFile` that follows the checks: the object, the former latest row, the new row. -/
def storeFile (bucket : BucketEntity) (file : UploadedFile) (finalKey : String) :
    StorageProgram FileEntity := do
  let etag : String ← await (.putObject bucket.name finalKey file.buffer file.mimetype)
  let existingFile : Option FileEntity ←
    await (.fileFindOne { bucketId := bucket.id, key := finalKey, isLatest := some true })
  let version ← match existingFile with
    | none => pure 1
    | some existingFile => do
      let _ : FileEntity ← await (.fileSave { existingFile with isLatest := false })
      pure (existingFile.version + 1)
  await (.fileCreate
    { bucketId := bucket.id, key := finalKey, size := file.buffer.length, contentType := file.mimetype
      etag, version, isLatest := true })

/-- `FilesService.uploadFile`; `uuid` is the fresh UUID. -/
def uploadFile (userId : Option String) (bucketName : String) (file : Option UploadedFile)
    (key : Option String) (uuid : String) : StorageProgram FileEntity := do
  let bucket ← getBucketOrThrow userId bucketName true
  let maxSizeMb ← getMaxFileSizeMb DEFAULT_MAX_FILE_SIZE_MB
  match file with
  | none => throw (.thrown "Cannot read properties of undefined (reading 'size')")
  | some file =>
    if file.exceeds maxSizeMb then throw (tooLarge maxSizeMb)
    else storeFile bucket file (match key with | none | some "" => uuid | some key => key)

structure Download where
  stream : StoredObject
  contentType : String
  size : ℚ
  etag : String
  deriving DecidableEq, Repr

def downloadFile (userId : Option String) (bucketName key : String) (version : Option IntNumber) :
    StorageProgram Download := do
  let bucket ← getBucketOrThrow userId bucketName false
  let criteria : FileWhere := match version with
    | some version => { bucketId := bucket.id, key, version := some version }
    | none => { bucketId := bucket.id, key, isLatest := some true }
  let fileRecord : Option FileEntity ← await (.fileFindOne criteria)
  match fileRecord with
  | none => throw (.notFound "File not found")
  | some fileRecord =>
    let stream : StoredObject ← await (.getObject bucket.name key)
    return { stream, contentType := fileRecord.contentType, size := fileRecord.size, etag := fileRecord.etag }

def deleteFile (userId : Option String) (bucketName key : String) : StorageProgram Unit := do
  let bucket ← getBucketOrThrow userId bucketName true
  let fileRecord : Option FileEntity ← await (.fileFindOne { bucketId := bucket.id, key })
  match fileRecord with
  | none => throw (.notFound "File not found")
  | some fileRecord =>
    await (.removeObject bucket.name key)
    await (.fileRemove fileRecord)

def listFiles (userId : Option String) (bucketName : String) (page pageSize : ℕ) :
    StorageProgram (Page FileEntity) := do
  let bucket ← getBucketOrThrow userId bucketName true
  let (data, total) ← await (.fileFindAndCount bucket.id ((page - 1) * pageSize) pageSize)
  return { data, total, page, pageSize }

def generatePresignedUrl (userId : Option String) (bucketName key : String) (expirySeconds : ℕ)
    (method : String) : StorageProgram String := do
  let bucket ← getBucketOrThrow userId bucketName true
  if method = "GET" ∨ method = "PUT" then
    await (.presignedObject method bucket.name key expirySeconds)
  else throw (.badRequest "Invalid method")

end EdgeSphere.Storage
