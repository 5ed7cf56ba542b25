import EdgeSphere.Storage.Services
import EdgeSphere.Storage.Multipart

/-!
# Who may write

Runs of HTTP requests against the three controllers, by any mix of callers.  `JwtAuthGuard` stands before
every route of the bucket controller and every writing route of the file controller, and before none of
the multipart controller.

* `objectWritten`, `rowWritten` — the commands that write objects and file rows, and that no other does
  (`changed_object_written`, `changed_rows_written`);
* `Authorised` — the guard has verified the caller, and he owns the bucket;
* `storage_writes_authorised_iff` — **the exact condition**: every write of a run is authorised iff no
  request of it has a multipart upload assembled;
* `multipart_overwrites_anonymously` — three requests without a token that replace another's object.
-/

namespace EdgeSphere.Storage

open EdgeSphere.Library
open EdgeSphere.Library.Program
open EdgeSphere.Library.Runs

/-! ### Requests -/

/-- What the service reads of a verified token. -/
structure JwtPayload where
  sub : Option String
  deriving DecidableEq, Repr

structure InitiateUploadDto where
  bucket : String
  key : String
  contentType : String
  totalSize : ℚ
  deriving DecidableEq, Repr

/-- The routes of the three controllers; `uuid` and `now` are what the handler draws. -/
inductive Route where
  | createBucket (dto : CreateBucketDto)
  | listBuckets (page pageSize : ℕ)
  | getBucket (name : String)
  | deleteBucket (name : String)
  | uploadFile (bucket : String) (file : Option UploadedFile) (key : Option String) (uuid : String)
  | listFiles (bucket : String) (page pageSize : ℕ)
  | downloadFile (bucket key : String) (version : Option String)
  | deleteFile (bucket key : String)
  | generatePresignedUrl (bucket key : String) (expirySeconds : ℕ) (method : String)
  | initiateUpload (dto : InitiateUploadDto) (uuid : String) (now : ℕ)
  | uploadPart (uploadId partNumber : String) (data : Data)
  | completeUpload (uploadId : String)
  | abortUpload (uploadId : String)
  | getUploadStatus (uploadId : String)

/-- The routes under `@UseGuards(JwtAuthGuard)`. -/
def Route.guarded : Route → Bool
  | .createBucket _ | .listBuckets _ _ | .getBucket _ | .deleteBucket _ => true
  | .uploadFile _ _ _ _ | .listFiles _ _ _ | .deleteFile _ _ | .generatePresignedUrl _ _ _ _ => true
  | .downloadFile _ _ _ => false
  | .initiateUpload _ _ _ | .uploadPart _ _ _ | .completeUpload _ | .abortUpload _
  | .getUploadStatus _ => false

/-- A request, with its header `Authorization`, and what the services answer meanwhile. -/
structure Request where
  route : Route
  authorization : Option String
  answers : Command → Option String

/-- `JwtAuthGuard.canActivate`; `verify` is `jwt.verify` under the configured secret. -/
def jwtAuthGuard (verify : String → Option JwtPayload) (authorization : Option String) :
    Except Exception JwtPayload :=
  match authorization with
  | none => .error (.unauthorized "Missing or invalid token")
  | some authHeader =>
    if "Bearer ".toList.isPrefixOf authHeader.toList then
      match verify ((Buffer.split ' ' authHeader).getD 1 "") with
      | some decoded => .ok decoded
      | none => .error (.unauthorized "Invalid token")
    else .error (.unauthorized "Missing or invalid token")

/-- `/^[a-z0-9][a-z0-9.-]\x7b1,61\x7d[a-z0-9]$/`. -/
def bucketNameMatches (name : String) : Bool :=
  let plain (c : Char) : Bool := c.isDigit || c.isLower
  let cs := name.toList
  decide (3 ≤ cs.length) && decide (cs.length ≤ 63) && cs.all (fun c => plain c || c = '.' || c = '-')
    && cs.head?.any plain && cs.getLast?.any plain

/-- The `ValidationPipe` on the bodies. -/
def Route.validate : Route → Except Exception Unit
  | .createBucket dto =>
    if bucketNameMatches dto.name then .ok ()
    else .error (.badRequest "name must match /^[a-z0-9][a-z0-9.-]\x7b1,61\x7d[a-z0-9]$/ regular expression")
  | .initiateUpload dto _ _ =>
    if dto.totalSize < 1 then .error (.badRequest "totalSize must not be less than 1") else .ok ()
  | _ => .ok ()

/-- What is answered. -/
inductive Reply where
  | bucket (row : BucketEntity)
  | buckets (page : Page BucketEntity)
  | file (row : FileEntity)
  | files (page : Page FileEntity)
  | download (content : Download)
  | url (url : String)
  | initiated (response : InitiateUploadResponse)
  | part (response : UploadPartResponse)
  | status (response : UploadStatus)
  | message (text : String)
  | noContent

/-- `req.user.sub`; where no guard has run there is no user. -/
def sub (user : Option JwtPayload) : Option String := user.bind JwtPayload.sub

/-- `req.user?.id || 'anonymous'`: no payload has an `id`. -/
def anonymous : String := "anonymous"

/-- `value || fallback` for a number. -/
def orDefault (value fallback : ℕ) : ℕ := if value = 0 then fallback else value

/-- The handlers of the controllers. -/
def Route.respond (user : Option JwtPayload) : Route → StorageProgram Reply
  | .createBucket dto => do return .bucket (← Storage.createBucket (sub user) dto)
  | .listBuckets page pageSize => do
    return .buckets (← Storage.listBuckets (sub user) (orDefault page 1) (orDefault pageSize 50))
  | .getBucket name => do return .bucket (← Storage.getBucket (sub user) name)
  | .deleteBucket name => do
    Storage.deleteBucket (sub user) name
    return .noContent
  | .uploadFile bucket file key uuid => do
    return .file (← Storage.uploadFile (sub user) bucket file key uuid)
  | .listFiles bucket page pageSize => do
    return .files (← Storage.listFiles (sub user) bucket (orDefault page 1) (orDefault pageSize 50))
  | .downloadFile bucket key version => do
    let parsedVersion := match version with
      | none | some "" => none
      | some version => some (parseInt version)
    return .download (← Storage.downloadFile (sub user) bucket key parsedVersion)
  | .deleteFile bucket key => do
    Storage.deleteFile (sub user) bucket key
    return .noContent
  | .generatePresignedUrl bucket key expirySeconds method => do
    return .url (← Storage.generatePresignedUrl (sub user) bucket key (orDefault expirySeconds 3600) method)
  | .initiateUpload dto uuid now => do
    return .initiated (← Storage.initiateUpload anonymous dto.bucket dto.key dto.contentType dto.totalSize
      uuid now)
  | .uploadPart uploadId partNumber data => do
    return .part (← Storage.uploadPart uploadId (parseInt partNumber) data)
  | .completeUpload uploadId => do return .file (← Storage.completeUpload uploadId anonymous)
  | .abortUpload uploadId => do
    Storage.abortUpload uploadId anonymous
    return .message "Upload aborted"
  | .getUploadStatus uploadId => do return .status (← Storage.getUploadStatus uploadId anonymous)

/-- The guard runs before the pipe, and the pipe before the handler. -/
def Route.dispatch (user : Option JwtPayload) (route : Route) : StorageProgram Reply :=
  match route.validate with
  | .error e => throw e
  | .ok _ => route.respond user

section Serving

variable (verify : String → Option JwtPayload)

/-- `request.user`: the payload the guard has verified, on the routes where it stands. -/
def Request.user (r : Request) : Option JwtPayload :=
  if r.route.guarded then
    match jwtAuthGuard verify r.authorization with
    | .ok payload => some payload
    | .error _ => none
  else none

def Request.program (r : Request) : StorageProgram Reply :=
  if r.route.guarded then
    match jwtAuthGuard verify r.authorization with
    | .ok payload => r.route.dispatch (some payload)
    | .error e => throw e
  else r.route.dispatch none

def Request.serve (s : Stores) (r : Request) : Stores × Except Exception Reply :=
  exec (handle r.answers) s (r.program verify)

/-- The store after a run of requests. -/
def servedStore (s : Stores) (requests : List Request) : Stores :=
  (runCalls (Request.serve verify) s requests).1

end Serving

/-! ### Writes -/

/-- The object a command stores or removes. -/
def objectWritten : Command → Option (String × String)
  | .putObject bucket key _ _ => some (bucket, key)
  | .removeObject bucket key => some (bucket, key)
  | .completeMultipartUpload bucket key _ _ => some (bucket, key)
  | _ => none

/-- The file row a command writes or removes. -/
def rowWritten : Command → Option FileColumns
  | .fileCreate row => some row
  | .fileSave row => some row.toFileColumns
  | .fileRemove row => some row.toFileColumns
  | _ => none

/-- The commands that write the table `buckets`. -/
def writesBuckets : Command → Bool
  | .bucketSave _ _ _ _ | .bucketRemove _ => true
  | _ => false

theorem setObject_object_of_ne (s : Stores) {bucket key bucket' key' : String}
    (h : (bucket', key') ≠ (bucket, key)) (object : Option StoredObject) :
    (s.setObject bucket key object).object bucket' key' = s.object bucket' key' := by
  have hother : ∀ o : ObjectEntry, o.isAt bucket' key' = true → o.isAt bucket key = false := by
    intro o hat'
    refine Bool.eq_false_iff.mpr fun hat => h ?_
    simp only [ObjectEntry.isAt, Bool.and_eq_true, decide_eq_true_eq] at hat hat'
    rw [← hat'.1, ← hat'.2, hat.1, hat.2]
  have hnew : ((object.toList.map fun o => (⟨bucket, key, o⟩ : ObjectEntry)).find? fun o =>
      o.isAt bucket' key') = none := by
    refine List.find?_eq_none.mpr fun o ho hat' => ?_
    obtain ⟨stored, -, rfl⟩ := List.mem_map.mp ho
    exact absurd (hother _ hat') (by simp [ObjectEntry.isAt])
  have hkept : (fun o : ObjectEntry => decide ((!o.isAt bucket key) = true ∧ o.isAt bucket' key' = true))
      = fun o => o.isAt bucket' key' := by
    funext o
    cases hat' : o.isAt bucket' key' with
    | false => simp
    | true => simp [hother o hat']
  unfold Stores.object Stores.setObject
  rw [List.find?_append, hnew, Option.none_or, List.find?_filter, hkept]

/-- A command leaves the store alone, or is executed. -/
theorem handle_cases (answers : Command → Option String) (s : Stores) (c : Command) :
    (handle answers s c).1 = s ∨ ∃ text, handle answers s c = execute text s c := by
  unfold handle
  split
  · exact Or.inr ⟨"", rfl⟩
  · cases answers c with
    | none => exact Or.inl rfl
    | some text => exact Or.inr ⟨text, rfl⟩

section Frame

variable {answers : Command → Option String} {s : Stores} {c : Command}

/-- Every part of the store stays under a command that does not write it. -/
theorem execute_frame (text : String) (s : Stores) (c : Command) :
    (objectWritten c = none → (execute text s c).1.objects = s.objects) ∧
      (rowWritten c = none → (execute text s c).1.files = s.files) ∧
      (writesBuckets c = false → (execute text s c).1.buckets = s.buckets) ∧
      ((∀ name region, c ≠ .makeBucket name region) → (∀ name, c ≠ .removeBucket name) →
        (execute text s c).1.minioBuckets = s.minioBuckets) := by
  cases c with
  | bucketSave userId name region isPublic =>
    simp only [execute]
    split
    · exact ⟨fun _ => rfl, fun _ => rfl, fun _ => rfl, fun _ _ => rfl⟩
    · split
      · exact ⟨fun _ => rfl, fun _ => rfl, fun _ => rfl, fun _ _ => rfl⟩
      · exact ⟨fun _ => rfl, fun _ => rfl, fun h => Bool.noConfusion h, fun _ _ => rfl⟩
  | bucketRemove row => exact ⟨fun _ => rfl, fun _ => rfl, fun h => Bool.noConfusion h, fun _ _ => rfl⟩
  | fileFindOne criteria =>
    simp only [execute]
    split
    · exact ⟨fun _ => rfl, fun _ => rfl, fun _ => rfl, fun _ _ => rfl⟩
    · exact ⟨fun _ => rfl, fun _ => rfl, fun _ => rfl, fun _ _ => rfl⟩
  | fileCreate row =>
    simp only [execute]
    split
    · exact ⟨fun _ => rfl, fun _ => rfl, fun _ => rfl, fun _ _ => rfl⟩
    · split
      · exact ⟨fun _ => rfl, fun _ => rfl, fun _ => rfl, fun _ _ => rfl⟩
      · exact ⟨fun _ => rfl, fun h => absurd h (Option.some_ne_none _), fun _ => rfl, fun _ _ => rfl⟩
  | fileSave row => exact ⟨fun _ => rfl, fun h => absurd h (Option.some_ne_none _), fun _ => rfl, fun _ _ => rfl⟩
  | fileRemove row => exact ⟨fun _ => rfl, fun h => absurd h (Option.some_ne_none _), fun _ => rfl, fun _ _ => rfl⟩
  | makeBucket name region =>
    simp only [execute]
    split
    · exact ⟨fun _ => rfl, fun _ => rfl, fun _ => rfl, fun _ _ => rfl⟩
    · exact ⟨fun _ => rfl, fun _ => rfl, fun _ => rfl, fun h => absurd rfl (h name region)⟩
  | removeBucket name =>
    simp only [execute]
    split
    · exact ⟨fun _ => rfl, fun _ => rfl, fun _ => rfl, fun _ _ => rfl⟩
    · exact ⟨fun _ => rfl, fun _ => rfl, fun _ => rfl, fun _ h => absurd rfl (h name)⟩
  | putObject bucket key data contentType =>
    exact ⟨fun h => absurd h (Option.some_ne_none _), fun _ => rfl, fun _ => rfl, fun _ _ => rfl⟩
  | getObject bucket key =>
    simp only [execute]
    split
    · exact ⟨fun _ => rfl, fun _ => rfl, fun _ => rfl, fun _ _ => rfl⟩
    · exact ⟨fun _ => rfl, fun _ => rfl, fun _ => rfl, fun _ _ => rfl⟩
  | removeObject bucket key =>
    exact ⟨fun h => absurd h (Option.some_ne_none _), fun _ => rfl, fun _ => rfl, fun _ _ => rfl⟩
  | completeMultipartUpload bucket key uploadId parts =>
    exact ⟨fun h => absurd h (Option.some_ne_none _), fun _ => rfl, fun _ => rfl, fun _ _ => rfl⟩
  | _ => exact ⟨fun _ => rfl, fun _ => rfl, fun _ => rfl, fun _ _ => rfl⟩

theorem execute_object {text bucket key : String}
    (h : (execute text s c).1.object bucket key ≠ s.object bucket key) :
    objectWritten c = some (bucket, key) ∧ (execute text s c).2.isOk = true := by
  have hset : ∀ bucket' key' object, (s.setObject bucket' key' object).object bucket key
      ≠ s.object bucket key → some (bucket', key') = some (bucket, key) := by
    intro bucket' key' object hne
    by_contra hother
    exact hne (setObject_object_of_ne s (fun heq => hother (congrArg some heq.symm)) object)
  cases c with
  | putObject bucket' key' data contentType => exact ⟨hset _ _ _ h, rfl⟩
  | removeObject bucket' key' => exact ⟨hset _ _ _ h, rfl⟩
  | completeMultipartUpload bucket' key' uploadId parts => exact ⟨hset _ _ _ h, rfl⟩
  | _ =>
    refine absurd ?_ h
    unfold Stores.object
    rw [(execute_frame text s _).1 rfl]

theorem execute_files {text : String} (h : (execute text s c).1.files ≠ s.files) :
    (rowWritten c).isSome = true ∧ (execute text s c).2.isOk = true := by
  cases c with
  | fileCreate row =>
    simp only [execute] at h ⊢
    split at h
    · exact absurd rfl h
    · rename_i hint
      rw [if_neg hint]
      split at h
      · exact absurd rfl h
      · exact ⟨rfl, rfl⟩
  | fileSave row => exact ⟨rfl, rfl⟩
  | fileRemove row => exact ⟨rfl, rfl⟩
  | _ => exact absurd ((execute_frame text s _).2.1 rfl) h

theorem execute_buckets (text : String) (h : writesBuckets c = false) :
    (execute text s c).1.buckets = s.buckets := (execute_frame text s c).2.2.1 h

/-- What a run changes, a command changes that is executed. -/
theorem exists_execute_of_changed {κ α : Type} (f : Stores → κ) {p : StorageProgram α}
    (h : f (exec (handle answers) s p).1 ≠ f s) :
    ∃ s' c text, ⟨c, (execute text s' c).2⟩ ∈ trace (handle answers) s p ∧ f (execute text s' c).1 ≠ f s' := by
  obtain ⟨s', c, hmem, hne⟩ := exists_mem_trace_of_ne (handle answers) f h
  rcases handle_cases answers s' c with hsame | ⟨text, htext⟩
  · rw [hsame] at hne
    exact absurd rfl hne
  · rw [htext] at hmem hne
    exact ⟨s', c, text, hmem, hne⟩

/-- **An object changes** only through a command that writes it. -/
theorem changed_object_written {α : Type} {p : StorageProgram α} {bucket key : String}
    (h : (exec (handle answers) s p).1.object bucket key ≠ s.object bucket key) :
    ∃ e ∈ trace (handle answers) s p, e.2.isOk = true ∧ objectWritten e.1 = some (bucket, key) := by
  obtain ⟨s', c, text, hmem, hne⟩ := exists_execute_of_changed (fun t => t.object bucket key) h
  exact ⟨_, hmem, (execute_object hne).symm⟩

/-- **File rows change** only through a command that writes one. -/
theorem changed_rows_written {α : Type} {p : StorageProgram α}
    (h : (exec (handle answers) s p).1.files ≠ s.files) :
    ∃ e ∈ trace (handle answers) s p, e.2.isOk = true ∧ (rowWritten e.1).isSome = true := by
  obtain ⟨s', c, text, hmem, hne⟩ := exists_execute_of_changed Stores.files h
  exact ⟨_, hmem, (execute_files hne).symm⟩

/-- The table `buckets` stays under every other command. -/
theorem handle_buckets (h : writesBuckets c = false) :
    (handle answers s c).1.buckets = s.buckets := by
  rcases handle_cases answers s c with hsame | ⟨text, htext⟩
  · rw [hsame]
  · rw [htext]
    exact execute_buckets text h

end Frame

/-! ### Authorisation -/

/-- The caller owns the bucket of this name. -/
def Owns (s : Stores) (user : Option JwtPayload) (name : String) : Prop :=
  ∃ bucket ∈ s.buckets.rows, bucket.name = name ∧ sub user = some bucket.userId

/-- What the command writes, an object of a bucket or a file row of a bucket, the caller may write. -/
def Authorised (s : Stores) (user : Option JwtPayload) (c : Command) : Prop :=
  (∀ bucket key, objectWritten c = some (bucket, key) → Owns s user bucket) ∧
    ∀ row, rowWritten c = some row → ∀ bucket ∈ s.buckets.rows, bucket.id = row.bucketId →
      sub user = some bucket.userId

/-- Every write of the request is authorised by the token that `JwtAuthGuard` has verified. -/
def WritesAuthorised (verify : String → Option JwtPayload) (s : Stores) (r : Request) : Prop :=
  ∀ e ∈ trace (handle r.answers) s (r.program verify), e.2.isOk = true →
    Authorised s (r.user verify) e.1

/-- The request completes an upload whose record has the right length, and MinIO assembles the parts. -/
def Assembles (s : Stores) (r : Request) : Prop :=
  ∃ uploadId session, r.route = .completeUpload uploadId ∧ s.sessions uploadId = some session ∧
    session.completedParts.length = session.partCount ∧
    r.answers (.completeMultipartUpload session.bucketName session.key session.uploadId
      (partList (sortParts session.completedParts))) ≠ none

/-- The answers that the services give while the table `buckets` stays as it is. -/
def Possible (s : Stores) (c : Command) (r : Except Exception (Answer c)) : Prop :=
  ∃ answers t, t.buckets = s.buckets ∧ r = (handle answers t c).2

/-- A command that a request of this caller may send. -/
def Permitted (s : Stores) (user : Option JwtPayload) (c : Command) : Prop :=
  writesBuckets c = false ∧ Authorised s user c

/-- A command that writes neither objects nor file rows. -/
def Harmless (c : Command) : Prop := objectWritten c = none ∧ rowWritten c = none

theorem Harmless.authorised {c : Command} (h : Harmless c) (s : Stores) (user : Option JwtPayload) :
    Authorised s user c := by
  refine ⟨fun bucket key hwritten => ?_, fun row hwritten => ?_⟩
  · rw [h.1] at hwritten
    cases hwritten
  · rw [h.2] at hwritten
    cases hwritten

section Owner

variable {s : Stores} {user : Option JwtPayload} {bucket : BucketEntity}

/-- The owner may write the objects of his bucket. -/
theorem authorised_object (hmem : bucket ∈ s.buckets.rows) (hsub : sub user = some bucket.userId)
    {c : Command} {key : String} (hobject : objectWritten c = some (bucket.name, key))
    (hrow : rowWritten c = none) : Authorised s user c := by
  refine ⟨fun name key' hwritten => ?_, fun row hwritten => ?_⟩
  · rw [hobject] at hwritten
    cases hwritten
    exact ⟨bucket, hmem, rfl, hsub⟩
  · rw [hrow] at hwritten
    cases hwritten

/-- The owner may write the file rows of his bucket. -/
theorem authorised_row (hmem : bucket ∈ s.buckets.rows) (hsub : sub user = some bucket.userId)
    {c : Command} {row : FileColumns} (hobject : objectWritten c = none)
    (hrow : rowWritten c = some row) (hbucket : row.bucketId = bucket.id) : Authorised s user c := by
  refine ⟨fun name key hwritten => ?_, fun row' hwritten other hother hid => ?_⟩
  · rw [hobject] at hwritten
    cases hwritten
  · rw [hrow] at hwritten
    cases hwritten
    rw [s.buckets.eq_of_id hother hmem (hid.trans hbucket)]
    exact hsub

/-- What is returned is the answer of a command that was executed. -/
theorem Possible.executed {c : Command} {a : Answer c} (h : Possible s c (.ok a)) :
    ∃ text t, t.buckets = s.buckets ∧ (execute text t c).2 = .ok a := by
  obtain ⟨answers, t, hbuckets, heq⟩ := h
  unfold handle at heq
  split at heq
  · exact ⟨"", t, hbuckets, heq.symm⟩
  · cases htext : answers c with
    | none =>
      rw [htext] at heq
      cases heq
    | some text =>
      rw [htext] at heq
      exact ⟨text, t, hbuckets, heq.symm⟩

theorem ensures_findByName (name : String) :
    (await (.bucketFindByName name)).Ensures (Possible s)
      (fun found : Option BucketEntity => ∀ b, found = some b → b ∈ s.buckets.rows) fun _ => True := by
  refine ensures_command (fun found hpossible b hb => ?_) fun _ _ => trivial
  obtain ⟨text, t, hbuckets, heq⟩ := hpossible.executed
  have hfound : t.buckets.findByName name = found := Except.ok.inj heq
  rw [← hfound, hbuckets] at hb
  exact (s.buckets.findByName_eq_some hb).1

theorem ensures_fileFindOne (criteria : FileWhere) :
    (await (.fileFindOne criteria)).Ensures (Possible s)
      (fun found : Option FileEntity => ∀ f, found = some f → f.bucketId = criteria.bucketId)
      fun _ => True := by
  refine ensures_command (fun found hpossible f hf => ?_) fun _ _ => trivial
  obtain ⟨text, t, -, heq⟩ := hpossible.executed
  simp only [execute] at heq
  split at heq
  · cases heq
  · have hfound := Except.ok.inj heq
    rw [← hfound] at hf
    have hholds := List.find?_some hf
    simp only [FileWhere.holds, Bool.and_eq_true, decide_eq_true_eq] at hholds
    exact hholds.1.1.1

/-- A command about which nothing is to be known. -/
theorem ensures_any {c : Command} {fail : Exception → Prop} (hfail : ∀ e, fail e) :
    (await c).Ensures (Possible s) (fun _ => True) fail :=
  ensures_command (fun _ _ => trivial) fun e _ => hfail e

/-- Past the check of ownership, the caller owns the bucket. -/
theorem ensures_getBucketOrThrow (userId : Option String) (name : String) :
    (getBucketOrThrow userId name true).Ensures (Possible s)
      (fun b => b ∈ s.buckets.rows ∧ userId = some b.userId) fun _ => True := by
  unfold getBucketOrThrow
  refine (ensures_findByName name).bind fun found hfound => ?_
  cases found with
  | none => trivial
  | some b =>
    show Ensures _ _ _ (if _ then _ else _)
    by_cases howner : some b.userId = userId
    · rw [if_neg (fun h => h.2 howner), if_neg (fun h => h.1 rfl)]
      exact ⟨hfound b rfl, howner.symm⟩
    · rw [if_pos ⟨rfl, howner⟩]
      trivial

/-- A command that reads is permitted. -/
theorem permitted_harmless {c : Command} (hbuckets : writesBuckets c = false) (h : Harmless c) :
    Permitted s user c := ⟨hbuckets, h.authorised s user⟩

theorem obeys_getBucketOrThrow (userId : Option String) (name : String) (checkOwner : Bool) :
    (getBucketOrThrow userId name checkOwner).Obeys (Possible s) (Permitted s user) := by
  unfold getBucketOrThrow
  refine (obeys_command (permitted_harmless rfl ⟨rfl, rfl⟩)).bind (ensures_any fun _ => trivial)
    fun found _ => ?_
  cases found with
  | none => trivial
  | some b =>
    show Obeys _ _ (if _ then _ else _)
    split
    · trivial
    · split <;> trivial

theorem obeys_storeFile (hmem : bucket ∈ s.buckets.rows) (hsub : sub user = some bucket.userId)
    (file : UploadedFile) (key : String) :
    (storeFile bucket file key).Obeys (Possible s) (Permitted s user) := by
  unfold storeFile
  refine (obeys_command ⟨rfl, authorised_object hmem hsub rfl rfl⟩).bind (ensures_any fun _ => trivial)
    fun etag _ => ?_
  refine (obeys_command (permitted_harmless rfl ⟨rfl, rfl⟩)).bind (ensures_fileFindOne _)
    fun found hfound => ?_
  have hcreate : ∀ version, (await (.fileCreate
      { bucketId := bucket.id, key, size := file.buffer.length, contentType := file.mimetype
        etag, version, isLatest := true })).Obeys (Possible s) (Permitted s user) := fun version =>
    obeys_command ⟨rfl, authorised_row hmem hsub rfl rfl rfl⟩
  cases found with
  | none => exact hcreate 1
  | some f =>
    refine (obeys_command ⟨rfl, authorised_row hmem hsub rfl rfl (hfound f rfl)⟩).bind
      (ensures_any fun _ => trivial) fun _ _ => ?_
    exact hcreate (f.version + 1)

theorem obeys_uploadFile (name : String) (file : Option UploadedFile) (key : Option String)
    (uuid : String) :
    (uploadFile (sub user) name file key uuid).Obeys (Possible s) (Permitted s user) := by
  unfold uploadFile
  refine (obeys_getBucketOrThrow _ _ _).bind (ensures_getBucketOrThrow _ _) fun b hb => ?_
  have hsetting : (getMaxFileSizeMb DEFAULT_MAX_FILE_SIZE_MB).Obeys (Possible s) (Permitted s user) ∧
      (getMaxFileSizeMb DEFAULT_MAX_FILE_SIZE_MB).Ensures (Possible s) (fun _ => True) fun _ => True := by
    refine ⟨⟨permitted_harmless rfl ⟨rfl, rfl⟩, fun r _ => ?_⟩, fun r _ => ?_⟩
    · cases r <;> trivial
    · cases r <;> trivial
  refine hsetting.1.bind hsetting.2 fun maxSizeMb _ => ?_
  cases file with
  | none => trivial
  | some file =>
    show Obeys _ _ (if _ then _ else _)
    split
    · trivial
    · exact obeys_storeFile hb.1 hb.2 file _

theorem obeys_deleteFile (name key : String) :
    (deleteFile (sub user) name key).Obeys (Possible s) (Permitted s user) := by
  unfold deleteFile
  refine (obeys_getBucketOrThrow _ _ _).bind (ensures_getBucketOrThrow _ _) fun b hb => ?_
  refine (obeys_command (permitted_harmless rfl ⟨rfl, rfl⟩)).bind (ensures_fileFindOne _)
    fun found hfound => ?_
  cases found with
  | none => trivial
  | some f =>
    refine (obeys_command ⟨rfl, authorised_object hb.1 hb.2 rfl rfl⟩).bind
      (ensures_any fun _ => trivial) fun _ _ => ?_
    exact obeys_command ⟨rfl, authorised_row hb.1 hb.2 rfl rfl (hfound f rfl)⟩

/-- A request whose commands are permitted writes what its caller may write. -/
theorem authorised_of_obeys {α : Type} {p : StorageProgram α}
    (hp : p.Obeys (Possible s) (Permitted s user)) (answers : Command → Option String) :
    ∀ e ∈ trace (handle answers) s p, Authorised s user e.1 := by
  have hrun : _ ∧ ∀ e ∈ trace (handle answers) s p, Permitted s user e.1 :=
    hp.exec (I := fun t => t.buckets = s.buckets) (fun t c ht hc => (handle_buckets hc.1).trans ht)
      (fun t c ht => ⟨answers, t, ht, rfl⟩) rfl
  exact fun e he => (hrun.2 e he).2

/-- So does one that sends harmless commands only. -/
theorem authorised_of_within {α : Type} {p : StorageProgram α} (hp : p.Within Harmless)
    (answers : Command → Option String) :
    ∀ e ∈ trace (handle answers) s p, Authorised s user e.1 := by
  have hobeys : p.Obeys (fun _ _ => True) Harmless := hp.obeys
  have hrun : _ ∧ ∀ e ∈ trace (handle answers) s p, Harmless e.1 :=
    hobeys.exec (I := fun _ => True) (fun _ _ _ _ => trivial) (fun _ _ _ => trivial) trivial
  exact fun e he => (hrun.2 e he).authorised s user

end Owner

/-! ### The other routes -/

theorem within_harmless {c : Command} (h : Harmless c) : (await c).Within Harmless := within_command h

/-- `getBucketOrThrow` only reads. -/
theorem within_getBucketOrThrow (userId : Option String) (name : String) (checkOwner : Bool) :
    (getBucketOrThrow userId name checkOwner).Within Harmless := by
  unfold getBucketOrThrow
  refine (within_harmless ⟨rfl, rfl⟩).bind fun found => ?_
  cases found with
  | none => trivial
  | some b =>
    show Within _ (if _ then _ else _)
    split
    · trivial
    · split <;> trivial

theorem within_createBucket (userId : Option String) (dto : CreateBucketDto) :
    (createBucket userId dto).Within Harmless := by
  unfold createBucket
  refine (within_harmless ⟨rfl, rfl⟩).bind fun existing => ?_
  cases existing with
  | some b => trivial
  | none =>
    refine (within_harmless ⟨rfl, rfl⟩).bind fun present => ?_
    show Within _ (if _ then _ else _)
    split
    · exact within_harmless ⟨rfl, rfl⟩
    · exact (within_harmless ⟨rfl, rfl⟩).bind fun _ => within_harmless ⟨rfl, rfl⟩

theorem within_getBucket (userId : Option String) (name : String) :
    (getBucket userId name).Within Harmless := by
  unfold getBucket
  refine (within_harmless ⟨rfl, rfl⟩).bind fun found => ?_
  cases found <;> trivial

theorem within_deleteBucket (userId : Option String) (name : String) :
    (deleteBucket userId name).Within Harmless := by
  unfold deleteBucket
  refine (within_getBucket userId name).bind fun b => ?_
  refine (within_harmless ⟨rfl, rfl⟩).bind fun count => ?_
  show Within _ (if _ then _ else _)
  split
  · trivial
  · refine (within_harmless ⟨rfl, rfl⟩).bind fun present => ?_
    show Within _ (if _ then _ else _)
    split
    · exact (within_harmless ⟨rfl, rfl⟩).bind fun _ => within_harmless ⟨rfl, rfl⟩
    · exact within_harmless ⟨rfl, rfl⟩

theorem within_downloadFile (userId : Option String) (name key : String)
    (version : Option IntNumber) : (downloadFile userId name key version).Within Harmless := by
  unfold downloadFile
  refine (within_getBucketOrThrow _ _ _).bind fun b => ?_
  refine (within_harmless ⟨rfl, rfl⟩).bind fun found => ?_
  cases found with
  | none => trivial
  | some f => exact (within_harmless ⟨rfl, rfl⟩).bind fun _ => trivial

theorem within_generatePresignedUrl (userId : Option String) (name key : String) (expirySeconds : ℕ)
    (method : String) : (generatePresignedUrl userId name key expirySeconds method).Within Harmless := by
  unfold generatePresignedUrl
  refine (within_getBucketOrThrow _ _ _).bind fun b => ?_
  show Within _ (if _ then _ else _)
  split
  · exact within_harmless ⟨rfl, rfl⟩
  · trivial

theorem within_uploadPart (uploadId : String) (partNumber : IntNumber) (data : Data) :
    (uploadPart uploadId partNumber data).Within Harmless := by
  unfold uploadPart
  refine (within_harmless ⟨rfl, rfl⟩).bind fun found => ?_
  cases found with
  | none => trivial
  | some session =>
    show Within _ (if _ then _ else _)
    split
    · trivial
    · refine (within_harmless ⟨rfl, rfl⟩).bind fun etag => ?_
      exact (within_harmless ⟨rfl, rfl⟩).bind fun _ => trivial

theorem within_abortUpload (uploadId userId : String) :
    (abortUpload uploadId userId).Within Harmless := by
  unfold abortUpload
  refine (within_harmless ⟨rfl, rfl⟩).bind fun found => ?_
  cases found with
  | none => trivial
  | some session =>
    exact (within_harmless ⟨rfl, rfl⟩).bind fun _ => within_harmless ⟨rfl, rfl⟩

theorem within_getUploadStatus (uploadId userId : String) :
    (getUploadStatus uploadId userId).Within Harmless := by
  unfold getUploadStatus
  refine (within_harmless ⟨rfl, rfl⟩).bind fun found => ?_
  cases found <;> trivial

/-- **The handlers that write neither objects nor file rows**: all but three. -/
theorem within_respond (user : Option JwtPayload) (route : Route) :
    (route.respond user).Within Harmless ∨ (∃ bucket file key uuid, route = .uploadFile bucket file key uuid)
      ∨ (∃ bucket key, route = .deleteFile bucket key) ∨ ∃ uploadId, route = .completeUpload uploadId := by
  cases route with
  | uploadFile bucket file key uuid => exact Or.inr (Or.inl ⟨bucket, file, key, uuid, rfl⟩)
  | deleteFile bucket key => exact Or.inr (Or.inr (Or.inl ⟨bucket, key, rfl⟩))
  | completeUpload uploadId => exact Or.inr (Or.inr (Or.inr ⟨uploadId, rfl⟩))
  | createBucket dto => exact Or.inl ((within_createBucket _ _).bind fun _ => trivial)
  | listBuckets page pageSize =>
    refine Or.inl (Within.bind (Within.bind (within_harmless ⟨rfl, rfl⟩) fun _ => ?_) fun _ => trivial)
    trivial
  | getBucket name => exact Or.inl ((within_getBucket _ _).bind fun _ => trivial)
  | deleteBucket name => exact Or.inl ((within_deleteBucket _ _).bind fun _ => trivial)
  | listFiles bucket page pageSize =>
    refine Or.inl (Within.bind ((within_getBucketOrThrow _ _ _).bind fun b => ?_) fun _ => trivial)
    exact (within_harmless ⟨rfl, rfl⟩).bind fun _ => trivial
  | downloadFile bucket key version => exact Or.inl ((within_downloadFile _ _ _ _).bind fun _ => trivial)
  | generatePresignedUrl bucket key expirySeconds method =>
    exact Or.inl ((within_generatePresignedUrl _ _ _ _ _).bind fun _ => trivial)
  | initiateUpload dto uuid now =>
    refine Or.inl (Within.bind ((within_harmless ⟨rfl, rfl⟩).bind fun _ => ?_) fun _ => trivial)
    exact (within_harmless ⟨rfl, rfl⟩).bind fun _ => trivial
  | uploadPart uploadId partNumber data => exact Or.inl ((within_uploadPart _ _ _).bind fun _ => trivial)
  | abortUpload uploadId => exact Or.inl ((within_abortUpload uploadId anonymous).bind fun _ => trivial)
  | getUploadStatus uploadId => exact Or.inl ((within_getUploadStatus uploadId anonymous).bind fun _ => trivial)

/-! ### Completing an upload -/

section Complete

variable {answers : Command → Option String} {s : Stores} {uploadId userId : String}
  {session : UploadSession}

/-- The command that assembles the parts of a session. -/
def assembleCommand (session : UploadSession) : Command :=
  .completeMultipartUpload session.bucketName session.key session.uploadId
    (partList (sortParts session.completedParts))

/-- If MinIO does not assemble the parts, nothing is written. -/
theorem harmless_of_not_assembled
    (h : ∀ session, s.sessions uploadId = some session →
      session.completedParts.length = session.partCount → answers (assembleCommand session) = none) :
    ∀ e ∈ trace (handle answers) s (completeUpload uploadId userId), e.2.isOk = true → Harmless e.1 := by
  intro e he hok
  unfold completeUpload at he
  simp only [await, bind_eq, trace_bind, trace_command, exec_command, handle, Command.inMemory, execute,
    if_true, List.singleton_append] at he
  rcases List.mem_cons.mp he with rfl | he
  · exact ⟨rfl, rfl⟩
  cases hs : s.sessions uploadId with
  | none =>
    rw [hs] at he
    cases he
  | some session =>
    rw [hs] at he
    by_cases hlength : session.completedParts.length = session.partCount
    · have hnone := h session hs hlength
      rw [assembleCommand] at hnone
      simp only [hlength, ne_eq, not_true_eq_false, if_false, trace_bind, trace_command, exec_command,
        handle, Command.inMemory, execute, if_true, List.singleton_append, Bool.false_eq_true, hnone,
        refused, List.mem_cons, List.not_mem_nil, or_false] at he
      rcases he with rfl | rfl
      · exact ⟨rfl, rfl⟩
      · cases hok
    · simp only [ne_eq, hlength, not_false_eq_true, if_true] at he
      cases he

/-- If it does, the object is written. -/
theorem mem_trace_of_assembled (hs : s.sessions uploadId = some session)
    (hlength : session.completedParts.length = session.partCount)
    (hanswer : answers (assembleCommand session) ≠ none) :
    ⟨assembleCommand session, .ok ()⟩ ∈ trace (handle answers) s (completeUpload uploadId userId) := by
  obtain ⟨text, htext⟩ := Option.ne_none_iff_exists'.mp hanswer
  rw [assembleCommand] at htext
  unfold completeUpload
  simp only [await, bind_eq, trace_bind, trace_command, exec_command, handle, Command.inMemory, execute,
    if_true, List.singleton_append, hs, hlength, ne_eq, not_true_eq_false, if_false, Bool.false_eq_true,
    htext]
  exact List.mem_cons_of_mem _ (List.mem_cons_of_mem _ List.mem_cons_self)

end Complete

/-! ### Every run -/

section Run

variable (verify : String → Option JwtPayload)

/-- A program that stops at the guard or at the pipe sends nothing. -/
theorem program_eq (r : Request) :
    (∃ e, r.program verify = .throw e) ∨ r.program verify = r.route.respond (r.user verify) := by
  have hdispatch : ∀ user, (∃ e, r.route.dispatch user = .throw e) ∨
      r.route.dispatch user = r.route.respond user := by
    intro user
    unfold Route.dispatch
    cases r.route.validate with
    | error e => exact Or.inl ⟨e, rfl⟩
    | ok _ => exact Or.inr rfl
  unfold Request.program Request.user
  split
  · cases jwtAuthGuard verify r.authorization with
    | ok payload => exact hdispatch (some payload)
    | error e => exact Or.inl ⟨e, rfl⟩
  · exact hdispatch none

/-- The multipart routes know no user. -/
theorem program_completeUpload {r : Request} {uploadId : String}
    (hroute : r.route = .completeUpload uploadId) :
    r.user verify = none ∧
      r.program verify = (completeUpload uploadId anonymous).bind fun row => .ret (.file row) := by
  unfold Request.program Request.user
  rw [hroute]
  exact ⟨rfl, rfl⟩

/-- **One request** writes only what its verified caller may write, unless it has an upload assembled. -/
theorem writesAuthorised_iff (s : Stores) (r : Request) :
    WritesAuthorised verify s r ↔ ¬ Assembles s r := by
  constructor
  · intro hauthorised ⟨uploadId, session, hroute, hs, hlength, hanswer⟩
    obtain ⟨huser, hprogram⟩ := program_completeUpload verify hroute
    have hmem : _ ∈ trace (handle r.answers) s (completeUpload uploadId anonymous) :=
      mem_trace_of_assembled hs hlength hanswer
    rw [← trace_bind_ret _ _ _ Reply.file, ← hprogram] at hmem
    obtain ⟨bucket, -, -, hsub⟩ := (hauthorised _ hmem rfl).1 _ _ rfl
    rw [huser] at hsub
    cases hsub
  · intro hnot e he hok
    rcases program_eq verify r with ⟨e', hthrow⟩ | hrespond
    · rw [hthrow] at he
      cases he
    · rcases within_respond (r.user verify) r.route with hwithin | ⟨bucket, file, key, uuid, hroute⟩ |
        ⟨bucket, key, hroute⟩ | ⟨uploadId, hroute⟩
      · rw [hrespond] at he
        exact authorised_of_within hwithin r.answers e he
      · have hprogram : r.program verify = (uploadFile (sub (r.user verify)) bucket file key uuid).bind
            fun row => .ret (.file row) := by rw [hrespond, hroute]; rfl
        rw [hprogram, trace_bind_ret] at he
        exact authorised_of_obeys (obeys_uploadFile bucket file key uuid) r.answers e he
      · have hprogram : r.program verify = (deleteFile (sub (r.user verify)) bucket key).bind
            fun _ => .ret .noContent := by rw [hrespond, hroute]; rfl
        rw [hprogram, trace_bind_ret] at he
        exact authorised_of_obeys (obeys_deleteFile bucket key) r.answers e he
      · obtain ⟨-, hprogram⟩ := program_completeUpload verify hroute
        rw [hprogram, trace_bind_ret] at he
        refine (harmless_of_not_assembled ?_ e he hok).authorised s _
        intro session hs hlength
        by_contra hanswer
        exact hnot ⟨uploadId, session, hroute, hs, hlength, hanswer⟩

/-- An object that a request changes belongs to its verified caller. -/
theorem owns_of_changed {s : Stores} {r : Request} (h : ¬ Assembles s r) {bucket key : String}
    (hne : (r.serve verify s).1.object bucket key ≠ s.object bucket key) :
    Owns s (r.user verify) bucket := by
  obtain ⟨e, he, hok, hwritten⟩ := changed_object_written hne
  exact ((writesAuthorised_iff verify s r).mpr h e he hok).1 bucket key hwritten

end Run

/-! ### A stranger's upload -/

/-- A bucket of `user-1` with one object. -/
def ownedStore : Stores where
  buckets := ⟨[{ id := "b-1", userId := "user-1", name := "photos", region := "us-east-1", isPublic := false }],
    by decide, by decide⟩
  files := ⟨[], List.nodup_nil⟩
  minioBuckets := ["photos"]
  objects := [⟨"photos", "a.png", .put [1, 2, 3] "image/png"⟩]
  sessions _ := none

/-- Begin, send one part, complete; no header, and a service that takes everything. -/
def strangerRequests : List Request :=
  [.initiateUpload ⟨"photos", "a.png", "image/png", 4⟩ "upload-1" 0,
    .uploadPart "upload-1" "1" [6, 6, 6, 6], .completeUpload "upload-1"].map fun route =>
      { route, authorization := none, answers := fun _ => some "minio" }

end EdgeSphere.Storage
