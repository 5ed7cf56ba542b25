import EdgeSphere.Storage.Downloads

/-!
# Who is served a file

No guard stands before the download, and nothing else sets `req.user`: the service asks for the file on behalf of
nobody, whatever the header says.

* `Entitled` — the bucket is public, or the header carries a token of its owner;
* `Decides` — the file is served to those who are entitled, and the others get an error;
* `decides_iff` — **the exact condition**: the request is not entitled, or the bucket is public and the stores answer.
-/

namespace EdgeSphere.Storage

open EdgeSphere.Library
open EdgeSphere.Library.Program

/-- `version ? parseInt(version, 10) : undefined`. -/
def parsedVersion : Option String → Option IntNumber
  | none | some "" => none
  | some version => some (parseInt version)

/-- The call of the service that every request for this file makes. -/
def anonymousCall (services : Services) (version : Option String) : DownloadCall :=
  { userId := none, version := parsedVersion version, services }

section Access

variable (verify : String → Option JwtPayload) (services : Services) (bucket : BucketEntity)

/-- Public, or a bearer token that verifies, with the owner for its subject. -/
def Entitled (r : Request) : Prop :=
  bucket.isPublic = true ∨
    ∃ payload, jwtAuthGuard verify r.authorization = .ok payload ∧ payload.sub = some bucket.userId

/-- The answer to a request; `findOne` may pick any row that matches. -/
def Request.reply (s : Stores) (r : Request) : Except Exception Reply := (exec services.handle s (r.program verify)).2

/-- The decision about an object. -/
structure Decides (s : Stores) (r : Request) (object : StoredObject) : Prop where
  serves : Entitled verify bucket r →
    ∃ content : Download, r.reply verify services s = .ok (.download content) ∧ content.stream = object
  refuses : ¬ Entitled verify bucket r → ∃ e, r.reply verify services s = .error e

variable {verify services bucket} {s : Stores} {r : Request} {key : String} {version : Option String}

/-- The handler passes nobody on. -/
theorem program_downloadFile {name : String} (hroute : r.route = .downloadFile name key version) :
    r.program verify
      = (downloadFile none name key (parsedVersion version)).bind fun content => ret (.download content) := by
  have hguarded : r.route.guarded = false := by rw [hroute]; rfl
  unfold Request.program
  rw [if_neg (by rw [hguarded]; exact Bool.false_ne_true), hroute]
  show (downloadFile none name key _).bind _ = _
  refine congrArg (fun parsed => (downloadFile none name key parsed).bind _) ?_
  unfold parsedVersion
  cases version with
  | none => rfl
  | some text =>
    by_cases htext : text = ""
    · subst htext
      rfl
    · split <;> simp_all

/-- A service whose command succeeds has answered. -/
theorem answers_of_ok {c : Command} {a : Answer c} {s' : Stores} (hmemory : c.inMemory = false)
    (h : exec services.handle s (await c) = (s', .ok a)) : (services.answers c).isSome = true := by
  rw [exec_command] at h
  cases hanswer : services.answers c with
  | some text => rfl
  | none =>
    rw [Services.handle_of_none hmemory hanswer] at h
    cases h

/-- **What is answered was public**, and every store answered. -/
theorem answered_of_ok (h : s.buckets.findByName bucket.name = some bucket)
    (hroute : r.route = .downloadFile bucket.name key version) {reply : Reply}
    (hreply : r.reply verify services s = .ok reply) : (anonymousCall services version).Answered bucket key := by
  unfold Request.reply at hreply
  rw [program_downloadFile hroute] at hreply
  obtain ⟨s₁, content, hdownload, -⟩ := exec_bind_ok services.handle (Prod.ext rfl hreply)
  unfold downloadFile at hdownload
  obtain ⟨s₂, found, hbucket, hdownload⟩ := exec_bind_ok _ hdownload
  rw [services.exec_getBucketOrThrow h] at hbucket
  cases hfind : services.answers (.bucketFindByName bucket.name) with
  | none =>
    rw [hfind] at hbucket
    cases hbucket
  | some text =>
    rw [hfind] at hbucket
    dsimp only at hbucket
    split at hbucket
    · rename_i hallowed
      obtain ⟨rfl, hfound⟩ := Prod.mk.inj hbucket
      obtain rfl := Except.ok.inj hfound
      obtain ⟨s₃, record, hfile, hdownload⟩ := exec_bind_ok _ hdownload
      cases record with
      | none => cases hdownload
      | some row =>
        obtain ⟨s₄, object, hobject, -⟩ := exec_bind_ok _ hdownload
        refine ⟨hallowed.imp_right And.right, ?_, answers_of_ok rfl hfile, answers_of_ok rfl hobject⟩
        show (services.answers _).isSome = true
        rw [hfind]
        rfl
    · cases hbucket

/-- A file that exists is served from a public bucket. -/
theorem served_of_answered (h : s.buckets.findByName bucket.name = some bucket)
    (hroute : r.route = .downloadFile bucket.name key version)
    (hanswered : (anonymousCall services version).Answered bucket key) {f : FileEntity} (hf : f ∈ s.files.rows)
    (hholds : ((anonymousCall services version).criteria bucket key).holds f = true) {object : StoredObject}
    (hobject : s.object bucket.name key = some object) :
    ∃ content : Download, r.reply verify services s = .ok (.download content) ∧ content.stream = object := by
  cases hfind : services.findOne s.files ((anonymousCall services version).criteria bucket key) with
  | none =>
    rw [services.findOne_eq_none hfind f hf] at hholds
    cases hholds
  | some g =>
    have hdownload := exec_downloadFile h hanswered hfind hobject
    unfold DownloadCall.step at hdownload
    unfold Request.reply
    rw [program_downloadFile hroute, exec_bind]
    cases hexec : exec services.handle s (downloadFile none bucket.name key (parsedVersion version)) with
    | mk s' content =>
      obtain rfl : content = _ := (congrArg Prod.snd hexec).symm.trans hdownload
      exact ⟨_, rfl, rfl⟩

/-- **Who is served.**  For every state of the tables and every request for a file that exists: the decision is right
iff the request is not entitled to the file, or the bucket is public and the three stores answer. -/
theorem decides_iff (h : s.buckets.findByName bucket.name = some bucket)
    (hroute : r.route = .downloadFile bucket.name key version) {f : FileEntity} (hf : f ∈ s.files.rows)
    (hholds : ((anonymousCall services version).criteria bucket key).holds f = true) {object : StoredObject}
    (hobject : s.object bucket.name key = some object) :
    Decides verify services bucket s r object ↔
      ¬ Entitled verify bucket r ∨ (anonymousCall services version).Answered bucket key := by
  constructor
  · intro hdecides
    by_cases hentitled : Entitled verify bucket r
    · obtain ⟨content, hreply, -⟩ := hdecides.serves hentitled
      exact .inr (answered_of_ok h hroute hreply)
    · exact .inl hentitled
  · intro hcondition
    refine ⟨fun hentitled => ?_, fun hnot => ?_⟩
    · rcases hcondition with hnot | hanswered
      · exact absurd hentitled hnot
      · exact served_of_answered h hroute hanswered hf hholds hobject
    · cases hreply : r.reply verify services s with
      | error e => exact ⟨e, rfl⟩
      | ok reply =>
        rcases (answered_of_ok h hroute hreply).allowed with howner | hpublic
        · cases howner
        · exact absurd (.inl hpublic) hnot

end Access

/-! ### The owner of a picture -/

/-- One picture in a bucket of `user-1`. -/
def pictureBucket (isPublic : Bool) : BucketEntity :=
  { id := "b-1", userId := "user-1", name := "photos", region := "us-east-1", isPublic }

def pictureRow : FileEntity :=
  { bucketId := "b-1", key := "a.png", size := 3, contentType := "image/png", etag := "e", version := 1
    isLatest := true, id := "f-1" }

def pictureStore (isPublic : Bool) : Stores where
  buckets := ⟨[pictureBucket isPublic], List.nodup_singleton _, List.nodup_singleton _⟩
  files := ⟨[pictureRow], List.nodup_singleton _⟩
  minioBuckets := ["photos"]
  objects := [⟨"photos", "a.png", .put [1, 2, 3] "image/png"⟩]
  sessions _ := none

/-- One token verifies: the owner's. -/
def verifyOwner (token : String) : Option JwtPayload := if token = "t-1" then some ⟨some "user-1"⟩ else none

def pictureRequest : Request :=
  { route := .downloadFile "photos" "a.png" none, authorization := some "Bearer t-1", answers := fun _ => some "ok" }

def answering : Services := ⟨fun _ => some "ok", .newest⟩

/-- The rule at a public bucket. -/
theorem decides_public : Decides verifyOwner answering (pictureBucket true) (pictureStore true) pictureRequest
    (.put [1, 2, 3] "image/png") :=
  (decides_iff (by decide) (rfl : pictureRequest.route = .downloadFile "photos" "a.png" none)
    (List.mem_singleton.mpr rfl : pictureRow ∈ [pictureRow]) rfl rfl).mpr (.inr ⟨.inr rfl, rfl, rfl, rfl⟩)

/-- **The owner of a private bucket is refused**, with a token that verifies. -/
theorem owner_refused :
    Entitled verifyOwner (pictureBucket false) pictureRequest ∧
      pictureRequest.reply verifyOwner answering (pictureStore false) = .error (.forbidden "Access denied") ∧
      ¬ Decides verifyOwner answering (pictureBucket false) (pictureStore false) pictureRequest
        (.put [1, 2, 3] "image/png") := by
  have hentitled : Entitled verifyOwner (pictureBucket false) pictureRequest := .inr ⟨⟨some "user-1"⟩, rfl, rfl⟩
  have hreply : pictureRequest.reply verifyOwner answering (pictureStore false)
      = .error (.forbidden "Access denied") := rfl
  refine ⟨hentitled, hreply, fun hdecides => ?_⟩
  obtain ⟨content, hok, -⟩ := hdecides.serves hentitled
  rw [hreply] at hok
  cases hok

end EdgeSphere.Storage
