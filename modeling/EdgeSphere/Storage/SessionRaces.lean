import EdgeSphere.Library.Interference
import EdgeSphere.Storage.Multipart

/-!
# Calls that share an upload session

The calls of `MultipartService` on one upload id, interleaved.  The map holds one object, which every call that has
looked it up goes on using, also after the entry is gone.

* `SessionCommand` — what is done to the map and the object, and what is awaited; alone, the methods do what they do
  against the map of values (`exec_uploadPart`, `exec_completeUpload`, `exec_abortUpload`, `exec_getUploadStatus`);
* `RemovesCleanly` — the condition on a step: a session is removed only when every part that MinIO has taken is
  recorded, and MinIO takes no part after that;
* `removed_stays` — **what is removed stays removed**, and later calls do not find it, in every run whose steps meet it.
-/

namespace EdgeSphere.Storage

open EdgeSphere.Library
open EdgeSphere.Library.Program
open EdgeSphere.Library.Runs

/-! ### The methods -/

/-- What a method does in memory, and what it awaits. -/
inductive SessionCommand where
  /-- `redisStore.get(…)`. -/
  | get
  /-- `session.completedParts.push(part)`. -/
  | push (part : UploadedPart)
  /-- `session.completedParts.sort(…)`, in place. -/
  | sort
  /-- `redisStore.set(…, session)`. -/
  | set
  /-- `redisStore.delete(…)`. -/
  | delete
  | service (c : Command)
  deriving DecidableEq

abbrev SessionAnswer : SessionCommand → Type
  | .get => Option UploadSession
  | .sort => List UploadedPart
  | .push _ | .set | .delete => Unit
  | .service c => Answer c

abbrev SessionProgram (α : Type) := Program SessionCommand SessionAnswer Exception α

abbrev perform (c : SessionCommand) : SessionProgram (SessionAnswer c) := command c

/-- The session of one upload id: the object, and whether the map has it. -/
structure SharedSession where
  present : Bool
  session : UploadSession
  stores : Stores

/-- Execute one command; `answers` are those of the services. -/
def SharedSession.handle (answers : Command → Option String) (s : SharedSession) :
    (c : SessionCommand) → SharedSession × Except Exception (SessionAnswer c)
  | .get => (s, .ok (if s.present then some s.session else none))
  | .push part => ({ s with session := s.session.push part }, .ok ())
  | .sort =>
    let sortedParts := sortParts s.session.completedParts
    ({ s with session := { s.session with completedParts := sortedParts } }, .ok sortedParts)
  | .set => ({ s with present := true }, .ok ())
  | .delete => ({ s with present := false }, .ok ())
  | .service c =>
    let out := Storage.handle answers s.stores c
    ({ s with stores := out.1 }, out.2)

namespace SharedSession

/-- `MultipartService.uploadPart`. -/
def uploadPart (partNumber : IntNumber) (data : Data) : SessionProgram UploadPartResponse := do
  let found : Option UploadSession ← perform .get
  match found with
  | none => throw (.notFound "Upload session not found")
  | some session =>
    if invalidPart partNumber session.partCount then throw (.badRequest "Invalid part number")
    else
      let etag : String ←
        perform (.service (.uploadPart session.bucketName session.key partNumber data session.uploadId))
      perform (.push ⟨partNumber, etag, data.length⟩)
      perform .set
      return { partNumber, etag, uploadedBytes := data.length }

/-- `MultipartService.completeUpload`. -/
def completeUpload (_userId : String) : SessionProgram FileEntity := do
  let found : Option UploadSession ← perform .get
  match found with
  | none => throw (.notFound "Upload session not found")
  | some session =>
    if session.completedParts.length ≠ session.partCount then
      throw (.badRequest "Not all parts completed")
    else
      let sortedParts : List UploadedPart ← perform .sort
      perform (.service (.completeMultipartUpload session.bucketName session.key session.uploadId
        (partList sortedParts)))
      let savedFile : FileEntity ← perform (.service (.fileCreate
        { bucketId := session.bucketName, key := session.key, size := session.totalSize
          contentType := session.contentType, etag := "multipart-etag", version := 1
          isLatest := true }))
      perform .delete
      perform (.service (.publishStorageEvent "file.uploaded" session.bucketName session.key session.totalSize))
      return savedFile

/-- `MultipartService.abortUpload`. -/
def abortUpload (_userId : String) : SessionProgram Unit := do
  let found : Option UploadSession ← perform .get
  match found with
  | none => return ()
  | some session =>
    perform (.service (.abortMultipartUpload session.bucketName session.key session.uploadId))
    perform .delete

/-- `MultipartService.getUploadStatus`. -/
def getUploadStatus (uploadId _userId : String) : SessionProgram UploadStatus := do
  let found : Option UploadSession ← perform .get
  match found with
  | none => throw (.notFound "Upload session not found")
  | some session =>
    let done := session.completedParts.length
    return {
      uploadId, key := session.key, totalSize := session.totalSize, completedParts := done
      totalParts := session.partCount, progress := ⌊(done : ℚ) / session.partCount * 100 + 1 / 2⌋
      expiresAt := session.expiresAt, status := "in_progress" }

end SharedSession

/-- The state with the session in the map of values. -/
def SharedSession.stored (uploadId : String) (s : SharedSession) : Stores :=
  s.stores.setSession uploadId (if s.present then some s.session else none)

section Alone

variable (answers : Command → Option String) (uploadId : String)

/-- The services that the methods call do not look at the sessions. -/
theorem handle_setSession (s : Stores) (session : Option UploadSession) (c : Command) (hc : c.inMemory = false) :
    handle answers (s.setSession uploadId session) c
      = ((handle answers s c).1.setSession uploadId session, (handle answers s c).2) := by
  unfold handle
  rw [hc, if_neg Bool.false_ne_true]
  cases answers c with
  | none => rfl
  | some text =>
    cases c with
    | sessionGet id => cases hc
    | sessionSet id session => cases hc
    | sessionDelete id => cases hc
    | bucketSave userId name region isPublic =>
      cases userId with
      | none => rfl
      | some userId =>
        simp only [execute, Bool.false_eq_true, if_false]
        cases hinsert : s.buckets.insert ⟨text, userId, name, region, isPublic⟩ with
        | none => simp [Stores.setSession, hinsert, refused]
        | some buckets => simp [Stores.setSession, hinsert]
    | fileFindOne criteria =>
      by_cases hnan : criteria.version = some .nan
      · simp [execute, hnan, refused]
      · simp [execute, hnan, Stores.setSession]
    | fileCreate row =>
      by_cases hsize : row.size.den ≠ 1
      · simp [execute, hsize, refused]
      · simp only [execute, Bool.false_eq_true, if_false, if_neg hsize]
        cases hinsert : s.files.insert { row with id := text } with
        | none => simp [Stores.setSession, hinsert, refused]
        | some files => simp [Stores.setSession, hinsert]
    | makeBucket name region =>
      by_cases hthere : name ∈ s.minioBuckets
      · simp [execute, hthere, refused, Stores.setSession]
      · simp [execute, hthere, Stores.setSession]
    | removeBucket name =>
      by_cases hobjects : (s.objects.any fun o => decide (o.bucket = name)) = true
      · simp only [execute, Bool.false_eq_true, if_false, hobjects, if_true, Stores.setSession]
        rfl
      · simp only [execute, Bool.false_eq_true, if_false, hobjects, Stores.setSession]
    | getObject bucket key =>
      simp only [execute, Bool.false_eq_true, if_false, Stores.object, Stores.setSession]
      cases (s.objects.find? fun o => o.isAt bucket key).map ObjectEntry.object with
      | none => rfl
      | some object => rfl
    | _ => rfl

variable (s : SharedSession)

theorem stored_sessions : (s.stored uploadId).sessions uploadId = if s.present then some s.session else none :=
  setSession_sessions _ _ _

theorem setSession_idem (stores : Stores) (session session' : Option UploadSession) :
    (stores.setSession uploadId session).setSession uploadId session' = stores.setSession uploadId session' := by
  unfold Stores.setSession
  rw [Function.update_idem]

/-- The session, where the methods look for it. -/
theorem handle_sessionGet : handle answers (s.stored uploadId) (.sessionGet uploadId)
    = (s.stored uploadId, .ok (if s.present then some s.session else none)) := by
  rw [← stored_sessions]
  rfl

/-- The two programs end alike: in what they leave, and with what they return or throw. -/
def Agree {α : Type} (s : SharedSession) (p : StorageProgram α) (q : SessionProgram α) : Prop :=
  exec (handle answers) (s.stored uploadId) p
    = ((exec (SharedSession.handle answers) s q).1.stored uploadId, (exec (SharedSession.handle answers) s q).2)

variable {answers uploadId s} {α : Type}

/-- Both await the same service. -/
theorem Agree.service {c : Command} (hc : c.inMemory = false) {p : Answer c → StorageProgram α}
    {q : Answer c → SessionProgram α} (h : ∀ stores a, Agree answers uploadId { s with stores } (p a) (q a)) :
    Agree answers uploadId s ((await c).bind p) ((perform (.service c)).bind q) := by
  have hservice : handle answers (s.stored uploadId) c
      = ((SharedSession.mk s.present s.session (handle answers s.stores c).1).stored uploadId,
          (handle answers s.stores c).2) := handle_setSession _ _ _ _ _ hc
  unfold Agree
  rw [exec_bind, exec_command, hservice, exec_bind, exec_command]
  simp only [SharedSession.handle]
  cases (handle answers s.stores c).2 with
  | error e => rfl
  | ok a => exact h _ a

/-- Both look the session up. -/
theorem Agree.get {p : Option UploadSession → StorageProgram α} {q : Option UploadSession → SessionProgram α}
    (h : Agree answers uploadId s (p (if s.present then some s.session else none))
      (q (if s.present then some s.session else none))) :
    Agree answers uploadId s ((await (.sessionGet uploadId)).bind p) ((perform .get).bind q) := by
  unfold Agree
  rw [exec_bind, exec_command, handle_sessionGet, exec_bind, exec_command]
  exact h

/-- Both remove it. -/
theorem Agree.delete {p : Unit → StorageProgram α} {q : Unit → SessionProgram α}
    (h : Agree answers uploadId { s with present := false } (p ()) (q ())) :
    Agree answers uploadId s ((await (.sessionDelete uploadId)).bind p) ((perform .delete).bind q) := by
  have hdelete : handle answers (s.stored uploadId) (.sessionDelete uploadId)
      = ((SharedSession.mk false s.session s.stores).stored uploadId, .ok ()) :=
    Prod.ext (setSession_idem uploadId s.stores _ _) rfl
  unfold Agree
  rw [exec_bind, exec_command, hdelete, exec_bind, exec_command]
  exact h

/-- One writes the value back where the other has changed the object. -/
theorem handle_sessionSet (hpresent : s.present = true) (session : UploadSession) :
    handle answers (s.stored uploadId) (.sessionSet uploadId session)
      = (SharedSession.stored uploadId { s with session }, .ok ()) := by
  refine Prod.ext ((setSession_idem uploadId s.stores _ _).trans ?_) rfl
  unfold SharedSession.stored
  rw [hpresent, if_pos rfl]

/-- Both sort the parts. -/
theorem Agree.sort (hpresent : s.present = true) {p : Unit → StorageProgram α}
    {q : List UploadedPart → SessionProgram α}
    (h : Agree answers uploadId
      { s with session := { s.session with completedParts := sortParts s.session.completedParts } }
      (p ()) (q (sortParts s.session.completedParts))) :
    Agree answers uploadId s
      ((await (.sessionSet uploadId { s.session with completedParts := sortParts s.session.completedParts })).bind p)
      ((perform .sort).bind q) := by
  unfold Agree
  rw [exec_bind, exec_command, handle_sessionSet hpresent, exec_bind, exec_command]
  exact h

/-- Both record a part. -/
theorem Agree.record (hpresent : s.present = true) (part : UploadedPart) {p : Unit → StorageProgram α}
    {q : Unit → SessionProgram α}
    (h : Agree answers uploadId { s with session := s.session.push part } (p ()) (q ())) :
    Agree answers uploadId s ((await (.sessionSet uploadId (s.session.push part))).bind p)
      ((perform (.push part)).bind fun _ => (perform .set).bind q) := by
  have hset : (SharedSession.mk true (s.session.push part) s.stores) = { s with session := s.session.push part } := by
    rw [← hpresent]
  unfold Agree
  rw [exec_bind, exec_command, handle_sessionSet hpresent, exec_bind, exec_command]
  show _ = ((exec _ (SharedSession.mk true (s.session.push part) s.stores) (q ())).1.stored uploadId,
    (exec _ (SharedSession.mk true (s.session.push part) s.stores) (q ())).2)
  rw [hset]
  exact h

variable (answers uploadId s)

/-- **Alone**, the upload of a part does what it does to a map of values. -/
theorem exec_uploadPart (partNumber : IntNumber) (data : Data) : Agree answers uploadId s
    (uploadPart uploadId partNumber data) (SharedSession.uploadPart partNumber data) := by
  refine Agree.get ?_
  cases hpresent : s.present with
  | false => rfl
  | true =>
    simp only [if_true]
    split
    · rfl
    · refine Agree.service rfl fun stores etag => ?_
      exact Agree.record (s := { s with stores }) hpresent _ rfl

/-- **Alone**, so does a completion. -/
theorem exec_completeUpload (userId : String) : Agree answers uploadId s
    (completeUpload uploadId userId) (SharedSession.completeUpload userId) := by
  refine Agree.get ?_
  cases hpresent : s.present with
  | false => rfl
  | true =>
    simp only [if_true]
    split
    · rfl
    · refine Agree.sort hpresent ?_
      refine Agree.service rfl fun stores _ => ?_
      refine Agree.service rfl fun stores savedFile => ?_
      refine Agree.delete ?_
      exact Agree.service rfl fun stores _ => rfl

/-- **Alone**, so does an abort. -/
theorem exec_abortUpload (userId : String) : Agree answers uploadId s
    (abortUpload uploadId userId) (SharedSession.abortUpload userId) := by
  refine Agree.get ?_
  cases hpresent : s.present with
  | false => rfl
  | true =>
    refine Agree.service rfl fun stores _ => ?_
    exact Agree.delete rfl

/-- **Alone**, so does a look at the status. -/
theorem exec_getUploadStatus (userId : String) : Agree answers uploadId s
    (getUploadStatus uploadId userId) (SharedSession.getUploadStatus uploadId userId) := by
  refine Agree.get ?_
  cases hpresent : s.present with
  | false => rfl
  | true => rfl

end Alone

/-! ### Interleavings -/

/-- A call on the upload id. -/
inductive SessionCall where
  | uploadPart (partNumber : IntNumber) (data : Data)
  | completeUpload (userId : String)
  | abortUpload (userId : String)
  | getUploadStatus (uploadId userId : String)

/-- What a call returns. -/
inductive SessionReply where
  | part (response : UploadPartResponse)
  | file (row : FileEntity)
  | aborted
  | status (status : UploadStatus)

def SessionCall.program : SessionCall → SessionProgram SessionReply
  | uploadPart partNumber data => do return .part (← SharedSession.uploadPart partNumber data)
  | completeUpload userId => do return .file (← SharedSession.completeUpload userId)
  | abortUpload userId => do
    SharedSession.abortUpload userId
    return .aborted
  | getUploadStatus uploadId userId => do return .status (← SharedSession.getUploadStatus uploadId userId)

/-- `abortUpload` of a session that is not there does nothing; the other calls throw. -/
def SessionCall.needsSession : SessionCall → Bool
  | abortUpload _ => false
  | _ => true

abbrev SessionPool (ι : Type*) := Pool SharedSession ι SessionCommand SessionAnswer Exception SessionReply

/-- One event: a call has its next command executed; the text is what the service returns, or `none` if it fails. -/
def sessionHandle (text : Option String) (s : SharedSession) (c : SessionCommand) :
    SharedSession × Except Exception (SessionAnswer c) := s.handle (fun _ => text) c

/-- MinIO has taken the part of the call, and it is not recorded yet. -/
def recording (p : SessionProgram SessionReply) : Bool := p.nextCommand.any fun
  | .push _ | .set => true
  | _ => false

/-- MinIO takes a part. -/
def SessionCommand.takesPart : SessionCommand → Bool
  | .service (.uploadPart _ _ _ _ _) => true
  | _ => false

variable {ι : Type*}

/-- The session is removed when every part that MinIO has taken is recorded, and MinIO takes no part of an upload that
has been removed. -/
def RemovesCleanly (pool : SessionPool ι) (event : ι × Option String) : Prop :=
  ((pool.procs event.1).nextCommand = some .delete → ∀ j, recording (pool.procs j) = false) ∧
    ((pool.procs event.1).nextCommand.any SessionCommand.takesPart = true → pool.state.present = false →
      event.2 = none)

instance [Fintype ι] (pool : SessionPool ι) (event : ι × Option String) : Decidable (RemovesCleanly pool event) :=
  inferInstanceAs (Decidable (_ ∧ _))

/-- What can be answered while the session is gone. -/
def WhileGone (c : SessionCommand) (r : Except Exception (SessionAnswer c)) : Prop :=
  match c, r with
  | .get, r => r = .ok none
  | .service (.uploadPart _ _ _ _ _), r => r.isOk = false
  | _, _ => True

/-- The call will not put the session back. -/
abbrev LetsGo (p : SessionProgram SessionReply) : Prop := p.Obeys WhileGone (· ≠ .set)

/-- Only `uploadPart` puts a session into the map. -/
theorem SessionCall.within_noSet {call : SessionCall} (h : ∀ n data, call ≠ .uploadPart n data) :
    call.program.Within (· ≠ .set) := by
  cases call with
  | uploadPart partNumber data => exact absurd rfl (h partNumber data)
  | completeUpload userId =>
    refine Within.bind (Within.bind (within_command (by simp)) fun found => ?_) fun _ => trivial
    cases found with
    | none => trivial
    | some session =>
      simp only []
      split
      · trivial
      · refine Within.bind (within_command (by simp)) fun sortedParts => ?_
        refine Within.bind (within_command (by simp)) fun _ => ?_
        refine Within.bind (within_command (by simp)) fun savedFile => ?_
        refine Within.bind (within_command (by simp)) fun _ => ?_
        exact Within.bind (within_command (by simp)) fun _ => trivial
  | abortUpload userId =>
    refine Within.bind (Within.bind (within_command (by simp)) fun found => ?_) fun _ => trivial
    cases found with
    | none => trivial
    | some session =>
      exact Within.bind (within_command (by simp)) fun _ => within_command (by simp)
  | getUploadStatus uploadId userId =>
    refine Within.bind (Within.bind (within_command (by simp)) fun found => ?_) fun _ => trivial
    cases found with
    | none => trivial
    | some session => trivial

/-- **Where a call can stand**: it will not put the session back, unless it is recording a part. -/
theorem SessionCall.every_letsGo (call : SessionCall) :
    call.program.Every fun p => LetsGo p ∨ recording p = true := by
  have hended : ∀ e, (Program.throw e : SessionProgram SessionReply).Every fun p => LetsGo p ∨ recording p = true :=
    fun e => .inl trivial
  cases call with
  | uploadPart partNumber data =>
    refine ⟨.inl ⟨SessionCommand.noConfusion, fun r hr => ?_⟩, fun r => ?_⟩
    · cases hr
      trivial
    · rcases r with e | found
      · exact hended e
      · cases found with
        | none => exact hended _
        | some session =>
          show Program.Every _ ((if invalidPart partNumber session.partCount then _ else _ :
            SessionProgram UploadPartResponse).bind _)
          split
          · exact hended _
          · refine ⟨.inl ⟨SessionCommand.noConfusion, fun r hr => ?_⟩, fun r => ?_⟩
            · cases r with
              | error e => trivial
              | ok etag => cases hr
            · cases r with
              | error e => exact hended e
              | ok etag =>
                -- the part is taken: the call is bound to put the session back
                refine ⟨.inr rfl, fun r => ?_⟩
                cases r with
                | error e => exact hended e
                | ok _ =>
                  refine ⟨.inr rfl, fun r => ?_⟩
                  cases r with
                  | error e => exact hended e
                  | ok _ => exact .inl trivial
  | _ => exact Within.every_within (within_noSet (by simp)) fun q hq => .inl hq.obeys

section Runs

variable [DecidableEq ι] {pool pool' : SessionPool ι} {event : ι × Option String}

/-- **The invariant of a run**: all calls stand where they can stand, and while the session is gone, none of them
will put it back. -/
structure Removable (pool : SessionPool ι) : Prop where
  stands : ∀ i, (pool.procs i).Every fun p => LetsGo p ∨ recording p = true
  gone : pool.state.present = false → ∀ i, LetsGo (pool.procs i)

omit [DecidableEq ι] in
theorem removable_start (calls : ι → SessionCall) (s : SharedSession) :
    Removable ⟨s, fun i => (calls i).program⟩ where
  stands i := (calls i).every_letsGo
  gone _ i := (calls i).every_letsGo.here.resolve_right (by cases calls i <;> exact Bool.false_ne_true)

/-- What is answered while the session is gone. -/
theorem whileGone_handle {text : Option String} {s : SharedSession} (hgone : s.present = false) (c : SessionCommand)
    (htakes : c.takesPart = true → text = none) : WhileGone c (sessionHandle text s c).2 := by
  cases c with
  | get =>
    show Except.ok (if s.present then some s.session else none) = Except.ok none
    rw [hgone]
    rfl
  | service c =>
    cases c with
    | uploadPart bucket key partNumber data uploadId =>
      rw [htakes rfl]
      rfl
    | _ => trivial
  | _ => trivial

/-- While the session is gone, a step leaves it gone. -/
theorem Removable.step_gone (h : Removable pool) (hgone : pool.state.present = false)
    (hclean : RemovesCleanly pool event) (hstep : Pool.step sessionHandle pool event = some pool') :
    pool'.state.present = false ∧ ∀ j, LetsGo (pool'.procs j) := by
  obtain ⟨c, next, hi, hstate, -, -⟩ := Pool.step_cases (i := event.1) (t := event.2) hstep
  have hcommand : (pool.procs event.1).nextCommand = some c := nextCommand_eq_some.mpr ⟨next, hi⟩
  have hset : c ≠ .set := by
    have hhere := h.gone hgone event.1
    rw [hi] at hhere
    exact hhere.1
  refine ⟨?_, fun j => Pool.obeys_step (h.gone hgone j) hstep fun _ c' next' hc' => ?_⟩
  · rw [hstate]
    cases c with
    | set => exact absurd rfl hset
    | delete => rfl
    | _ => exact hgone
  · subst_vars
    refine whileGone_handle hgone c' fun htakes => hclean.2 ?_ hgone
    rw [nextCommand_eq_some.mpr ⟨next', hc'⟩]
    exact htakes

/-- **The step lemma.** -/
theorem Removable.step (h : Removable pool) (hclean : RemovesCleanly pool event)
    (hstep : Pool.step sessionHandle pool event = some pool') : Removable pool' := by
  refine ⟨Pool.every_step h.stands (i := event.1) (t := event.2) hstep, fun hgone' j => ?_⟩
  by_cases hgone : pool.state.present = false
  · exact (h.step_gone hgone hclean hstep).2 j
  · -- the step has removed the session
    obtain ⟨c, next, hi, hstate, -, -⟩ := Pool.step_cases (i := event.1) (t := event.2) hstep
    have hdelete : c = .delete := by
      rw [hstate] at hgone'
      cases c with
      | delete => rfl
      | set => cases hgone'
      | _ => exact absurd hgone' hgone
    subst hdelete
    have hnone := hclean.1 (nextCommand_eq_some.mpr ⟨next, hi⟩)
    have hlets : ∀ i, LetsGo (pool.procs i) := fun i =>
      (h.stands i).here.resolve_right (by rw [hnone i]; exact Bool.false_ne_true)
    refine Pool.obeys_step (hlets j) hstep fun heq c' next' hc' => ?_
    rw [← heq, hi] at hc'
    cases hc'
    trivial

omit [DecidableEq ι] in
/-- A call that needs the session looks it up first, and throws when it is gone. -/
theorem SessionCall.program_eq {call : SessionCall} (h : call.needsSession = true) :
    ∃ next, call.program = .call .get next ∧ next (.ok none) = .throw (.notFound "Upload session not found") := by
  cases call with
  | abortUpload userId => cases h
  | uploadPart partNumber data => exact ⟨_, rfl, rfl⟩
  | completeUpload userId => exact ⟨_, rfl, rfl⟩
  | getUploadStatus uploadId userId => exact ⟨_, rfl, rfl⟩

/-- Has not begun, or has not found the session. -/
def Misses (call : SessionCall) (p : SessionProgram SessionReply) : Prop :=
  p = call.program ∨ p = .throw (.notFound "Upload session not found")

/-- A step keeps a call from finding a session that is gone. -/
theorem Misses.step {call : SessionCall} (hneeds : call.needsSession = true) {i : ι}
    (h : Misses call (pool.procs i)) (hgone : pool.state.present = false)
    (hstep : Pool.step sessionHandle pool event = some pool') : Misses call (pool'.procs i) := by
  obtain ⟨c, next, hi, -, hself, hothers⟩ := Pool.step_cases (i := event.1) (t := event.2) hstep
  by_cases hmoved : i = event.1
  · subst hmoved
    rw [hself]
    rcases h with h | h
    · obtain ⟨next', hprogram, hthrows⟩ := SessionCall.program_eq hneeds
      rw [hprogram, hi] at h
      cases h
      have hanswer : (sessionHandle event.2 pool.state .get).2 = .ok none :=
        whileGone_handle hgone .get fun htakes => by cases htakes
      rw [hanswer]
      exact .inr hthrows
    · rw [hi] at h
      cases h
  · rw [hothers i hmoved]
    exact h

/-- **What is removed stays removed.**  In every run of calls on one upload id whose steps remove the session cleanly:
once it is gone it never reappears, and no call that begins after that finds it. -/
theorem removed_stays (calls : ι → SessionCall) (s : SharedSession) {before after : List (ι × Option String)}
    {removed pool : SessionPool ι}
    (hclean : Throughout (Pool.step sessionHandle) RemovesCleanly ⟨s, fun i => (calls i).program⟩ (before ++ after))
    (hbefore : run (Pool.step sessionHandle) ⟨s, fun i => (calls i).program⟩ before = some removed)
    (hgone : removed.state.present = false) (hafter : run (Pool.step sessionHandle) removed after = some pool) :
    pool.state.present = false ∧ ∀ i, removed.procs i = (calls i).program → (calls i).needsSession = true →
      Misses (calls i) (pool.procs i) := by
  obtain ⟨hcleanBefore, hcleanAfter⟩ := throughout_append.mp hclean
  have hremovable : Removable removed :=
    run_of_throughout (fun _ _ _ h hcond hstep => h.step hcond hstep) hcleanBefore hbefore (removable_start calls s)
  obtain ⟨-, hend, hmisses⟩ := run_of_throughout
    (motive := fun pool => Removable pool ∧ pool.state.present = false ∧
      ∀ i, removed.procs i = (calls i).program → (calls i).needsSession = true → Misses (calls i) (pool.procs i))
    (fun pool e pool' h hcond hstep => ⟨h.1.step hcond hstep, (h.1.step_gone h.2.1 hcond hstep).1,
      fun i hlater hneeds => (h.2.2 i hlater hneeds).step hneeds h.2.1 hstep⟩)
    (hcleanAfter removed hbefore) hafter ⟨hremovable, hgone, fun i hlater _ => .inl hlater⟩
  exact ⟨hend, hmisses⟩

/-- A call that is not moved stays where it is. -/
theorem procs_of_not_moved {es : List (ι × Option String)} (hrun : run (Pool.step sessionHandle) pool es = some pool')
    {i : ι} (h : ∀ e ∈ es, e.1 ≠ i) : pool'.procs i = pool.procs i := by
  induction es generalizing pool with
  | nil =>
    rw [run_nil, Option.some.injEq] at hrun
    rw [hrun]
  | cons e es ih =>
    rw [run_cons, Option.bind_eq_some_iff] at hrun
    obtain ⟨mid, hmid, hrest⟩ := hrun
    obtain ⟨-, -, -, -, -, hothers⟩ := Pool.step_cases (i := e.1) (t := e.2) hmid
    rw [ih hrest fun e he => h e (List.mem_cons_of_mem _ he), hothers i (h e List.mem_cons_self).symm]

end Runs

/-! ### Two runs -/

/-- An upload of two parts that has just begun. -/
def freshSession : SharedSession where
  present := true
  session := ⟨"minio-1", "upload-1", "photos", "a.bin", "user-1", "image/png", 8000000, 2, Nat.two_pos, [], 86400000⟩
  stores := ⟨⟨[], List.nodup_nil, List.nodup_nil⟩, ⟨[], List.nodup_nil⟩, ["photos"], [], fun _ => none⟩

/-- An upload of a part, an abort and a look at the status. -/
inductive AbortedCall where
  | part
  | abort
  | status
  deriving DecidableEq

instance : Fintype AbortedCall where
  elems := {.part, .abort, .status}
  complete i := by cases i <;> decide

def abortedCalls : AbortedCall → SessionCall
  | .part => .uploadPart (.int 1) []
  | .abort => .abortUpload "user-1"
  | .status => .getUploadStatus "upload-1" "user-1"

def abortedStart : SessionPool AbortedCall := ⟨freshSession, fun i => (abortedCalls i).program⟩

/-- MinIO has taken the part when the upload is aborted. -/
def partInFlight : List (AbortedCall × Option String) :=
  [(.part, none), (.part, some "etag"), (.abort, none), (.abort, some ""), (.abort, none)]

/-- The upload is aborted before anything else. -/
def abortFirst : List (AbortedCall × Option String) := [(.abort, none), (.abort, some ""), (.abort, none)]

/-- **The session comes back** with the part that was in flight, and a later call finds it. -/
theorem removed_session_returns : ∃ removed pool,
    run (Pool.step sessionHandle) abortedStart partInFlight = some removed ∧ removed.state.present = false ∧
      run (Pool.step sessionHandle) removed [(.part, none), (.part, none), (.status, none)] = some pool ∧
      removed.procs .status = (abortedCalls .status).program ∧ pool.state.present = true ∧
      ¬ Misses (abortedCalls .status) (pool.procs .status) := by
  have hrun : (run (Pool.step sessionHandle) abortedStart
      (partInFlight ++ [(.part, none), (.part, none), (.status, none)])).any (fun pool =>
        pool.state.present && (pool.procs .status).result.isSome) = true := by decide +kernel
  obtain ⟨pool, hpool, hseen⟩ := (Option.any_eq_true _ _).mp hrun
  rw [Bool.and_eq_true] at hseen
  obtain ⟨removed, hbefore, hafter⟩ := run_prefix hpool
  have hgone : ((run (Pool.step sessionHandle) abortedStart partInFlight).any fun removed =>
      decide (removed.state.present = false)) = true := by decide +kernel
  rw [hbefore, Option.any_some, decide_eq_true_eq] at hgone
  refine ⟨removed, pool, hbefore, hgone, hafter, procs_of_not_moved hbefore (by decide), hseen.1, ?_⟩
  rintro (hprogram | hthrown)
  · rw [hprogram] at hseen
    exact absurd hseen.2 Bool.false_ne_true
  · rw [hthrown] at hseen
    exact absurd hseen.2 Bool.false_ne_true

/-- Aborted first, the part that comes later and the look at the status do not find the session. -/
theorem removed_stays_aborted : ∃ pool, run (Pool.step sessionHandle) abortedStart
    (abortFirst ++ [(.part, none), (.status, none)]) = some pool ∧ pool.state.present = false ∧
      Misses (abortedCalls .part) (pool.procs .part) ∧ Misses (abortedCalls .status) (pool.procs .status) := by
  have hrun : (run (Pool.step sessionHandle) abortedStart
      (abortFirst ++ [(.part, none), (.status, none)])).isSome = true := by decide +kernel
  obtain ⟨pool, hpool⟩ := Option.isSome_iff_exists.mp hrun
  obtain ⟨removed, hbefore, hafter⟩ := run_prefix hpool
  have hgone : ((run (Pool.step sessionHandle) abortedStart abortFirst).any fun removed =>
      decide (removed.state.present = false)) = true := by decide +kernel
  rw [hbefore, Option.any_some, decide_eq_true_eq] at hgone
  have hclean : Throughout (Pool.step sessionHandle) RemovesCleanly abortedStart
      (abortFirst ++ [(.part, none), (.status, none)]) := by decide +kernel
  obtain ⟨hend, hmisses⟩ := removed_stays abortedCalls freshSession hclean hbefore hgone hafter
  exact ⟨pool, hpool, hend, hmisses .part (procs_of_not_moved hbefore (by decide)) rfl,
    hmisses .status (procs_of_not_moved hbefore (by decide)) rfl⟩

end EdgeSphere.Storage
