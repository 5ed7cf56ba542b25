import EdgeSphere.Cdn.Invalidation

/-!
# Changes of files that are cached

The storage-service, the cache-service and the edges side by side, with the messages between them.  The
cache-service purges a file when it is told on the Redis channel `storage:events` that it has changed.

* `Platform.step` — one event of the whole system;
* `silent_run` — **nothing is ever said on that channel**, so no edge is told to forget anything;
* `Unheld` — a file of which nothing is cached, or about to be, when it changes;
* `served_current` — if every change is one of such a file, **no hit is older than a change**;
* `served_changed` — a hit after an overwrite, and one after a deletion.
-/

namespace EdgeSphere.Cdn

open EdgeSphere.Library
open EdgeSphere.Library.Buffer
open EdgeSphere.Library.Expiry
open EdgeSphere.Library.Program
open EdgeSphere.Library.Runs

/-! ### Messages -/

/-- What the handler of `storage:events` looks at. -/
structure StorageEvent where
  action : Option String
  bucket : String
  key : String
  deriving DecidableEq, Repr

/-- What `publishStorageEvent` sends to the Kafka topic `storage.events`. -/
structure UploadEvent where
  type : String
  bucket : String
  key : String
  size : ℚ
  deriving DecidableEq

/-- The handler of `subscribeToStorageEvents`, with its `try`. -/
def handleStorageEvent (rounds : ℕ) (purgeId timestamp : String) (event : StorageEvent) : PurgeProgram Unit :=
  (if event.action = some "delete" ∨ event.action = some "update" then do
    let _ ← executePurge rounds purgeId timestamp (.file event.bucket event.key)
    pure ()
  else pure ()).catchAll fun _ => pure ()

/-- One edge handles an event. -/
def Caches.forget {ε : Type} [DecidableEq ε] (s : Caches ε) (edge : ε) (event : InvalidationEvent) : Caches ε :=
  { s with
    memory := Function.update s.memory edge fun key =>
      if clears event key then none else s.memory edge key }

/-! ### The system -/

/-- An object that has been stored or removed when so many fetches had been answered. -/
structure Change where
  bucket : String
  key : String
  number : ℕ
  deriving DecidableEq, Repr

def Change.covers {ε : Type} (change : Change) (q : Request ε) : Prop :=
  q.bucket = change.bucket ∧ q.key = change.key

/-- The calls of the edges, the requests to the storage-service, and the messages that have not been handled:
those on `storage:events`, in the topic `storage.events`, and on `cache:invalidate` for each edge.  `changes`
is a record, newest first. -/
structure Platform (ι ε κ : Type) where
  calls : Calls ι ε
  storage : Pool Storage.Stores κ Storage.Command Storage.Answer Storage.Exception Storage.Reply
  storageEvents : List StorageEvent
  uploadEvents : List UploadEvent
  invalidations : ε → List InvalidationEvent
  changes : List Change

inductive PlatformEvent (ι ε κ : Type) where
  /-- A call of an edge, or an entry that is deleted. -/
  | edge (event : Event ι ε)
  /-- The next command of a request. -/
  | storage (j : κ) (answers : Storage.Command → Option String)
  /-- The consumers of the topic look at a message; none of them has to do with the caches. -/
  | upload
  | storageEvent (rounds : ℕ) (purgeId timestamp : String) (turns : ℕ → PurgeTurn)
  | invalidation (edge : ε)

/-- What a command sends to Kafka. -/
def publishedEvents (answers : Storage.Command → Option String) (c : Storage.Command) : List UploadEvent :=
  match c with
  | .publishStorageEvent type bucket key size => if (answers c).isSome then [⟨type, bucket, key, size⟩] else []
  | _ => []

/-- The object that a command changes. -/
def changedObjects (number : ℕ) (answers : Storage.Command → Option String) (c : Storage.Command) : List Change :=
  match Storage.objectWritten c with
  | some (bucket, key) => if (answers c).isSome then [⟨bucket, key, number⟩] else []
  | none => []

section Platform

variable {ι ε κ : Type} [DecidableEq ι] [DecidableEq ε] [DecidableEq κ] (edges : ε → Edge)

def Platform.step (s : Platform ι ε κ) : PlatformEvent ι ε κ → Option (Platform ι ε κ)
  | .edge event => (Calls.step edges s.calls event).map fun calls => { s with calls }
  | .storage j answers =>
    match s.storage.procs j with
    | .call c _ => (Pool.step Storage.handle s.storage (j, answers)).map fun storage =>
      { s with
        storage
        uploadEvents := s.uploadEvents ++ publishedEvents answers c
        changes := changedObjects s.calls.state.fetches.length answers c ++ s.changes }
    | _ => none
  | .upload =>
    match s.uploadEvents with
    | [] => none
    | _ :: rest => some { s with uploadEvents := rest }
  | .storageEvent rounds purgeId timestamp turns =>
    match s.storageEvents with
    | [] => none
    | event :: rest =>
      let server := (exec Server.handle ⟨s.calls.state, [], [], turns⟩
        (handleStorageEvent rounds purgeId timestamp event)).1
      some { s with
        calls := ⟨server.caches, s.calls.procs⟩
        storageEvents := rest
        invalidations := fun edge => s.invalidations edge ++ server.published }
  | .invalidation edge =>
    match s.invalidations edge with
    | [] => none
    | event :: rest => some { s with
        calls := ⟨s.calls.state.forget edge event, s.calls.procs⟩
        invalidations := Function.update s.invalidations edge rest }

/-- Empty caches, no messages, calls and requests that have not begun. -/
def Platform.start (requests : ι → Request ε) (verify : String → Option Storage.JwtPayload)
    (stores : Storage.Stores) (changing : κ → Storage.Request) : Platform ι ε κ where
  calls := Calls.start edges .empty requests
  storage := ⟨stores, fun j => (changing j).program verify⟩
  storageEvents := []
  uploadEvents := []
  invalidations _ := []
  changes := []

/-- No message is left. -/
def Platform.Quiet (s : Platform ι ε κ) : Prop :=
  s.storageEvents = [] ∧ s.uploadEvents = [] ∧ ∀ edge, s.invalidations edge = []

/-- Nothing is said on `storage:events` or on `cache:invalidate`. -/
def Platform.Silent (s : Platform ι ε κ) : Prop := s.storageEvents = [] ∧ ∀ edge, s.invalidations edge = []

/-! ### Steps -/

variable {edges} {s s' : Platform ι ε κ}

/-- **What an event does**, while nothing is said: it moves the calls, or the requests, or takes a message from
the topic. -/
theorem Platform.step_cases {event : PlatformEvent ι ε κ} (hsilent : s.Silent)
    (hstep : Platform.step edges s event = some s') :
    (∃ e calls, event = .edge e ∧ Calls.step edges s.calls e = some calls ∧ s' = { s with calls }) ∨
    (∃ j answers c next storage, event = .storage j answers ∧ s.storage.procs j = .call c next ∧
      Pool.step Storage.handle s.storage (j, answers) = some storage ∧
      s' = { s with
        storage
        uploadEvents := s.uploadEvents ++ publishedEvents answers c
        changes := changedObjects s.calls.state.fetches.length answers c ++ s.changes }) ∨
    (∃ e rest, event = .upload ∧ s.uploadEvents = e :: rest ∧ s' = { s with uploadEvents := rest }) := by
  cases event with
  | edge e =>
    obtain ⟨calls, hcalls, rfl⟩ := Option.map_eq_some_iff.mp hstep
    exact .inl ⟨e, calls, rfl, hcalls, rfl⟩
  | storage j answers =>
    simp only [Platform.step] at hstep
    split at hstep
    · rename_i c next hj
      obtain ⟨storage, hstorage, rfl⟩ := Option.map_eq_some_iff.mp hstep
      exact .inr (.inl ⟨j, answers, c, next, storage, rfl, hj, hstorage, rfl⟩)
    · cases hstep
  | upload =>
    simp only [Platform.step] at hstep
    split at hstep
    · cases hstep
    · rename_i e rest hevents
      cases hstep
      exact .inr (.inr ⟨e, rest, rfl, hevents, rfl⟩)
  | storageEvent rounds purgeId timestamp turns =>
    simp only [Platform.step, hsilent.1] at hstep
    cases hstep
  | invalidation edge =>
    simp only [Platform.step, hsilent.2 edge] at hstep
    cases hstep

theorem Platform.Silent.step {event : PlatformEvent ι ε κ} (hsilent : s.Silent)
    (hstep : Platform.step edges s event = some s') : s'.Silent := by
  rcases Platform.step_cases hsilent hstep with ⟨_, _, -, -, rfl⟩ | ⟨_, _, _, _, _, -, -, -, rfl⟩ | ⟨_, _, -, -, rfl⟩
  · exact hsilent
  · exact hsilent
  · exact hsilent

/-- **Nothing is ever said**, whatever requests the storage-service serves. -/
theorem silent_run {requests : ι → Request ε} {verify : String → Option Storage.JwtPayload}
    {stores : Storage.Stores} {changing : κ → Storage.Request} {es : List (PlatformEvent ι ε κ)}
    (hrun : run (Platform.step edges) (Platform.start edges requests verify stores changing) es = some s) :
    s.Silent :=
  run_induction (Platform.step edges) (Platform.start edges requests verify stores changing)
    (fun _ s => s.Silent) ⟨rfl, fun _ => rfl⟩ (fun _ _ _ _ _ hs hst => hs.step hst) es s hrun

/-! ### Changes of what is not cached -/

/-- The caches hold nothing of the changed object, and no call that writes where it is looked for holds bytes. -/
structure Unheld (edges : ε → Edge) (requests : ι → Request ε) (calls : Calls ι ε) (change : Change) : Prop where
  redis : ∀ q, change.covers q → read calls.state.now (calls.state.redis (physicalKey (q.cacheKey edges))) = none
  memory : ∀ q, change.covers q → read calls.state.now (calls.state.memory q.edge (q.cacheKey edges)) = none
  calls : ∀ i, Meets edges change.covers (requests i) → ∀ c next, calls.procs i = .call c next → c.unladen = true

/-- **The condition on a step.**  If it stores or removes an object, nothing of that object is held. -/
def Uncached (edges : ε → Edge) (requests : ι → Request ε) (s : Platform ι ε κ) : PlatformEvent ι ε κ → Prop
  | .storage j answers => ∀ c next, s.storage.procs j = .call c next →
    ∀ change ∈ changedObjects s.calls.state.fetches.length answers c, Unheld edges requests s.calls change
  | _ => True

omit [DecidableEq ι] in
/-- From such a state on the calls are served nothing older. -/
theorem steady_of_unheld {requests : ι → Request ε} {calls : Calls ι ε} {change : Change}
    (hresumable : ∀ i, (calls.procs i).Every (Resumable edges (requests i)))
    (hown : ∀ i, (calls.procs i).Within (Own edges (requests i))) (h : Unheld edges requests calls change) :
    calls.Steady fun i => sinceContract edges change.covers calls.state.fetches.length (requests i) where
  inv := {
    fetches := le_refl _
    redis := fun q v hcovers hread => by
      rw [h.redis q hcovers] at hread
      cases hread
    memory := fun q r hcovers hread => by
      rw [h.memory q hcovers] at hread
      cases hread }
  keeps i c next hi := by
    by_cases hmeets : Meets edges change.covers (requests i)
    · have hkeeps := (hresumable i).here c next hi (h.calls i hmeets c next hi) _
        (sinceContract edges change.covers calls.state.fetches.length (requests i)) calls.state
      rw [hi] at hkeeps
      exact hkeeps
    · have hwithin := hown i
      rw [hi] at hwithin
      refine Within.keeps (fun turn s c hinv hc => ⟨since_handle_own hmeets turn s c hinv hc, trivial⟩)
        (fun s r hcovered => ?_) (fun _ _ => trivial) hwithin calls.state
      exact absurd ⟨requests i, hcovered, rfl⟩ hmeets

/-- What is known of the calls: how they go on, what they write, and that no call is served anything older than a
recorded change. -/
structure Current (edges : ε → Edge) (requests : ι → Request ε) (s : Platform ι ε κ) : Prop where
  silent : s.Silent
  resumable : ∀ i, (s.calls.procs i).Every (Resumable edges (requests i))
  own : ∀ i, (s.calls.procs i).Within (Own edges (requests i))
  steady : ∀ change ∈ s.changes, s.calls.Steady fun i => sinceContract edges change.covers change.number (requests i)

/-- **A step that meets the condition keeps this.** -/
theorem Current.step {requests : ι → Request ε} {event : PlatformEvent ι ε κ} (h : Current edges requests s)
    (hcond : Uncached edges requests s event) (hstep : Platform.step edges s event = some s') :
    Current edges requests s' := by
  rcases Platform.step_cases h.silent hstep with
    ⟨e, calls, rfl, hcalls, rfl⟩ | ⟨j, answers, c, next, storage, rfl, hj, -, rfl⟩ | ⟨_, _, rfl, -, rfl⟩
  · refine ⟨h.silent, fun i => ?_, fun i => ?_, fun change hchange => ?_⟩
    · exact Calls.every_step h.resumable hcalls i
    · exact Calls.within_step (h.own i) hcalls
    · have hfree : ∀ turn s c, (since edges change.covers change.number).allowed turn s c := fun _ _ _ => trivial
      exact ((h.steady change hchange).step rfl (since_deletable edges _ _) (e.allowed hfree _) hcalls).1
  · refine ⟨h.silent, h.resumable, h.own, fun change hchange => ?_⟩
    rcases List.mem_append.mp hchange with hnew | hold
    · have hnumber : change.number = s.calls.state.fetches.length := by
        unfold changedObjects at hnew
        split at hnew
        · split at hnew
          · rw [List.mem_singleton.mp hnew]
          · cases hnew
        · cases hnew
      rw [hnumber]
      exact steady_of_unheld h.resumable h.own (hcond c next hj change hnew)
    · exact h.steady change hold
  · exact ⟨h.silent, h.resumable, h.own, h.steady⟩

/-- **No hit is older than a change**, in every run in which objects change only when nothing of them is held. -/
theorem served_current (edges : ε → Edge) (requests : ι → Request ε) (verify : String → Option Storage.JwtPayload)
    (stores : Storage.Stores) (changing : κ → Storage.Request) (es : List (PlatformEvent ι ε κ)) (i : ι)
    (turn : Turn) (s s' : Platform ι ε κ) (r : Labelled (Source ε) CdnResponse) (change : Change)
    (hcond : Throughout (Platform.step edges) (Uncached edges requests)
      (Platform.start edges requests verify stores changing) es)
    (hrun : run (Platform.step edges) (Platform.start edges requests verify stores changing) es = some s)
    (hstep : Platform.step edges s (.edge (.call i turn)) = some s') (hret : s'.calls.procs i = .ret r)
    (hchange : change ∈ s.changes) (hcovers : change.covers (requests i)) :
    r.value.cacheHit = true → change.number ≤ r.source.number := by
  intro _
  have hstart : Current edges requests (Platform.start edges requests verify stores changing : Platform ι ε κ) :=
    ⟨⟨rfl, fun _ => rfl⟩, fun i => every_unladen edges (requests i), fun i => own_serveFile edges (requests i),
      fun change hmem => by cases hmem⟩
  have hcurrent : Current edges requests s :=
    run_of_throughout (fun _ _ _ hs he hst => hs.step he hst) hcond hrun hstart
  obtain ⟨calls, hcalls, rfl⟩ := Option.map_eq_some_iff.mp hstep
  have hnone : run (Calls.step edges) s.calls [] = some s.calls := rfl
  exact served_since (hcurrent.steady change hchange) hnone hcalls hret hcovers

end Platform

/-! ### A file that is changed -/

/-- A bucket of `user-1` with one file. -/
def gallery : Storage.Stores where
  buckets := ⟨[{ id := "b-1", userId := "user-1", name := "img", region := "us-east-1", isPublic := true }],
    by decide, by decide⟩
  files := ⟨[⟨⟨"b-1", "photo.jpg", 1, "image/jpeg", "e1", 1, true⟩, "f-1"⟩], by decide⟩
  minioBuckets := ["img"]
  objects := [⟨"img", "photo.jpg", .put [1] "image/jpeg"⟩]
  sessions _ := none

/-- A request of `user-1`. -/
def ownRequest (route : Storage.Route) : Storage.Request := ⟨route, some "Bearer t", fun _ => none⟩

def overwriting : Storage.Request :=
  ownRequest (.uploadFile "img" (some ⟨[2], "image/jpeg"⟩) (some "photo.jpg") "u-1")

def deletion : Storage.Request := ownRequest (.deleteFile "img" "photo.jpg")

/-- One edge, two calls for the file, and a request that changes it. -/
def Platform.gallery (changing : Storage.Request) : Platform Bool Unit Unit :=
  Platform.start (fun _ => defaultEdge) (fun _ => photo) (fun _ => some ⟨some "user-1"⟩) Cdn.gallery fun _ => changing

/-- The next commands of a call, and of the request. -/
def edgeSteps (n : ℕ) (i : Bool) : List (PlatformEvent Bool Unit Unit) :=
  List.replicate n (.edge (.call i (.smooth 0)))

def storageSteps (n : ℕ) : List (PlatformEvent Bool Unit Unit) :=
  List.replicate n (.storage () fun _ => some "10")

/-- A file that is overwritten before it is cached is served as it is then. -/
theorem served_current_overwritten : ∃ (s s' : Platform Bool Unit Unit) (r : Labelled (Source Unit) CdnResponse),
    s'.calls.procs true = .ret r ∧ r.value.cacheHit = true ∧ (∃ change ∈ s.changes, change.covers photo) ∧
      ∀ change ∈ s.changes, change.covers photo → change.number ≤ r.source.number := by
  let step := Platform.step (ι := Bool) (κ := Unit) fun _ : Unit => defaultEdge
  have houtcome : (run step (Platform.gallery overwriting)
      ((storageSteps 6 ++ edgeSteps 7 false) ++ [.edge (.call true (.smooth 0))])).bind (fun s' =>
        (s'.calls.procs true).result.map fun r => (r.value.cacheHit, s'.changes))
      = some (true, [⟨"img", "photo.jpg", 0⟩]) := by
    decide +kernel
  obtain ⟨s', hrun, hresult⟩ := Option.bind_eq_some_iff.mp houtcome
  obtain ⟨r, hresponse, hvalues⟩ := Option.map_eq_some_iff.mp hresult
  obtain ⟨hhit, hchanges⟩ := Prod.mk.inj hvalues
  obtain ⟨s, hs, hstep⟩ := (run_snoc_eq_some _ _ _ _ _).mp hrun
  have hret := result_eq_some.mp hresponse
  have hsame : s.changes = s'.changes := by
    obtain ⟨calls, -, rfl⟩ := Option.map_eq_some_iff.mp hstep
    rfl
  have hcond : Throughout step (Uncached (fun _ => defaultEdge) fun _ => photo) (Platform.gallery overwriting)
      (storageSteps 6 ++ edgeSteps 7 false) := by
    refine throughout_append.mpr ⟨?_, fun t _ => ?_⟩
    · -- nothing has been cached, and no call has begun
      let motive (s : Platform Bool Unit Unit) : Prop := s.calls = (Platform.gallery overwriting).calls
      refine throughout_of_invariant (motive := motive) (fun s hcalls e he => ?_) rfl
      rw [List.eq_of_mem_replicate he]
      refine ⟨fun c next _ change _ => ?_, fun t ht => ?_⟩
      · rw [hcalls]
        refine ⟨fun _ _ => rfl, fun _ _ => rfl, fun i _ c next hi => ?_⟩
        cases hi
        rfl
      · simp only [step, Platform.step] at ht
        split at ht
        · obtain ⟨storage, -, rfl⟩ := Option.map_eq_some_iff.mp ht
          exact hcalls
        · cases ht
    · refine throughout_of_invariant (motive := fun _ => True) (fun s _ e he => ?_) trivial
      rw [List.eq_of_mem_replicate he]
      exact ⟨trivial, fun _ _ => trivial⟩
  refine ⟨s, s', r, hret, hhit, ?_, fun change hchange hcovers => ?_⟩
  · rw [hsame, hchanges]
    exact ⟨_, List.mem_singleton_self _, rfl, rfl⟩
  · exact served_current (fun _ => defaultEdge) (fun _ => photo) _ Cdn.gallery (fun _ => overwriting) _ true
      (.smooth 0) s s' r change hcond hs hstep hret hchange hcovers hhit

/-- A hit that is older than a change, with no message left. -/
def ServesOld (changing : Storage.Request) : Prop :=
  ∃ (es : List (PlatformEvent Bool Unit Unit)) (turn : Turn) (s s' : Platform Bool Unit Unit)
    (r : Labelled (Source Unit) CdnResponse) (change : Change),
    run (Platform.step fun _ => defaultEdge) (Platform.gallery changing) es = some s ∧ s.Quiet ∧
      change ∈ s.changes ∧ change.covers photo ∧
      Platform.step (fun _ => defaultEdge) s (.edge (.call true turn)) = some s' ∧ s'.calls.procs true = .ret r ∧
      r.value.cacheHit = true ∧ r.source.number < change.number

theorem servesOld_of_outcome {changing : Storage.Request} {n : ℕ}
    (h : (run (Platform.step fun _ => defaultEdge) (Platform.gallery changing)
      ((edgeSteps 7 false ++ storageSteps n) ++ edgeSteps 1 true)).bind (fun s' =>
        (s'.calls.procs true).result.map fun r => (r.value.cacheHit, r.source.number, s'.changes,
          s'.uploadEvents.length))
      = some (true, 0, [⟨"img", "photo.jpg", 1⟩], 0)) : ServesOld changing := by
  obtain ⟨s', hrun, hresult⟩ := Option.bind_eq_some_iff.mp h
  obtain ⟨r, hresponse, hvalues⟩ := Option.map_eq_some_iff.mp hresult
  rw [Prod.mk.injEq, Prod.mk.injEq, Prod.mk.injEq] at hvalues
  obtain ⟨hhit, hnumber, hchanges, hevents⟩ := hvalues
  obtain ⟨s, hs, hstep⟩ := (run_snoc_eq_some _ _ _ _ _).mp hrun
  obtain ⟨hstorage, hinvalidations⟩ := silent_run hs
  obtain ⟨calls, hcalls, rfl⟩ := Option.map_eq_some_iff.mp hstep
  refine ⟨_, .smooth 0, s, _, r, ⟨"img", "photo.jpg", 1⟩, hs,
    ⟨hstorage, List.eq_nil_of_length_eq_zero hevents, hinvalidations⟩, ?_, ⟨rfl, rfl⟩, hstep,
    result_eq_some.mp hresponse, hhit, ?_⟩
  · exact hchanges ▸ List.mem_singleton_self _
  · rw [hnumber]
    exact Nat.one_pos

/-- **After an overwrite, and after a deletion, the edge answers with the old bytes.** -/
theorem served_changed : ServesOld overwriting ∧ ServesOld deletion := by
  constructor
  · have houtcome : (run (Platform.step fun _ => defaultEdge) (Platform.gallery overwriting)
        ((edgeSteps 7 false ++ storageSteps 6) ++ edgeSteps 1 true)).bind (fun s' =>
          (s'.calls.procs true).result.map fun r => (r.value.cacheHit, r.source.number, s'.changes,
            s'.uploadEvents.length))
        = some (true, 0, [⟨"img", "photo.jpg", 1⟩], 0) := by
      decide +kernel
    exact servesOld_of_outcome houtcome
  · have houtcome : (run (Platform.step fun _ => defaultEdge) (Platform.gallery deletion)
        ((edgeSteps 7 false ++ storageSteps 4) ++ edgeSteps 1 true)).bind (fun s' =>
          (s'.calls.procs true).result.map fun r => (r.value.cacheHit, r.source.number, s'.changes,
            s'.uploadEvents.length))
        = some (true, 0, [⟨"img", "photo.jpg", 1⟩], 0) := by
      decide +kernel
    exact servesOld_of_outcome houtcome

end EdgeSphere.Cdn
