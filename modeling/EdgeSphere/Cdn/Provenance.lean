import EdgeSphere.Cdn.Serve
import EdgeSphere.Storage.Requests

/-!
# What a cache hit carries

The two caches hold the same objects in two forms, under one text that is put together from four parts.

* `Backed` — an object that a call has written to Redis, made from what a fetch with a 2xx answer returned;
* `Provenance` — the invariant: what either cache holds under a key is such an object, and the key is the one of
  the call that fetched it;
* `Conduct` — what a call does after a failure and after a write (`every_conduct`);
* `served_backed` — **a response is the one built for the same region, bucket, key and JSON of transforms, and a
  call that fails at the origin or in the transform has changed nothing**;
* `served_foreign` — hits on what was built for other parts.
-/

namespace EdgeSphere.Cdn

open EdgeSphere.Library
open EdgeSphere.Library.Buffer
open EdgeSphere.Library.Expiry
open EdgeSphere.Library.Program
open EdgeSphere.Library.Runs

variable {ι ε : Type}

/-! ### The invariant -/

/-- The object was built by a call, from a fetch that was answered with a 2xx status. -/
def Backed (s : Caches ε) (o : Labelled (Source ε) CacheObject) : Prop :=
  ⟨encodeEntry o.value, o.source⟩ ∈ s.built ∧ o.source.toFetch ∈ s.fetches

/-- What has been fetched and built stays so. -/
def Recorded (s s' : Caches ε) : Prop := s.built ⊆ s'.built ∧ s.fetches ⊆ s'.fetches

theorem Backed.later {s s' : Caches ε} {o : Labelled (Source ε) CacheObject} (h : Backed s o)
    (hlater : Recorded s s') : Backed s' o :=
  ⟨hlater.1 h.1, hlater.2 h.2⟩

/-- What the caches hold was built for the key that it is held under. -/
structure Provenance (edges : ε → Edge) (valid : Request ε → Prop) (s : Caches ε) : Prop where
  fetches : ∀ f ∈ s.fetches, valid f.request ∧ f.number < s.fetches.length
  redis : ∀ physical cell, s.redis physical = some cell → ∃ object,
    cell.value.value = encodeEntry object ∧ Backed s ⟨object, cell.value.source⟩ ∧
      physical = physicalKey (cell.value.source.request.cacheKey edges)
  memory : ∀ edge key cell, s.memory edge key = some cell →
    Backed s ⟨cell.value.value.toCacheObject, cell.value.source⟩ ∧
      key = cell.value.source.request.cacheKey edges

/-- The record may grow while the caches stay as they are. -/
theorem Provenance.record {edges : ε → Edge} {valid : Request ε → Prop} {s s' : Caches ε}
    (h : Provenance edges valid s) (hredis : s'.redis = s.redis) (hmemory : s'.memory = s.memory)
    (hfetches : ∀ f ∈ s'.fetches, valid f.request ∧ f.number < s'.fetches.length) (hlater : Recorded s s') :
    Provenance edges valid s' where
  fetches := hfetches
  redis physical cell hcell := by
    rw [hredis] at hcell
    obtain ⟨object, hvalue, hbacked, hkey⟩ := h.redis physical cell hcell
    exact ⟨object, hvalue, hbacked.later hlater, hkey⟩
  memory edge key cell hcell := by
    rw [hmemory] at hcell
    obtain ⟨hbacked, hkey⟩ := h.memory edge key cell hcell
    exact ⟨hbacked.later hlater, hkey⟩

def provenance [DecidableEq ε] (edges : ε → Edge) (valid : Request ε → Prop) :
    Protocol (Caches ε) Turn (Command ε) Answer String where
  handle := handle edges
  allowed _ _ _ := True
  inv := Provenance edges valid
  later := Recorded
  refl _ := ⟨fun _ h => h, fun _ h => h⟩
  trans h h' := ⟨fun _ hv => h'.1 (h.1 hv), fun _ hf => h'.2 (h.2 hf)⟩

section Contract

variable [DecidableEq ε] (edges : ε → Edge) (valid : Request ε → Prop)

def provenanceContract {request : Request ε} (hvalid : valid request) :
    Contract edges (provenance edges valid) request where
  fetched s f := f ∈ s.fetches ∧ f.request = request
  good s o := Backed s o ∧ o.source.request.cacheKey edges = request.cacheKey edges
  post s r := Backed s ⟨r.value.toCacheObject, r.source⟩ ∧ r.source.request.cacheKey edges = request.cacheKey edges
  handle_eq := rfl
  fetched_later _ _ _ hlater h := ⟨hlater.2 h.1, h.2⟩
  good_later _ _ _ hlater h := ⟨h.1.later hlater, h.2⟩
  advance s elapsed hinv := by
    have hlater : Recorded s (s.advance elapsed) := ⟨fun _ h => h, fun _ h => h⟩
    exact ⟨hinv.record rfl rfl hinv.fetches hlater, hlater⟩
  memoryHit s r hinv hread := by
    cases hcell : s.memory request.edge (request.cacheKey edges) with
    | none =>
      rw [hcell] at hread
      cases hread
    | some cell =>
      obtain ⟨hbacked, hkey⟩ := hinv.memory _ _ cell hcell
      have hvalue := value_of_read (hcell ▸ hread)
      rw [hvalue] at hbacked hkey
      exact ⟨hbacked, hkey.symm⟩
  redisHit s v object hinv hread hobject := by
    cases hcell : s.redis (physicalKey (request.cacheKey edges)) with
    | none =>
      rw [hcell] at hread
      cases hread
    | some cell =>
      obtain ⟨object', hencoded, hbacked, hkey⟩ := hinv.redis _ cell hcell
      have hvalue := value_of_read (hcell ▸ hread)
      rw [hvalue] at hencoded hbacked hkey
      rw [hencoded, decodeEntry_encodeEntry] at hobject
      cases hobject
      exact ⟨hbacked, (physicalKey_inj.mp hkey).symm⟩
  fetch s hinv := by
    have hlater : Recorded s (s.recordFetch request) := ⟨fun _ h => h, List.subset_cons_self _ _⟩
    refine ⟨hinv.record rfl rfl (fun f hf => ?_) hlater, hlater, List.mem_cons_self, rfl⟩
    rcases List.mem_cons.mp hf with rfl | hf
    · exact ⟨hvalid, Nat.lt_succ_self _⟩
    · exact ⟨(hinv.fetches f hf).1, Nat.lt_succ_of_lt (hinv.fetches f hf).2⟩
  setRedis s f object seconds hinv hfetched _ := by
    have hlater : Recorded s (s.setRedis (request.cacheKey edges) seconds.toNat
        ⟨encodeEntry object, { f with ttlSeconds := .int seconds }⟩) :=
      ⟨List.subset_cons_self _ _, fun _ h => h⟩
    have hkey : f.request.cacheKey edges = request.cacheKey edges := by rw [hfetched.2]
    refine ⟨⟨hinv.fetches, fun physical cell hcell => ?_, fun edge key cell hcell => ?_⟩, hlater,
      ⟨List.mem_cons_self, hfetched.1⟩, hkey⟩
    · by_cases hsame : physical = physicalKey (request.cacheKey edges)
      · subst hsame
        rw [Caches.setRedis_self, put, Option.some.injEq] at hcell
        subst hcell
        exact ⟨object, rfl, ⟨List.mem_cons_self, hfetched.1⟩, congrArg physicalKey hkey.symm⟩
      · rw [Caches.setRedis_of_ne _ hsame] at hcell
        obtain ⟨object', hvalue, hbacked, hheld⟩ := hinv.redis physical cell hcell
        exact ⟨object', hvalue, hbacked.later hlater, hheld⟩
    · obtain ⟨hbacked, hheld⟩ := hinv.memory edge key cell hcell
      exact ⟨hbacked.later hlater, hheld⟩
  setMemory turn s o r hinv hgood hr _ := by
    have hbacked : Backed (s.advance turn.elapsed) ⟨r.toCacheObject, o.source⟩ := by
      rw [hr]
      exact hgood.1
    refine ⟨⟨hinv.fetches, hinv.redis, fun edge key cell hcell => ?_⟩, ⟨fun _ h => h, fun _ h => h⟩, hbacked,
      hgood.2⟩
    by_cases hsame : edge = request.edge ∧ key = request.cacheKey edges
    · rw [hsame.1, hsame.2, Caches.setMemory_self, put, Option.some.injEq] at hcell
      subst hcell
      exact ⟨hbacked, hsame.2.trans hgood.2.symm⟩
    · rw [Caches.setMemory_of_ne _ (not_and_or.mp hsame)] at hcell
      exact hinv.memory edge key cell hcell

theorem provenance_deletable : Deletable (provenance edges valid) where
  delRedis s physical hinv := by
    refine ⟨⟨hinv.fetches, fun key cell hcell => ?_, hinv.memory⟩, fun _ h => h, fun _ h => h⟩
    exact hinv.redis key cell (Caches.delRedis_eq_some s hcell)
  delMemory s edge key hinv := by
    refine ⟨⟨hinv.fetches, hinv.redis, fun edge' key' cell hcell => ?_⟩, fun _ h => h, fun _ h => h⟩
    exact hinv.memory edge' key' cell (Caches.delMemory_eq_some s hcell)

omit [DecidableEq ε] in
theorem provenance_empty : Provenance edges valid .empty where
  fetches f hf := by cases hf
  redis physical cell hcell := by cases hcell
  memory edge key cell hcell := by cases hcell

end Contract

/-! ### Failures and writes -/

/-- The origin or the transform has failed the call. -/
def Failed : (c : Command ε) → Except String (Answer c) → Prop
  | .fetch _ _, .ok originRes => originRes.ok = false
  | .fetch _ _, .error _ | .buffer _, .error _ | .sharp _ _, .error _ => True
  | _, _ => False

/-- A cache may have been changed. -/
def Wrote : (c : Command ε) → Except String (Answer c) → Prop
  | .setex _ _ _, _ | .memorySet _ _ _, .ok _ => True
  | _, _ => False

/-- The command asks neither the origin nor the optimizer. -/
def Settled (c : Command ε) : Prop := ∀ r, ¬ Failed c r

/-- A failure ends the call with an error, and after a write there is none. -/
def Conduct {α : Type} (p : CdnProgram ε α) : Prop :=
  ∀ c next, p = .call c next → ∀ r, (Failed c r → ∃ e, next r = .throw e) ∧ (Wrote c r → (next r).Within Settled)

section Conduct

variable {α : Type}

theorem conduct_ret (a : α) : Conduct (.ret a : CdnProgram ε α) := by
  intro c next heq
  cases heq

theorem conduct_throw (e : String) : Conduct (.throw e : CdnProgram ε α) := by
  intro c next heq
  cases heq

/-- A command that neither fails so nor writes. -/
theorem conduct_call {c : Command ε} {next : Except String (Answer c) → CdnProgram ε α}
    (hfailed : ∀ r, Failed c r → ∃ e, next r = .throw e) (hwrote : ∀ r, Wrote c r → (next r).Within Settled) :
    Conduct (.call c next) := by
  intro c' next' heq r
  cases heq
  exact ⟨hfailed r, hwrote r⟩

/-- Neither an origin nor a cache is touched. -/
def Idle (c : Command ε) : Prop := ∀ r, ¬ Failed c r ∧ ¬ Wrote c r

theorem conduct_idle {c : Command ε} (hc : Idle c) (next : Except String (Answer c) → CdnProgram ε α) :
    Conduct (.call c next) :=
  conduct_call (fun r hr => absurd hr (hc r).1) fun r hr => absurd hr (hc r).2

end Conduct

section Serve

variable (edges : ε → Edge) (request : Request ε)

/-- After Redis the memory is written, and that is all. -/
theorem every_store (file : Labelled (Fetch ε) CacheObject) : (store edges request file).Every Conduct := by
  have hsetting : (getConfiguredTtlSeconds (edges request.edge).ttlSeconds : CdnProgram ε IntNumber).Within
      Idle := within_getConfiguredTtlSeconds (fun r => ⟨id, id⟩) _
  have hmemory : ∀ response : Labelled (Source ε) CdnResponse,
      ((await (.memorySet request.edge (request.cacheKey edges) response)).bind fun _ : Unit =>
        (.ret response : CdnProgram ε (Labelled (Source ε) CdnResponse))).Within Settled :=
    fun response => (within_command fun r => id).bind fun _ => trivial
  refine hsetting.every_bind (fun c next hc => conduct_idle hc next) conduct_throw fun ttlSeconds => ?_
  refine Every.command_bind ?_ (fun _ => ?_) conduct_throw
  · refine conduct_call (fun r hr => absurd hr id) fun r _ => ?_
    cases r with
    | ok _ => exact hmemory _
    | error e => trivial
  · refine Every.command_bind ?_ (fun _ => conduct_ret _) conduct_throw
    refine conduct_call (fun r hr => ?_) fun r hr => ?_
    · cases r <;> cases hr
    · cases r with
      | ok _ => trivial
      | error e => cases hr

/-- A command to the origin or the optimizer, of which only an error is a failure. -/
theorem every_origin {γ : Type} {c : Command ε} {f : Answer c → CdnProgram ε γ} (hok : ∀ a, ¬ Failed c (.ok a))
    (hwrote : ∀ r, ¬ Wrote c r) (hf : ∀ a, (f a).Every Conduct) : ((await c).bind f).Every Conduct := by
  refine ⟨conduct_call (fun r hr => ?_) fun r hr => absurd hr (hwrote r), fun r => ?_⟩
  · cases r with
    | ok a => exact absurd hr (hok a)
    | error e => exact ⟨e, rfl⟩
  · cases r with
    | ok a => exact hf a
    | error e => exact conduct_throw e

theorem every_fetchAndStore_conduct : (fetchAndStore edges request).Every Conduct := by
  have hstore := every_store edges request
  unfold fetchAndStore fetchFile
  rw [bind_eq, bind_eq, Program.bind_assoc]
  refine ⟨conduct_call (fun r hr => ?_) fun r hr => absurd hr id, fun r => ?_⟩
  · cases r with
    | error e => exact ⟨e, rfl⟩
    | ok originRes =>
      have hok : originRes.ok = false := hr
      refine ⟨"Origin error: " ++ originRes.statusText, ?_⟩
      show Program.bind (ite (originRes.ok = true) _ _) _ = _
      rw [if_neg (by rw [hok]; decide)]
      rfl
  cases r with
  | error e => exact conduct_throw e
  | ok originRes =>
    show (Program.bind (ite (originRes.ok = true) _ _) _).Every Conduct
    split
    · rw [bind_eq, Program.bind_assoc]
      refine every_origin (fun _ => id) (fun _ => id) fun data => ?_
      rw [bind_eq, Program.bind_assoc]
      have hetag : (etagOf originRes.etag : CdnProgram ε String).Within Idle := within_etagOf (fun r => ⟨id, id⟩) _
      refine hetag.every_bind (fun c next hc => conduct_idle hc next) conduct_throw fun etag => ?_
      simp only
      split
      · rw [bind_eq, Program.bind_assoc]
        refine every_origin (fun _ => id) (fun _ => id) fun optimized => ?_
        rw [bind_eq, Program.bind_assoc]
        exact every_origin (fun _ => id) (fun _ => id) fun now => hstore _
      · exact hstore _
    · exact conduct_throw _

/-- **How every call behaves.** -/
theorem every_conduct : (serveFile edges request).Every Conduct := by
  have hfetch := every_fetchAndStore_conduct edges request
  have hredis : ∀ redisData next, next none = fetchAndStore edges request →
      (∀ response, next (some response) = .ret response) →
        ((tryRedis edges request redisData).bind next).Every Conduct := by
    intro redisData next hnone hsome
    rw [← hnone] at hfetch
    cases redisData with
    | none => exact hfetch
    | some redisData =>
      show (Program.bind (catchAll (fromRedis edges request redisData) fun _ => pure none) _).Every Conduct
      unfold fromRedis
      -- whatever throws inside `try` leads to the origin
      cases decodeEntry redisData.value with
      | none => exact hfetch
      | some parsed =>
        refine ⟨conduct_idle (fun r => ⟨id, id⟩) _, fun r => ?_⟩
        cases r with
        | error e => exact hfetch
        | ok ttl =>
          refine ⟨conduct_call (fun r hr => ?_) fun r hr => ?_, fun r => ?_⟩
          · cases r <;> cases hr
          · cases r with
            | ok _ =>
              show (next (some _)).Within Settled
              rw [hsome]
              exact True.intro
            | error e => cases hr
          · cases r with
            | ok _ =>
              show (next (some _)).Every Conduct
              rw [hsome]
              exact conduct_ret _
            | error e => exact hfetch
  refine ⟨conduct_idle (fun r => ⟨id, id⟩) _, fun r => ?_⟩
  cases r with
  | error e => exact conduct_throw e
  | ok memData =>
    cases memData with
    | some r => exact conduct_ret _
    | none =>
      refine ⟨conduct_idle (fun r => ⟨id, id⟩) _, fun r => ?_⟩
      cases r with
      | error e => exact conduct_throw e
      | ok redisData => exact hredis redisData _ rfl fun _ => rfl

end Serve

/-! ### Runs -/

section Runs

variable [DecidableEq ι] [DecidableEq ε] {edges : ε → Edge} {requests : ι → Request ε}

/-- Both caches hold what they held. -/
def Unchanged (pool pool' : Calls ι ε) : Prop :=
  pool'.state.redis = pool.state.redis ∧ pool'.state.memory = pool.state.memory

/-- The next command of the call fails at the origin or in the transform. -/
def Fails (edges : ε → Edge) (pool : Calls ι ε) (i : ι) (turn : Turn) : Prop :=
  ∃ c next, pool.procs i = .call c next ∧ Failed c (handle edges turn pool.state c).2

/-- Only a write changes a cache. -/
theorem handle_of_not_wrote {turn : Turn} {s : Caches ε} {c : Command ε}
    (h : ¬ Wrote c (handle edges turn s c).2) :
    (handle edges turn s c).1.redis = s.redis ∧ (handle edges turn s c).1.memory = s.memory := by
  rcases (handle_state : (handle edges turn s c).1 = _ ∨ _) with hstate | hstate
  · rw [hstate]
    exact ⟨rfl, rfl⟩
  · rw [hstate]
    cases c with
    | setex key ttlSeconds value => exact absurd trivial h
    | memorySet edge key response => exact absurd trivial h
    | fetch url request =>
      simp only [execute]
      split <;> exact ⟨rfl, rfl⟩
    | _ => exact ⟨rfl, rfl⟩

omit [DecidableEq ε] in
theorem not_wrote_of_failed {c : Command ε} {r : Except String (Answer c)} (h : Failed c r) : ¬ Wrote c r := by
  cases c with
  | setex key ttlSeconds value => exact absurd h id
  | memorySet edge key response =>
    cases r with
    | ok _ => exact absurd h id
    | error e => exact id
  | _ => exact id

theorem every_conduct_run {es : List (Event ι ε)} {pool : Calls ι ε}
    (hrun : run (Calls.step edges) (Calls.start edges .empty requests) es = some pool) (i : ι) :
    (pool.procs i).Every Conduct := by
  refine run_induction (Calls.step edges) (Calls.start edges .empty requests)
    (fun _ pool => ∀ i, (pool.procs i).Every Conduct) (fun i => every_conduct edges (requests i)) ?_ es pool hrun i
  exact fun _ _ _ _ _ hs hst => Calls.every_step hs hst

/-- A call that has settled stays so. -/
theorem settled_run {es : List (Event ι ε)} {start pool : Calls ι ε}
    (hrun : run (Calls.step edges) start es = some pool) {i : ι} (h : (start.procs i).Within Settled) :
    (pool.procs i).Within Settled := by
  refine run_induction (Calls.step edges) start (fun _ pool => (pool.procs i).Within Settled) h ?_ es pool hrun
  exact fun _ _ _ _ _ hs hst => Calls.within_step hs hst

/-- **A call that fails has changed nothing before, changes nothing now, and ends.** -/
theorem unchanged_of_fails {es : List (Event ι ε)} {i : ι} {turn : Turn} {pool pool' : Calls ι ε}
    (hrun : run (Calls.step edges) (Calls.start edges .empty requests) es = some pool)
    (hstep : Calls.step edges pool (.call i turn) = some pool') (hfails : Fails edges pool i turn) :
    Unchanged pool pool' ∧ (∃ e, pool'.procs i = .throw e) ∧
      ∀ done turn' rest m m', es = done ++ .call i turn' :: rest →
        run (Calls.step edges) (Calls.start edges .empty requests) done = some m →
        Calls.step edges m (.call i turn') = some m' → Unchanged m m' := by
  obtain ⟨c, next, hi, hfailed⟩ := hfails
  obtain ⟨c', next', hi', hstate, hself, -⟩ := Pool.step_cases hstep
  rw [hi] at hi'
  cases hi'
  refine ⟨?_, ?_, ?_⟩
  · unfold Unchanged
    rw [hstate]
    exact handle_of_not_wrote (not_wrote_of_failed hfailed)
  · rw [hself]
    exact ((every_conduct_run hrun i).here c next hi _).1 hfailed
  · intro done turn' rest m m' hes hdone hm
    obtain ⟨d, dnext, hd, hdstate, hdself, -⟩ := Pool.step_cases hm
    unfold Unchanged
    rw [hdstate]
    refine handle_of_not_wrote fun hwrote => ?_
    -- after a write the call cannot be one that waits for the origin
    have hsettled : (m'.procs i).Within Settled := by
      rw [hdself]
      exact ((every_conduct_run hdone i).here d dnext hd _).2 hwrote
    have hrest : run (Calls.step edges) m' rest = some pool := by
      rw [hes, run_append, hdone, Option.bind_some, run_cons, hm, Option.bind_some] at hrun
      exact hrun
    have hcall := settled_run hrest hsettled
    rw [hi] at hcall
    exact hcall.1 _ hfailed

end Runs

/-- A bucket name that passes `CreateBucketDto` has no colon. -/
theorem no_colon_of_bucketNameMatches {name : String} (h : Storage.bucketNameMatches name = true) :
    ':' ∉ name.toList := by
  intro hmem
  simp only [Storage.bucketNameMatches, Bool.and_eq_true, List.all_eq_true] at h
  exact absurd (h.1.1.2 ':' hmem) (by decide)

/-- **The caches that calls leave.** -/
theorem provenance_run [DecidableEq ι] [DecidableEq ε] {edges : ε → Edge} {requests : ι → Request ε}
    {valid : Request ε → Prop} (hvalid : ∀ i, valid (requests i)) {es : List (Event ι ε)} {pool : Calls ι ε}
    (hrun : run (Calls.step edges) (Calls.start edges .empty requests) es = some pool) :
    pool.Steady fun i => provenanceContract edges valid (hvalid i) :=
  (Calls.steady_start _ (provenance_empty edges valid)).run rfl (provenance_deletable edges valid)
    (fun _ _ _ => trivial) hrun

theorem provenance_any [DecidableEq ι] [DecidableEq ε] {edges : ε → Edge} {requests : ι → Request ε}
    {es : List (Event ι ε)} {pool : Calls ι ε}
    (hrun : run (Calls.step edges) (Calls.start edges .empty requests) es = some pool) :
    Provenance edges (fun _ => True) pool.state :=
  (provenance_run (fun _ => trivial) hrun).inv

/-- **Hits and failures.**  If no region is another one with a colon and a rest, a hit carries what was built
from a 2xx answer for the same region, bucket, key and JSON of transforms; and a call that fails at the origin
or in the transform leaves both caches as they were. -/
theorem served_backed [DecidableEq ι] [DecidableEq ε] (edges : ε → Edge)
    (hregions : ∀ e e', ¬ Extends (edges e).region (edges e').region) (requests : ι → Request ε)
    (hbuckets : ∀ i, Storage.bucketNameMatches (requests i).bucket = true) (es : List (Event ι ε)) (i : ι)
    (turn : Turn) (pool pool' : Calls ι ε)
    (hrun : run (Calls.step edges) (Calls.start edges .empty requests) es = some pool)
    (hstep : Calls.step edges pool (.call i turn) = some pool') :
    (∀ response, pool'.procs i = .ret response → response.value.cacheHit = true →
      Backed pool'.state ⟨response.value.toCacheObject, response.source⟩ ∧
        (edges response.source.request.edge).region = (edges (requests i).edge).region ∧
        response.source.request.bucket = (requests i).bucket ∧
        response.source.request.key = (requests i).key ∧
        transformKey response.source.request.transforms = transformKey (requests i).transforms) ∧
    (Fails edges pool i turn → Unchanged pool pool' ∧ (∃ e, pool'.procs i = .throw e) ∧
      ∀ done turn' rest m m', es = done ++ .call i turn' :: rest →
        run (Calls.step edges) (Calls.start edges .empty requests) done = some m →
        Calls.step edges m (.call i turn') = some m' → Unchanged m m') := by
  refine ⟨fun response hret _ => ?_, unchanged_of_fails hrun hstep⟩
  let valid : Request ε → Prop := fun request => ':' ∉ request.bucket.toList
  have hvalid : ∀ i, valid (requests i) := fun i => no_colon_of_bucketNameMatches (hbuckets i)
  have hsteady := provenance_run hvalid hrun
  obtain ⟨hsteady', -, hpost⟩ := hsteady.step rfl (provenance_deletable edges _)
    (Event.allowed (fun _ _ _ => trivial) _ pool) hstep
  obtain ⟨hbacked, hkey⟩ := hpost i turn rfl response hret
  have hsource := (hsteady'.inv.fetches _ hbacked.2).1
  exact ⟨hbacked, (cacheKey_eq_iff (hregions _ _) (hregions _ _) hsource (hvalid i)).mp hkey⟩

/-- A hit that a failure-free run ends with. -/
theorem served_backed_photo : ∃ (pool pool' : Calls Bool Unit) (response : Labelled (Source Unit) CdnResponse),
    pool'.procs true = .ret response ∧ response.value = ⟨⟨[1], "image/jpeg", "e1"⟩, true, none⟩ ∧
      Backed pool'.state ⟨response.value.toCacheObject, response.source⟩ ∧
      response.source.request.key = "photo.jpg" ∧
      (Fails (fun _ => defaultEdge) pool true (.smooth 0) → Unchanged pool pool') := by
  have houtcome : (run (Calls.step fun _ => defaultEdge)
      (Calls.start (fun _ => defaultEdge) .empty fun _ => ⟨(), "img", "photo.jpg", none⟩)
      (List.replicate 7 (.call false (.smooth 0)) ++ [.call true (.smooth 0)])).bind (fun pool' =>
        (pool'.procs true).result.map fun response => response.value)
      = some ⟨⟨[1], "image/jpeg", "e1"⟩, true, none⟩ := rfl
  obtain ⟨pool, pool', response, hrun, hstep, hret, hvalue⟩ := Calls.exists_of_outcome houtcome
  obtain ⟨hhit, hfails⟩ := served_backed (fun _ => defaultEdge) (fun _ _ => not_extends_self _)
    (fun _ => ⟨(), "img", "photo.jpg", none⟩) (fun _ => by decide) _ true (.smooth 0) pool pool' hrun hstep
  obtain ⟨hbacked, -, -, hkey, -⟩ := hhit response hret (by rw [hvalue])
  exact ⟨pool, pool', response, hret, hvalue, hbacked, hkey, fun h => (hfails h).1⟩

/-! ### Hits on other objects -/

/-- The second region is the first one with a colon and a rest. -/
def nestedRegions : Bool → Edge
  | true => Edge.configured (some "a") none none none
  | false => Edge.configured (some "a:xyz") none none none

/-- Two objects that these regions hold under one key. -/
def nestedObjects : Bool → Request Bool
  | true => ⟨true, "xyz", "img:photo", none⟩
  | false => ⟨false, "img", "photo", none⟩

/-- A call as the controller makes it without a query, and one without transforms. -/
def bareVariants : Bool → Request Unit
  | true => ⟨(), "img", "photo", none⟩
  | false => ⟨(), "img", "photo",
      some [(.w, .undefined), (.h, .undefined), (.fmt, .undefined), (.q, .undefined), (.fit, .undefined)]⟩

/-- **Hits on what was built for another bucket, and for other transforms.** -/
theorem served_foreign :
    (∃ (es : List (Event Bool Bool)) (turn : Turn) (pool pool' : Calls Bool Bool)
      (response : Labelled (Source Bool) CdnResponse), (∀ i, Storage.bucketNameMatches (nestedObjects i).bucket = true) ∧
        run (Calls.step nestedRegions) (Calls.start nestedRegions .empty nestedObjects) es = some pool ∧
        Calls.step nestedRegions pool (.call true turn) = some pool' ∧
        pool'.procs true = .ret response ∧ response.value.cacheHit = true ∧
        ∀ f ∈ pool'.state.fetches, f.request.bucket ≠ (nestedObjects true).bucket) ∧
    ∃ (es : List (Event Bool Unit)) (turn : Turn) (pool pool' : Calls Bool Unit)
      (response : Labelled (Source Unit) CdnResponse),
        run (Calls.step fun _ => defaultEdge) (Calls.start (fun _ => defaultEdge) .empty bareVariants) es
          = some pool ∧
        Calls.step (fun _ => defaultEdge) pool (.call true turn) = some pool' ∧
        pool'.procs true = .ret response ∧ response.value.cacheHit = true ∧
        ∀ f ∈ pool'.state.fetches, f.request.transforms ≠ (bareVariants true).transforms := by
  constructor
  · have houtcome : (run (Calls.step nestedRegions) (Calls.start nestedRegions .empty nestedObjects)
        ((List.replicate 7 (.call false (.smooth 0)) ++ List.replicate 3 (.call true (.smooth 0)))
          ++ [.call true (.smooth 0)])).bind (fun pool' => (pool'.procs true).result.map fun response =>
            (response.value.cacheHit, pool'.state.fetches.map fun f => f.request.bucket))
        = some (true, ["img"]) := by
      decide +kernel
    obtain ⟨pool, pool', response, hrun, hstep, hret, hvalues⟩ := Calls.exists_of_outcome houtcome
    obtain ⟨hhit, hbuckets⟩ := Prod.mk.inj hvalues
    refine ⟨_, _, pool, pool', response, by decide, hrun, hstep, hret, hhit, fun f hf => ?_⟩
    have hmem : f.request.bucket ∈ ["img"] := hbuckets ▸ List.mem_map_of_mem hf
    rw [List.mem_singleton.mp hmem]
    decide
  · have houtcome : (run (Calls.step fun _ => defaultEdge) (Calls.start (fun _ => defaultEdge) .empty bareVariants)
        (List.replicate 9 (.call false (.smooth 0)) ++ [.call true (.smooth 0)])).bind (fun pool' =>
          (pool'.procs true).result.map fun response =>
            (response.value.cacheHit, pool'.state.fetches.map fun f => f.request.transforms.isSome))
        = some (true, [true]) := by
      decide +kernel
    obtain ⟨pool, pool', response, hrun, hstep, hret, hvalues⟩ := Calls.exists_of_outcome houtcome
    obtain ⟨hhit, htransforms⟩ := Prod.mk.inj hvalues
    refine ⟨_, _, pool, pool', response, hrun, hstep, hret, hhit, fun f hf heq => ?_⟩
    have hmem : f.request.transforms.isSome ∈ [true] := htransforms ▸ List.mem_map_of_mem hf
    rw [heq] at hmem
    exact absurd hmem (by decide)

end EdgeSphere.Cdn
