import EdgeSphere.Cdn.Serve

/-!
# How old the served bytes can be

The two caches of an edge have lifetimes of their own, and each begins when the cache is filled, not when the
bytes were fetched.

* `InTime` — an instant within the TTL of some bytes;
* `Timely` — a step that fills a memory does so early enough for the lifetime of the memory to end within the
  TTL of the bytes;
* `served_inTime` — **in every run of timely steps, no response is older than its TTL**;
* `served_late` — a run in which one is.
-/

namespace EdgeSphere.Cdn

open EdgeSphere.Library
open EdgeSphere.Library.Buffer
open EdgeSphere.Library.Expiry
open EdgeSphere.Library.Program
open EdgeSphere.Library.Runs

variable {ι ε : Type} [DecidableEq ι] [DecidableEq ε]

/-- At `now` the bytes were fetched no longer ago than the TTL that was read when they were stored. -/
def InTime (now : ℕ) (source : Source ε) : Prop :=
  ∃ seconds : ℤ, source.ttlSeconds = .int seconds ∧ (now : ℤ) ≤ source.fetchedAt + 1000 * seconds

instance (now : ℕ) (source : Source ε) : Decidable (InTime now source) :=
  match h : source.ttlSeconds with
  | .nan => .isFalse fun ⟨_, hseconds, _⟩ => by rw [h] at hseconds; cases hseconds
  | .int seconds => decidable_of_iff ((now : ℤ) ≤ source.fetchedAt + 1000 * seconds)
      ⟨fun hle => ⟨seconds, h, hle⟩, fun ⟨_, hseconds, hle⟩ => by rw [h] at hseconds; cases hseconds; exact hle⟩

omit [DecidableEq ε] in
theorem InTime.of_le {now later : ℕ} {source : Source ε} (h : InTime later source) (hle : now ≤ later) :
    InTime now source := by
  obtain ⟨seconds, hseconds, hlater⟩ := h
  exact ⟨seconds, hseconds, by omega⟩

/-- When the command is executed, what it puts into a memory is gone from there in time. -/
def FillsInTime (edges : ε → Edge) (turn : Turn) (s : Caches ε) (c : Command ε) : Prop :=
  ∀ edge key response, c = .memorySet edge key response →
    InTime (s.now + turn.elapsed + 1000 * (edges edge).memTtlSeconds) response.source

/-- The invariant: the memories hold nothing beyond its TTL. -/
def timed (edges : ε → Edge) : Protocol (Caches ε) Turn (Command ε) Answer String where
  handle := handle edges
  allowed := FillsInTime edges
  inv s := ∀ edge key cell, s.memory edge key = some cell →
    ∃ deadline, cell.deadline = some deadline ∧ InTime deadline cell.value.source
  later _ _ := True
  refl _ := trivial
  trans _ _ := trivial

/-- A hit is as old as the cell allows. -/
theorem inTime_of_read {edges : ε → Edge} {s : Caches ε} (hinv : (timed edges).inv s) {edge : ε} {key : String}
    {response : Labelled (Source ε) CdnResponse} (h : read s.now (s.memory edge key) = some response) :
    InTime s.now response.source := by
  cases hcell : s.memory edge key with
  | none =>
    rw [hcell] at h
    cases h
  | some cell =>
    obtain ⟨deadline, hdeadline, htime⟩ := hinv edge key cell hcell
    obtain ⟨value, _⟩ := cell
    cases hdeadline
    rw [hcell, read_some_deadline] at h
    split at h
    · rename_i hle
      cases h
      exact htime.of_le hle
    · cases h

def timedContract (edges : ε → Edge) (request : Request ε) : Contract edges (timed edges) request where
  fetched _ _ := True
  good _ _ := True
  post s r := InTime s.now r.source
  handle_eq := rfl
  fetched_later _ _ _ _ _ := trivial
  good_later _ _ _ _ _ := trivial
  advance s elapsed hinv := ⟨hinv, trivial⟩
  memoryHit s r hinv h := show InTime s.now r.source from inTime_of_read hinv h
  redisHit _ _ _ _ _ _ := trivial
  fetch s hinv := ⟨hinv, trivial, trivial⟩
  setRedis s f object seconds hinv _ _ := ⟨hinv, trivial, trivial⟩
  setMemory turn s o r hinv _ _ hallowed := by
    have hfill := hallowed _ _ _ rfl
    refine ⟨fun edge key cell hcell => ?_, trivial, hfill.of_le (Nat.le_add_right _ _)⟩
    by_cases hsame : edge = request.edge ∧ key = request.cacheKey edges
    · rw [hsame.1, hsame.2, Caches.setMemory_self, put, Option.some.injEq] at hcell
      rw [← hcell]
      exact ⟨_, rfl, hfill⟩
    · have hne : edge ≠ request.edge ∨ key ≠ request.cacheKey edges := not_and_or.mp hsame
      rw [Caches.setMemory_of_ne _ hne] at hcell
      exact hinv edge key cell hcell

theorem timed_deletable (edges : ε → Edge) : Deletable (timed edges) where
  delRedis _ _ hinv := ⟨hinv, trivial⟩
  delMemory s _ _ hinv := ⟨fun edge' key' cell hcell => hinv edge' key' cell (Caches.delMemory_eq_some s hcell),
    trivial⟩

/-- **The condition on a step.**  If it fills a memory with bytes at some instant, the entry is gone from that
memory before the bytes are too old. -/
def Timely (edges : ε → Edge) (pool : Calls ι ε) : Event ι ε → Prop
  | .call i turn => ∀ edge key response next, pool.procs i = .call (.memorySet edge key response) next →
    InTime (pool.state.now + turn.elapsed + 1000 * (edges edge).memTtlSeconds) response.source
  | _ => True

/-- What a call is about to put into the memory of an edge. -/
def filling : CdnProgram ε (Labelled (Source ε) CdnResponse) → Option (ε × Labelled (Source ε) CdnResponse)
  | .call (.memorySet edge _ response) _ => some (edge, response)
  | _ => none

omit [DecidableEq ε] in
theorem filling_eq_some {p : CdnProgram ε (Labelled (Source ε) CdnResponse)} {edge : ε}
    {response : Labelled (Source ε) CdnResponse} :
    filling p = some (edge, response) ↔ ∃ key next, p = .call (.memorySet edge key response) next := by
  constructor
  · intro h
    unfold filling at h
    split at h
    · cases h
      exact ⟨_, _, rfl⟩
    · cases h
  · rintro ⟨key, next, rfl⟩
    rfl

instance (edges : ε → Edge) (pool : Calls ι ε) (event : Event ι ε) : Decidable (Timely edges pool event) :=
  match event with
  | .call i turn =>
    decidable_of_iff (∀ fill ∈ filling (pool.procs i),
        InTime (pool.state.now + turn.elapsed + 1000 * (edges fill.1).memTtlSeconds) fill.2.source)
      ⟨fun h edge key response next hi => h (edge, response) (filling_eq_some.mpr ⟨key, next, hi⟩),
        fun h (edge, response) hfill => by
          obtain ⟨key, next, hi⟩ := filling_eq_some.mp hfill
          exact h edge key response next hi⟩
  | .delRedis _ => .isTrue trivial
  | .delMemory _ _ => .isTrue trivial

omit [DecidableEq ι] in
theorem Timely.allowed {edges : ε → Edge} {pool : Calls ι ε} {event : Event ι ε} (h : Timely edges pool event) :
    event.Allowed (timed edges) pool := by
  cases event with
  | call i turn =>
    intro c next hi edge key response hc
    cases hc
    exact h edge key response next hi
  | delRedis physical => trivial
  | delMemory edge key => trivial

/-- **In a run of timely steps, whatever a call answers with was fetched within its TTL.** -/
theorem served_inTime (edges : ε → Edge) (requests : ι → Request ε) (es : List (Event ι ε)) (i : ι) (turn : Turn)
    (pool pool' : Calls ι ε) (response : Labelled (Source ε) CdnResponse)
    (hcond : Throughout (Calls.step edges) (Timely edges) (Calls.start edges .empty requests)
      (es ++ [.call i turn]))
    (hrun : run (Calls.step edges) (Calls.start edges .empty requests) es = some pool)
    (hstep : Calls.step edges pool (.call i turn) = some pool') (hret : pool'.procs i = .ret response) :
    InTime pool'.state.now response.source := by
  obtain ⟨hprior, hlast⟩ := throughout_append.mp hcond
  have hstart : (Calls.start edges .empty requests).Steady fun i => timedContract edges (requests i) := by
    apply Calls.steady_start
    intro edge key cell hcell
    cases hcell
  have hsteady : pool.Steady fun i => timedContract edges (requests i) := by
    refine run_of_throughout (fun s e t hs he hst => ?_) hprior hrun hstart
    exact (hs.step rfl (timed_deletable edges) he.allowed hst).1
  obtain ⟨-, -, hpost⟩ := hsteady.step rfl (timed_deletable edges) (hlast pool hrun).1.allowed hstep
  exact hpost i turn rfl response hret

/-- With the default TTL of an hour, a file is served in time from a memory that was filled five seconds before. -/
theorem served_inTime_photo : ∃ (pool pool' : Calls Bool Unit) (response : Labelled (Source Unit) CdnResponse),
    pool'.procs true = .ret response ∧ response.value.cacheHit = true ∧
      response.source.ttlSeconds = .int 3600 ∧ pool'.state.now = response.source.fetchedAt + 5000 ∧
      InTime pool'.state.now response.source := by
  have houtcome : (run (Calls.step fun _ => defaultEdge)
      (Calls.start (fun _ => defaultEdge) .empty fun _ => ⟨(), "img", "photo.jpg", none⟩)
      (List.replicate 7 (.call false (.smooth 0)) ++ [.call true (.smooth 5000)])).bind (fun pool' =>
        (pool'.procs true).result.map fun response => (response.value.cacheHit, response.source.ttlSeconds,
          decide (pool'.state.now = response.source.fetchedAt + 5000)))
      = some (true, .int 3600, true) := rfl
  obtain ⟨pool, pool', response, hrun, hstep, hret, hvalues⟩ := Calls.exists_of_outcome houtcome
  rw [Prod.mk.injEq, Prod.mk.injEq] at hvalues
  obtain ⟨hhit, hseconds, hage⟩ := hvalues
  exact ⟨pool, pool', response, hret, hhit, hseconds, of_decide_eq_true hage,
    served_inTime (fun _ => defaultEdge) (fun _ => ⟨(), "img", "photo.jpg", none⟩) _ true (.smooth 5000) pool pool'
      response (by decide +kernel) hrun hstep hret⟩

/-! ### A response that is too old -/

/-- The configured TTL is one second. -/
def shortTurn (elapsed : ℕ) : Turn := { Turn.smooth elapsed with cacheTtlSeconds := some "1" }

/-- **Two seconds after the fetch the memory still answers**, with a TTL of one second and the default
lifetime of the memory. -/
theorem served_late : ∃ (es : List (Event Bool Unit)) (turn : Turn) (pool pool' : Calls Bool Unit)
    (response : Labelled (Source Unit) CdnResponse),
    run (Calls.step fun _ => defaultEdge)
        (Calls.start (fun _ => defaultEdge) .empty fun _ => ⟨(), "img", "photo.jpg", none⟩) es = some pool ∧
      Calls.step (fun _ => defaultEdge) pool (.call true turn) = some pool' ∧
      pool'.procs true = .ret response ∧ response.source.ttlSeconds = .int 1 ∧
      ¬ InTime pool'.state.now response.source := by
  have houtcome : (run (Calls.step fun _ => defaultEdge)
      (Calls.start (fun _ => defaultEdge) .empty fun _ => ⟨(), "img", "photo.jpg", none⟩)
      (List.replicate 7 (.call false (shortTurn 0)) ++ [.call true (shortTurn 2000)])).bind (fun pool' =>
        (pool'.procs true).result.map fun response =>
          (pool'.state.now, response.source.fetchedAt, response.source.ttlSeconds))
      = some (2000, 0, .int 1) := rfl
  obtain ⟨pool, pool', response, hrun, hstep, hret, hvalues⟩ := Calls.exists_of_outcome houtcome
  rw [Prod.mk.injEq, Prod.mk.injEq] at hvalues
  obtain ⟨hnow, hfetchedAt, hseconds⟩ := hvalues
  refine ⟨_, _, pool, pool', response, hrun, hstep, hret, hseconds, ?_⟩
  intro ⟨seconds, hseconds', hle⟩
  rw [hseconds] at hseconds'
  cases hseconds'
  omega

end EdgeSphere.Cdn
