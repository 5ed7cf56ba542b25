import EdgeSphere.Cdn.Purge

/-!
# The invalidations of the cache-service

`InvalidationService` purges a file, a bucket, what is under a prefix, or everything: first in Redis, then by
an event on which every edge clears its memory.

* `executePurge` — the program of the four purges, `clears` — what an edge does with an event;
* `Effective` — no covered call is served what was fetched before the purge;
* `Clear` — nothing is there that the purge would have to remove and does not;
* `effective_iff` — **exactly when a purge is effective**, and `purge_serves_old` when it is not.
-/

namespace EdgeSphere.Cdn

open EdgeSphere.Library
open EdgeSphere.Library.Buffer
open EdgeSphere.Library.Expiry
open EdgeSphere.Library.Program
open EdgeSphere.Library.Runs

/-! ### Purges -/

/-- The purges of `InvalidationService`: `purge`, `purgeBucket`, `purgePrefix`, `purgeAll`. -/
inductive Purge where
  | file (bucket key : String)
  | bucket (bucket : String)
  | under (bucket keyPrefix : String)
  | all
  deriving DecidableEq, Repr

namespace Purge

def pattern : Purge → String
  | file name key => "cdn:*:" ++ name ++ "/" ++ key ++ ":*"
  | bucket name => "cdn:*:" ++ name ++ ":*"
  | under name keyPrefix => "cdn:*:" ++ name ++ "/" ++ keyPrefix ++ "*"
  | all => "*"

def type : Purge → String
  | file _ _ => "file"
  | bucket _ => "bucket"
  | under _ _ => "prefix"
  | all => "all"

def details : Purge → InvalidationEvent
  | file name key => ⟨some name, some key, none⟩
  | bucket name => ⟨some name, none, none⟩
  | under name keyPrefix => ⟨some name, none, some keyPrefix⟩
  | all => ⟨none, none, none⟩

end Purge

structure PurgeResult where
  purgeId : String
  keysDeleted : ℕ
  regions : List String
  timestamp : String
  deriving DecidableEq, Repr

/-- `InvalidationService.executePurge`; the UUID and the date are given. -/
def executePurge (rounds : ℕ) (purgeId timestamp : String) (purge : Purge) : PurgeProgram PurgeResult := do
  let pattern := if purge.pattern = "*" then "cdn:*" else purge.pattern
  let keysDeleted ← scanLoop pattern id rounds "0" 0
  send (.publish purge.details)
  send (.pushHistory ⟨purgeId, purge.type, purge.details, timestamp, keysDeleted⟩)
  return ⟨purgeId, keysDeleted, ["global"], timestamp⟩

/-! ### Events -/

/-- `${text}`. -/
def textOf : Option String → String
  | none => "undefined"
  | some text => text

/-- A text that counts as true. -/
def truthy : Option String → Bool
  | none | some "" => false
  | some _ => true

/-- Whether the handler of `CdnService.onModuleInit` deletes a key. -/
def clears (event : InvalidationEvent) (cacheKey : String) : Bool :=
  if truthy event.key then includes cacheKey (":" ++ textOf event.bucket ++ ":" ++ textOf event.key ++ ":")
  else if truthy event.bucket then includes cacheKey (":" ++ textOf event.bucket ++ ":")
  else false

/-- Every edge has handled the events. -/
def Caches.invalidate {ε : Type} (s : Caches ε) (events : List InvalidationEvent) : Caches ε :=
  { s with memory := fun edge key => if events.any fun event => clears event key then none else s.memory edge key }

/-- The objects that a purge is for. -/
def Purge.covers {ε : Type} : Purge → Request ε → Prop
  | .file name key, q => q.bucket = name ∧ q.key = key
  | .bucket name, q => q.bucket = name
  | .under name keyPrefix, q => q.bucket = name ∧ keyPrefix.toList <+: q.key.toList
  | .all, _ => True

/-- The event names nothing. -/
def Purge.nameless : Purge → Bool
  | .file name key => name = "" && key = ""
  | .bucket name => name = ""
  | .under name _ => name = ""
  | .all => true

/-! ### What the event clears -/

theorem truthy_some {text : String} (h : text ≠ "") : truthy (some text) = true := by
  unfold truthy
  split
  · rename_i heq
    cases heq
  · rename_i heq
    exact absurd (Option.some.inj heq) h
  · rfl

/-- A text between others is included. -/
theorem includes_of_toList {text part : String} (before after : List Char)
    (h : text.toList = before ++ (part.toList ++ after)) : includes text part = true := by
  refine decide_eq_true ⟨before, after, ?_⟩
  rw [h, List.append_assoc]

section Clears

variable {ε : Type} (edges : ε → Edge)

theorem includes_bucket (q : Request ε) : includes (q.cacheKey edges) (":" ++ q.bucket ++ ":") = true := by
  refine includes_of_toList ("cdn:".toList ++ (edges q.edge).region.toList)
    (q.key.toList ++ ':' :: transformKey q.transforms) ?_
  rw [Request.cacheKey, toList_cacheKey]
  simp

theorem includes_file (q : Request ε) :
    includes (q.cacheKey edges) (":" ++ q.bucket ++ ":" ++ q.key ++ ":") = true := by
  refine includes_of_toList ("cdn:".toList ++ (edges q.edge).region.toList) (transformKey q.transforms) ?_
  rw [Request.cacheKey, toList_cacheKey]
  simp

/-- An event without a key clears its bucket. -/
theorem clears_bucket {q : Request ε} (hbucket : q.bucket ≠ "") {key keyPrefix : Option String}
    (hkey : truthy key = false) : clears ⟨some q.bucket, key, keyPrefix⟩ (q.cacheKey edges) = true := by
  unfold clears
  rw [if_neg (by rw [hkey]; exact Bool.false_ne_true), if_pos (truthy_some hbucket)]
  exact includes_bucket edges q

/-- **An event with a name clears every covered key.** -/
theorem clears_of_covers {purge : Purge} {q : Request ε} (hcovers : purge.covers q)
    (hnamed : purge.nameless = false) : clears purge.details (q.cacheKey edges) = true := by
  cases purge with
  | file name key =>
    obtain ⟨rfl, rfl⟩ := hcovers
    by_cases hkey : q.key = ""
    · have hbucket : q.bucket ≠ "" := by
        intro heq
        rw [Purge.nameless, hkey, heq] at hnamed
        cases hnamed
      exact clears_bucket edges hbucket (by rw [hkey]; rfl)
    · show clears ⟨some q.bucket, some q.key, none⟩ (q.cacheKey edges) = true
      unfold clears
      rw [if_pos (truthy_some hkey)]
      exact includes_file edges q
  | bucket name =>
    cases hcovers
    exact clears_bucket edges (of_decide_eq_false hnamed) rfl
  | under name keyPrefix =>
    obtain ⟨rfl, -⟩ := hcovers
    exact clears_bucket edges (of_decide_eq_false hnamed) rfl
  | all => cases hnamed

/-- An event without a name clears nothing. -/
theorem clears_of_nameless {purge : Purge} (h : purge.nameless = true) (key : String) :
    clears purge.details key = false := by
  cases purge with
  | file name file =>
    rw [Purge.nameless, Bool.and_eq_true, decide_eq_true_eq, decide_eq_true_eq] at h
    rw [h.1, h.2]
    rfl
  | bucket name =>
    rw [of_decide_eq_true h]
    rfl
  | under name keyPrefix =>
    rw [of_decide_eq_true h]
    rfl
  | all => rfl

end Clears

/-! ### A purge that has returned -/

theorem Purge.pattern_eq (purge : Purge) :
    ∃ rest, (if purge.pattern = "*" then "cdn:*" else purge.pattern) = "cdn:" ++ rest := by
  have hhead : ∀ rest, "cdn:*:" ++ rest = "cdn:" ++ ("*:" ++ rest) := by
    intro rest
    rw [← String.append_assoc]
    rfl
  split
  · exact ⟨"*", rfl⟩
  · rename_i hstar
    cases purge with
    | file name key =>
      refine ⟨"*:" ++ (name ++ ("/" ++ (key ++ ":*"))), ?_⟩
      rw [← hhead]
      simp [Purge.pattern, String.append_assoc]
    | bucket name =>
      refine ⟨"*:" ++ (name ++ ":*"), ?_⟩
      rw [← hhead]
      simp [Purge.pattern, String.append_assoc]
    | under name keyPrefix =>
      refine ⟨"*:" ++ (name ++ ("/" ++ (keyPrefix ++ "*"))), ?_⟩
      rw [← hhead]
      simp [Purge.pattern, String.append_assoc]
    | all => exact absurd rfl hstar

section Exec

variable {ε : Type} {s s' : Server ε} {rounds : ℕ} {purgeId timestamp : String} {purge : Purge}

/-- It has published its event, and left the caches as they were. -/
theorem exec_executePurge (hwritten : Written s.caches) {result : PurgeResult}
    (h : exec Server.handle s (executePurge rounds purgeId timestamp purge) = (s', .ok result)) :
    s'.caches = s.caches ∧ s'.published = s.published ++ [purge.details] := by
  obtain ⟨rest, hpattern⟩ := purge.pattern_eq
  unfold executePurge at h
  simp only [hpattern] at h
  obtain ⟨m, count, hscan, h⟩ := exec_bind_ok _ h
  obtain ⟨m', _, hpublish, h⟩ := exec_bind_ok _ h
  obtain ⟨m'', _, hrecord, h⟩ := exec_bind_ok _ h
  cases h
  cases exec_send_ok hpublish
  cases exec_send_ok hrecord
  have hsame : (exec Server.handle s (scanLoop ("cdn:" ++ rest) id rounds "0" 0)).1.caches = s.caches ∧
      (exec Server.handle s (scanLoop ("cdn:" ++ rest) id rounds "0" 0)).1.published = s.published :=
    exec_scanLoop hwritten id rounds "0" 0
  rw [hscan] at hsame
  obtain ⟨hcaches, hpublished⟩ := hsame
  exact ⟨hcaches, by rw [← hpublished]⟩

/-- It returns, if nothing fails and the scan comes to its end. -/
theorem exec_executePurge_returns (hwritten : Written s.caches) (hfault : ∀ n, (s.turns n).fault = .none)
    {last : ℕ} (hlast : last < rounds) (hend : (s.turns last).cursor = "0") :
    ∃ s' result, exec Server.handle s (executePurge rounds purgeId timestamp purge) = (s', .ok result) := by
  obtain ⟨rest, hpattern⟩ := purge.pattern_eq
  have hreturns : ∃ m n, exec Server.handle s (scanLoop ("cdn:" ++ rest) id rounds "0" 0) = (m, .ok n) ∧
      ∀ k, (m.turns k).fault = .none := exec_scanLoop_returns hwritten hfault id hlast hend "0" 0
  obtain ⟨m, count, hscan, hm⟩ := hreturns
  let sent : Server ε := { m with published := m.published ++ [purge.details], turns := fun k => m.turns (k + 1) }
  have hpublish : exec Server.handle m (send (.publish purge.details)) = (sent, .ok ()) := exec_send (hm 0) _
  refine ⟨{ sent with
    history := (⟨purgeId, purge.type, purge.details, timestamp, count⟩ :: sent.history).take 100
    turns := fun k => sent.turns (k + 1) }, ⟨purgeId, count, ["global"], timestamp⟩, ?_⟩
  unfold executePurge
  simp only [hpattern]
  rw [bind_eq, exec_bind, hscan]
  show exec Server.handle m (Program.bind _ _) = _
  rw [exec_bind, hpublish]
  show exec Server.handle sent (Program.bind _ _) = _
  rw [exec_bind, exec_send (hm 1)]
  rfl

end Exec

/-! ### When a purge is effective -/

section Effective

variable {ε : Type} [DecidableEq ε] (edges : ε → Edge)

/-- From these caches on, no covered call is answered from them with what one of the first fetches returned. -/
def Effective (s : Caches ε) (covered : Request ε → Prop) (first : ℕ) : Prop :=
  ∀ (requests : ℕ → Request ε) (es : List (Event ℕ ε)) (i : ℕ) (turn : Turn) (pool pool' : Calls ℕ ε)
    (r : Labelled (Source ε) CdnResponse), run (Calls.step edges) (Calls.start edges s requests) es = some pool →
    Calls.step edges pool (.call i turn) = some pool' → pool'.procs i = .ret r → r.value.cacheHit = true →
    covered (requests i) → first ≤ r.source.number

/-- Redis holds nothing that the purge covers, nor does a memory if the event names nothing. -/
def Clear (purge : Purge) (s : Caches ε) : Prop :=
  (∀ q, purge.covers q → read s.now (s.redis (physicalKey (q.cacheKey edges))) = none) ∧
    (purge.nameless = true → ∀ q, purge.covers q → read s.now (s.memory q.edge (q.cacheKey edges)) = none)

variable {edges} {valid : Request ε → Prop} {s : Caches ε}

omit [DecidableEq ε] in
/-- A memory that has handled the event of a purge. -/
theorem invalidate_memory (purge : Purge) (edge : ε) (key : String) :
    (s.invalidate [purge.details]).memory edge key
      = if clears purge.details key = true then none else s.memory edge key := by
  show (if [purge.details].any (fun event => clears event key) then none else s.memory edge key) = _
  rw [List.any_cons, List.any_nil, Bool.or_false]

omit [DecidableEq ε] in
/-- An event takes from the memories only. -/
theorem Provenance.invalidate (h : Provenance edges valid s) (events : List InvalidationEvent) :
    Provenance edges valid (s.invalidate events) where
  fetches := h.fetches
  redis := h.redis
  memory edge key cell hcell := by
    have hcell : (if events.any fun event => clears event key then none else s.memory edge key) = some cell := hcell
    split at hcell
    · cases hcell
    · exact h.memory edge key cell hcell

omit [DecidableEq ε] in
/-- Cleared caches hold no old entry. -/
theorem since_of_clear {purge : Purge} (hclear : Clear edges purge s) :
    Since edges purge.covers s.fetches.length (s.invalidate [purge.details]) where
  fetches := le_refl _
  redis q v hcovers hread := by
    have hread : read s.now (s.redis (physicalKey (q.cacheKey edges))) = some v := hread
    rw [hclear.1 q hcovers] at hread
    cases hread
  memory q r hcovers hread := by
    rw [invalidate_memory] at hread
    split at hread
    · cases hread
    · rename_i hkept
      cases hnameless : purge.nameless with
      | true =>
        have hread : read s.now (s.memory q.edge (q.cacheKey edges)) = some r := hread
        rw [hclear.2 hnameless q hcovers] at hread
        cases hread
      | false => exact absurd (clears_of_covers edges hcovers hnameless) hkept

/-- A call that finds an entry answers with it. -/
theorem exec_serveFile_memory {q : Request ε} {r : Labelled (Source ε) CdnResponse}
    (h : read s.now (s.memory q.edge (q.cacheKey edges)) = some r) :
    (exec (handle edges (.smooth 0)) s (serveFile edges q)).2
      = .ok { r with value := { r.value with cacheHit := true } } := by
  have hget : handle edges (.smooth 0) s (.memoryGet q.edge (q.cacheKey edges)) = (s, .ok (some r)) := by
    rw [← h]
    rfl
  unfold serveFile
  rw [bind_eq, exec_bind, exec_command, hget]
  rfl

theorem exec_serveFile_redis {q : Request ε} {v : Labelled (Source ε) (List Byte)} {object : CacheObject}
    (hmemory : read s.now (s.memory q.edge (q.cacheKey edges)) = none)
    (hredis : read s.now (s.redis (physicalKey (q.cacheKey edges))) = some v)
    (hobject : v.value = encodeEntry object) :
    ∃ r, (exec (handle edges (.smooth 0)) s (serveFile edges q)).2 = .ok r ∧ r.value.cacheHit = true ∧
      r.source = v.source := by
  have hget : handle edges (.smooth 0) s (.memoryGet q.edge (q.cacheKey edges)) = (s, .ok none) := by
    rw [← hmemory]
    rfl
  have hbuffer : handle edges (.smooth 0) s (.getBuffer (q.cacheKey edges)) = (s, .ok (some v)) := by
    rw [← hredis]
    rfl
  have hdecode : decodeEntry v.value = some object := by rw [hobject, decodeEntry_encodeEntry]
  let ttl := remainingTTL s.now (s.redis (physicalKey (q.cacheKey edges)))
  refine ⟨⟨{ object with cacheHit := true, remainingTTL := if 0 < ttl then some ttl else none }, v.source⟩, ?_,
    rfl, rfl⟩
  unfold serveFile
  rw [bind_eq, exec_bind, exec_command, hget]
  show (exec _ s (serveFromRedis edges q)).2 = _
  unfold serveFromRedis
  rw [bind_eq, exec_bind, exec_command, hbuffer]
  show (exec _ s (((fromRedis edges q v).catchAll fun _ => pure none).bind _)).2 = _
  unfold fromRedis
  rw [hdecode]
  rfl

omit [DecidableEq ε] in
/-- A live entry of Redis can be read back, and its bytes have been fetched. -/
theorem Provenance.redis_read (h : Provenance edges valid s) {physical : String}
    {v : Labelled (Source ε) (List Byte)} (hread : read s.now (s.redis physical) = some v) :
    ∃ object, v.value = encodeEntry object ∧ v.source.number < s.fetches.length := by
  cases hcell : s.redis physical with
  | none =>
    rw [hcell] at hread
    cases hread
  | some cell =>
    obtain ⟨object, hvalue, hbacked, -⟩ := h.redis physical cell hcell
    have hv := value_of_read (hcell ▸ hread)
    rw [hv] at hvalue hbacked
    exact ⟨object, hvalue, (h.fetches _ hbacked.2).2⟩

omit [DecidableEq ε] in
theorem Provenance.memory_read (h : Provenance edges valid s) {edge : ε} {key : String}
    {r : Labelled (Source ε) CdnResponse} (hread : read s.now (s.memory edge key) = some r) :
    r.source.number < s.fetches.length := by
  cases hcell : s.memory edge key with
  | none =>
    rw [hcell] at hread
    cases hread
  | some cell =>
    obtain ⟨hbacked, -⟩ := h.memory edge key cell hcell
    have hr := value_of_read (hcell ▸ hread)
    rw [hr] at hbacked
    exact (h.fetches _ hbacked.2).2

/-- A covered call that is answered with old bytes when it runs alone. -/
theorem not_effective {covered : Request ε → Prop} {first : ℕ} {q : Request ε} (hcovered : covered q)
    {r : Labelled (Source ε) CdnResponse} (hexec : (exec (handle edges (.smooth 0)) s (serveFile edges q)).2 = .ok r)
    (hhit : r.value.cacheHit = true) (hold : r.source.number < first) : ¬ Effective edges s covered first := by
  intro heffective
  have hrun : ∃ es before after, run (Calls.step edges) (Calls.start edges s fun _ : ℕ => q) es = some before ∧
      Calls.step edges before (.call 0 (.smooth 0)) = some after ∧ after.procs 0 = .ret r :=
    Calls.exists_run edges (.smooth 0) rfl hexec
  obtain ⟨es, before, after, hrun, hstep, hret⟩ := hrun
  have hfirst := heffective (fun _ => q) es 0 (.smooth 0) before after r hrun hstep hret hhit hcovered
  omega

/-- **A live entry is served.** -/
theorem not_effective_of_live (h : Provenance edges valid s) {covered : Request ε → Prop} {q : Request ε}
    (hcovered : covered q)
    (hlive : read s.now (s.memory q.edge (q.cacheKey edges)) ≠ none ∨
      read s.now (s.redis (physicalKey (q.cacheKey edges))) ≠ none) :
    ¬ Effective edges s covered s.fetches.length := by
  cases hmemory : read s.now (s.memory q.edge (q.cacheKey edges)) with
  | some r =>
    have hnumber := h.memory_read hmemory
    exact not_effective hcovered (exec_serveFile_memory hmemory) rfl hnumber
  | none =>
    have hredis := hlive.resolve_left fun hne => hne hmemory
    cases hread : read s.now (s.redis (physicalKey (q.cacheKey edges))) with
    | none => exact absurd hread hredis
    | some v =>
      obtain ⟨object, hobject, hnumber⟩ := h.redis_read hread
      obtain ⟨r, hexec, hhit, hsource⟩ := exec_serveFile_redis hmemory hread hobject
      exact not_effective hcovered hexec hhit (hsource ▸ hnumber)

/-- **A purge is effective exactly when** there was nothing in Redis to purge, and nothing in a memory either if
it names nothing. -/
theorem effective_iff {ι : Type} [DecidableEq ι] (edges : ε → Edge) (requests : ι → Request ε)
    (es : List (Event ι ε)) (pool : Calls ι ε)
    (hrun : run (Calls.step edges) (Calls.start edges .empty requests) es = some pool) (rounds : ℕ)
    (purgeId timestamp : String) (purge : Purge) (turns : ℕ → PurgeTurn) (s' : Server ε) (result : PurgeResult)
    (hexec : exec Server.handle ⟨pool.state, [], [], turns⟩ (executePurge rounds purgeId timestamp purge)
      = (s', .ok result)) :
    Effective edges (s'.caches.invalidate s'.published) purge.covers pool.state.fetches.length ↔
      Clear edges purge pool.state := by
  have hprovenance := provenance_any hrun
  obtain ⟨hcaches, hpublished⟩ := exec_executePurge hprovenance.written hexec
  have hevents : s'.published = [purge.details] := hpublished
  rw [hcaches, hevents]
  have hafter := hprovenance.invalidate [purge.details]
  constructor
  · intro heffective
    refine ⟨fun q hcovers => ?_, fun hnameless q hcovers => ?_⟩
    · by_contra hlive
      exact not_effective_of_live hafter hcovers (.inr hlive) heffective
    · by_contra hlive
      refine not_effective_of_live hafter hcovers (.inl ?_) heffective
      rw [invalidate_memory, clears_of_nameless hnameless]
      exact hlive
  · intro hclear requests' es' i turn before after r hbefore hstep hret _ hcovers
    exact served_since (Calls.steady_start _ (since_of_clear hclear)) hbefore hstep hret hcovers

end Effective

/-- A purge of a bucket that has not been served. -/
theorem effective_iff_other : ∃ (pool : Calls Unit Unit) (s' : Server Unit) (result : PurgeResult),
    exec Server.handle ⟨pool.state, [], [], CacheController.onePage []⟩
        (executePurge 1 "p1" "2024-01-01T00:00:00.000Z" (.bucket "other")) = (s', .ok result) ∧
      (∃ physical, (read pool.state.now (pool.state.redis physical)).isSome = true) ∧
      Effective (fun _ => defaultEdge) (s'.caches.invalidate s'.published) (Purge.bucket "other").covers
        pool.state.fetches.length := by
  obtain ⟨pool, hrun, ⟨v, hv, -⟩, hfetches⟩ := CacheController.run_photo
  have hprovenance := provenance_any hrun
  obtain ⟨s', result, hexec⟩ := exec_executePurge_returns (s := ⟨pool.state, [], [], CacheController.onePage []⟩)
    hprovenance.written (fun _ => rfl) Nat.one_pos rfl
  refine ⟨pool, s', result, hexec, ⟨_, by rw [hv]; rfl⟩,
    (effective_iff _ _ _ pool hrun _ _ _ _ _ s' result hexec).mpr ⟨fun q hcovers => ?_, fun hnameless => ?_⟩⟩
  · cases hcell : pool.state.redis (physicalKey (q.cacheKey fun _ => defaultEdge)) with
    | none => rfl
    | some cell =>
      obtain ⟨object, -, hbacked, hkey⟩ := hprovenance.redis _ cell hcell
      rw [hfetches _ hbacked.2] at hkey
      have hbucket : q.bucket = "other" := hcovers
      have hparts := (cacheKey_eq_iff (not_extends_self _) (not_extends_self _) (by rw [hbucket]; decide)
        (by decide)).mp (physicalKey_inj.mp hkey)
      rw [hbucket] at hparts
      exact absurd hparts.2.1 (by decide)
  · cases hnameless

/-- **After every purge that covers the file, its entry is served.** -/
theorem purge_serves_old : ∃ (es : List (Event Unit Unit)) (pool : Calls Unit Unit),
    run (Calls.step fun _ => defaultEdge) (Calls.start (fun _ => defaultEdge) .empty fun _ => photo) es = some pool ∧
      ∀ purge : Purge, purge.covers photo → ∃ (s' : Server Unit) (result : PurgeResult),
        exec Server.handle
            ⟨pool.state, [], [], CacheController.onePage [physicalKey (photo.cacheKey fun _ => defaultEdge)]⟩
            (executePurge 1 "p1" "2024-01-01T00:00:00.000Z" purge) = (s', .ok result) ∧
          ¬ Effective (fun _ => defaultEdge) (s'.caches.invalidate s'.published) purge.covers
            pool.state.fetches.length := by
  obtain ⟨pool, hrun, ⟨v, hv, -⟩, -⟩ := CacheController.run_photo
  have hprovenance := provenance_any hrun
  refine ⟨_, pool, hrun, fun purge hcovers => ?_⟩
  let server : Server Unit :=
    ⟨pool.state, [], [], CacheController.onePage [physicalKey (photo.cacheKey fun _ => defaultEdge)]⟩
  have hreturns : ∃ s' result, exec Server.handle server (executePurge 1 "p1" "2024-01-01T00:00:00.000Z" purge)
      = (s', .ok result) := exec_executePurge_returns hprovenance.written (fun _ => rfl) Nat.one_pos rfl
  obtain ⟨s', result, hexec⟩ := hreturns
  refine ⟨s', result, hexec, ?_⟩
  rw [(exec_executePurge hprovenance.written hexec).1]
  refine not_effective_of_live (hprovenance.invalidate s'.published) hcovers (.inr ?_)
  show read pool.state.now (pool.state.redis _) ≠ none
  rw [hv]
  exact Option.some_ne_none v

/-- The purge of the file and that of everything cover it. -/
example : (Purge.file "img" "photo.jpg").covers photo ∧ Purge.all.covers photo := ⟨⟨rfl, rfl⟩, trivial⟩

end EdgeSphere.Cdn
