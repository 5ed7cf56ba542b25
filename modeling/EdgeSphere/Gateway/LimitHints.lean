import EdgeSphere.Gateway.DeniedCalls
import EdgeSphere.Gateway.SlidingWindow
import EdgeSphere.Library.Shared

/-!
# What the rate-limit headers promise

A call of a limiter answers with `remaining` and `resetAt`, and clients plan their next calls by them.  Both are
promises about calls still to come, at times nobody knows yet, across the refill and the cap of a bucket, the pruning
of a window and the expiry of either key.

* `LimitCall`, `limiterRun` — the calls of both limiters, for any identifiers, one after another on one Redis;
* `available_put_ge` — what is written is still there at every later time;
* `pipeline_card_le`, `pipeline_card_eq`, `pipeline_card_after` — the count of a window from one call to the next: it
  grows by one at most, by exactly one at the same instant, and starts again when the window has passed;
* `limit_hints_kept` — **the promises are kept.**

The instant of `resetAt` is the sum itself, as exact arithmetic has it; for a window of whole milliseconds that is what
a `Date` holds.
-/

namespace EdgeSphere.Gateway

open EdgeSphere.Library
open EdgeSphere.Library.Expiry
open EdgeSphere.Library.Runs

variable {K : Type*} [Field K] [LinearOrder K]

/-! ### Calls of both limiters -/

/-- The reply of either limiter. -/
structure LimitReply (K : Type*) where
  allowed : Bool
  remaining : K
  resetAt : K
  deriving DecidableEq, Repr

/-- A call of a limiter at `now`; `requestId` is the fresh identifier the method draws. -/
inductive LimitCall (K : Type*) where
  | tokenBucket (identifier : String) (capacity refillRatePerSec : K) (now : ℕ)
  | slidingWindow (identifier requestId : String) (limit windowMs : K) (now : ℕ)
  deriving DecidableEq, Repr

namespace LimitCall

def now : LimitCall K → ℕ
  | tokenBucket _ _ _ now => now
  | slidingWindow _ _ _ _ now => now

def requestId? : LimitCall K → Option String
  | tokenBucket _ _ _ _ => none
  | slidingWindow _ requestId _ _ _ => some requestId

/-- The settings that a limiter is meant for. -/
def Usable : LimitCall K → Prop
  | tokenBucket _ capacity refillRatePerSec _ => 1 ≤ capacity ∧ 0 < refillRatePerSec
  | slidingWindow _ _ limit windowMs _ => 1 ≤ limit ∧ 0 < windowMs

/-- Both are calls of one limiter for one identifier. -/
def sameKey : LimitCall K → LimitCall K → Bool
  | tokenBucket i _ _ _, tokenBucket j _ _ _ => decide (j = i)
  | slidingWindow i _ _ _ _, slidingWindow j _ _ _ _ => decide (j = i)
  | _, _ => false

/-- Both were made with the same settings. -/
def SameSettings : LimitCall K → LimitCall K → Prop
  | tokenBucket _ C r _, tokenBucket _ C' r' _ => C' = C ∧ r' = r
  | slidingWindow _ _ L W _, slidingWindow _ _ L' W' _ => L' = L ∧ W' = W
  | _, _ => False

variable [FloorRing K]

/-- Make the call. -/
def perform : LimitCall K → Redis K → Redis K × LimitReply K
  | tokenBucket identifier capacity refillRatePerSec now, redis =>
    let out := Gateway.tokenBucket identifier capacity refillRatePerSec now redis
    (out.1, ⟨out.2.allowed, out.2.remaining, out.2.resetAt⟩)
  | slidingWindow identifier requestId limit windowMs now, redis =>
    let out := Gateway.slidingWindow identifier requestId limit windowMs now redis
    (out.1, ⟨out.2.allowed, out.2.remaining, out.2.resetAt⟩)

end LimitCall

section Calls

variable [FloorRing K]

/-- Calls of both limiters, one after another. -/
def limiterRun : Redis K → List (LimitCall K) → Redis K × List (LimitReply K) :=
  runCalls fun redis c => c.perform redis

/-- What a call of `tokenBucket` does with the bucket of its identifier. -/
def bucketCall (capacity rate : K) (cell : Option (Cell (Bucket K))) (now : ℕ) :
    Option (Cell (Bucket K)) × LimitReply K :=
  let found := available capacity rate cell now
  (put now 60 ⟨spend found, now⟩,
    { allowed := decide (1 ≤ found), remaining := ⌊spend found⌋
      resetAt := (now + 1000 * ⌈(1 - spend found) / rate⌉ : ℤ) })

/-- What a call of `slidingWindow` does with the sorted set of its identifier. -/
def windowCall (limit windowMs : K) (cell : Option (Cell (SortedSet String K))) (c : WindowCall) :
    Option (Cell (SortedSet String K)) × LimitReply K :=
  let out := slidingPipeline c.requestId windowMs c.now cell
  (out.1,
    { allowed := !decide (limit < (out.2 : K)), remaining := max 0 (limit - out.2)
      resetAt := (c.now : K) + windowMs })

theorem perform_tokenBucket (identifier : String) (capacity rate : K) (now : ℕ) (redis : Redis K) :
    (((LimitCall.tokenBucket identifier capacity rate now).perform redis).1.hashes (tokenBucketKey identifier),
      ((LimitCall.tokenBucket identifier capacity rate now).perform redis).2)
      = bucketCall capacity rate (redis.hashes (tokenBucketKey identifier)) now := by
  refine Prod.ext ?_ rfl
  exact tokenBucket_cell identifier capacity rate now redis

theorem perform_slidingWindow (identifier requestId : String) (limit windowMs : K) (now : ℕ) (redis : Redis K) :
    (((LimitCall.slidingWindow identifier requestId limit windowMs now).perform redis).1.zsets
        (slidingWindowKey identifier),
      ((LimitCall.slidingWindow identifier requestId limit windowMs now).perform redis).2)
      = windowCall limit windowMs (redis.zsets (slidingWindowKey identifier)) ⟨now, requestId⟩ := by
  refine Prod.ext ?_ rfl
  show Function.update redis.zsets (slidingWindowKey identifier) _ (slidingWindowKey identifier) = _
  rw [Function.update_self]
  rfl

end Calls

/-! ### The bucket between calls -/

section Bucket

variable [IsStrictOrderedRing K]

/-- **What is written is still there at every later time**: the refill adds to it, and an expired key is a full
bucket. -/
theorem available_put_ge {capacity rate : K} (hrate : 0 < rate) {tokens : K} (hcap : tokens ≤ capacity) {t later : ℕ}
    (hle : t ≤ later) : tokens ≤ available capacity rate (put t 60 ⟨tokens, t⟩) later := by
  unfold available
  rw [read_put]
  split
  · have hcast : (t : K) ≤ (later : K) := by exact_mod_cast hle
    have hrefill : 0 ≤ ((later : K) - (t : K)) / 1000 * rate :=
      mul_nonneg (div_nonneg (sub_nonneg.mpr hcast) (by norm_num)) hrate.le
    exact le_min hcap (le_add_of_nonneg_right hrefill)
  · exact hcap

variable [FloorRing K]

/-- The time `resetAt` names is enough to refill one token. -/
theorem one_le_available_of_reset {capacity rate : K} (hcap1 : 1 ≤ capacity) (hrate : 0 < rate) {tokens : K}
    {t later : ℕ} (hlate : (((t + 1000 * ⌈(1 - tokens) / rate⌉ : ℤ) : K)) ≤ (later : K)) :
    1 ≤ available capacity rate (put t 60 ⟨tokens, t⟩) later := by
  unfold available
  rw [read_put]
  split
  · refine le_min hcap1 ?_
    have hceil : (1 - tokens) / rate ≤ (⌈(1 - tokens) / rate⌉ : K) := Int.le_ceil _
    have hsec : (1 - tokens) / rate ≤ ((later : K) - (t : K)) / 1000 := by
      rw [le_div_iff₀ (by norm_num)]
      push_cast at hlate
      linarith
    have htoken : 1 - tokens ≤ ((later : K) - (t : K)) / 1000 * rate := (div_le_iff₀ hrate).mp hsec
    show 1 ≤ tokens + _
    linarith
  · exact hcap1

/-- At all these times the bucket has `k` tokens. -/
def HasTokens (capacity rate : K) (k : ℕ) (cell : Option (Cell (Bucket K))) (times : List ℕ) : Prop :=
  times.Pairwise (· ≤ ·) ∧ ∀ t ∈ times, (k : K) ≤ available capacity rate cell t

omit [IsStrictOrderedRing K] in
theorem bucketCall_allowed (capacity rate : K) (cell : Option (Cell (Bucket K))) (t : ℕ) :
    (bucketCall capacity rate cell t).2.allowed = true ↔ 1 ≤ available capacity rate cell t :=
  decide_eq_true_iff

/-- A call takes one of them. -/
theorem hasTokens_step {capacity rate : K} (hrate : 0 < rate) (k : ℕ) (cell : Option (Cell (Bucket K))) (t : ℕ)
    (times : List ℕ) (h : HasTokens capacity rate (k + 1) cell (t :: times)) :
    (bucketCall capacity rate cell t).2.allowed = true ∧
      HasTokens capacity rate k (bucketCall capacity rate cell t).1 times := by
  obtain ⟨hsorted, htokens⟩ := h
  obtain ⟨hle, hsorted⟩ := List.pairwise_cons.mp hsorted
  have hfound := htokens t List.mem_cons_self
  push_cast at hfound
  have hone : 1 ≤ available capacity rate cell t := by
    have hk : (0 : K) ≤ (k : K) := Nat.cast_nonneg k
    linarith
  refine ⟨(bucketCall_allowed _ _ _ _).mpr hone, hsorted, fun later hlater => ?_⟩
  have hcap : spend (available capacity rate cell t) ≤ capacity := spend_le.trans (available_le_capacity _ _ _ _)
  have hkept := available_put_ge hrate hcap (hle later hlater)
  have hspend : spend (available capacity rate cell t) = available capacity rate cell t - 1 := if_pos hone
  show (k : K) ≤ available capacity rate (put t 60 ⟨spend (available capacity rate cell t), t⟩) later
  linarith

/-- All these calls come at one instant, at which the bucket has less than `k + 1` tokens. -/
def LacksTokens (capacity rate : K) (k : ℕ) (cell : Option (Cell (Bucket K))) (times : List ℕ) : Prop :=
  ∀ t ∈ times, available capacity rate cell t < k + 1 ∧ ∀ u ∈ times, u = t

omit [FloorRing K] in
theorem spend_lt {tokens : K} {k : ℕ} (h : tokens < (k : K) + 1 + 1) : spend tokens < (k : K) + 1 := by
  unfold spend
  split
  · linarith
  · have hk : (0 : K) ≤ (k : K) := Nat.cast_nonneg k
    linarith

theorem lacksTokens_step {capacity rate : K} (k : ℕ) (cell : Option (Cell (Bucket K))) (t : ℕ) (times : List ℕ)
    (h : LacksTokens capacity rate (k + 1) cell (t :: times)) :
    LacksTokens capacity rate k (bucketCall capacity rate cell t).1 times := by
  obtain ⟨hfew, hsame⟩ := h t List.mem_cons_self
  intro u hu
  rw [hsame u (List.mem_cons_of_mem _ hu)]
  refine ⟨?_, fun v hv => hsame v (List.mem_cons_of_mem _ hv)⟩
  push_cast at hfew
  show available capacity rate (put t 60 ⟨spend (available capacity rate cell t), t⟩) t < (k : K) + 1
  rw [available_after_call]
  exact spend_lt hfew

omit [IsStrictOrderedRing K] in
theorem denied_of_lacksTokens {capacity rate : K} (cell : Option (Cell (Bucket K))) (t : ℕ) (times : List ℕ)
    (h : LacksTokens capacity rate 0 cell (t :: times)) : (bucketCall capacity rate cell t).2.allowed = false := by
  have hfew := (h t List.mem_cons_self).1
  rw [Nat.cast_zero, zero_add] at hfew
  exact decide_eq_false (not_le.mpr hfew)

/-- **The hints of a bucket**, for the calls of one identifier. -/
theorem bucket_hints {capacity rate : K} (hcap1 : 1 ≤ capacity) (hrate : 0 < rate) (cell : Option (Cell (Bucket K)))
    (now : ℕ) (times : List ℕ) (hsorted : (now :: times).Pairwise (· ≤ ·)) :
    (∀ k : ℕ, (bucketCall capacity rate cell now).2.remaining = k →
      (∀ reply ∈ (runCalls (bucketCall capacity rate) (bucketCall capacity rate cell now).1 times).2.take k,
        reply.allowed = true) ∧
      ((∀ t ∈ times, t = now) → ∀ reply,
        (runCalls (bucketCall capacity rate) (bucketCall capacity rate cell now).1 times).2[k]? = some reply →
          reply.allowed = false)) ∧
    ((bucketCall capacity rate cell now).2.allowed = false →
      (∀ t ∈ times, (bucketCall capacity rate cell now).2.resetAt ≤ (t : K)) → ∀ reply,
        (runCalls (bucketCall capacity rate) (bucketCall capacity rate cell now).1 times).2[0]? = some reply →
          reply.allowed = true) := by
  obtain ⟨hle, htimes⟩ := List.pairwise_cons.mp hsorted
  have hcap : spend (available capacity rate cell now) ≤ capacity := spend_le.trans (available_le_capacity _ _ _ _)
  refine ⟨fun k hk => ?_, fun _ hlate reply hreply => ?_⟩
  · have hfloor : ⌊spend (available capacity rate cell now)⌋ = (k : ℤ) := by
      have hcast : ((⌊spend (available capacity rate cell now)⌋ : ℤ) : K) = ((k : ℤ) : K) := by
        rw [Int.cast_natCast]
        exact hk
      exact_mod_cast hcast
    obtain ⟨hlo, hhi⟩ := Int.floor_eq_iff.mp hfloor
    rw [Int.cast_natCast] at hlo hhi
    refine ⟨good_of_credit (LimitReply.allowed · = true) (hasTokens_step hrate) k _ _ ⟨htimes, fun t ht => ?_⟩,
      fun hsame reply hreply => ?_⟩
    · exact hlo.trans (available_put_ge hrate hcap (hle t ht))
    · refine good_after_credit (LimitReply.allowed · = false) denied_of_lacksTokens lacksTokens_step k _ _
        (fun t ht => ?_) hreply
      rw [hsame t ht]
      refine ⟨?_, hsame⟩
      show available capacity rate (put now 60 ⟨spend (available capacity rate cell now), now⟩) now < (k : K) + 1
      rw [available_after_call]
      exact hhi
  · cases times with
    | nil => cases hreply
    | cons t times =>
      rw [runCalls_cons, List.getElem?_cons_zero, Option.some.injEq] at hreply
      subst hreply
      exact (bucketCall_allowed _ _ _ _).mpr
        (one_le_available_of_reset hcap1 hrate (hlate t List.mem_cons_self))

end Bucket

/-! ### The window between calls -/

/-- The entries a key holds, read or not. -/
def storedEntries (cell : Option (Cell (SortedSet String K))) : List (String × K) :=
  ((cell.map Cell.value).getD .empty).entries

/-- What a call counts: its own entry is added to what it reads, and what has left the window is pruned. -/
def counted (windowMs : K) (c : WindowCall) (cell : Option (Cell (SortedSet String K))) : SortedSet String K :=
  (((read c.now cell).getD .empty).zadd (c.now : K) c.requestId).zremrangebyscore 0 ((c.now : K) - windowMs)

omit [Field K] [LinearOrder K] in
/-- A command reads the whole key or, after its deadline, nothing. -/
theorem read_entries (now : ℕ) (cell : Option (Cell (SortedSet String K))) :
    ((read now cell).getD .empty).entries = [] ∨
      ((read now cell).getD .empty).entries = storedEntries cell := by
  cases cell with
  | none => exact .inl rfl
  | some c =>
    unfold Expiry.read
    simp only
    split
    · exact .inr rfl
    · exact .inl rfl

theorem mem_counted {windowMs : K} {c : WindowCall} {cell : Option (Cell (SortedSet String K))} {e : String × K} :
    e ∈ (counted windowMs c cell).entries ↔
      (e = (c.requestId, (c.now : K)) ∨ e ∈ ((read c.now cell).getD .empty).entries ∧ e.1 ≠ c.requestId) ∧
        (0 ≤ e.2 → (c.now : K) - windowMs < e.2) := by
  unfold counted
  rw [SortedSet.zremrangebyscore_entries, SortedSet.zadd_entries, List.mem_filter, List.mem_cons, List.mem_filter]
  refine and_congr ?_ ?_
  · rw [decide_eq_true_eq]
  · rw [Bool.not_eq_true', Bool.and_eq_false_iff, decide_eq_false_iff_not, decide_eq_false_iff_not, not_le, not_le]
    constructor
    · rintro (hneg | hin) hpos
      · exact absurd hneg (not_lt.mpr hpos)
      · exact hin
    · intro hin
      rcases lt_or_ge e.2 0 with hneg | hpos
      · exact .inl hneg
      · exact .inr (hin hpos)

/-- A call counts what was stored and itself, at most. -/
theorem counted_length_le (windowMs : K) (c : WindowCall) (cell : Option (Cell (SortedSet String K))) :
    (counted windowMs c cell).entries.length ≤ (storedEntries cell).length + 1 := by
  have hread : ((read c.now cell).getD .empty).entries.length ≤ (storedEntries cell).length := by
    rcases read_entries c.now cell with hnone | hall
    · rw [hnone]
      exact Nat.zero_le _
    · rw [hall]
  unfold counted
  rw [SortedSet.zremrangebyscore_entries, SortedSet.zadd_entries]
  calc _ ≤ (((c.requestId, (c.now : K)) :: List.filter _ ((read c.now cell).getD .empty).entries)).length :=
        List.length_filter_le _ _
    _ ≤ ((read c.now cell).getD .empty).entries.length + 1 := Nat.succ_le_succ (List.length_filter_le _ _)
    _ ≤ (storedEntries cell).length + 1 := Nat.succ_le_succ hread

section Window

variable [FloorRing K]

/-- The reply to `ZCARD`, and the set that the key is left with if it is left at all. -/
theorem slidingPipeline_counted (windowMs : K) (c : WindowCall) (cell : Option (Cell (SortedSet String K))) :
    (slidingPipeline c.requestId windowMs c.now cell).2 = (counted windowMs c cell).entries.length ∧
      (storedEntries (slidingPipeline c.requestId windowMs c.now cell).1 = [] ∨
        storedEntries (slidingPipeline c.requestId windowMs c.now cell).1 = (counted windowMs c cell).entries) := by
  have hread : read c.now (modify c.now
      (fun s => (s.getD .empty).zremrangebyscore 0 ((c.now : K) - windowMs))
      (modify c.now (fun s => (s.getD .empty).zadd (c.now : K) c.requestId) cell))
        = some (counted windowMs c cell) := by
    rw [read_modify, read_modify]
    rfl
  refine ⟨?_, ?_⟩
  · simp only [slidingPipeline, hread, Option.getD_some]
    rfl
  · simp only [slidingPipeline, hread, Option.getD_some]
    split
    · exact .inl rfl
    · revert hread
      cases modify c.now (fun s => (s.getD .empty).zremrangebyscore 0 ((c.now : K) - windowMs))
        (modify c.now (fun s => (s.getD .empty).zadd (c.now : K) c.requestId) cell) with
      | none => exact fun _ => .inl rfl
      | some pruned =>
        intro hread
        have hvalue := value_of_read hread
        unfold expire
        simp only
        split
        · split
          · exact .inl rfl
          · exact .inr (congrArg SortedSet.entries hvalue)
        · exact .inl rfl

theorem storedEntries_subset {windowMs : K} {c : WindowCall} {cell : Option (Cell (SortedSet String K))}
    {e : String × K} (he : e ∈ storedEntries (slidingPipeline c.requestId windowMs c.now cell).1) :
    e ∈ (counted windowMs c cell).entries := by
  rcases (slidingPipeline_counted windowMs c cell).2 with hnone | hall
  · rw [hnone] at he
    cases he
  · exact hall ▸ he

theorem storedEntries_length_le (windowMs : K) (c : WindowCall) (cell : Option (Cell (SortedSet String K))) :
    (storedEntries (slidingPipeline c.requestId windowMs c.now cell).1).length
      ≤ (counted windowMs c cell).entries.length := by
  rcases (slidingPipeline_counted windowMs c cell).2 with hnone | hall
  · rw [hnone]
    exact Nat.zero_le _
  · rw [hall]

theorem windowCall_allowed (limit windowMs : K) (cell : Option (Cell (SortedSet String K))) (c : WindowCall) :
    (windowCall limit windowMs cell c).2.allowed = true ↔
      (((counted windowMs c cell).entries.length : ℕ) : K) ≤ limit := by
  show (!decide (limit < ((slidingPipeline c.requestId windowMs c.now cell).2 : K))) = true ↔ _
  rw [(slidingPipeline_counted windowMs c cell).1, Bool.not_eq_true', decide_eq_false_iff_not, not_lt]

/-- There is room for `k` calls in the window. -/
def HasRoom (limit : K) (k : ℕ) (cell : Option (Cell (SortedSet String K))) (_ : List WindowCall) : Prop :=
  0 < k → ((storedEntries cell).length : K) + k ≤ limit

variable [IsStrictOrderedRing K]

/-- A call takes one place. -/
theorem hasRoom_step {limit windowMs : K} (k : ℕ) (cell : Option (Cell (SortedSet String K))) (c : WindowCall)
    (calls : List WindowCall) (h : HasRoom limit (k + 1) cell (c :: calls)) :
    (windowCall limit windowMs cell c).2.allowed = true ∧
      HasRoom limit k (windowCall limit windowMs cell c).1 calls := by
  have hroom := h (Nat.succ_pos k)
  push_cast at hroom
  have hcount : (((counted windowMs c cell).entries.length : ℕ) : K) ≤ ((storedEntries cell).length : K) + 1 := by
    exact_mod_cast counted_length_le windowMs c cell
  have hk : (0 : K) ≤ (k : K) := Nat.cast_nonneg k
  refine ⟨(windowCall_allowed _ _ _ _).mpr (by linarith), fun _ => ?_⟩
  have hleft : ((storedEntries (windowCall limit windowMs cell c).1).length : K)
      ≤ (((counted windowMs c cell).entries.length : ℕ) : K) := by
    exact_mod_cast storedEntries_length_le windowMs c cell
  linarith

/-- The pipeline of a window that is not empty leaves the set it has counted. -/
theorem windowCall_cell {limit windowMs : K} (hW : 0 < windowMs) (cell : Option (Cell (SortedSet String K)))
    (c : WindowCall) :
    (windowCall limit windowMs cell c).1 = put c.now ⌈windowMs / 1000⌉.toNat (counted windowMs c cell) := by
  have hself : (c.requestId, (c.now : K)) ∈ (counted windowMs c cell).entries :=
    mem_counted.mpr ⟨.inl rfl, fun _ => sub_lt_self _ hW⟩
  exact congrArg Prod.fst (slidingPipeline_eq hW c cell _ rfl (List.ne_nil_of_mem hself))

/-- All these calls come at `t`, with fresh ids, and the window at `t` has no room for `k + 1` of them. -/
def LacksRoom (limit windowMs : K) (t k : ℕ) (cell : Option (Cell (SortedSet String K))) (calls : List WindowCall) :
    Prop :=
  (∃ seconds s, cell = put t seconds s ∧ limit < (s.entries.length : K) + k + 1 ∧
    ∀ e ∈ s.entries, e.1 ∉ calls.map WindowCall.requestId ∧ (0 ≤ e.2 → (t : K) - windowMs < e.2)) ∧
  (calls.map WindowCall.requestId).Nodup ∧ ∀ c ∈ calls, c.now = t

omit [FloorRing K] in
/-- At one instant nothing leaves the window, and a call with a fresh id counts one more. -/
theorem counted_same_instant {windowMs : K} (hW : 0 < windowMs) {c : WindowCall} {seconds : ℕ}
    {s : SortedSet String K}
    (hs : ∀ e ∈ s.entries, e.1 ≠ c.requestId ∧ (0 ≤ e.2 → (c.now : K) - windowMs < e.2)) :
    (counted windowMs c (put c.now seconds s)).entries = (c.requestId, (c.now : K)) :: s.entries := by
  have hfresh : c.requestId ∉ s.members := by
    intro hmem
    obtain ⟨e, he, hid⟩ := List.mem_map.mp hmem
    exact (hs e he).1 hid
  unfold counted
  rw [read_put_self, Option.getD_some, SortedSet.zremrangebyscore_entries, SortedSet.zadd_entries_of_fresh hfresh,
    List.filter_eq_self]
  intro e he
  have hin : 0 ≤ e.2 → (c.now : K) - windowMs < e.2 := by
    rcases List.mem_cons.mp he with rfl | he
    · exact fun _ => sub_lt_self _ hW
    · exact (hs e he).2
  rw [Bool.not_eq_true', Bool.and_eq_false_imp, decide_eq_true_eq, decide_eq_false_iff_not, not_le]
  exact hin

theorem lacksRoom_step {limit windowMs : K} (hW : 0 < windowMs) {t : ℕ} (k : ℕ)
    (cell : Option (Cell (SortedSet String K))) (c : WindowCall) (calls : List WindowCall)
    (h : LacksRoom limit windowMs t (k + 1) cell (c :: calls)) :
    LacksRoom limit windowMs t k (windowCall limit windowMs cell c).1 calls := by
  obtain ⟨⟨seconds, s, rfl, hfull, hs⟩, hids, htimes⟩ := h
  obtain ⟨hid, hids⟩ := List.nodup_cons.mp hids
  cases htimes c List.mem_cons_self
  have hentries : (counted windowMs c (put c.now seconds s)).entries = (c.requestId, (c.now : K)) :: s.entries :=
    counted_same_instant hW fun e he => ⟨fun heq => (hs e he).1 (heq ▸ List.mem_cons_self), (hs e he).2⟩
  refine ⟨⟨_, _, windowCall_cell hW _ c, ?_, fun e he => ?_⟩, hids, fun d hd => htimes d (List.mem_cons_of_mem _ hd)⟩
  · rw [hentries, List.length_cons]
    push_cast at hfull ⊢
    linarith
  · rw [hentries] at he
    rcases List.mem_cons.mp he with rfl | he
    · exact ⟨hid, fun _ => sub_lt_self _ hW⟩
    · exact ⟨fun hmem => (hs e he).1 (List.mem_cons_of_mem _ hmem), (hs e he).2⟩

theorem denied_of_lacksRoom {limit windowMs : K} (hW : 0 < windowMs) {t : ℕ}
    (cell : Option (Cell (SortedSet String K))) (c : WindowCall) (calls : List WindowCall)
    (h : LacksRoom limit windowMs t 0 cell (c :: calls)) : (windowCall limit windowMs cell c).2.allowed = false := by
  obtain ⟨⟨seconds, s, rfl, hfull, hs⟩, -, htimes⟩ := h
  cases htimes c List.mem_cons_self
  have hentries : (counted windowMs c (put c.now seconds s)).entries = (c.requestId, (c.now : K)) :: s.entries :=
    counted_same_instant hW fun e he => ⟨fun heq => (hs e he).1 (heq ▸ List.mem_cons_self), (hs e he).2⟩
  rw [Nat.cast_zero, add_zero] at hfull
  rw [← Bool.not_eq_true, windowCall_allowed, hentries, List.length_cons]
  push_cast
  exact not_le.mpr hfull

omit [FloorRing K] [IsStrictOrderedRing K] in
/-- When the window has passed what is stored, a call counts itself alone. -/
theorem counted_after_window {windowMs : K} {c : WindowCall} {cell : Option (Cell (SortedSet String K))}
    (hpast : ∀ e ∈ storedEntries cell, 0 ≤ e.2 ∧ e.2 ≤ (c.now : K) - windowMs) :
    (counted windowMs c cell).entries.length ≤ 1 := by
  have hold : ∀ e ∈ ((read c.now cell).getD .empty).entries, 0 ≤ e.2 ∧ e.2 ≤ (c.now : K) - windowMs := by
    intro e he
    rcases read_entries c.now cell with hnone | hall
    · rw [hnone] at he
      cases he
    · exact hpast e (hall ▸ he)
  have hself : ∀ e ∈ (counted windowMs c cell).entries, e = (c.requestId, (c.now : K)) := by
    intro e he
    obtain ⟨hself | ⟨hread, -⟩, hin⟩ := mem_counted.mp he
    · exact hself
    · obtain ⟨hpos, hlate⟩ := hold e hread
      exact absurd (hin hpos) (not_lt.mpr hlate)
  have hids : (counted windowMs c cell).entries.Nodup := (counted windowMs c cell).nodup.of_map _
  rw [List.eq_replicate_of_mem hself] at hids
  exact List.nodup_replicate.mp hids

/-- **The hints of a window**, for the calls of one identifier on a key whose entries are earlier calls. -/
theorem window_hints {limit windowMs : K} (hlimit : 1 ≤ limit) (hW : 0 < windowMs)
    (cell : Option (Cell (SortedSet String K))) (c : WindowCall) (calls : List WindowCall)
    (hstored : ∀ e ∈ storedEntries cell, (0 ≤ e.2 ∧ e.2 ≤ (c.now : K)) ∧ e.1 ∉ (c :: calls).map WindowCall.requestId)
    (hids : ((c :: calls).map WindowCall.requestId).Nodup) :
    (∀ k : ℕ, (windowCall limit windowMs cell c).2.remaining = k →
      (∀ reply ∈ (runCalls (windowCall limit windowMs) (windowCall limit windowMs cell c).1 calls).2.take k,
        reply.allowed = true) ∧
      ((∀ d ∈ calls, d.now = c.now) → ∀ reply,
        (runCalls (windowCall limit windowMs) (windowCall limit windowMs cell c).1 calls).2[k]? = some reply →
          reply.allowed = false)) ∧
    ((windowCall limit windowMs cell c).2.allowed = false →
      (∀ d ∈ calls, (windowCall limit windowMs cell c).2.resetAt ≤ (d.now : K)) → ∀ reply,
        (runCalls (windowCall limit windowMs) (windowCall limit windowMs cell c).1 calls).2[0]? = some reply →
          reply.allowed = true) := by
  obtain ⟨hid, hids⟩ := List.nodup_cons.mp hids
  have hleft : ∀ e ∈ (counted windowMs c cell).entries, 0 ≤ e.2 ∧ e.2 ≤ (c.now : K) ∧
      e.1 ∉ calls.map WindowCall.requestId := by
    intro e he
    obtain ⟨rfl | ⟨hread, -⟩, -⟩ := mem_counted.mp he
    · exact ⟨Nat.cast_nonneg _, le_refl _, hid⟩
    · have hmem : e ∈ storedEntries cell := by
        rcases read_entries c.now cell with hnone | hall
        · rw [hnone] at hread
          cases hread
        · exact hall ▸ hread
      obtain ⟨⟨hpos, hle⟩, hfresh⟩ := hstored e hmem
      exact ⟨hpos, hle, fun h => hfresh (List.mem_cons_of_mem _ h)⟩
  refine ⟨fun k hk => ?_, fun _ hlate reply hreply => ?_⟩
  · have hremaining : max 0 (limit - ((counted windowMs c cell).entries.length : K)) = k := by
      rw [← (slidingPipeline_counted windowMs c cell).1]
      exact hk
    refine ⟨good_of_credit (LimitReply.allowed · = true) hasRoom_step k _ _ fun hpos => ?_,
      fun hsame reply hreply => ?_⟩
    · have hpos' : (0 : K) < (k : K) := Nat.cast_pos.mpr hpos
      have hlength : ((storedEntries (windowCall limit windowMs cell c).1).length : K)
          ≤ ((counted windowMs c cell).entries.length : K) := by
        exact_mod_cast storedEntries_length_le windowMs c cell
      rcases max_choice 0 (limit - ((counted windowMs c cell).entries.length : K)) with hzero | hmax
      · rw [hzero] at hremaining
        linarith
      · rw [hmax] at hremaining
        linarith
    · refine good_after_credit (LimitReply.allowed · = false) (denied_of_lacksRoom hW) (lacksRoom_step hW) k _ _
        ⟨⟨_, _, windowCall_cell hW cell c, ?_, fun e he => ?_⟩, hids, hsame⟩ hreply
      · have hle := le_max_right 0 (limit - ((counted windowMs c cell).entries.length : K))
        rw [hremaining] at hle
        linarith
      · exact ⟨(hleft e he).2.2, (mem_counted.mp he).2⟩
  · cases calls with
    | nil => cases hreply
    | cons d calls =>
      rw [runCalls_cons, List.getElem?_cons_zero, Option.some.injEq] at hreply
      subst hreply
      have hpassed : (c.now : K) + windowMs ≤ (d.now : K) := hlate d List.mem_cons_self
      have halone : (counted windowMs d (windowCall limit windowMs cell c).1).entries.length ≤ 1 := by
        refine counted_after_window fun e he => ?_
        obtain ⟨hpos, hle, -⟩ := hleft e (storedEntries_subset he)
        exact ⟨hpos, by linarith⟩
      rw [windowCall_allowed]
      exact le_trans (by exact_mod_cast halone) hlimit

end Window

/-! ### The calls of one identifier among all others -/

/-- The times of the calls for the bucket of `identifier`. -/
def bucketPart (identifier : String) : LimitCall K → Option ℕ
  | .tokenBucket i _ _ now => if i = identifier then some now else none
  | .slidingWindow .. => none

/-- The calls for the window of `identifier`. -/
def windowPart (identifier : String) : LimitCall K → Option WindowCall
  | .tokenBucket .. => none
  | .slidingWindow i requestId _ _ now => if i = identifier then some ⟨now, requestId⟩ else none

section Frames

variable [FloorRing K]

/-- A call for another window leaves a window alone. -/
theorem perform_zsets_other {identifier : String} {d : LimitCall K} (h : windowPart identifier d = none)
    (redis : Redis K) :
    (d.perform redis).1.zsets (slidingWindowKey identifier) = redis.zsets (slidingWindowKey identifier) := by
  cases d with
  | tokenBucket i capacity rate now => rfl
  | slidingWindow i requestId limit windowMs now =>
    have hne : identifier ≠ i := by
      rintro rfl
      simp [windowPart] at h
    have hkey : slidingWindowKey identifier ≠ slidingWindowKey i := by simpa [slidingWindowKey] using hne
    exact Function.update_of_ne hkey _ _

/-- A call for another bucket leaves a bucket alone. -/
theorem perform_hashes_other {identifier : String} {d : LimitCall K} (h : bucketPart identifier d = none)
    (redis : Redis K) :
    (d.perform redis).1.hashes (tokenBucketKey identifier) = redis.hashes (tokenBucketKey identifier) := by
  cases d with
  | tokenBucket i capacity rate now =>
    have hne : identifier ≠ i := by
      rintro rfl
      simp [bucketPart] at h
    exact tokenBucket_cell_other hne capacity rate now redis
  | slidingWindow i requestId limit windowMs now => rfl

/-- The replies to the calls for a bucket, all made with one capacity and rate, are those of its calls run alone. -/
theorem bucket_replies {identifier : String} {capacity rate : K} {now : ℕ} {calls : List (LimitCall K)}
    (hsame : ∀ d ∈ calls, (LimitCall.tokenBucket identifier capacity rate now).sameKey d = true →
      (LimitCall.tokenBucket identifier capacity rate now).SameSettings d) (redis : Redis K) :
    repliesTo (LimitCall.tokenBucket identifier capacity rate now).sameKey calls (limiterRun redis calls).2
      = (runCalls (bucketCall capacity rate) (redis.hashes (tokenBucketKey identifier))
          (calls.filterMap (bucketPart identifier))).2 := by
  refine repliesTo_runCalls (fun redis => redis.hashes (tokenBucketKey identifier)) ?_ ?_ redis
  · intro d hd hmine
    cases d with
    | tokenBucket i C r t =>
      obtain ⟨rfl, rfl⟩ := hsame _ hd hmine
      cases of_decide_eq_true hmine
      exact ⟨t, if_pos rfl, fun s => Prod.ext_iff.mp (perform_tokenBucket _ _ _ _ _)⟩
    | slidingWindow i requestId limit windowMs t => cases hmine
  · intro d _ hother
    have hpart : bucketPart identifier d = none := by
      cases d with
      | tokenBucket i C r t => exact if_neg (of_decide_eq_false hother)
      | slidingWindow i requestId limit windowMs t => rfl
    exact ⟨hpart, perform_hashes_other hpart⟩

/-- The same for a window. -/
theorem window_replies {identifier requestId : String} {limit windowMs : K} {now : ℕ} {calls : List (LimitCall K)}
    (hsame : ∀ d ∈ calls, (LimitCall.slidingWindow identifier requestId limit windowMs now).sameKey d = true →
      (LimitCall.slidingWindow identifier requestId limit windowMs now).SameSettings d) (redis : Redis K) :
    repliesTo (LimitCall.slidingWindow identifier requestId limit windowMs now).sameKey calls (limiterRun redis calls).2
      = (runCalls (windowCall limit windowMs) (redis.zsets (slidingWindowKey identifier))
          (calls.filterMap (windowPart identifier))).2 := by
  refine repliesTo_runCalls (fun redis => redis.zsets (slidingWindowKey identifier)) ?_ ?_ redis
  · intro d hd hmine
    cases d with
    | tokenBucket i C r t => cases hmine
    | slidingWindow i id L W t =>
      obtain ⟨rfl, rfl⟩ := hsame _ hd hmine
      cases of_decide_eq_true hmine
      exact ⟨⟨t, id⟩, if_pos rfl, fun s => Prod.ext_iff.mp (perform_slidingWindow _ _ _ _ _ _)⟩
  · intro d _ hother
    have hpart : windowPart identifier d = none := by
      cases d with
      | tokenBucket i C r t => rfl
      | slidingWindow i id L W t => exact if_neg (of_decide_eq_false hother)
    exact ⟨hpart, perform_zsets_other hpart⟩

/-- **What is stored.**  Every entry of every window is a call that was made, under its id and at its time. -/
def Recorded (done : List (LimitCall K)) (redis : Redis K) : Prop :=
  ∀ identifier, ∀ e ∈ storedEntries (redis.zsets (slidingWindowKey identifier)),
    ∃ d ∈ done, d.requestId? = some e.1 ∧ (d.now : K) = e.2

theorem recorded_step {done : List (LimitCall K)} {redis : Redis K} (h : Recorded done redis) (d : LimitCall K) :
    Recorded (done ++ [d]) (d.perform redis).1 := by
  intro identifier e he
  have hold : ∀ e ∈ storedEntries (redis.zsets (slidingWindowKey identifier)),
      ∃ d' ∈ done ++ [d], d'.requestId? = some e.1 ∧ (d'.now : K) = e.2 := by
    intro e he
    obtain ⟨d', hd', heq⟩ := h identifier e he
    exact ⟨d', List.mem_append_left _ hd', heq⟩
  cases hpart : windowPart identifier d with
  | none =>
    rw [perform_zsets_other hpart] at he
    exact hold e he
  | some c =>
    cases d with
    | tokenBucket i capacity rate now => cases hpart
    | slidingWindow i requestId limit windowMs now =>
      have hpart' : (if i = identifier then some (WindowCall.mk now requestId) else none) = some c := hpart
      split at hpart'
      · rename_i hi
        subst hi
        have hcell := (Prod.ext_iff.mp (perform_slidingWindow i requestId limit windowMs now redis)).1
        simp only at hcell
        rw [hcell] at he
        obtain ⟨rfl | ⟨hread, -⟩, -⟩ := mem_counted.mp (storedEntries_subset (c := ⟨now, requestId⟩) he)
        · exact ⟨_, List.mem_append_right _ List.mem_cons_self, rfl, rfl⟩
        · rcases read_entries now (redis.zsets (slidingWindowKey i)) with hnone | hall
          · rw [hnone] at hread
            cases hread
          · exact hold e (hall ▸ hread)
      · cases hpart'

theorem recorded_run (calls : List (LimitCall K)) : Recorded calls (limiterRun Redis.empty calls).1 := by
  refine runCalls_induction _ Redis.empty Recorded calls ?_ ?_
  · intro identifier e he
    cases he
  · intro done d todo s _ _ h
    exact recorded_step h d

end Frames

/-! ### The promises -/

omit [Field K] [LinearOrder K] in
theorem bucketPart_eq_some {identifier : String} {d : LimitCall K} {t : ℕ} (h : bucketPart identifier d = some t) :
    ∃ capacity rate, d = .tokenBucket identifier capacity rate t := by
  cases d with
  | tokenBucket i C r t' =>
    have h' : (if i = identifier then some t' else none) = some t := h
    split at h'
    · rename_i hi
      cases h'
      exact ⟨C, r, by rw [hi]⟩
    · cases h'
  | slidingWindow i requestId limit windowMs t' => cases h

omit [Field K] [LinearOrder K] in
theorem windowPart_eq_some {identifier : String} {d : LimitCall K} {c : WindowCall}
    (h : windowPart identifier d = some c) :
    ∃ limit windowMs, d = .slidingWindow identifier c.requestId limit windowMs c.now := by
  cases d with
  | tokenBucket i C r t => cases h
  | slidingWindow i id L W t =>
    have h' : (if i = identifier then some (WindowCall.mk t id) else none) = some c := h
    split at h'
    · rename_i hi
      cases h'
      exact ⟨L, W, by rw [hi]⟩
    · cases h'

section Promises

variable [IsStrictOrderedRing K] [FloorRing K]

/-- **The promises are kept.**  Take any calls of both limiters for any identifiers, one after another from an empty
Redis, and among them a call `c` with usable settings.  If it answers `remaining = k`, the next `k` calls of its limiter
for its identifier are admitted, whenever they come and whatever comes between; if they all come at the instant of `c`,
the one after them is denied.  If `c` is denied and no call for its identifier comes before its `resetAt`, the next one
is admitted. -/
theorem limit_hints_kept (before after : List (LimitCall K)) (c : LimitCall K) (husable : c.Usable)
    (hsorted : ((before ++ c :: after).map LimitCall.now).Pairwise (· ≤ ·))
    (hids : ((before ++ c :: after).filterMap LimitCall.requestId?).Nodup)
    (hsame : ∀ d ∈ after, c.sameKey d = true → c.SameSettings d) :
    let reached := (limiterRun Redis.empty before).1
    let out := c.perform reached
    let next := repliesTo c.sameKey after (limiterRun out.1 after).2
    (∀ k : ℕ, out.2.remaining = k →
      (∀ reply ∈ next.take k, reply.allowed = true) ∧
      ((∀ d ∈ after, c.sameKey d = true → d.now = c.now) →
        ∀ reply, next[k]? = some reply → reply.allowed = false)) ∧
    (out.2.allowed = false → (∀ d ∈ after, c.sameKey d = true → out.2.resetAt ≤ (d.now : K)) →
      ∀ reply, next[0]? = some reply → reply.allowed = true) := by
  dsimp only
  have hstored := recorded_run before
  rw [List.map_append, List.pairwise_append, List.map_cons] at hsorted
  rw [List.filterMap_append, List.nodup_append'] at hids
  obtain ⟨-, hlater, hearlier⟩ := hsorted
  obtain ⟨-, hnextIds, hfresh⟩ := hids
  cases c with
  | tokenBucket identifier capacity rate now =>
    obtain ⟨hcell, hreply⟩ := Prod.ext_iff.mp
      (perform_tokenBucket identifier capacity rate now (limiterRun Redis.empty before).1)
    simp only at hcell hreply
    rw [bucket_replies hsame, hcell, hreply]
    have htimes : (now :: after.filterMap (bucketPart identifier)).Pairwise (· ≤ ·) := by
      refine hlater.sublist (List.Sublist.cons_cons now ?_)
      rw [← List.filterMap_eq_map]
      refine filterMap_sublist (fun d t hd => ?_) after
      obtain ⟨C, r, rfl⟩ := bucketPart_eq_some hd
      rfl
    have hown : ∀ t ∈ after.filterMap (bucketPart identifier), ∃ d ∈ after,
        (LimitCall.tokenBucket identifier capacity rate now).sameKey d = true ∧ d.now = t := by
      intro t ht
      obtain ⟨d, hd, hpart⟩ := List.mem_filterMap.mp ht
      obtain ⟨C, r, rfl⟩ := bucketPart_eq_some hpart
      exact ⟨_, hd, decide_eq_true rfl, rfl⟩
    obtain ⟨hremaining, hreset⟩ := bucket_hints husable.1 husable.2
      ((limiterRun Redis.empty before).1.hashes (tokenBucketKey identifier)) now _ htimes
    refine ⟨fun k hk => ⟨(hremaining k hk).1, fun hinstant => (hremaining k hk).2 fun t ht => ?_⟩,
      fun hdenied hlate => hreset hdenied fun t ht => ?_⟩
    · obtain ⟨d, hd, hkey, rfl⟩ := hown t ht
      exact hinstant d hd hkey
    · obtain ⟨d, hd, hkey, rfl⟩ := hown t ht
      exact hlate d hd hkey
  | slidingWindow identifier requestId limit windowMs now =>
    obtain ⟨hcell, hreply⟩ := Prod.ext_iff.mp
      (perform_slidingWindow identifier requestId limit windowMs now (limiterRun Redis.empty before).1)
    simp only at hcell hreply
    rw [window_replies hsame, hcell, hreply]
    have hmine : (((⟨now, requestId⟩ : WindowCall) :: after.filterMap (windowPart identifier)).map
        WindowCall.requestId).Sublist (requestId :: after.filterMap LimitCall.requestId?) := by
      refine List.Sublist.cons_cons requestId ?_
      rw [List.map_filterMap]
      refine filterMap_sublist (fun d id hd => ?_) after
      obtain ⟨e, he, rfl⟩ := Option.map_eq_some_iff.mp hd
      obtain ⟨L, W, rfl⟩ := windowPart_eq_some he
      rfl
    have hown : ∀ e ∈ after.filterMap (windowPart identifier), ∃ d ∈ after,
        (LimitCall.slidingWindow identifier requestId limit windowMs now).sameKey d = true ∧ d.now = e.now := by
      intro e he
      obtain ⟨d, hd, hpart⟩ := List.mem_filterMap.mp he
      obtain ⟨L, W, rfl⟩ := windowPart_eq_some hpart
      exact ⟨_, hd, decide_eq_true rfl, rfl⟩
    have hentries : ∀ e ∈ storedEntries ((limiterRun Redis.empty before).1.zsets (slidingWindowKey identifier)),
        (0 ≤ e.2 ∧ e.2 ≤ (now : K)) ∧
          e.1 ∉ ((⟨now, requestId⟩ : WindowCall) :: after.filterMap (windowPart identifier)).map
            WindowCall.requestId := by
      intro e he
      obtain ⟨d, hd, hid, htime⟩ := hstored identifier e he
      have hle : d.now ≤ now := hearlier d.now (List.mem_map_of_mem hd) now List.mem_cons_self
      refine ⟨⟨htime ▸ Nat.cast_nonneg d.now, htime ▸ by exact_mod_cast hle⟩, fun hmem => ?_⟩
      exact hfresh (List.mem_filterMap.mpr ⟨d, hd, hid⟩) (hmine.subset hmem)
    obtain ⟨hremaining, hreset⟩ := window_hints husable.1 husable.2 _ ⟨now, requestId⟩ _ hentries
      (hnextIds.sublist hmine)
    refine ⟨fun k hk => ⟨(hremaining k hk).1, fun hinstant => (hremaining k hk).2 fun e he => ?_⟩,
      fun hdenied hlate => hreset hdenied fun e he => ?_⟩
    · obtain ⟨d, hd, hkey, htime⟩ := hown e he
      exact htime ▸ hinstant d hd hkey
    · obtain ⟨d, hd, hkey, htime⟩ := hown e he
      exact htime ▸ hlate d hd hkey

/-- The rest of a second with a window of two calls. -/
def windowRest : List (LimitCall ℚ) :=
  [.slidingWindow "user-1" "b" 2 1000 0, .tokenBucket "user-1" 5 1 0, .slidingWindow "user-1" "c" 2 1000 0]

/-- What its calls are answered. -/
def windowReplies : List (LimitReply ℚ) :=
  repliesTo (LimitCall.slidingWindow "user-1" "a" (2 : ℚ) 1000 0).sameKey windowRest
    (limiterRun ((LimitCall.slidingWindow "user-1" "a" (2 : ℚ) 1000 0).perform (limiterRun Redis.empty []).1).1
      windowRest).2

/-- The first call promises one more, and the next call is admitted. -/
theorem limit_hints_kept_window :
    windowReplies.length = 2 ∧ ∀ reply ∈ windowReplies.take 1, reply.allowed = true := by
  refine ⟨by decide +kernel, ?_⟩
  exact ((limit_hints_kept [] windowRest (LimitCall.slidingWindow "user-1" "a" (2 : ℚ) 1000 0)
    ⟨by norm_num, by norm_num⟩ (by decide) (by decide)
    (by
      intro d hd hkey
      simp only [windowRest, List.mem_cons, List.not_mem_nil, or_false] at hd
      rcases hd with rfl | rfl | rfl
      · exact ⟨rfl, rfl⟩
      · cases hkey
      · exact ⟨rfl, rfl⟩)).1 1 (by decide +kernel)).1

end Promises

end EdgeSphere.Gateway
