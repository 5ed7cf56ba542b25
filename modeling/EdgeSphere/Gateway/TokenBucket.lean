import EdgeSphere.Gateway.RateLimit

/-!
# The token bucket admits at its rate

* `expiry_mints_nothing` — a bucket whose hash has expired was full again anyway, because
  `capacity ≤ 60 · rate` and the hash lives 60 seconds;
* `available_growth` — between two instants the available tokens grow by at most the refill;
* `admitted_le_potential` — the calls admitted up to an instant `e` are paid for by the tokens
  available at the start and the refill until `e`;
* `tokenBucket_run_bounds` — the bounds on the stored tokens, on `remaining` and on the calls admitted
  in any time interval, for every run of calls at non-decreasing times.
-/

namespace EdgeSphere.Gateway

open EdgeSphere.Library
open EdgeSphere.Library.Expiry
open EdgeSphere.Library.Runs

variable {K : Type*} [Field K] [LinearOrder K]

/-- How many calls of a run were admitted at an instant in `[s, e]`, in seconds. -/
def admittedIn (s e : K) (times : List ℕ) (replies : List TokenBucketReply) : ℕ :=
  (times.zip replies).countP fun c =>
    decide (s ≤ (c.1 : K) / 1000) && decide ((c.1 : K) / 1000 ≤ e) && c.2.allowed

/-- The tokens a call at `now` finds in a cell. -/
def available (capacity rate : K) (cell : Option (Cell (Bucket K))) (now : ℕ) : K :=
  refilled capacity rate now (read now cell)

/-- **The invariant.**  The key is missing or holds a bucket within capacity, written by the last
call (at `b.lastRefill`, not after `now`) with 60 seconds to live. -/
def Sound (capacity : K) (now : ℕ) (cell : Option (Cell (Bucket K))) : Prop :=
  cell = none ∨ ∃ b : Bucket K, cell = put b.lastRefill 60 b ∧ 0 ≤ b.tokens ∧ b.tokens ≤ capacity ∧
    b.lastRefill ≤ now

theorem Sound.later {capacity : K} {now later : ℕ} {cell : Option (Cell (Bucket K))}
    (h : Sound capacity now cell) (hle : now ≤ later) : Sound capacity later cell := by
  rcases h with h | ⟨b, hcell, h0, hC, hb⟩
  · exact Or.inl h
  · exact Or.inr ⟨b, hcell, h0, hC, hb.trans hle⟩

theorem available_le_capacity (capacity rate : K) (cell : Option (Cell (Bucket K))) (now : ℕ) :
    available capacity rate cell now ≤ capacity := by
  unfold available
  cases read now cell with
  | none => exact le_refl _
  | some b => exact min_le_left _ _

/-! ### The tokens of one cell over time -/

section Ordered

variable [IsStrictOrderedRing K]

/-- **Expiry mints nothing.**  Sixty seconds refill the bucket, so reading an expired key as a full
bucket is what the refill would have given. -/
theorem expiry_mints_nothing {capacity rate : K} (hrate : 0 < rate) (hcap : capacity ≤ 60 * rate)
    {b : Bucket K} (htok : 0 ≤ b.tokens) {now : ℕ} :
    available capacity rate (put b.lastRefill 60 b) now
      = min capacity (b.tokens + ((now : K) - (b.lastRefill : K)) / 1000 * rate) := by
  unfold available
  rw [read_put]
  split
  · rfl
  · rename_i hgone
    have hlate : (b.lastRefill : K) + 60000 ≤ (now : K) := by
      have : b.lastRefill + 60000 ≤ now := by omega
      exact_mod_cast this
    have hsec : (60 : K) ≤ ((now : K) - (b.lastRefill : K)) / 1000 := by
      rw [le_div_iff₀ (by norm_num)]
      linarith
    have hfull : 60 * rate ≤ ((now : K) - (b.lastRefill : K)) / 1000 * rate :=
      mul_le_mul_of_nonneg_right hsec hrate.le
    show capacity = _
    exact (min_eq_left (by linarith)).symm

theorem available_nonneg {capacity rate : K} (hcap0 : 0 ≤ capacity) (hrate : 0 < rate)
    (hcap : capacity ≤ 60 * rate) {now : ℕ} {cell : Option (Cell (Bucket K))}
    (h : Sound capacity now cell) : 0 ≤ available capacity rate cell now := by
  rcases h with rfl | ⟨b, rfl, h0, hC, hb⟩
  · exact hcap0
  · rw [expiry_mints_nothing hrate hcap h0]
    have hle : (b.lastRefill : K) ≤ (now : K) := by exact_mod_cast hb
    have hdelta : 0 ≤ ((now : K) - (b.lastRefill : K)) / 1000 * rate :=
      mul_nonneg (div_nonneg (by linarith) (by norm_num)) hrate.le
    exact le_min hcap0 (by linarith)

/-- **Growth.**  From `now` to `later` the available tokens grow by at most the refill. -/
theorem available_growth {capacity rate : K} (hrate : 0 < rate) (hcap : capacity ≤ 60 * rate)
    {now later : ℕ} (hle : now ≤ later) {cell : Option (Cell (Bucket K))}
    (h : Sound capacity now cell) :
    available capacity rate cell later
      ≤ available capacity rate cell now + rate * ((later : K) / 1000 - (now : K) / 1000) := by
  have hle' : (now : K) / 1000 ≤ (later : K) / 1000 :=
    div_le_div_of_nonneg_right (by exact_mod_cast hle) (by norm_num)
  have hgain : 0 ≤ rate * ((later : K) / 1000 - (now : K) / 1000) :=
    mul_nonneg hrate.le (by linarith)
  rcases h with rfl | ⟨b, rfl, h0, hC, hb⟩
  · show capacity ≤ capacity + _
    linarith
  · rw [expiry_mints_nothing hrate hcap h0, expiry_mints_nothing hrate hcap h0]
    have hsplit : ((later : K) - (b.lastRefill : K)) / 1000 * rate
        = ((now : K) - (b.lastRefill : K)) / 1000 * rate
          + rate * ((later : K) / 1000 - (now : K) / 1000) := by ring
    rw [hsplit, ← min_add_add_right]
    exact min_le_min (by linarith) (by linarith)

theorem spend_nonneg {tokens : K} (h : 0 ≤ tokens) : 0 ≤ spend tokens := by
  unfold spend
  split <;> linarith

theorem spend_le {tokens : K} : spend tokens ≤ tokens := by
  unfold spend
  split <;> linarith

/-- A call keeps the invariant. -/
theorem sound_after_call {capacity rate : K} (hcap0 : 0 ≤ capacity) (hrate : 0 < rate)
    (hcap : capacity ≤ 60 * rate) {now : ℕ} {cell : Option (Cell (Bucket K))}
    (h : Sound capacity now cell) :
    Sound capacity now (put now 60 (Bucket.mk (spend (available capacity rate cell now)) now)) := by
  refine Or.inr ⟨_, rfl, ?_, ?_, le_refl now⟩
  · exact spend_nonneg (available_nonneg hcap0 hrate hcap h)
  · exact spend_le.trans (available_le_capacity _ _ _ _)

/-- A call leaves available what it did not spend. -/
theorem available_after_call (capacity rate : K) (cell : Option (Cell (Bucket K))) (now : ℕ) :
    available capacity rate (put now 60 (Bucket.mk (spend (available capacity rate cell now)) now))
      now = spend (available capacity rate cell now) := by
  have hle : spend (available capacity rate cell now) ≤ capacity :=
    spend_le.trans (available_le_capacity _ _ _ _)
  show refilled capacity rate now (read now (put now 60 _)) = _
  rw [read_put_self]
  simp [refilled, hle]

end Ordered

/-! ### One call on the Redis state -/

section Calls

variable [FloorRing K]

/-- The calls for one identifier, one after another at the given times. -/
def tokenBucketRun (identifier : String) (capacity refillRatePerSec : K) :
    Redis K → List ℕ → Redis K × List TokenBucketReply :=
  runCalls fun redis now => tokenBucket identifier capacity refillRatePerSec now redis

/-- The hash a call leaves behind. -/
theorem tokenBucket_cell (identifier : String) (capacity rate : K) (now : ℕ) (redis : Redis K) :
    (tokenBucket identifier capacity rate now redis).1.hashes (tokenBucketKey identifier)
      = put now 60 ⟨spend (available capacity rate
          (redis.hashes (tokenBucketKey identifier)) now), now⟩ := by
  simp only [tokenBucket, Function.update_self]
  rw [expire_of_read (by norm_num) (read_modify _ _ _)]
  rfl

/-- Calls for one identifier do not touch the bucket of another. -/
theorem tokenBucket_cell_other {identifier other : String} (h : other ≠ identifier)
    (capacity rate : K) (now : ℕ) (redis : Redis K) :
    (tokenBucket identifier capacity rate now redis).1.hashes (tokenBucketKey other)
      = redis.hashes (tokenBucketKey other) := by
  have hkey : tokenBucketKey other ≠ tokenBucketKey identifier := by
    simpa [tokenBucketKey] using h
  simp only [tokenBucket, Function.update_of_ne hkey]

theorem tokenBucket_allowed (identifier : String) (capacity rate : K) (now : ℕ) (redis : Redis K) :
    (tokenBucket identifier capacity rate now redis).2.allowed
      = decide (1 ≤ available capacity rate (redis.hashes (tokenBucketKey identifier)) now) := rfl

variable [IsStrictOrderedRing K]

/-- A call leaves between `0` and `capacity - 1` whole tokens: an admitted one takes a token, a
denied one found less than one. -/
theorem tokenBucket_remaining {identifier : String} {capacity rate : K} (hcap1 : 1 ≤ capacity)
    (hrate : 0 < rate) (hcap : capacity ≤ 60 * rate) {now : ℕ} {redis : Redis K}
    (h : Sound capacity now (redis.hashes (tokenBucketKey identifier))) :
    (0 : K) ≤ (tokenBucket identifier capacity rate now redis).2.remaining ∧
      ((tokenBucket identifier capacity rate now redis).2.remaining : K) ≤ capacity - 1 := by
  have hcap0 : 0 ≤ capacity := by linarith
  have h0 := available_nonneg hcap0 hrate hcap h
  have hC := available_le_capacity capacity rate (redis.hashes (tokenBucketKey identifier)) now
  show (0 : K) ≤ ((⌊spend (available _ _ _ _)⌋ : ℤ) : K) ∧ ((⌊spend (available _ _ _ _)⌋ : ℤ) : K) ≤ _
  constructor
  · exact_mod_cast Int.floor_nonneg.mpr (spend_nonneg h0)
  · unfold spend
    split
    · exact (Int.floor_le _).trans (by linarith)
    · rename_i hlt
      have hfloor : ⌊available capacity rate (redis.hashes (tokenBucketKey identifier)) now⌋ ≤ 0 := by
        rw [← Int.lt_add_one_iff, Int.floor_lt]
        push_cast
        linarith
      have hcast : ((⌊available capacity rate (redis.hashes (tokenBucketKey identifier)) now⌋ : ℤ) : K)
          ≤ 0 := by exact_mod_cast hfloor
      linarith

/-! ### A run of calls -/

omit [FloorRing K] [IsStrictOrderedRing K] in
theorem admittedIn_cons (s e : K) (t : ℕ) (ts : List ℕ) (r : TokenBucketReply)
    (rs : List TokenBucketReply) :
    admittedIn s e (t :: ts) (r :: rs)
      = admittedIn s e ts rs
        + if (s ≤ (t : K) / 1000 ∧ (t : K) / 1000 ≤ e) ∧ r.allowed = true then 1 else 0 := by
  simp only [admittedIn, List.zip_cons_cons, List.countP_cons, Bool.and_eq_true, decide_eq_true_eq]

omit [FloorRing K] [IsStrictOrderedRing K] in
theorem admittedIn_eq_zero_of_late {s e : K} {times : List ℕ} (replies : List TokenBucketReply)
    (h : ∀ t ∈ times, e < (t : K) / 1000) : admittedIn s e times replies = 0 := by
  rw [admittedIn, List.countP_eq_zero]
  rintro ⟨t, r⟩ hmem
  have hlate := h t (List.of_mem_zip hmem).1
  simp [not_le.mpr hlate]

omit [IsStrictOrderedRing K] in
theorem tokenBucketRun_cons (identifier : String) (capacity rate : K) (redis : Redis K) (t : ℕ)
    (ts : List ℕ) :
    tokenBucketRun identifier capacity rate redis (t :: ts)
      = let next := tokenBucket identifier capacity rate t redis
        let rest := tokenBucketRun identifier capacity rate next.1 ts
        (rest.1, next.2 :: rest.2) := rfl

/-- The invariant, past a call. -/
theorem Sound.tokenBucket {identifier : String} {capacity rate : K} {t : ℕ} {redis : Redis K} (hcap0 : 0 ≤ capacity)
    (hrate : 0 < rate) (hcap : capacity ≤ 60 * rate)
    (h : Sound capacity t (redis.hashes (tokenBucketKey identifier))) :
    Sound capacity t ((Gateway.tokenBucket identifier capacity rate t redis).1.hashes (tokenBucketKey identifier)) := by
  rw [tokenBucket_cell]
  exact sound_after_call hcap0 hrate hcap h

/-- The invariant and the bounds on `remaining` along a run. -/
theorem tokenBucketRun_sound {identifier : String} {capacity rate : K} (hcap1 : 1 ≤ capacity)
    (hrate : 0 < rate) (hcap : capacity ≤ 60 * rate) (times : List ℕ) :
    ∀ (redis : Redis K) (start : ℕ),
      Sound capacity start (redis.hashes (tokenBucketKey identifier)) →
      (∀ t ∈ times, start ≤ t) → times.Pairwise (· ≤ ·) →
      (∃ last, Sound capacity last
        ((tokenBucketRun identifier capacity rate redis times).1.hashes (tokenBucketKey identifier))) ∧
      ∀ reply ∈ (tokenBucketRun identifier capacity rate redis times).2,
        (0 : K) ≤ reply.remaining ∧ (reply.remaining : K) ≤ capacity - 1 := by
  induction times with
  | nil =>
    intro redis start h _ _
    exact ⟨⟨start, h⟩, by simp [tokenBucketRun]⟩
  | cons t ts ih =>
    intro redis start h hge hmono
    obtain ⟨hle, hrest⟩ := List.pairwise_cons.mp hmono
    have ht : Sound capacity t (redis.hashes (tokenBucketKey identifier)) :=
      h.later (hge t List.mem_cons_self)
    obtain ⟨hlast, hreplies⟩ := ih _ t (ht.tokenBucket (by linarith) hrate hcap) hle hrest
    refine ⟨hlast, fun reply hmem => ?_⟩
    rcases List.mem_cons.mp hmem with rfl | hmem
    · exact tokenBucket_remaining hcap1 hrate hcap ht
    · exact hreplies reply hmem

/-- **Potential.**  Whatever is admitted from `start` until `e` is paid for by the tokens available
at `start` and the refill until `e`. -/
theorem admitted_le_potential {identifier : String} {capacity rate : K} (hcap0 : 0 ≤ capacity)
    (hrate : 0 < rate) (hcap : capacity ≤ 60 * rate) (s e : K) (times : List ℕ) :
    ∀ (redis : Redis K) (start : ℕ),
      Sound capacity start (redis.hashes (tokenBucketKey identifier)) →
      (∀ t ∈ times, start ≤ t) → times.Pairwise (· ≤ ·) → (start : K) / 1000 ≤ e →
      (admittedIn s e times (tokenBucketRun identifier capacity rate redis times).2 : K)
        ≤ available capacity rate (redis.hashes (tokenBucketKey identifier)) start
          + rate * (e - (start : K) / 1000) := by
  induction times with
  | nil =>
    intro redis start h _ _ hse
    have hav := available_nonneg hcap0 hrate hcap h
    have hrefill := mul_nonneg hrate.le (sub_nonneg.mpr hse)
    simp only [admittedIn, List.zip_nil_left, List.countP_nil, Nat.cast_zero]
    linarith
  | cons t ts ih =>
    intro redis start h hge hmono hse
    obtain ⟨hle, hrest⟩ := List.pairwise_cons.mp hmono
    have hst : start ≤ t := hge t List.mem_cons_self
    have ht : Sound capacity t (redis.hashes (tokenBucketKey identifier)) := h.later hst
    have hav := available_nonneg hcap0 hrate hcap h
    have hrefill := mul_nonneg hrate.le (sub_nonneg.mpr hse)
    by_cases hte : (t : K) / 1000 ≤ e
    · have hih := ih _ t (ht.tokenBucket hcap0 hrate hcap) hle hrest hte
      rw [tokenBucket_cell, available_after_call] at hih
      have hgrow := available_growth hrate hcap hst h
      rw [tokenBucketRun_cons]
      simp only [admittedIn_cons, tokenBucket_allowed, decide_eq_true_eq]
      push_cast
      -- an admitted call adds one to the count and takes one from what is available
      unfold spend at hih
      split at hih
      · split <;> linarith
      · rename_i hdenied
        rw [if_neg (fun hc => hdenied hc.2)]
        linarith
    · have hlate : ∀ u ∈ t :: ts, e < (u : K) / 1000 := by
        intro u hu
        have htu : t ≤ u := List.forall_mem_cons.mpr ⟨le_refl t, hle⟩ u hu
        have : (t : K) / 1000 ≤ (u : K) / 1000 :=
          div_le_div_of_nonneg_right (by exact_mod_cast htu) (by norm_num)
        linarith [not_le.mp hte]
      rw [admittedIn_eq_zero_of_late _ hlate, Nat.cast_zero]
      linarith

/-- The calls before the interval only change what is available at its first call. -/
theorem admitted_in_interval {identifier : String} {capacity rate : K} (hcap0 : 0 ≤ capacity)
    (hrate : 0 < rate) (hcap : capacity ≤ 60 * rate) {s e : K} (hse : s ≤ e) (times : List ℕ) :
    ∀ (redis : Redis K) (start : ℕ),
      Sound capacity start (redis.hashes (tokenBucketKey identifier)) →
      (∀ t ∈ times, start ≤ t) → times.Pairwise (· ≤ ·) →
      (admittedIn s e times (tokenBucketRun identifier capacity rate redis times).2 : K)
        ≤ capacity + rate * (e - s) := by
  have hpos : 0 ≤ capacity + rate * (e - s) :=
    add_nonneg hcap0 (mul_nonneg hrate.le (sub_nonneg.mpr hse))
  induction times with
  | nil =>
    intro redis start _ _ _
    simpa [admittedIn] using hpos
  | cons t ts ih =>
    intro redis start h hge hmono
    obtain ⟨hle, hrest⟩ := List.pairwise_cons.mp hmono
    have ht : Sound capacity t (redis.hashes (tokenBucketKey identifier)) :=
      h.later (hge t List.mem_cons_self)
    by_cases hin : s ≤ (t : K) / 1000 ∧ (t : K) / 1000 ≤ e
    · have hfrom : ∀ u ∈ t :: ts, t ≤ u := List.forall_mem_cons.mpr ⟨le_refl t, hle⟩
      have hpot := admitted_le_potential hcap0 hrate hcap s e (t :: ts) redis t ht hfrom hmono hin.2
      have hav := available_le_capacity capacity rate (redis.hashes (tokenBucketKey identifier)) t
      have hrefill : rate * (e - (t : K) / 1000) ≤ rate * (e - s) :=
        mul_le_mul_of_nonneg_left (by linarith [hin.1]) hrate.le
      linarith
    · rw [tokenBucketRun_cons]
      simp only [admittedIn_cons]
      rw [if_neg (fun hc => hin hc.1), Nat.add_zero]
      exact ih _ t (ht.tokenBucket hcap0 hrate hcap) hle hrest

/-- **The token bucket keeps its rate.**  For every run of calls for one identifier at non-decreasing
times: the stored token count stays in `[0, capacity]`, every reply's `remaining` in
`[0, capacity - 1]`, and in every time interval `[s, e]` (in seconds) at most
`capacity + rate * (e - s)` calls are admitted. -/
theorem tokenBucket_run_bounds {capacity rate : K} (hcap1 : 1 ≤ capacity) (hrate : 0 < rate)
    (hcap : capacity ≤ 60 * rate) (identifier : String) (redis : Redis K)
    (hfresh : redis.hashes (tokenBucketKey identifier) = none) (times : List ℕ)
    (hmono : times.Pairwise (· ≤ ·)) :
    (∀ now b, read now ((tokenBucketRun identifier capacity rate redis times).1.hashes
        (tokenBucketKey identifier)) = some b → 0 ≤ b.tokens ∧ b.tokens ≤ capacity) ∧
      (∀ reply ∈ (tokenBucketRun identifier capacity rate redis times).2,
        (0 : K) ≤ reply.remaining ∧ (reply.remaining : K) ≤ capacity - 1) ∧
      ∀ s e : K, s ≤ e →
        (admittedIn s e times (tokenBucketRun identifier capacity rate redis times).2 : K)
          ≤ capacity + rate * (e - s) := by
  have hstart : Sound capacity 0 (redis.hashes (tokenBucketKey identifier)) := Or.inl hfresh
  have hge : ∀ t ∈ times, 0 ≤ t := fun t _ => Nat.zero_le t
  obtain ⟨⟨last, hlast⟩, hreplies⟩ :=
    tokenBucketRun_sound hcap1 hrate hcap times redis 0 hstart hge hmono
  refine ⟨?_, hreplies, fun s e hse =>
    admitted_in_interval (by linarith) hrate hcap hse times redis 0 hstart hge hmono⟩
  intro now b hread
  rcases hlast with hnone | ⟨b', hcell, h0, hC, -⟩
  · rw [hnone] at hread
    cases hread
  · rw [hcell, read_put] at hread
    split at hread
    · cases hread
      exact ⟨h0, hC⟩
    · cases hread

/-- The defaults of the gateway (capacity 100, 10 tokens a second) on a burst and a later call. -/
theorem tokenBucket_run_bounds_default :
    (admittedIn (0 : ℚ) 1 [0, 0, 500, 90000]
        (tokenBucketRun "user-1" (100 : ℚ) 10 Redis.empty [0, 0, 500, 90000]).2 : ℚ)
      ≤ 100 + 10 * (1 - 0) :=
  (@tokenBucket_run_bounds ℚ _ _ _ _ 100 10 (by norm_num) (by norm_num)
    (by norm_num) "user-1" Redis.empty rfl [0, 0, 500, 90000] (by decide)).2.2 0 1 (by norm_num)

end Calls

end EdgeSphere.Gateway
