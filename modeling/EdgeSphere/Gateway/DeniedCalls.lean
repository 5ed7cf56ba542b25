import EdgeSphere.Gateway.TokenBucket

/-!
# Denied calls are free

A denied call of `tokenBucket` writes the refilled tokens back, with the time and a new deadline.  Later calls find
what they would have found without it.

* `available_of_denied` — **the write of a denied call changes nothing that is available**, before and after the
  bucket expires and below the cap as at it;
* `tokenBucket_of_denied` — so the call after it gives the same reply and leaves the same Redis;
* `denied_calls_free` — deleting any denied call of a run leaves every other reply alone.
-/

namespace EdgeSphere.Gateway

open EdgeSphere.Library
open EdgeSphere.Library.Expiry
open EdgeSphere.Library.Runs

variable {K : Type*} [Field K] [LinearOrder K]

section Ordered

variable [IsStrictOrderedRing K]

/-- A denied call leaves the available tokens as they are, at every later time. -/
theorem available_of_denied {capacity rate : K} (hcap1 : 1 ≤ capacity) (hrate : 0 < rate) (hcap : capacity ≤ 60 * rate)
    {t : ℕ} {cell : Option (Cell (Bucket K))} (h : Sound capacity t cell)
    (hdenied : available capacity rate cell t < 1) (later : ℕ) :
    available capacity rate (put t 60 (Bucket.mk (available capacity rate cell t) t)) later
      = available capacity rate cell later := by
  have h0 := available_nonneg (by linarith) hrate hcap h
  rcases h with rfl | ⟨b, rfl, htok, -, -⟩
  · -- a missing key is a full bucket
    have hfull : available capacity rate (none : Option (Cell (Bucket K))) t = capacity := rfl
    linarith
  · have hwritten := @expiry_mints_nothing _ _ _ _ _ _ hrate hcap ⟨_, t⟩ h0 later
    -- the cap does not bind, for the bucket holds less than one token
    have hbelow : available capacity rate (put b.lastRefill 60 b) t
        = b.tokens + ((t : K) - (b.lastRefill : K)) / 1000 * rate := by
      rw [expiry_mints_nothing hrate hcap htok] at hdenied ⊢
      rcases min_lt_iff.mp hdenied with hlt | hlt
      · linarith
      · exact min_eq_right (by linarith)
    have hsum : b.tokens + ((t : K) - (b.lastRefill : K)) / 1000 * rate + ((later : K) - (t : K)) / 1000 * rate
        = b.tokens + ((later : K) - (b.lastRefill : K)) / 1000 * rate := by ring
    calc available capacity rate (put t 60 ⟨available capacity rate (put b.lastRefill 60 b) t, t⟩) later
        = min capacity (available capacity rate (put b.lastRefill 60 b) t + ((later : K) - (t : K)) / 1000 * rate) :=
          hwritten
      _ = min capacity (b.tokens + ((later : K) - (b.lastRefill : K)) / 1000 * rate) := by rw [hbelow, hsum]
      _ = available capacity rate (put b.lastRefill 60 b) later := (expiry_mints_nothing hrate hcap htok).symm

end Ordered

section Calls

variable [FloorRing K]

/-- A call is a function of what is available. -/
theorem tokenBucket_eq (identifier : String) (capacity rate : K) (now : ℕ) (redis : Redis K) :
    tokenBucket identifier capacity rate now redis
      = let found := available capacity rate (redis.hashes (tokenBucketKey identifier)) now
        ({ redis with
            hashes := Function.update redis.hashes (tokenBucketKey identifier) (put now 60 ⟨spend found, now⟩) },
          { allowed := decide (1 ≤ found), remaining := ⌊spend found⌋
            resetAt := now + 1000 * ⌈(1 - spend found) / rate⌉ }) := by
  have hcell := tokenBucket_cell identifier capacity rate now redis
  refine Prod.ext ?_ rfl
  show ({ redis with hashes := Function.update redis.hashes (tokenBucketKey identifier) _ } : Redis K) = _
  congr 2
  simpa only [tokenBucket, Function.update_self] using hcell

variable [IsStrictOrderedRing K]

/-- The call after a denied one gives its reply, and leaves Redis, as if the denied one had not been. -/
theorem tokenBucket_of_denied {identifier : String} {capacity rate : K} (hcap1 : 1 ≤ capacity) (hrate : 0 < rate)
    (hcap : capacity ≤ 60 * rate) {t : ℕ} {redis : Redis K}
    (h : Sound capacity t (redis.hashes (tokenBucketKey identifier)))
    (hdenied : (tokenBucket identifier capacity rate t redis).2.allowed = false) (later : ℕ) :
    tokenBucket identifier capacity rate later (tokenBucket identifier capacity rate t redis).1
      = tokenBucket identifier capacity rate later redis := by
  rw [tokenBucket_allowed, decide_eq_false_iff_not, not_le] at hdenied
  have hspend : spend (available capacity rate (redis.hashes (tokenBucketKey identifier)) t)
      = available capacity rate (redis.hashes (tokenBucketKey identifier)) t := if_neg (not_le.mpr hdenied)
  have hfound := available_of_denied hcap1 hrate hcap h hdenied later
  rw [tokenBucket_eq _ _ _ later, tokenBucket_cell, hspend, hfound, tokenBucket_eq _ _ _ later redis,
    tokenBucket_eq _ _ _ t redis]
  simp only [Function.update_idem]

/-- Calls at times in order leave a sound bucket for every time after them. -/
theorem sound_after_run {capacity rate : K} (hcap0 : 0 ≤ capacity) (hrate : 0 < rate) (hcap : capacity ≤ 60 * rate)
    (identifier : String) (redis : Redis K) (hfresh : redis.hashes (tokenBucketKey identifier) = none)
    (times : List ℕ) (hmono : times.Pairwise (· ≤ ·)) {now : ℕ} (hnow : ∀ t ∈ times, t ≤ now) :
    Sound capacity now
      ((tokenBucketRun identifier capacity rate redis times).1.hashes (tokenBucketKey identifier)) := by
  refine runCalls_induction _ redis (fun done s => ∀ now, (∀ t ∈ done, t ≤ now) →
    Sound capacity now (s.hashes (tokenBucketKey identifier))) times (fun now _ => .inl hfresh) ?_ now hnow
  intro done t todo s hsplit hs hsound now hnow
  rw [hsplit, List.pairwise_append] at hmono
  have hlast : Sound capacity t (s.hashes (tokenBucketKey identifier)) :=
    hsound t fun u hu => hmono.2.2 u hu t List.mem_cons_self
  rw [tokenBucket_cell]
  exact (sound_after_call hcap0 hrate hcap hlast).later (hnow t (List.mem_append_right _ (List.mem_singleton.mpr rfl)))

/-- **Denied calls are free.**  In every run of calls for one identifier at non-decreasing times, deleting a denied call
leaves every other reply unchanged. -/
theorem denied_calls_free {capacity rate : K} (hcap1 : 1 ≤ capacity) (hrate : 0 < rate) (hcap : capacity ≤ 60 * rate)
    (identifier : String) (redis : Redis K) (hfresh : redis.hashes (tokenBucketKey identifier) = none)
    (times : List ℕ) (hmono : times.Pairwise (· ≤ ·)) (before after : List ℕ) (t : ℕ) (hsplit : times = before ++ t :: after)
    (hdenied : ((tokenBucketRun identifier capacity rate redis times).2[before.length]?).map TokenBucketReply.allowed
      = some false) :
    (tokenBucketRun identifier capacity rate redis (before ++ after)).2
      = (tokenBucketRun identifier capacity rate redis times).2.eraseIdx before.length := by
  subst hsplit
  unfold tokenBucketRun at hdenied ⊢
  rw [runCalls_reply, Option.map_some, Option.some.injEq] at hdenied
  rw [List.pairwise_append] at hmono
  have hsound : Sound capacity t ((tokenBucketRun identifier capacity rate redis before).1.hashes
      (tokenBucketKey identifier)) :=
    sound_after_run (by linarith) hrate hcap identifier redis hfresh before hmono.1
      fun u hu => hmono.2.2 u hu t List.mem_cons_self
  have herase : ∀ (replies later : List TokenBucketReply) (reply : TokenBucketReply), replies.length = before.length →
      (replies ++ reply :: later).eraseIdx before.length = replies ++ later := by
    intro replies later reply hlength
    rw [← hlength, List.eraseIdx_append_of_length_le (le_refl _), Nat.sub_self, List.eraseIdx_cons_zero]
  rw [runCalls_append, runCalls_append, runCalls_cons]
  dsimp only
  rw [herase _ _ _ (runCalls_length _ _ _)]
  refine congrArg _ ?_
  cases after with
  | nil => rfl
  | cons later rest =>
    -- from the next call on, the two runs are in the same state
    have hsame := tokenBucket_of_denied hcap1 hrate hcap hsound hdenied later
    unfold tokenBucketRun at hsame
    rw [runCalls_cons, runCalls_cons, hsame]

/-- The bucket of one token: the second of three calls is denied, and the third is admitted all the same. -/
theorem denied_calls_free_one :
    (tokenBucketRun "user-1" (1 : ℚ) 1 Redis.empty [0, 2000]).2
      = (tokenBucketRun "user-1" (1 : ℚ) 1 Redis.empty [0, 500, 2000]).2.eraseIdx 1 :=
  denied_calls_free (by norm_num) (by norm_num) (by norm_num) "user-1" Redis.empty rfl [0, 500, 2000] (by decide)
    [0] [2000] 500 rfl (by decide +kernel)

end Calls

end EdgeSphere.Gateway
