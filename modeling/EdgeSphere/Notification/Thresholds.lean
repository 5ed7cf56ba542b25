import EdgeSphere.Notification.Alerts

/-!
# A metric and its threshold

`evaluateCondition` reads a metric as `stats.name || fallback`.  A metric that is 0 is read as the fallback, which for
the hit rate is 100 and for the edges 1: the worst values of the two conditions that look for low ones.

* `Beyond` — a second value that is at least as bad as the first;
* `ZeroMisread` — the pairs where the second value is 0, and read as a good one;
* `evaluateCondition_monotone_iff` — **the exact condition**: a rule that is triggered at a value is triggered at a
  worse one iff that is not so;
* `rule_monotone_iff` — the thresholds at which a rule is monotone in all its values;
* `total_failure_unseen` — a hit rate of 10 % triggers the default rule, one of 0 % does not.
-/

namespace EdgeSphere.Notification

/-! ### What a condition reads -/

/-- The field of the response. -/
def Condition.metric : Condition → String
  | .errorRateAbove => "errorRate"
  | .latencyAbove => "avgLatency"
  | .cacheHitBelow => "cacheHitRate"
  | .bandwidthAbove => "bandwidthUsage"
  | .edgeDown => "activeEdges"

/-- The second value is at least as bad as the first. -/
def Condition.Beyond : Condition → ℚ → ℚ → Prop
  | .errorRateAbove, v, v' => v ≤ v'
  | .latencyAbove, v, v' => v ≤ v'
  | .cacheHitBelow, v, v' => v' ≤ v
  | .bandwidthAbove, v, v' => v ≤ v'
  | .edgeDown, v, v' => v' ≤ v

/-- A positive value triggers the rule, and 0 is read as one that does not. -/
def ZeroMisread (rule : AlertRule) (v v' : ℚ) : Prop :=
  match rule.condition with
  | .cacheHitBelow => v' = 0 ∧ 0 < v ∧ v < rule.threshold ∧ rule.threshold ≤ 100
  | .edgeDown => v' = 0 ∧ 0 < v ∧ v ≤ rule.threshold ∧ rule.threshold < 1
  | _ => False

theorem numberOr_present {stats : List (String × ℚ)} {name : String} {v : ℚ} (fallback : ℚ)
    (h : stats.lookup name = some v) : numberOr stats name fallback = if v = 0 then fallback else v := by
  unfold numberOr
  rw [h]

section Pair

variable {rule : AlertRule} {stats stats' : List (String × ℚ)} {v v' : ℚ}

/-- **What triggers a rule**, where its metric is present. -/
theorem evaluateCondition_present (hv : stats.lookup rule.condition.metric = some v) :
    (evaluateCondition rule stats).triggered = true ↔
      match rule.condition with
      | .errorRateAbove => rule.threshold < v
      | .latencyAbove => rule.threshold < v
      | .cacheHitBelow => (if v = 0 then 100 else v) < rule.threshold
      | .bandwidthAbove => rule.threshold < v
      | .edgeDown => (if v = 0 then 1 else v) ≤ rule.threshold := by
  unfold evaluateCondition
  cases hcondition : rule.condition with
  | errorRateAbove =>
    rw [hcondition] at hv
    rw [← numberOr_zero stats "errorRate" hv]
    exact decide_eq_true_iff
  | latencyAbove =>
    rw [hcondition] at hv
    rw [← numberOr_zero stats "avgLatency" hv]
    exact decide_eq_true_iff
  | cacheHitBelow =>
    rw [hcondition] at hv
    rw [← numberOr_present 100 hv]
    exact decide_eq_true_iff
  | bandwidthAbove =>
    rw [hcondition] at hv
    rw [← numberOr_zero stats "bandwidthUsage" hv]
    exact decide_eq_true_iff
  | edgeDown =>
    rw [hcondition] at hv
    rw [← numberOr_present 1 hv]
    exact decide_eq_true_iff

/-- A low value that is read as `fallback` when it is 0, on a side that is closed downwards. -/
theorem low_monotone_iff (fallback : ℚ) {low : ℚ → Prop} (hlow : ∀ a b, b ≤ a → low a → low b) (hv : 0 ≤ v)
    (hv' : 0 ≤ v') :
    (v' ≤ v → low (if v = 0 then fallback else v) → low (if v' = 0 then fallback else v')) ↔
      ¬ (v' = 0 ∧ 0 < v ∧ low v ∧ ¬ low fallback) := by
  constructor
  · rintro hmono ⟨rfl, hvpos, hlowv, hfallback⟩
    rw [if_neg hvpos.ne', if_pos rfl] at hmono
    exact hfallback (hmono hv hlowv)
  · intro hfine hle hread
    by_cases hzero : v' = 0
    · rw [if_pos hzero]
      by_cases hvzero : v = 0
      · rwa [if_pos hvzero] at hread
      · rw [if_neg hvzero] at hread
        by_contra hfallback
        exact hfine ⟨hzero, lt_of_le_of_ne hv (Ne.symm hvzero), hread, hfallback⟩
    · have hvpos : 0 < v := lt_of_lt_of_le (lt_of_le_of_ne hv' (Ne.symm hzero)) hle
      rw [if_neg hvpos.ne'] at hread
      rw [if_neg hzero]
      exact hlow v v' hle hread

/-- **The exact condition.**  Whatever the rule, and the response in all its other fields: if a value of its metric
triggers the rule, then so does a value at least as bad, iff that one is not a 0 that is read as a good value. -/
theorem evaluateCondition_monotone_iff (hv : stats.lookup rule.condition.metric = some v)
    (hv' : stats'.lookup rule.condition.metric = some v') (hnonneg : 0 ≤ v) (hnonneg' : 0 ≤ v') :
    (rule.condition.Beyond v v' → (evaluateCondition rule stats).triggered = true →
        (evaluateCondition rule stats').triggered = true) ↔
      ¬ ZeroMisread rule v v' := by
  rw [evaluateCondition_present hv, evaluateCondition_present hv']
  unfold ZeroMisread
  cases hcondition : rule.condition with
  | errorRateAbove => exact iff_of_true (fun hle hlt => lt_of_lt_of_le hlt hle) id
  | latencyAbove => exact iff_of_true (fun hle hlt => lt_of_lt_of_le hlt hle) id
  | cacheHitBelow =>
    have hclosed : ∀ a b, b ≤ a → a < rule.threshold → b < rule.threshold := fun a b => lt_of_le_of_lt
    simpa only [Condition.Beyond, not_lt] using low_monotone_iff 100 hclosed hnonneg hnonneg'
  | bandwidthAbove => exact iff_of_true (fun hle hlt => lt_of_lt_of_le hlt hle) id
  | edgeDown =>
    have hclosed : ∀ a b, b ≤ a → a ≤ rule.threshold → b ≤ rule.threshold := fun a b => le_trans
    simpa only [Condition.Beyond, not_le] using low_monotone_iff 1 hclosed hnonneg hnonneg'

end Pair

/-! ### A rule -/

/-- A rule is monotone in all values of its metric iff its threshold is out of reach of the misread 0. -/
theorem rule_monotone_iff (rule : AlertRule) :
    (∀ v v', 0 ≤ v → 0 ≤ v' → ¬ ZeroMisread rule v v') ↔
      match rule.condition with
      | .cacheHitBelow => rule.threshold ≤ 0 ∨ 100 < rule.threshold
      | .edgeDown => rule.threshold ≤ 0 ∨ 1 ≤ rule.threshold
      | _ => True := by
  unfold ZeroMisread
  cases hcondition : rule.condition with
  | errorRateAbove => exact iff_of_true (fun _ _ _ _ => id) trivial
  | latencyAbove => exact iff_of_true (fun _ _ _ _ => id) trivial
  | cacheHitBelow =>
    constructor
    · intro h
      by_contra hreach
      push Not at hreach
      -- half of the threshold is a positive value below it
      exact h (rule.threshold / 2) 0 (by linarith) le_rfl ⟨rfl, by linarith, by linarith, hreach.2⟩
    · rintro (hle | hlt) v v' - - ⟨-, hpos, hbelow, hsmall⟩
      · linarith
      · linarith
  | bandwidthAbove => exact iff_of_true (fun _ _ _ _ => id) trivial
  | edgeDown =>
    constructor
    · intro h
      by_contra hreach
      push Not at hreach
      exact h rule.threshold 0 hreach.1.le le_rfl ⟨rfl, hreach.1, le_rfl, hreach.2⟩
    · rintro (hle | hlt) v v' - - ⟨-, hpos, hbelow, hsmall⟩
      · linarith
      · linarith

/-! ### A cache that fails altogether -/

def lowCacheHit : AlertRule :=
  { id := "3", name := "Low Cache Hit", condition := .cacheHitBelow, threshold := 50, windowMinutes := 15
    channels := [.webhook], enabled := true }

/-- The default rule, from 40 % to 10 %. -/
theorem evaluateCondition_monotone_iff_low :
    (lowCacheHit.condition.Beyond 40 10 → (evaluateCondition lowCacheHit [("cacheHitRate", 40)]).triggered = true →
        (evaluateCondition lowCacheHit [("cacheHitRate", 10)]).triggered = true) ↔
      ¬ ZeroMisread lowCacheHit 40 10 :=
  evaluateCondition_monotone_iff rfl rfl (by norm_num) (by norm_num)

/-- **The default rule sees a hit rate of 10 %, and none of 0 %.** -/
theorem total_failure_unseen :
    lowCacheHit ∈ DEFAULT_ALERT_RULES ∧
      ¬ (lowCacheHit.condition.Beyond 10 0 → (evaluateCondition lowCacheHit [("cacheHitRate", 10)]).triggered = true →
        (evaluateCondition lowCacheHit [("cacheHitRate", 0)]).triggered = true) := by
  refine ⟨by decide, fun h => ?_⟩
  have hmisread : (evaluateCondition lowCacheHit [("cacheHitRate", 0)]).triggered = true :=
    h (by norm_num [lowCacheHit, Condition.Beyond]) (by decide)
  exact absurd hmisread (by decide)

end EdgeSphere.Notification
