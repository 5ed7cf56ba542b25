import EdgeSphere.Analytics.Summary
import EdgeSphere.Library.Runs
import Mathlib.Logic.Function.Basic
import Mathlib.Tactic.Linarith

/-!
# Alert rules

`AlertsService.checkAlerts` asks the analytics-service for the summary of each rule's window and compares
one number of it with the rule's threshold.  The two services share no type: `evaluateCondition` reads the
response by field names, with a default for what is missing.

* `ShouldTrigger` — what a rule's name promises about the events of its window;
* `AgreesWhen` — the events and thresholds for which the code keeps that promise, a case for each kind;
* `checkAlerts_agrees_iff` — **the exact condition**: in every run of `checkAlerts`, an enabled rule that
  is out of its debounce period is triggered as it should be iff `AgreesWhen` holds;
* `error_rate_never_triggers` — half of the requests fail, and the default rule stays silent.
-/

namespace EdgeSphere.Notification

open EdgeSphere.Analytics
open EdgeSphere.Library.Runs

/-! ### Rules -/

inductive Condition where
  | errorRateAbove
  | latencyAbove
  | cacheHitBelow
  | bandwidthAbove
  | edgeDown
  deriving DecidableEq, Repr

inductive Channel where
  | email
  | webhook
  | slack
  deriving DecidableEq, Repr

structure AlertRule where
  id : String
  name : String
  condition : Condition
  threshold : ℚ
  windowMinutes : ℕ
  channels : List Channel
  enabled : Bool
  deriving DecidableEq, Repr

def DEFAULT_ALERT_RULES : List AlertRule :=
  [{ id := "1", name := "High Error Rate", condition := .errorRateAbove, threshold := 5, windowMinutes := 5
     channels := [.webhook], enabled := true },
    { id := "2", name := "High Latency", condition := .latencyAbove, threshold := 500, windowMinutes := 5
      channels := [.webhook], enabled := true },
    { id := "3", name := "Low Cache Hit", condition := .cacheHitBelow, threshold := 50, windowMinutes := 15
      channels := [.webhook], enabled := true },
    { id := "4", name := "Edge Server Down", condition := .edgeDown, threshold := 0, windowMinutes := 1
      channels := [.email, .webhook], enabled := true }]

/-! ### Evaluation -/

/-- `stats.name || fallback`, for a response of numbers. -/
def numberOr (stats : List (String × ℚ)) (name : String) (fallback : ℚ) : ℚ :=
  match stats.lookup name with
  | none => fallback
  | some value => if value = 0 then fallback else value

/-- A message around the value and the threshold, each followed by its unit. -/
structure Message where
  lead : String
  value : ℚ
  relation : String
  threshold : ℚ
  unit : String
  deriving DecidableEq, Repr

structure Evaluation where
  triggered : Bool
  value : ℚ
  message : Message
  deriving DecidableEq, Repr

/-- `AlertsService.evaluateCondition`. -/
def evaluateCondition (rule : AlertRule) (stats : List (String × ℚ)) : Evaluation :=
  match rule.condition with
  | .errorRateAbove =>
    let value := numberOr stats "errorRate" 0
    { triggered := decide (rule.threshold < value), value
      message := ⟨"Error rate is ", value, "%, above threshold of ", rule.threshold, "%"⟩ }
  | .latencyAbove =>
    let value := numberOr stats "avgLatency" 0
    { triggered := decide (rule.threshold < value), value
      message := ⟨"Average latency is ", value, "ms, above threshold of ", rule.threshold, "ms"⟩ }
  | .cacheHitBelow =>
    let value := numberOr stats "cacheHitRate" 100
    { triggered := decide (value < rule.threshold), value
      message := ⟨"Cache hit rate is ", value, "%, below threshold of ", rule.threshold, "%"⟩ }
  | .bandwidthAbove =>
    let value := numberOr stats "bandwidthUsage" 0
    { triggered := decide (rule.threshold < value), value
      message := ⟨"Bandwidth usage is ", value, " bytes, above threshold of ", rule.threshold, " bytes"⟩ }
  | .edgeDown =>
    let value := numberOr stats "activeEdges" 1
    { triggered := decide (value ≤ rule.threshold), value
      message := ⟨"Active edges is ", value, ", equal or below threshold of ", rule.threshold, ""⟩ }

/-! ### A check -/

structure AlertRecord where
  id : String
  ruleId : String
  ruleName : String
  condition : Condition
  threshold : ℚ
  currentValue : ℚ
  message : Message
  timestamp : ℕ
  deriving DecidableEq, Repr

/-- What `AlertsService` keeps in memory; a rule that was never triggered was last triggered at 0. -/
structure AlertsState where
  rules : List AlertRule
  history : List AlertRecord
  lastTriggered : String → ℕ

/-- What one call of `checkAlerts` meets: the clock, the setting, and for each rule the response of the
analytics-service (`none` if the request fails), the fresh UUID and the instant of the record. -/
structure Check where
  now : ℕ
  debounceMinutes : ℕ
  summary : AlertRule → Option (List (String × ℚ))
  uuid : AlertRule → String
  timestamp : AlertRule → ℕ

/-- `now - lastTime < debounceMinutes * 60 * 1000`. -/
def Check.debounced (c : Check) (s : AlertsState) (rule : AlertRule) : Bool :=
  decide (c.now < s.lastTriggered rule.id + c.debounceMinutes * 60 * 1000)

/-- The body of the loop of `checkAlerts`, with the record it dispatches.  A failed request or dispatch is
logged only. -/
def checkRule (c : Check) (s : AlertsState) (rule : AlertRule) : AlertsState × Option AlertRecord :=
  if !rule.enabled || c.debounced s rule then (s, none)
  else match c.summary rule with
    | none => (s, none)
    | some stats =>
      let result := evaluateCondition rule stats
      if result.triggered then
        let alertRecord : AlertRecord :=
          { id := c.uuid rule, ruleId := rule.id, ruleName := rule.name, condition := rule.condition
            threshold := rule.threshold, currentValue := result.value, message := result.message
            timestamp := c.timestamp rule }
        ({ s with
            history := (alertRecord :: s.history).take 50
            lastTriggered := Function.update s.lastTriggered rule.id c.now }, some alertRecord)
      else (s, none)

/-- `AlertsService.checkAlerts`: the state it leaves, and the record dispatched for each rule. -/
def checkAlerts (c : Check) (s : AlertsState) : AlertsState × List (Option AlertRecord) :=
  runCalls (checkRule c) s s.rules

/-! ### What a rule promises -/

/-- What the kind of a rule says about the events of its window. -/
def ShouldTrigger (rule : AlertRule) (rows : List RequestEvent) : Prop :=
  match rule.condition with
  | .errorRateAbove => rule.threshold < 100 * (errorCount rows : ℚ) / rows.length
  | .latencyAbove => rule.threshold < meanLatency rows
  | .cacheHitBelow => 0 < rows.length ∧ 100 * (hitCount rows : ℚ) / rows.length < rule.threshold
  | .bandwidthAbove => rule.threshold < totalBytes rows
  | .edgeDown => False

/-- The events and thresholds for which the code agrees: an error rate is compared as a fraction, and the
fields of the hit rate and of the bandwidth are not in the response. -/
def AgreesWhen (rule : AlertRule) (rows : List RequestEvent) : Prop :=
  match rule.condition with
  | .errorRateAbove =>
    rule.threshold < (errorCount rows : ℚ) / rows.length ∨
      100 * (errorCount rows : ℚ) / rows.length ≤ rule.threshold
  | .latencyAbove => True
  | .cacheHitBelow =>
    100 < rule.threshold ∧ 0 < rows.length ∨
      rule.threshold ≤ 100 ∧
        (rows.length = 0 ∨ rule.threshold ≤ 100 * (hitCount rows : ℚ) / rows.length)
  | .bandwidthAbove =>
    rule.threshold < 0 ∧ rule.threshold < totalBytes rows ∨
      0 ≤ rule.threshold ∧ (totalBytes rows : ℚ) ≤ rule.threshold
  | .edgeDown => False

/-! ### What the code computes -/

section Evaluate

variable {rule : AlertRule} (w : ℕ) (rows : List RequestEvent)

/-- A field of the summary, read with 0 as its default. -/
theorem numberOr_zero (stats : List (String × ℚ)) (name : String) {value : ℚ}
    (h : stats.lookup name = some value) : numberOr stats name 0 = value := by
  unfold numberOr
  rw [h]
  show (if value = 0 then 0 else value) = value
  split
  · rename_i hzero
    exact hzero.symm
  · rfl

/-- **What `evaluateCondition` compares**, for each kind of rule. -/
theorem evaluateCondition_triggered (rule : AlertRule) :
    (evaluateCondition rule (getSummaryStats w rows).json).triggered = true ↔
      match rule.condition with
      | .errorRateAbove => rule.threshold < (errorCount rows : ℚ) / rows.length
      | .latencyAbove => rule.threshold < meanLatency rows
      | .cacheHitBelow => 100 < rule.threshold
      | .bandwidthAbove => rule.threshold < 0
      | .edgeDown => 1 ≤ rule.threshold := by
  have herror : numberOr (getSummaryStats w rows).json "errorRate" 0 = (errorCount rows : ℚ) / rows.length :=
    (numberOr_zero _ _ rfl).trans (errorRate_eq rows)
  have hlatency : numberOr (getSummaryStats w rows).json "avgLatency" 0 = meanLatency rows :=
    numberOr_zero _ _ rfl
  unfold evaluateCondition
  cases rule.condition with
  | errorRateAbove => rw [← herror]; exact decide_eq_true_iff
  | latencyAbove => rw [← hlatency]; exact decide_eq_true_iff
  | cacheHitBelow => exact decide_eq_true_iff
  | bandwidthAbove => exact decide_eq_true_iff
  | edgeDown => exact decide_eq_true_iff

/-- **One rule**: the code agrees with the promise iff the events and the threshold allow it. -/
theorem evaluateCondition_agrees_iff (hkind : rule.condition ≠ .edgeDown) :
    ((evaluateCondition rule (getSummaryStats w rows).json).triggered = true ↔ ShouldTrigger rule rows) ↔
      AgreesWhen rule rows := by
  have hratio : 0 ≤ (errorCount rows : ℚ) / rows.length := by positivity
  have hscale : 100 * (errorCount rows : ℚ) / rows.length = 100 * ((errorCount rows : ℚ) / rows.length) :=
    mul_div_assoc _ _ _
  rw [evaluateCondition_triggered]
  unfold ShouldTrigger AgreesWhen
  cases hcondition : rule.condition with
  | errorRateAbove =>
    show (rule.threshold < _ ↔ rule.threshold < _) ↔ _ ∨ _
    rw [hscale]
    constructor
    · intro h
      by_cases hlt : rule.threshold < (errorCount rows : ℚ) / rows.length
      · exact Or.inl hlt
      · exact Or.inr (not_lt.mp fun hpercent => hlt (h.mpr hpercent))
    · intro h
      rcases h with hlt | hle
      · exact iff_of_true hlt (by linarith)
      · exact iff_of_false (by linarith) (by linarith)
  | latencyAbove => exact iff_of_true Iff.rfl trivial
  | cacheHitBelow =>
    show (100 < rule.threshold ↔ 0 < rows.length ∧ _ < rule.threshold) ↔ _
    have hle : 100 * (hitCount rows : ℚ) / rows.length ≤ 100 := by
      rw [mul_div_assoc]
      have hone := ratio_le_one rows fun e => e.cacheHit
      have hhits : (hitCount rows : ℚ) / rows.length ≤ 1 := hone
      linarith
    by_cases hlarge : 100 < rule.threshold
    · have hbelow : 100 * (hitCount rows : ℚ) / rows.length < rule.threshold := by linarith
      simp [hlarge, hbelow, not_le.mpr hlarge]
    · have hsmall : rule.threshold ≤ 100 := not_lt.mp hlarge
      simp only [hlarge, false_iff, false_and, false_or, hsmall, true_and, not_and_or, not_lt,
        Nat.le_zero]
  | bandwidthAbove =>
    show (rule.threshold < 0 ↔ rule.threshold < _) ↔ _
    by_cases hnegative : rule.threshold < 0
    · simp [hnegative, not_le.mpr hnegative]
    · simp [hnegative, not_lt.mp hnegative]
  | edgeDown => exact absurd hcondition hkind

end Evaluate

/-! ### Every run -/

/-- The body of the loop dispatches a record iff the rule is triggered. -/
theorem checkRule_dispatches_iff {c : Check} {s : AlertsState} {rule : AlertRule}
    (henabled : rule.enabled = true) (hout : c.debounced s rule = false) {stats : List (String × ℚ)}
    (hstats : c.summary rule = some stats) :
    (∃ record, (checkRule c s rule).2 = some record ∧ record.ruleId = rule.id) ↔
      (evaluateCondition rule stats).triggered = true := by
  unfold checkRule
  rw [henabled, hout, hstats]
  simp only [Bool.not_true, Bool.or_false, Bool.false_eq_true, if_false]
  by_cases htriggered : (evaluateCondition rule stats).triggered = true
  · rw [if_pos htriggered]
    exact iff_of_true ⟨_, rfl, rfl⟩ htriggered
  · rw [if_neg htriggered]
    exact iff_of_false (fun ⟨_, hnone, _⟩ => by cases hnone) htriggered

/-- **Every run of `checkAlerts`.**  Whatever the rules, the history, the debounce period and the events:
an enabled rule that is out of its debounce period at its turn, and whose request is answered with the
summary of its window, has an alert dispatched exactly if its kind promises one iff `AgreesWhen` holds. -/
theorem checkAlerts_agrees_iff (c : Check) (s : AlertsState) {done todo : List AlertRule} {rule : AlertRule}
    (hsplit : s.rules = done ++ rule :: todo) (henabled : rule.enabled = true)
    (hout : c.debounced (runCalls (checkRule c) s done).1 rule = false) (events : List RequestEvent)
    (hstats : c.summary rule
      = some (getSummaryStats rule.windowMinutes (inWindow c.now rule.windowMinutes events)).json)
    (hkind : rule.condition ≠ .edgeDown) :
    ((∃ record, (checkAlerts c s).2[done.length]? = some (some record) ∧ record.ruleId = rule.id) ↔
        ShouldTrigger rule (inWindow c.now rule.windowMinutes events)) ↔
      AgreesWhen rule (inWindow c.now rule.windowMinutes events) := by
  have hreply : (checkAlerts c s).2[done.length]?
      = some (checkRule c (runCalls (checkRule c) s done).1 rule).2 := by
    unfold checkAlerts
    rw [hsplit]
    exact runCalls_reply (checkRule c) s done todo rule
  rw [hreply, ← evaluateCondition_agrees_iff rule.windowMinutes _ hkind,
    ← checkRule_dispatches_iff henabled hout hstats]
  simp only [Option.some.injEq]

/-! ### A silent rule -/

/-- Four requests, two of which fail. -/
def failingHalf : List RequestEvent :=
  [200, 500, 404, 200].map fun status =>
    { time := 900000, status := some status, latencyMs := some 20, userId := none, cacheHit := true, bytes := 10 }

/-- A check of the default rules half a minute later. -/
def laterCheck : Check where
  now := 930000
  debounceMinutes := 10
  summary rule :=
    some (getSummaryStats rule.windowMinutes (inWindow 930000 rule.windowMinutes failingHalf)).json
  uuid rule := rule.name
  timestamp _ := 930000

def freshAlerts : AlertsState := ⟨DEFAULT_ALERT_RULES, [], fun _ => 0⟩

def highErrorRate : AlertRule :=
  { id := "1", name := "High Error Rate", condition := .errorRateAbove, threshold := 5, windowMinutes := 5
    channels := [.webhook], enabled := true }

/-- The rule at this check. -/
theorem checkAlerts_agrees_iff_later :
    ((∃ record, (checkAlerts laterCheck freshAlerts).2[0]? = some (some record) ∧
          record.ruleId = highErrorRate.id) ↔
        ShouldTrigger highErrorRate (inWindow 930000 5 failingHalf)) ↔
      AgreesWhen highErrorRate (inWindow 930000 5 failingHalf) :=
  checkAlerts_agrees_iff laterCheck freshAlerts
    (show freshAlerts.rules = [] ++ highErrorRate :: DEFAULT_ALERT_RULES.tail from rfl) rfl
    (by decide +kernel) failingHalf rfl (by decide)

/-- **Half of the requests fail, and the rule for more than 5 % stays silent.** -/
theorem error_rate_never_triggers :
    (checkAlerts laterCheck freshAlerts).2 = [none, none, none, none] ∧
      ShouldTrigger highErrorRate (inWindow 930000 5 failingHalf) ∧
      ¬ ((∃ record, (checkAlerts laterCheck freshAlerts).2[0]? = some (some record) ∧
            record.ruleId = highErrorRate.id) ↔
          ShouldTrigger highErrorRate (inWindow 930000 5 failingHalf)) := by
  have hsilent : (checkAlerts laterCheck freshAlerts).2 = [none, none, none, none] := by decide +kernel
  have hshould : ShouldTrigger highErrorRate (inWindow 930000 5 failingHalf) := by
    show (5 : ℚ) < 100 * (errorCount (inWindow 930000 5 failingHalf) : ℚ) / (inWindow 930000 5 failingHalf).length
    decide +kernel
  refine ⟨hsilent, hshould, fun hagrees => ?_⟩
  obtain ⟨record, hrecord, -⟩ := hagrees.mpr hshould
  rw [hsilent] at hrecord
  cases hrecord

end EdgeSphere.Notification
