import EdgeSphere.Library.Json
import EdgeSphere.Library.Keyed
import EdgeSphere.Notification.Alerts

/-!
# The rules over time

`AlertsService` keeps its rules in an array of objects.  `createRule` reads the fields of a body one by one and gives
the rule an id of its own; `updateRule` spreads the body over the stored rule, and with it an `id` if the body has one.

* `Lawful` — what a request should do: ids are distinct before and after, an update changes the rule of its id and
  leaves it there, a deletion takes out the one rule that was shown;
* `KeepsId` — the body of an update that finds its rule has no other id;
* `rules_lawful_iff` — **the exact condition**: in every run of requests with any bodies, every request is lawful iff
  every one of them keeps the ids;
* `renamed_rules` — an update makes two rules of one id, and one deletion takes out both.
-/

namespace EdgeSphere.Notification

open EdgeSphere.Library
open EdgeSphere.Library.Keyed
open EdgeSphere.Library.Runs

/-! ### Rules as objects -/

/-- An object, by its own properties. -/
abbrev StoredRule := String → Option (Json ℚ)

/-- A body as the parser of the framework lets it through: no text, number, truth value or `null` by itself. -/
inductive Body where
  | object (fields : List (String × Json ℚ))
  | array (elems : List (Json ℚ))

/-- The own properties of a body; those of an array are its indices. -/
def Body.properties : Body → StoredRule
  | .object fields => fun name => fields.lookup name
  | .array elems => fun name => (elems.zipIdx.map fun e => (toString e.2, e.1)).lookup name

/-- `{ ...rule, ...updates }`. -/
def spread (rule updates : StoredRule) : StoredRule := fun name => (updates name).or (rule name)

def Condition.text : Condition → String
  | .errorRateAbove => "error_rate_above"
  | .latencyAbove => "latency_above"
  | .cacheHitBelow => "cache_hit_below"
  | .bandwidthAbove => "bandwidth_above"
  | .edgeDown => "edge_down"

def Channel.text : Channel → String
  | .email => "email"
  | .webhook => "webhook"
  | .slack => "slack"

/-- A rule of the interface, as an object. -/
def AlertRule.object (rule : AlertRule) : StoredRule := fun name => List.lookup name
  [("id", .str rule.id), ("name", .str rule.name), ("condition", .str rule.condition.text),
    ("threshold", .num rule.threshold), ("windowMinutes", .num rule.windowMinutes),
    ("channels", .arr (rule.channels.map fun c => .str c.text)), ("enabled", .bool rule.enabled)]

/-- The rules of a service that has just started. -/
def initialRules : List StoredRule := DEFAULT_ALERT_RULES.map AlertRule.object

/-! ### The operations -/

/-- `a ?? b`, where `a` may be `undefined`. -/
def nullish (a : Option (Json ℚ)) (b : Json ℚ) : Json ℚ :=
  match a with
  | none => b
  | some .null => b
  | some value => value

/-- The rule that `createRule` makes of a body. -/
def newRule (uuid : String) (rule : StoredRule) : StoredRule := fun name => List.lookup name
  [("id", .str uuid), ("name", Json.firstTruthy (rule "name") none (.str "New Rule")),
    ("condition", Json.firstTruthy (rule "condition") none (.str "error_rate_above")),
    ("threshold", Json.firstTruthy (rule "threshold") none (.num 0)),
    ("windowMinutes", Json.firstTruthy (rule "windowMinutes") none (.num 5)),
    ("channels", Json.firstTruthy (rule "channels") none (.arr [.str "webhook"])),
    ("enabled", nullish (rule "enabled") (.bool true))]

/-- `AlertsService.createRule`. -/
def createRule (uuid : String) (rule : Body) (rules : List StoredRule) : List StoredRule × StoredRule :=
  (rules ++ [newRule uuid rule.properties], newRule uuid rule.properties)

/-- `r.id === id`. -/
def hasId (id : String) (r : StoredRule) : Bool :=
  match r "id" with
  | some (.str text) => decide (text = id)
  | _ => false

/-- `AlertsService.updateRule`. -/
def updateRule (id : String) (updates : Body) (rules : List StoredRule) :
    Except String (List StoredRule × StoredRule) :=
  match updateFirst (hasId id) (fun rule => spread rule updates.properties) rules with
  | none => .error "Rule not found"
  | some updated => .ok updated

/-- `AlertsService.deleteRule`. -/
def deleteRule (id : String) (rules : List StoredRule) : List StoredRule := rules.filter fun r => !hasId id r

/-- `array.slice(start, stop)`; a negative index counts from the end. -/
def slice {α : Type*} (array : List α) (start stop : ℤ) : List α :=
  let index (i : ℤ) : ℕ := if i < 0 then (array.length + i).toNat else min i.toNat array.length
  (array.drop (index start)).take (index stop - index start)

structure RulePage where
  data : List StoredRule
  total : ℕ
  page : ℤ
  pageSize : ℤ

/-- `AlertsService.listRules`. -/
def listRules (page pageSize : ℤ) (rules : List StoredRule) : RulePage :=
  let start := (page - 1) * pageSize
  { data := slice rules start (start + pageSize), total := rules.length, page, pageSize }

inductive RuleRequest where
  | create (uuid : String) (rule : Body)
  | update (id : String) (updates : Body)
  | delete (id : String)

/-- The rules after a request; a failed one leaves them alone. -/
def serveRule (rules : List StoredRule) : RuleRequest → List StoredRule
  | .create uuid rule => (createRule uuid rule rules).1
  | .update id updates =>
    match updateRule id updates rules with
    | .ok updated => updated.1
    | .error _ => rules
  | .delete id => deleteRule id rules

/-- The ids that a run of requests draws. -/
def uuids : List RuleRequest → List String
  | [] => []
  | .create uuid _ :: requests => uuid :: uuids requests
  | _ :: requests => uuids requests

/-! ### The law -/

/-- What a request should do to the rules. -/
def Effect (rules : List StoredRule) : RuleRequest → Prop
  | .create _ _ => True
  | .update id updates =>
    (∀ before r after, rules = before ++ r :: after → hasId id r = true →
        ∃ r', serveRule rules (.update id updates) = before ++ r' :: after ∧ hasId id r' = true) ∧
      ((∀ r ∈ rules, hasId id r = false) → serveRule rules (.update id updates) = rules)
  | .delete id =>
    (∀ page pageSize, ∀ r ∈ (listRules page pageSize rules).data, hasId id r = true →
        ∃ before after, rules = before ++ r :: after ∧ serveRule rules (.delete id) = before ++ after) ∧
      ((∀ r ∈ rules, hasId id r = false) → serveRule rules (.delete id) = rules)

/-- **The law**: ids are distinct before and after the request, and it has its effect. -/
structure Lawful (rules : List StoredRule) (request : RuleRequest) : Prop where
  before : Distinct (fun r => r "id") rules
  after : Distinct (fun r => r "id") (serveRule rules request)
  effect : Effect rules request

/-- An update that finds its rule has that rule's id in its body, or none. -/
def KeepsId (rules : List StoredRule) : RuleRequest → Prop
  | .update id updates => (∃ r ∈ rules, hasId id r = true) →
      updates.properties "id" = none ∨ updates.properties "id" = some (.str id)
  | _ => True

/-! ### One request -/

theorem hasId_iff {id : String} {r : StoredRule} : hasId id r = true ↔ r "id" = some (.str id) := by
  unfold hasId
  split
  · rename_i text htext
    rw [htext, decide_eq_true_eq]
    constructor
    · intro h
      rw [h]
    · intro h
      cases h
      rfl
  · rename_i hne
    constructor
    · intro h
      cases h
    · intro h
      exact absurd h (hne id)

section Requests

variable {rules : List StoredRule} {id uuid : String} {updates rule : Body} {before after : List StoredRule}
  {r : StoredRule}

/-- The rule of an id, where ids are distinct, is the first of that id. -/
theorem hasId_before (hdistinct : Distinct (fun r => r "id") (before ++ r :: after)) (hr : hasId id r = true) :
    ∀ b ∈ before, hasId id b = false := by
  intro b hb
  by_contra hfound
  have hsame : b "id" = r "id" :=
    (hasId_iff.mp (eq_true_of_ne_false hfound)).trans (hasId_iff.mp hr).symm
  unfold Distinct at hdistinct
  rw [List.map_append, List.map_cons, List.nodup_middle, List.nodup_cons] at hdistinct
  exact hdistinct.1 (List.mem_append_left _ (hsame ▸ List.mem_map_of_mem hb))

/-- **What an update does.** -/
theorem serveRule_update (hdistinct : Distinct (fun r => r "id") (before ++ r :: after)) (hr : hasId id r = true) :
    serveRule (before ++ r :: after) (.update id updates) = before ++ spread r updates.properties :: after := by
  have hupdate : updateFirst (hasId id) (fun rule => spread rule updates.properties) (before ++ r :: after)
      = some (before ++ spread r updates.properties :: after, spread r updates.properties) :=
    updateFirst_eq_some.mpr ⟨before, r, after, rfl, hr, hasId_before hdistinct hr, rfl, rfl⟩
  show (match updateRule id updates (before ++ r :: after) with | .ok updated => updated.1 | .error _ => _) = _
  unfold updateRule
  rw [hupdate]

theorem serveRule_update_missing (hnone : ∀ r ∈ rules, hasId id r = false) :
    serveRule rules (.update id updates) = rules := by
  show (match updateRule id updates rules with | .ok updated => updated.1 | .error _ => rules) = rules
  unfold updateRule
  rw [updateFirst_eq_none.mpr hnone]

theorem serveRule_delete_missing (hnone : ∀ r ∈ rules, hasId id r = false) :
    serveRule rules (.delete id) = rules := by
  refine List.filter_eq_self.mpr fun r hr => ?_
  rw [hnone r hr]
  rfl

/-- The id of a rule after an update. -/
theorem spread_id (hr : hasId id r = true) : hasId id (spread r updates.properties) = true ↔
    updates.properties "id" = none ∨ updates.properties "id" = some (.str id) := by
  rw [hasId_iff]
  show (updates.properties "id").or (r "id") = _ ↔ _
  rw [hasId_iff.mp hr]
  cases updates.properties "id" with
  | none => simp
  | some j => simp

theorem mem_of_mem_slice {α : Type*} {array : List α} {start stop : ℤ} {a : α} (h : a ∈ slice array start stop) :
    a ∈ array :=
  List.mem_of_mem_drop (List.mem_of_mem_take h)

/-- **The effect of a request that keeps the ids**, where ids are distinct. -/
theorem effect_of_keepsId {request : RuleRequest} (hdistinct : Distinct (fun r => r "id") rules)
    (hkeeps : KeepsId rules request) : Effect rules request := by
  cases request with
  | create uuid rule => trivial
  | update id updates =>
    refine ⟨fun before r after hsplit hr => ?_, serveRule_update_missing⟩
    subst hsplit
    exact ⟨_, serveRule_update hdistinct hr,
      (spread_id hr).mpr (hkeeps ⟨r, List.mem_append_right _ List.mem_cons_self, hr⟩)⟩
  | delete id =>
    refine ⟨fun page pageSize r hmem hr => ?_, serveRule_delete_missing⟩
    obtain ⟨before, after, rfl⟩ := List.append_of_mem (mem_of_mem_slice hmem)
    refine ⟨before, after, rfl, filter_of_distinct (fun b => ?_) hdistinct⟩
    rw [hasId_iff.mp hr, ← hasId_iff, Bool.not_eq_false']

/-- An update that renames its rule is seen to. -/
theorem keepsId_of_lawful {request : RuleRequest} (h : Lawful rules request) : KeepsId rules request := by
  cases request with
  | create uuid rule => trivial
  | delete id => trivial
  | update id updates =>
    rintro ⟨r, hmem, hr⟩
    obtain ⟨before, after, rfl⟩ := List.append_of_mem hmem
    obtain ⟨r', hserved, hr'⟩ := h.effect.1 before r after rfl hr
    rw [serveRule_update h.before hr, List.append_cancel_left_eq, List.cons.injEq] at hserved
    rw [← hserved.1] at hr'
    exact (spread_id hr).mp hr'

end Requests

/-! ### Every run -/

/-- The ids of the rules are texts, all distinct, and none of them is still to be drawn. -/
structure Sound (pending : List String) (rules : List StoredRule) : Prop where
  distinct : Distinct (fun r => r "id") rules
  fresh : ∀ r ∈ rules, ∃ id, hasId id r = true ∧ id ∉ pending

/-- A request that keeps the ids. -/
theorem Sound.serve {request : RuleRequest} {requests : List RuleRequest} {rules : List StoredRule}
    (h : Sound (uuids (request :: requests)) rules) (hdrawn : (uuids (request :: requests)).Nodup)
    (hkeeps : KeepsId rules request) : Sound (uuids requests) (serveRule rules request) := by
  cases request with
  | create uuid rule =>
    obtain ⟨hnew, -⟩ := List.nodup_cons.mp hdrawn
    have hid : hasId uuid (newRule uuid rule.properties) = true := hasId_iff.mpr rfl
    refine ⟨distinct_concat h.distinct fun hmem => ?_, fun r hr => ?_⟩
    · obtain ⟨r, hr, hsame⟩ := List.mem_map.mp hmem
      obtain ⟨id, hrid, hfresh⟩ := h.fresh r hr
      rw [hasId_iff.mp hrid, hasId_iff.mp hid] at hsame
      cases hsame
      exact hfresh List.mem_cons_self
    · rcases List.mem_append.mp hr with hold | hlast
      · obtain ⟨id, hrid, hfresh⟩ := h.fresh r hold
        exact ⟨id, hrid, fun hmem => hfresh (List.mem_cons_of_mem _ hmem)⟩
      · rw [List.mem_singleton.mp hlast]
        exact ⟨uuid, hid, hnew⟩
  | update id updates =>
    by_cases hfound : ∃ r ∈ rules, hasId id r = true
    · obtain ⟨r, hmem, hr⟩ := hfound
      have hkept := hkeeps ⟨r, hmem, hr⟩
      obtain ⟨before, after, rfl⟩ := List.append_of_mem hmem
      have hid := (spread_id hr).mpr hkept
      rw [serveRule_update h.distinct hr]
      refine ⟨distinct_replace h.distinct ((hasId_iff.mp hid).trans (hasId_iff.mp hr).symm), fun r' hr' => ?_⟩
      rcases List.mem_append.mp hr' with hbefore | hrest
      · exact h.fresh r' (List.mem_append_left _ hbefore)
      · rcases List.mem_cons.mp hrest with rfl | hafter
        · obtain ⟨id', hid', hfresh⟩ := h.fresh r hmem
          cases (hasId_iff.mp hid').symm.trans (hasId_iff.mp hr)
          exact ⟨id, hid, hfresh⟩
        · exact h.fresh r' (List.mem_append_right _ (List.mem_cons_of_mem _ hafter))
    · rw [serveRule_update_missing fun r hr => eq_false_of_ne_true fun hid => hfound ⟨r, hr, hid⟩]
      exact ⟨h.distinct, h.fresh⟩
  | delete id => exact ⟨distinct_filter h.distinct _, fun r hr => h.fresh r (List.mem_of_mem_filter hr)⟩

/-- One request after another. -/
def serveStep (rules : List StoredRule) (request : RuleRequest) : Option (List StoredRule) :=
  some (serveRule rules request)

/-- A run that keeps the ids is lawful, from sound rules on. -/
theorem lawful_of_sound {requests : List RuleRequest} {rules : List StoredRule} (h : Sound (uuids requests) rules)
    (hdrawn : (uuids requests).Nodup) (hkeeps : Throughout serveStep KeepsId rules requests) :
    Throughout serveStep Lawful rules requests := by
  induction requests generalizing rules with
  | nil => trivial
  | cons request requests ih =>
    have hnext := h.serve hdrawn hkeeps.1
    refine ⟨⟨h.distinct, hnext.distinct, effect_of_keepsId h.distinct hkeeps.1⟩, fun rules' hserved => ?_⟩
    cases hserved
    have hrest : (uuids requests).Nodup := by
      cases request with
      | create uuid rule => exact (List.nodup_cons.mp hdrawn).2
      | update id updates => exact hdrawn
      | delete id => exact hdrawn
    exact ih hnext hrest (hkeeps.2 _ rfl)

/-- **The exact condition.**  In every run of requests with any bodies, from the rules of a service that has just
started, all ids are distinct in every state, every update changes the rule of its id only and leaves it there, and
every deletion takes out the one rule that was shown, iff no update gives the rule that it finds another id. -/
theorem rules_lawful_iff (requests : List RuleRequest)
    (huuids : (DEFAULT_ALERT_RULES.map AlertRule.id ++ uuids requests).Nodup) :
    (Distinct (fun r => r "id") initialRules ∧ Throughout serveStep Lawful initialRules requests) ↔
      Throughout serveStep KeepsId initialRules requests := by
  constructor
  · intro h
    exact h.2.mono fun rules request => keepsId_of_lawful
  · intro hkeeps
    obtain ⟨hids, hdrawn, hapart⟩ := List.nodup_append'.mp huuids
    have hsome : initialRules.map (fun r => r "id")
        = (DEFAULT_ALERT_RULES.map AlertRule.id).map fun id => some (Json.str id) := rfl
    have hsound : Sound (uuids requests) initialRules := by
      refine ⟨?_, fun r hr => ?_⟩
      · unfold Distinct
        rw [hsome]
        exact hids.map fun a b hab => by cases hab; rfl
      · obtain ⟨rule, hrule, rfl⟩ := List.mem_map.mp hr
        exact ⟨rule.id, hasId_iff.mpr rfl, fun hmem => hapart (List.mem_map_of_mem hrule) hmem⟩
    exact ⟨hsound.distinct, lawful_of_sound hsound hdrawn hkeeps⟩

/-! ### A rule of another's id -/

/-- A run with a new rule, an update of it that names its id, and its deletion. -/
theorem rules_lawful_iff_own :
    (Distinct (fun r => r "id") initialRules ∧ Throughout serveStep Lawful initialRules
        [.create "f81d" (.object [("id", .str "1")]), .update "f81d" (.object [("id", .str "f81d")]), .delete "f81d"]) ↔
      Throughout serveStep KeepsId initialRules
        [.create "f81d" (.object [("id", .str "1")]), .update "f81d" (.object [("id", .str "f81d")]), .delete "f81d"] :=
  rules_lawful_iff _ (by decide)

/-- The second rule is given the id of the first; deleting that one deletes both. -/
def renamingRequests : List RuleRequest := [.update "2" (.object [("id", .str "1")]), .delete "1"]

/-- **One deletion takes out two rules.** -/
theorem renamed_rules :
    (initialRules.map fun r => r "id") = ["1", "2", "3", "4"].map (fun id => some (.str id)) ∧
    ((serveRule (serveRule initialRules (.update "2" (.object [("id", .str "1")]))) (.delete "1")).map fun r => r "id")
      = [some (.str "3"), some (.str "4")] ∧
    ¬ (Distinct (fun r => r "id") initialRules ∧ Throughout serveStep Lawful initialRules renamingRequests) := by
  refine ⟨rfl, rfl, fun h => ?_⟩
  have hkeeps := keepsId_of_lawful h.2.1
  rcases hkeeps ⟨_, List.mem_cons_of_mem _ List.mem_cons_self, rfl⟩ with hnone | hsame
  · cases hnone
  · have hid : (some (.str "1") : Option (Json ℚ)) = some (.str "2") := hsame
    simp at hid

end EdgeSphere.Notification
