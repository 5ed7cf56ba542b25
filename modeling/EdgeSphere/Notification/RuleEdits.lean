import EdgeSphere.Library.LiveArray
import EdgeSphere.Notification.Rules

/-!
# Rules edited during a check

`checkAlerts` goes through `this.rules` and awaits between one rule and the next.  In the meantime requests come in:
`createRule` and `updateRule` write to the array that the loop goes through, `deleteRule` puts another in its place.

* `AlertsService.step` — a request, a check that starts, and the turns of the checks, in any order;
* `check_looks_at` — **what a check looks at next**: the rules of its start, with the edits up to the first deletion;
* `every_rule_once` — **a check that ends has looked at every rule once** that was there when it began or was created
  before the first deletion, whatever became of it, and at no other.
-/

namespace EdgeSphere.Notification

open EdgeSphere.Library
open EdgeSphere.Library.Keyed
open EdgeSphere.Library.LiveArray
open EdgeSphere.Library.Runs

/-! ### The service -/

/-- What a request does to the array of the rules: `push` and an assignment write to it, `filter` makes another. -/
def RuleRequest.change : RuleRequest → Change StoredRule
  | .create uuid rule => .edit fun rules => (createRule uuid rule rules).1
  | .update id updates => .edit fun rules =>
    match updateRule id updates rules with
    | .ok updated => updated.1
    | .error _ => rules
  | .delete id => .replace (deleteRule id)

theorem change_value (rules : List StoredRule) (r : RuleRequest) : r.change.value rules = serveRule rules r := by
  cases r with
  | create uuid rule => rfl
  | update id updates => rfl
  | delete id => rfl

/-- What a check is about: its next rule, the answer of the analytics-service, the channels of an alert, or nothing. -/
inductive CheckPhase where
  | looping
  | asking
  | dispatching
  | ended
  deriving DecidableEq

structure RunningCheck where
  loop : Loop StoredRule
  phase : CheckPhase

/-- `rule.enabled`, as `if` takes it. -/
def isEnabled (rule : StoredRule) : Bool := (rule "enabled").any Json.truthy

/-- The head of the loop's body; `debounced` is what the memory says of the rule. -/
def RunningCheck.turn (c : RunningCheck) (debounced : Bool) : Option StoredRule → RunningCheck
  | none => { c with phase := .ended }
  | some rule => ⟨c.loop.advance rule, if !isEnabled rule || debounced then .looping else .asking⟩

/-- The rules, and the checks that were started. -/
structure AlertsService (κ : Type) where
  rules : Slot StoredRule
  checks : κ → Option RunningCheck

inductive ServiceEvent (κ : Type) where
  | request (r : RuleRequest)
  | start (check : κ)
  | turn (check : κ) (debounced : Bool)
  /-- The summary has come, or an error; an alert is recorded if the rule is triggered. -/
  | answered (check : κ) (triggered : Bool)
  | dispatched (check : κ)

namespace AlertsService

variable {κ : Type} [DecidableEq κ]

def initial : AlertsService κ := ⟨⟨[], initialRules⟩, fun _ => none⟩

/-- Go on with a check that is in a phase. -/
def resume (s : AlertsService κ) (i : κ) (phase : CheckPhase) (f : RunningCheck → RunningCheck) :
    Option (AlertsService κ) :=
  match s.checks i with
  | none => none
  | some c => if c.phase = phase then some { s with checks := Function.update s.checks i (some (f c)) } else none

def step (s : AlertsService κ) : ServiceEvent κ → Option (AlertsService κ)
  | .request r => some { s with rules := s.rules.apply r.change }
  | .start i =>
    match s.checks i with
    | none => some { s with checks := Function.update s.checks i (some ⟨.start s.rules, .looping⟩) }
    | some _ => none
  | .turn i debounced => s.resume i .looping fun c => c.turn debounced (c.loop.next s.rules)
  | .answered i triggered =>
    s.resume i .asking fun c => { c with phase := if triggered then .dispatching else .looping }
  | .dispatched i => s.resume i .dispatching fun c => { c with phase := .looping }

end AlertsService

/-- The requests among the events. -/
def requestsOf {κ : Type} (es : List (ServiceEvent κ)) : List RuleRequest :=
  es.filterMap fun
    | .request r => some r
    | _ => none

theorem requestsOf_append {κ : Type} (es es' : List (ServiceEvent κ)) :
    requestsOf (es ++ es') = requestsOf es ++ requestsOf es' :=
  List.filterMap_append

/-! ### One step -/

section Steps

variable {κ : Type} [DecidableEq κ] {s t : AlertsService κ} {e : ServiceEvent κ}

open AlertsService

theorem resume_eq_some {i : κ} {phase : CheckPhase} {f : RunningCheck → RunningCheck} :
    s.resume i phase f = some t ↔ ∃ c, s.checks i = some c ∧ c.phase = phase ∧
      t = { s with checks := Function.update s.checks i (some (f c)) } := by
  unfold resume
  cases s.checks i with
  | none => simp
  | some c =>
    by_cases hphase : c.phase = phase
    · simp [hphase, eq_comm]
    · simp [hphase]

/-- How a loop may come out of a step that leaves the rules alone. -/
def Onward (v : Slot StoredRule) (l l' : Loop StoredRule) : Prop :=
  l' = l ∨ ∃ rule, l.next v = some rule ∧ l' = l.advance rule

/-- **What a step does**: a request changes the rules only; any other event leaves them alone, and each check's loop
where it is or one rule further. -/
theorem step_cases (hstep : s.step e = some t) :
    (∃ r, e = .request r ∧ t.rules = s.rules.apply r.change ∧ t.checks = s.checks) ∨
      (requestsOf [e] = [] ∧ t.rules = s.rules ∧
        ∀ i c, s.checks i = some c → ∃ c', t.checks i = some c' ∧ Onward s.rules c.loop c'.loop) := by
  have hresumed : ∀ (i : κ) (c c' : RunningCheck), s.checks i = some c → Onward s.rules c.loop c'.loop →
      ∀ j d, s.checks j = some d → ∃ d', Function.update s.checks i (some c') j = some d' ∧
        Onward s.rules d.loop d'.loop := by
    intro i c c' hc honward j d hd
    by_cases hj : j = i
    · subst hj
      rw [hc] at hd
      cases hd
      exact ⟨c', Function.update_self j _ _, honward⟩
    · exact ⟨d, by rwa [Function.update_of_ne hj], .inl rfl⟩
  cases e with
  | request r =>
    cases hstep
    exact .inl ⟨r, rfl, rfl, rfl⟩
  | start i =>
    unfold AlertsService.step at hstep
    dsimp only at hstep
    split at hstep
    · rename_i hnone
      cases hstep
      refine .inr ⟨rfl, rfl, fun j d hd => ⟨d, ?_, .inl rfl⟩⟩
      have hj : j ≠ i := by
        rintro rfl
        rw [hnone] at hd
        cases hd
      exact (Function.update_of_ne hj _ s.checks).trans hd
    · cases hstep
  | turn i debounced =>
    obtain ⟨c, hc, -, rfl⟩ := resume_eq_some.mp hstep
    refine .inr ⟨rfl, rfl, hresumed i c _ hc ?_⟩
    cases hnext : c.loop.next s.rules with
    | none => exact .inl rfl
    | some rule => exact .inr ⟨rule, hnext, rfl⟩
  | answered i triggered =>
    obtain ⟨c, hc, -, rfl⟩ := resume_eq_some.mp hstep
    exact .inr ⟨rfl, rfl, hresumed i c _ hc (.inl rfl)⟩
  | dispatched i =>
    obtain ⟨c, hc, -, rfl⟩ := resume_eq_some.mp hstep
    exact .inr ⟨rfl, rfl, hresumed i c _ hc (.inl rfl)⟩

end Steps

/-! ### Runs -/

section Runs

variable {κ : Type} [DecidableEq κ] {s t : AlertsService κ} {es : List (ServiceEvent κ)} {i : κ}

/-- What the service has made of its array after requests. -/
def changed (rules : Slot StoredRule) (rs : List RuleRequest) : Slot StoredRule :=
  (rs.map RuleRequest.change).foldl Slot.apply rules

theorem changed_append (rules : Slot StoredRule) (rs rs' : List RuleRequest) :
    changed rules (rs ++ rs') = changed (changed rules rs) rs' := by
  unfold changed
  rw [List.map_append, List.foldl_append]

/-- The rules after a run are those after its requests. -/
theorem rules_run (hrun : run AlertsService.step s es = some t) : t.rules = changed s.rules (requestsOf es) := by
  refine run_induction AlertsService.step s (fun done u => u.rules = changed s.rules (requestsOf done)) rfl
    (fun done u e u' _ ih hstep => ?_) es t hrun
  rw [requestsOf_append, changed_append, ← ih]
  rcases step_cases hstep with ⟨r, rfl, hrules, -⟩ | ⟨hnone, hrules, -⟩
  · exact hrules
  · rw [hnone]
    exact hrules

/-- The requests of a run change no key of a rule, but for new rules at the end. -/
def KeysKept {β : Type} (key : StoredRule → β) (s : AlertsService κ) : ServiceEvent κ → Prop
  | .request r => r.change.KeepsKeys key s.rules.current
  | _ => True

/-- The check goes through the array of this number. -/
def Started {β : Type} (key : StoredRule → β) (generation : ℕ) (i : κ) (t : AlertsService κ) : Prop :=
  ∃ c, t.checks i = some c ∧ c.loop.generation = generation ∧ c.loop.Faithful key t.rules

theorem Started.step {β : Type} {key : StoredRule → β} {generation : ℕ} {e : ServiceEvent κ}
    (h : Started key generation i s) (hkeys : KeysKept key s e) (hstep : s.step e = some t) :
    Started key generation i t := by
  obtain ⟨c, hc, hgeneration, hfaithful⟩ := h
  rcases step_cases hstep with ⟨r, rfl, hrules, hchecks⟩ | ⟨-, hrules, honward⟩
  · refine ⟨c, by rwa [hchecks], hgeneration, ?_⟩
    rw [hrules]
    exact hfaithful.change hkeys
  · obtain ⟨c', hc', hstays | ⟨rule, hnext, hadvance⟩⟩ := honward i c hc
    · exact ⟨c', hc', by rw [hstays]; exact hgeneration, by rw [hstays, hrules]; exact hfaithful⟩
    · refine ⟨c', hc', by rw [hadvance]; exact hgeneration, ?_⟩
      rw [hadvance, hrules]
      exact hfaithful.advance hnext

/-- **A check has looked at its rules in order**, whatever came between. -/
theorem started_run {β : Type} {key : StoredRule → β} (hrun : run AlertsService.step s (.start i :: es) = some t)
    (hkeys : Throughout AlertsService.step (KeysKept key) s (.start i :: es)) :
    Started key s.rules.past.length i t := by
  rw [run_cons, Option.bind_eq_some_iff] at hrun
  obtain ⟨u, hstart, hrest⟩ := hrun
  have hstarted : Started key s.rules.past.length i u := by
    unfold AlertsService.step at hstart
    dsimp only at hstart
    split at hstart
    · cases hstart
      exact ⟨_, Function.update_self i _ _, rfl, Loop.faithful_start key s.rules⟩
    · cases hstart
  exact run_of_throughout (fun _ _ _ h hkept hstep => h.step hkept hstep) (hkeys.2 u hstart) hrest hstarted

/-! ### What a check looks at -/

/-- An update that leaves a key of its rule alone leaves those of all rules alone. -/
theorem serveRule_update_map {β : Type} (key : StoredRule → β) {rules : List StoredRule} {id : String} {updates : Body}
    (hkey : ∀ r ∈ rules, hasId id r = true → key (spread r updates.properties) = key r) :
    (serveRule rules (.update id updates)).map key = rules.map key := by
  by_cases hfound : ∀ r ∈ rules, hasId id r = false
  · rw [serveRule_update_missing hfound]
  · cases hupdate : updateFirst (hasId id) (fun rule => spread rule updates.properties) rules with
    | none => exact absurd (updateFirst_eq_none.mp hupdate) hfound
    | some updated =>
      obtain ⟨before, r, after, rfl, hr, -, hnew, hrules⟩ := updateFirst_eq_some.mp hupdate
      have hserved : serveRule (before ++ r :: after) (.update id updates) = updated.1 := by
        show (match updateRule id updates (before ++ r :: after) with | .ok updated => updated.1 | .error _ => _) = _
        unfold updateRule
        rw [hupdate]
      have hsame := hkey r (List.mem_append_right _ List.mem_cons_self) hr
      rw [hserved, hrules, hnew, List.map_append, List.map_append, List.map_cons, List.map_cons, hsame]

omit [DecidableEq κ] in
theorem keysKept_length (s : AlertsService κ) (e : ServiceEvent κ) : KeysKept (fun _ => ()) s e := by
  cases e with
  | request r =>
    cases r with
    | create uuid rule => exact (List.prefix_append _ _).map _
    | update id updates =>
      have hsame : (serveRule s.rules.current (.update id updates)).map (fun _ => ())
          = s.rules.current.map fun _ => () := serveRule_update_map _ fun _ _ _ => rfl
      show List.map _ _ <+: List.map _ (serveRule s.rules.current (.update id updates))
      rw [hsame]
    | delete id => trivial
  | _ => trivial

/-- What becomes of the array that a check goes through. -/
theorem array_run (hrun : run AlertsService.step s (.start i :: es) = some t) :
    t.rules.array s.rules.past.length = settled s.rules.current ((requestsOf es).map RuleRequest.change) := by
  have hrules : t.rules = changed s.rules (requestsOf (.start i :: es)) := rules_run hrun
  rw [hrules]
  exact s.rules.array_foldl _

/-- Requests without a deletion leave the variable its array. -/
theorem past_changed {rs : List RuleRequest} (h : ∀ id, .delete id ∉ rs) (rules : Slot StoredRule) :
    (changed rules rs).past = rules.past := by
  induction rs generalizing rules with
  | nil => rfl
  | cons r rs ih =>
    have hrest := ih (fun id hid => h id (List.mem_cons_of_mem _ hid)) (rules.apply r.change)
    cases r with
    | create uuid rule => exact hrest
    | update id updates => exact hrest
    | delete id => exact absurd List.mem_cons_self (h id)

/-- **What a check looks at next**, in every run: the rules of its start, with the edits up to the first deletion; as
long as nothing is deleted these are the rules of the moment. -/
theorem check_looks_at (s t : AlertsService κ) (i : κ) (es : List (ServiceEvent κ))
    (hrun : run AlertsService.step s (.start i :: es) = some t) :
    ∃ c, t.checks i = some c ∧
      c.loop.next t.rules
        = (settled s.rules.current ((requestsOf es).map RuleRequest.change))[c.loop.looked.length]? ∧
      ((∀ id, .delete id ∉ requestsOf es) → c.loop.next t.rules = t.rules.current[c.loop.looked.length]?) := by
  have hkept : Throughout AlertsService.step (KeysKept fun _ => ()) s (.start i :: es) :=
    throughout_of_invariant (motive := fun _ => True) (fun s _ e _ => ⟨keysKept_length s e, fun _ _ => trivial⟩) trivial
  obtain ⟨c, hc, hgeneration, hfaithful⟩ := started_run hrun hkept
  refine ⟨c, hc, ?_, fun hnone => ?_⟩
  · unfold Loop.next
    rw [hgeneration, array_run hrun, hfaithful.length_looked]
  · have hpast : t.rules.past = s.rules.past :=
      (congrArg Slot.past (rules_run hrun)).trans (past_changed hnone s.rules)
    unfold Loop.next
    rw [hgeneration, ← hpast, t.rules.array_current, hfaithful.length_looked]

/-! ### Every rule once -/

/-- The ids of rules. -/
def ruleIds (rules : List StoredRule) : List (Option (Json ℚ)) := rules.map fun r => r "id"

/-- No request of the run gives a rule another id. -/
def KeepsIds (s : AlertsService κ) : ServiceEvent κ → Prop
  | .request r => KeepsId s.rules.current r
  | _ => True

def isDeletion : RuleRequest → Bool
  | .delete _ => true
  | _ => false

/-- The ids of the rules that are created before the first deletion. -/
def createdBeforeDeletion (rs : List RuleRequest) : List String := uuids (rs.takeWhile fun r => !isDeletion r)

theorem ruleIds_update {rules : List StoredRule} {id : String} {updates : Body}
    (hkeeps : KeepsId rules (.update id updates)) : ruleIds (serveRule rules (.update id updates)) = ruleIds rules := by
  refine serveRule_update_map _ fun r hr hid => ?_
  have hsame := (spread_id hid).mpr (hkeeps ⟨r, hr, hid⟩)
  exact (hasId_iff.mp hsame).trans (hasId_iff.mp hid).symm

omit [DecidableEq κ] in
theorem KeepsIds.keysKept {e : ServiceEvent κ} (h : KeepsIds s e) : KeysKept (fun r => r "id") s e := by
  cases e with
  | request r =>
    cases r with
    | create uuid rule => exact (List.prefix_append _ _).map _
    | update id updates =>
      show List.map _ _ <+: ruleIds (serveRule s.rules.current (.update id updates))
      rw [ruleIds_update h]
      exact List.prefix_refl _
    | delete id => trivial
  | _ => trivial

theorem uuids_suffix (r : RuleRequest) (rs : List RuleRequest) : uuids rs <:+ uuids (r :: rs) := by
  cases r with
  | create uuid rule => exact List.suffix_cons _ _
  | update id updates => exact List.suffix_refl _
  | delete id => exact List.suffix_refl _

theorem createdBeforeDeletion_sublist (rs : List RuleRequest) : (createdBeforeDeletion rs).Sublist (uuids rs) := by
  induction rs with
  | nil => exact List.Sublist.refl _
  | cons r rs ih =>
    cases r with
    | create uuid rule => exact ih.cons_cons uuid
    | update id updates => exact ih
    | delete id => exact List.nil_sublist _

/-- Events that are no requests leave the rules alone. -/
theorem rules_of_step {m : AlertsService κ} {e : ServiceEvent κ} (hstep : s.step e = some m) :
    (∃ r, e = .request r ∧ m.rules = s.rules.apply r.change) ∨ (requestsOf [e] = [] ∧ m.rules = s.rules) := by
  rcases step_cases hstep with ⟨r, he, hrules, -⟩ | ⟨hnone, hrules, -⟩
  · exact .inl ⟨r, he, hrules⟩
  · exact .inr ⟨hnone, hrules⟩

/-- The ids of a check's array: those of its start, and those that were created before the first deletion. -/
theorem ruleIds_settled (hrun : run AlertsService.step s es = some t)
    (hkeeps : Throughout AlertsService.step KeepsIds s es) :
    ruleIds (settled s.rules.current ((requestsOf es).map RuleRequest.change))
      = ruleIds s.rules.current ++ (createdBeforeDeletion (requestsOf es)).map fun id => some (.str id) := by
  induction es generalizing s with
  | nil => exact (List.append_nil _).symm
  | cons e es ih =>
    rw [run_cons, Option.bind_eq_some_iff] at hrun
    obtain ⟨m, hm, hrest⟩ := hrun
    have hnext := ih hrest (hkeeps.2 m hm)
    have hrequests : requestsOf (e :: es) = requestsOf [e] ++ requestsOf es := requestsOf_append [e] es
    rcases rules_of_step hm with ⟨r, rfl, hrules⟩ | ⟨hnone, hrules⟩
    · rw [hrules, Slot.apply_current, change_value] at hnext
      cases r with
      | create uuid rule =>
        rw [show ruleIds (serveRule s.rules.current (.create uuid rule)) = ruleIds s.rules.current ++ [some (.str uuid)]
          from List.map_append, List.append_assoc] at hnext
        exact hnext
      | update id updates =>
        rw [ruleIds_update hkeeps.1] at hnext
        exact hnext
      | delete id => exact (List.append_nil _).symm
    · rw [hrequests, hnone, List.nil_append, ← hrules]
      exact hnext

/-- The invariant of the rules, along a run of the service. -/
theorem sound_run {later : List RuleRequest} (h : Sound (uuids (requestsOf es ++ later)) s.rules.current)
    (hdrawn : (uuids (requestsOf es ++ later)).Nodup) (hkeeps : Throughout AlertsService.step KeepsIds s es)
    (hrun : run AlertsService.step s es = some t) : Sound (uuids later) t.rules.current ∧ (uuids later).Nodup := by
  induction es generalizing s with
  | nil =>
    cases hrun
    exact ⟨h, hdrawn⟩
  | cons e es ih =>
    rw [run_cons, Option.bind_eq_some_iff] at hrun
    obtain ⟨m, hm, hrest⟩ := hrun
    have hrequests : requestsOf (e :: es) = requestsOf [e] ++ requestsOf es := requestsOf_append [e] es
    rw [hrequests] at h hdrawn
    rcases rules_of_step hm with ⟨r, rfl, hrules⟩ | ⟨hnone, hrules⟩
    · have hserved : Sound (uuids (requestsOf es ++ later)) m.rules.current := by
        rw [hrules, Slot.apply_current, change_value]
        exact h.serve hdrawn hkeeps.1
      exact ih hserved (hdrawn.sublist (uuids_suffix r _).sublist) (hkeeps.2 m hm) hrest
    · rw [hnone, List.nil_append] at h hdrawn
      rw [← hrules] at h
      exact ih h hdrawn (hkeeps.2 m hm) hrest

/-- The rules of a service that has just started. -/
theorem sound_initialRules {rs : List RuleRequest} (huuids : (DEFAULT_ALERT_RULES.map AlertRule.id ++ uuids rs).Nodup) :
    Sound (uuids rs) initialRules := by
  obtain ⟨hids, -, hapart⟩ := List.nodup_append'.mp huuids
  refine ⟨?_, fun r hr => ?_⟩
  · have hsome : initialRules.map (fun r => r "id")
        = (DEFAULT_ALERT_RULES.map AlertRule.id).map fun id => some (Json.str id) := rfl
    unfold Distinct
    rw [hsome]
    exact hids.map fun a b hab => by cases hab; rfl
  · obtain ⟨rule, hrule, rfl⟩ := List.mem_map.mp hr
    exact ⟨rule.id, hasId_iff.mpr rfl, fun hmem => hapart (List.mem_map_of_mem hrule) hmem⟩

/-- Sound rules and those that are still to be created have ids of their own. -/
theorem Sound.nodup {rs : List RuleRequest} {rules : List StoredRule} (h : Sound (uuids rs) rules)
    (hdrawn : (uuids rs).Nodup) :
    (ruleIds rules ++ (createdBeforeDeletion rs).map fun id => (some (.str id) : Option (Json ℚ))).Nodup := by
  have hsublist := createdBeforeDeletion_sublist rs
  refine List.nodup_append'.mpr ⟨h.distinct, ?_, fun id hold hnew => ?_⟩
  · exact (hdrawn.sublist hsublist).map fun a b hab => by cases hab; rfl
  · obtain ⟨r, hr, rfl⟩ := List.mem_map.mp hold
    obtain ⟨uuid, huuid, heq⟩ := List.mem_map.mp hnew
    obtain ⟨own, hown, hfresh⟩ := h.fresh r hr
    have hsame : (some (.str uuid) : Option (Json ℚ)) = some (.str own) := heq.trans (hasId_iff.mp hown)
    cases hsame
    exact hfresh (hsublist.subset huuid)

/-- **Every rule once.**  In every run whose updates keep the ids, a check that ends has looked at each rule once that
was there when it began, whether it was updated or deleted meanwhile, at each that was created before the first
deletion, and at no other. -/
theorem every_rule_once (es₀ es : List (ServiceEvent κ)) (i : κ) (debounced : Bool) (s t u : AlertsService κ)
    (huuids : (DEFAULT_ALERT_RULES.map AlertRule.id ++ uuids (requestsOf (es₀ ++ es))).Nodup)
    (hkeeps : Throughout AlertsService.step KeepsIds .initial (es₀ ++ .start i :: es))
    (hbegin : run AlertsService.step .initial es₀ = some s) (hrun : run AlertsService.step s (.start i :: es) = some t)
    (hturn : t.step (.turn i debounced) = some u) (hended : ∃ c, u.checks i = some c ∧ c.phase = .ended) :
    ∃ c, u.checks i = some c ∧
      ruleIds c.loop.looked
        = ruleIds s.rules.current ++ (createdBeforeDeletion (requestsOf es)).map (fun id => some (.str id)) ∧
      (ruleIds c.loop.looked).Nodup := by
  obtain ⟨hbefore, hafter⟩ := throughout_append.mp hkeeps
  have hlater := hafter s hbegin
  obtain ⟨c, hc, hgeneration, hfaithful⟩ := started_run hrun (hlater.mono fun _ _ h => KeepsIds.keysKept h)
  obtain ⟨c', hc', hphase, rfl⟩ := resume_eq_some.mp hturn
  cases hc.symm.trans hc'
  have hlast : c.loop.next t.rules = none := by
    obtain ⟨d, hd, hdended⟩ := hended
    have hself : c.turn debounced (c.loop.next t.rules) = d :=
      Option.some.inj ((Function.update_self i _ t.checks).symm.trans hd)
    cases hnext : c.loop.next t.rules with
    | none => rfl
    | some rule =>
      rw [hnext] at hself
      subst hself
      have hnot : (c.turn debounced (some rule)).phase ≠ .ended := by
        show (if !isEnabled rule || debounced then CheckPhase.looping else CheckPhase.asking) ≠ .ended
        split
        · exact CheckPhase.noConfusion
        · exact CheckPhase.noConfusion
      exact absurd hdended hnot
  have hlooked : ruleIds c.loop.looked
      = ruleIds s.rules.current ++ (createdBeforeDeletion (requestsOf es)).map fun id => some (.str id) := by
    have hall := hfaithful.ended hlast
    have hids := ruleIds_settled hrun hlater
    rw [hgeneration, array_run hrun] at hall
    exact hall.trans hids
  rw [requestsOf_append] at huuids
  obtain ⟨hsound, hdrawn⟩ := sound_run (sound_initialRules huuids) (List.nodup_append'.mp huuids).2.1 hbefore hbegin
  refine ⟨_, Function.update_self i _ _, ?_⟩
  rw [hlast]
  refine ⟨hlooked, ?_⟩
  show (ruleIds c.loop.looked).Nodup
  rw [hlooked]
  exact hsound.nodup hdrawn

end Runs

/-! ### Edits during a check -/

/-- One rule is looked at; then the next one is deleted. -/
def deletedNext : List (ServiceEvent Unit) := [.turn () false, .request (.delete "2"), .answered () false]

/-- **The deleted rule is looked at**, though it is listed no more. -/
theorem check_looks_at_deleted : ∃ (t : AlertsService Unit) (c : RunningCheck),
    run AlertsService.step .initial (.start () :: deletedNext) = some t ∧ t.checks () = some c ∧
      (c.loop.next t.rules).bind (fun r => r "id") = some (.str "2") ∧
      ∀ r ∈ t.rules.current, hasId "2" r = false := by
  obtain ⟨t, hrun, ht⟩ := Option.map_eq_some_iff.mp
    (show (run AlertsService.step AlertsService.initial (.start () :: deletedNext)).map
        (fun t => ((t.checks ()).map fun c => c.loop.looked.length, t.rules.current.all fun r => !hasId "2" r))
      = some (some 1, true) by decide +kernel)
  obtain ⟨hlooked, hlisted⟩ := Prod.mk.inj ht
  obtain ⟨c, hc, hnext, -⟩ := check_looks_at .initial t () deletedNext hrun
  rw [hc] at hlooked
  have hone : c.loop.looked.length = 1 := Option.some.inj hlooked
  rw [hone] at hnext
  refine ⟨t, c, hrun, hc, ?_, fun r hr => ?_⟩
  · rw [hnext]
    rfl
  · have hother := List.all_eq_true.mp hlisted r hr
    rwa [Bool.not_eq_true'] at hother

/-- A rule is created, another is deleted, and a third disabled, while a check is asking about the first. -/
def editedCheck : List (ServiceEvent Unit) :=
  [.turn () false, .request (.create "5af0" (.object [("name", .str "spike")])), .request (.delete "4"),
    .request (.update "3" (.object [("enabled", .bool false)])), .answered () false, .turn () true, .turn () false,
    .answered () true, .dispatched (), .turn () false, .answered () false, .turn () true]

theorem every_rule_once_edited : ∃ (u : AlertsService Unit) (c : RunningCheck),
    run AlertsService.step .initial (.start () :: editedCheck ++ [.turn () false]) = some u ∧ u.checks () = some c ∧
      ruleIds c.loop.looked = ["1", "2", "3", "4", "5af0"].map (fun id => some (.str id)) := by
  obtain ⟨u, hrun, hphase⟩ := Option.map_eq_some_iff.mp
    (show (run AlertsService.step AlertsService.initial (.start () :: editedCheck ++ [.turn () false])).map
        (fun u => (u.checks ()).map RunningCheck.phase)
      = some (some .ended) by decide +kernel)
  obtain ⟨t, ht, hturn⟩ := (run_snoc_eq_some _ _ _ _ _).mp hrun
  have hkeeps : Throughout AlertsService.step KeepsIds .initial ([] ++ .start () :: editedCheck) := by
    refine throughout_of_invariant (motive := fun _ => True) (fun s _ e he => ⟨?_, fun _ _ => trivial⟩) trivial
    cases e with
    | request r =>
      cases r with
      | update id updates =>
        have hbody : RuleRequest.update id updates = .update "3" (.object [("enabled", .bool false)]) := by
          simpa [editedCheck] using he
        cases hbody
        exact fun _ => .inl rfl
      | create uuid rule => trivial
      | delete id => trivial
    | _ => trivial
  obtain ⟨c, hc, hids, -⟩ := every_rule_once [] editedCheck () false .initial t u (by decide) hkeeps rfl ht hturn
    (Option.map_eq_some_iff.mp hphase)
  exact ⟨u, c, hrun, hc, hids⟩

end EdgeSphere.Notification
