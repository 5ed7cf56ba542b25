import EdgeSphere.Analytics.Consumer

/-!
# Events that share a batch

One INSERT carries all rows of a batch, and the database takes all of them or none.

* `storedAlone` — the database takes the event when it is alone in its batch;
* `Obeyed` — the database fails an INSERT exactly if it rejects one of its rows;
* `storable_stored_iff` — **every such event is stored exactly if no batch mixes such events with others**.
-/

namespace EdgeSphere.Analytics

open EdgeSphere.Library
open EdgeSphere.Library.Runs

variable {N : Type} [Zero N] [DecidableEq N]

/-! ### One INSERT -/

section Insert

variable (accepts : RequestEventRow N → Bool)

/-- The INSERT of a batch is sent, and the database takes it; `accepts` says which rows it rejects. -/
def inserts (events : List (Json N)) : Bool := (toRows events).any fun rows => rows.all accepts

/-- The event is stored when it is alone in its batch. -/
def storedAlone (event : Json N) : Bool := inserts accepts [event]

theorem storedAlone_eq (event : Json N) : storedAlone accepts event = (toRow event).any accepts := by
  unfold storedAlone inserts toRows
  rw [List.mapM_cons, List.mapM_nil]
  cases toRow event with
  | none => rfl
  | some row =>
    show (([row] : List (RequestEventRow N)).all accepts) = accepts row
    rw [List.all_cons, List.all_nil, Bool.and_true]

/-- **All or nothing**: a batch is stored exactly if each of its events would be, alone. -/
theorem inserts_eq_all (events : List (Json N)) : inserts accepts events = events.all (storedAlone accepts) := by
  induction events with
  | nil => rfl
  | cons event events ih =>
    rw [List.all_cons, ← ih, storedAlone_eq]
    unfold inserts toRows
    rw [List.mapM_cons]
    cases toRow event with
    | none => rfl
    | some row =>
      cases List.mapM toRow events with
      | none => exact (Bool.and_false _).symm
      | some rows => rfl

end Insert

/-! ### Runs -/

variable {accepts : RequestEventRow N → Bool} {handled stored lost : List (Json N)} {s s' : Consumer N}

/-- What the database answers: an INSERT fails exactly if a row of it is rejected. -/
def Obeyed (accepts : RequestEventRow N → Bool) (s : Consumer N) : ConsumerEvent → Prop
  | .settled place inserted => ∀ call, s.ingesting[place]? = some call →
    ∀ rows, toRows call.events = some rows → inserted = rows.all accepts
  | _ => True

/-- **The condition on a step.**  If it ends a call, either all of its events would be stored alone, or none of
them. -/
def Unmixed (accepts : RequestEventRow N → Bool) (s : Consumer N) : ConsumerEvent → Prop
  | .settled place _ => ∀ call, s.ingesting[place]? = some call →
    (∀ event ∈ call.events, storedAlone accepts event = true) ∨
      ∀ event ∈ call.events, storedAlone accepts event = false
  | _ => True

/-- Every handled event is in the table, in a call in progress, or in `batch`; if it is not, it would not have been
stored alone either. -/
def StoredIfStorable (accepts : RequestEventRow N → Bool) (handled : List (Json N)) (s : Consumer N) : Prop :=
  ∃ stored rejected, s.requestEvents.map some = stored.map toRow ∧
    (stored ++ rejected ++ s.inProgress ++ s.batch).Perm handled ∧
      ∀ event ∈ rejected, storedAlone accepts event = false

/-- The ledger, with what is stored. -/
structure Fate (accepts : RequestEventRow N → Bool) (handled stored lost : List (Json N)) (s : Consumer N) : Prop
    extends Ledger handled stored lost s where
  storable : ∀ event ∈ stored, storedAlone accepts event = true

/-- A call ends: its events are stored, or they are lost and not all of them are storable. -/
theorem Fate.settle (h : Fate accepts handled stored lost s) {place : ℕ} {call : IngestCall N}
    (hcall : s.ingesting[place]? = some call) {inserted : Bool}
    (hinserted : ∀ rows, toRows call.events = some rows → inserted = rows.all accepts) :
    (inserts accepts call.events = true ∧
      Fate accepts handled (stored ++ call.events) lost (s.settle place call inserted)) ∨
    inserts accepts call.events = false ∧
      Fate accepts handled stored (lost ++ call.events) (s.settle place call inserted) := by
  rcases h.toLedger.settle hcall inserted with ⟨rows, hrows, hdone, hledger⟩ | ⟨hfails, hledger⟩
  · have hall : inserts accepts call.events = true := by
      rw [inserts, hrows, Option.any_some, ← hinserted rows hrows, hdone]
    refine .inl ⟨hall, hledger, fun event hevent => ?_⟩
    rw [inserts_eq_all, List.all_eq_true] at hall
    rcases List.mem_append.mp hevent with hold | hnew
    · exact h.storable event hold
    · exact hall event hnew
  · refine .inr ⟨?_, hledger, h.storable⟩
    unfold inserts
    cases hrows : toRows call.events with
    | none => rfl
    | some rows =>
      rcases hfails with hnone | hfalse
      · rw [hrows] at hnone
        cases hnone
      · rw [Option.any_some, ← hinserted rows hrows, hfalse]

/-- A batch that is not stored meets the condition exactly if none of its events is storable. -/
theorem unmixed_of_refused {events : List (Json N)} (hrefused : inserts accepts events = false) :
    ((∀ event ∈ events, storedAlone accepts event = true) ∨ ∀ event ∈ events, storedAlone accepts event = false) ↔
      ∀ event ∈ events, storedAlone accepts event = false := by
  refine ⟨fun h => h.resolve_left fun hall => ?_, .inr⟩
  rw [inserts_eq_all, List.all_eq_true.mpr hall] at hrefused
  cases hrefused

/-- **A step** stores events, or, if it does not meet the condition, loses one that is storable. -/
theorem Fate.step {parse : List Char → Option (Json N)} {event : ConsumerEvent}
    (h : Fate accepts handled stored lost s) (hobeyed : Obeyed accepts s event)
    (hstep : s.step parse event = some s') :
    ∃ stored' lost', Fate accepts (handled ++ (event.handled parse).toList) stored' (lost ++ lost') s' ∧
      ((∀ e ∈ lost', storedAlone accepts e = false) ↔ Unmixed accepts s event) := by
  by_cases hevent : ∃ place inserted, event = .settled place inserted
  · obtain ⟨place, inserted, rfl⟩ := hevent
    obtain ⟨call, hcall, rfl⟩ := Option.map_eq_some_iff.mp hstep
    show ∃ stored' lost', Fate accepts (handled ++ []) stored' (lost ++ lost') (s.settle place call inserted) ∧ _
    rw [List.append_nil]
    have honly : Unmixed accepts s (.settled place inserted) ↔
        (∀ event ∈ call.events, storedAlone accepts event = true) ∨
          ∀ event ∈ call.events, storedAlone accepts event = false :=
      ⟨fun hunmixed => hunmixed call hcall, fun hunmixed call' hcall' => by
        cases hcall.symm.trans hcall'
        exact hunmixed⟩
    rw [honly]
    rcases h.settle hcall (hobeyed call hcall) with ⟨htaken, hfate⟩ | ⟨hrefused, hfate⟩
    · rw [inserts_eq_all, List.all_eq_true] at htaken
      exact ⟨_, [], by rw [List.append_nil]; exact hfate, fun _ => .inl htaken, fun _ e he => by cases he⟩
    · exact ⟨_, call.events, hfate, (unmixed_of_refused hrefused).symm⟩
  · have hother : ∀ place inserted, event ≠ .settled place inserted :=
      fun place inserted heq => hevent ⟨place, inserted, heq⟩
    refine ⟨stored, [], ?_, fun _ => ?_, fun _ e he => by cases he⟩
    · rw [List.append_nil]
      exact ⟨ledger_inductive.step h.toLedger hother hstep, h.storable⟩
    · cases event with
      | settled place inserted => exact absurd rfl (hother place inserted)
      | _ => trivial

/-- What a run has stored and lost. -/
theorem fate_run {parse : List Char → Option (Json N)} {es : List ConsumerEvent}
    (hobeyed : Throughout (Consumer.step parse) (Obeyed accepts) .initial es)
    (hrun : run (Consumer.step parse) .initial es = some s) :
    ∃ stored lost, Fate accepts (handledEvents parse es) stored lost s ∧
      ((∀ e ∈ lost, storedAlone accepts e = false) ↔ Throughout (Consumer.step parse) (Unmixed accepts) .initial es) := by
  refine run_induction (Consumer.step parse) .initial (fun es s =>
    Throughout (Consumer.step parse) (Obeyed accepts) .initial es → ∃ stored lost,
      Fate accepts (handledEvents parse es) stored lost s ∧ ((∀ e ∈ lost, storedAlone accepts e = false) ↔
        Throughout (Consumer.step parse) (Unmixed accepts) .initial es)) ?_ (fun es s e t hs hfate hst => ?_) es s hrun
      hobeyed
  · exact fun _ => ⟨[], [], ⟨⟨rfl, List.Perm.refl _, fun call hcall => by cases hcall⟩, fun e he => by cases he⟩,
      fun _ => trivial, fun _ e he => by cases he⟩
  · intro hobeyed
    rw [throughout_snoc hs] at hobeyed
    obtain ⟨stored, lost, hfate, hlost⟩ := hfate hobeyed.1
    obtain ⟨stored', lost', hfate', hunmixed⟩ := hfate.step hobeyed.2 hst
    refine ⟨stored', lost ++ lost', by rw [handledEvents_snoc]; exact hfate', ?_⟩
    rw [throughout_snoc hs, ← hlost, ← hunmixed]
    exact List.forall_mem_append

/-- **An event that would have been stored alone is stored, whatever shares its batch, exactly if no batch of the run
mixes such events with others.** -/
theorem storable_stored_iff (accepts : RequestEventRow N → Bool) (parse : List Char → Option (Json N))
    (es : List ConsumerEvent) (s : Consumer N)
    (hobeyed : Throughout (Consumer.step parse) (Obeyed accepts) .initial es)
    (hrun : run (Consumer.step parse) .initial es = some s) :
    StoredIfStorable accepts (handledEvents parse es) s ↔
      Throughout (Consumer.step parse) (Unmixed accepts) .initial es := by
  obtain ⟨stored, lost, hfate, hlost⟩ := fate_run hobeyed hrun
  rw [← hlost]
  constructor
  · intro ⟨stored', rejected, hrows, hperm, hrejected⟩
    -- both account for the same events, and the table has room for as many storable ones
    have hmaps : stored.map toRow = stored'.map toRow := hfate.rows.symm.trans hrows
    have hstored' : ∀ e ∈ stored', storedAlone accepts e = true := by
      intro e he
      have hmem : toRow e ∈ stored.map toRow := by
        rw [hmaps]
        exact List.mem_map_of_mem he
      obtain ⟨e', he', hsame⟩ := List.mem_map.mp hmem
      rw [storedAlone_eq, ← hsame, ← storedAlone_eq]
      exact hfate.storable e' he'
    have hlength := congrArg List.length hmaps
    rw [List.length_map, List.length_map] at hlength
    have hcount := (hfate.entries.trans hperm.symm).countP_eq (storedAlone accepts)
    simp only [List.countP_append, List.countP_eq_length.mpr hfate.storable, List.countP_eq_length.mpr hstored',
      hlength] at hcount
    have hnone : rejected.countP (storedAlone accepts) = 0 :=
      List.countP_eq_zero.mpr fun e he => by simp [hrejected e he]
    have hzero : lost.countP (storedAlone accepts) = 0 := by omega
    exact fun e he => Bool.eq_false_iff.mpr (List.countP_eq_zero.mp hzero e he)
  · exact fun hrejected => ⟨stored, lost, hfate.rows, hfate.entries, hrejected⟩

/-! ### Two batches -/

/-- A parser of `1` and `null`. -/
def oneOrNull : List Char → Option (Json ℕ)
  | ['1'] => some (.num 1)
  | ['n', 'u', 'l', 'l'] => some .null
  | _ => none

/-- The message `null`. -/
def nullMessage : ConsumerEvent := .message "request.events" (some [110, 117, 108, 108])

/-- **One `null` costs the event beside it**, though the database rejects no row. -/
theorem null_costs_event : ∃ s, run (Consumer.step oneOrNull) .initial
      [requestMessage 49, nullMessage, .tick, .settled 0 true] = some s ∧
    Throughout (Consumer.step oneOrNull) (Obeyed fun _ => true) .initial
      [requestMessage 49, nullMessage, .tick, .settled 0 true] ∧
    storedAlone (fun _ => true) (Json.num 1) = true ∧
    ¬ StoredIfStorable (fun _ => true) (handledEvents oneOrNull
      [requestMessage 49, nullMessage, .tick, .settled 0 true]) s := by
  refine ⟨_, rfl, ?_, rfl, ?_⟩
  · refine ⟨trivial, fun s hs => ⟨trivial, fun t ht => ⟨trivial, fun u hu => ⟨fun call hcall rows hrows => ?_,
      fun _ _ => trivial⟩⟩⟩⟩
    cases hs
    cases ht
    cases hu
    cases hcall
    cases hrows
  · rintro ⟨stored, rejected, hrows, hperm, hrejected⟩
    have hempty : stored = [] := List.map_eq_nil_iff.mp hrows.symm
    have hall : (stored ++ rejected ++ [] ++ []).Perm [Json.num 1, Json.null] := hperm
    rw [hempty, List.nil_append, List.append_nil, List.append_nil] at hall
    cases hrejected _ (hall.mem_iff.mpr List.mem_cons_self)

/-- Alone, the event is stored. -/
theorem storable_stored_alone : ∃ s, run (Consumer.step oneOrNull) .initial
      [requestMessage 49, .tick, .settled 0 true] = some s ∧ StoredIfStorable (fun _ => true) [.num 1] s := by
  refine ⟨_, rfl, (storable_stored_iff (fun _ => true) oneOrNull [requestMessage 49, .tick, .settled 0 true] _ ?_
    rfl).mpr ?_⟩
  · refine ⟨trivial, fun s hs => ⟨trivial, fun t ht => ⟨fun call hcall rows hrows => ?_, fun _ _ => trivial⟩⟩⟩
    cases hs
    cases ht
    cases hcall
    cases hrows
    rfl
  · refine ⟨trivial, fun s hs => ⟨trivial, fun t ht => ⟨fun call hcall => ?_, fun _ _ => trivial⟩⟩⟩
    cases hs
    cases ht
    cases hcall
    exact .inl fun event hevent => by cases List.mem_singleton.mp hevent; rfl

end EdgeSphere.Analytics
