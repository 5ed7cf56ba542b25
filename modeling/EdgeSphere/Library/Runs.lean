import Mathlib.Data.List.Induction
import Mathlib.Data.Option.Basic

/-!
# Runs of step functions

Two shapes of program are run in this development, and both are general:

* a **partial step** `σ → ε → Option σ` (an event may be disabled), executed along a schedule by
  `run`: this is the shape of interleavings, where the schedule decides who moves next;
* a **call with a reply** `σ → ε → σ × ρ`, executed one after another by `runCalls`: this is the
  shape of a service whose requests do not overlap.

For each of them the file packages the induction once: what one step preserves, a whole run
preserves (`run_induction`, `runCalls_induction`), with the events handled so far available to the
invariant as a history.  `Throughout` restricts a run to events that meet a condition.
-/

namespace EdgeSphere.Library.Runs

variable {σ ε ρ : Type*}

/-! ### Partial steps along a schedule -/

/-- Execute a schedule; `none` as soon as one of its events is not enabled. -/
def run (step : σ → ε → Option σ) : σ → List ε → Option σ
  | s, [] => some s
  | s, e :: es => (step s e).bind fun s' => run step s' es

@[simp] theorem run_nil (step : σ → ε → Option σ) (s : σ) : run step s [] = some s := rfl

theorem run_cons (step : σ → ε → Option σ) (s : σ) (e : ε) (es : List ε) :
    run step s (e :: es) = (step s e).bind fun s' => run step s' es := rfl

theorem run_append (step : σ → ε → Option σ) (s : σ) (es fs : List ε) :
    run step s (es ++ fs) = (run step s es).bind fun s' => run step s' fs := by
  induction es generalizing s with
  | nil => rfl
  | cons e es ih =>
    rw [List.cons_append, run_cons, run_cons]
    cases step s e with
    | none => rfl
    | some s' => exact ih s'

/-- A run that ends with `e` is a shorter run followed by one enabled step. -/
theorem run_snoc_eq_some (step : σ → ε → Option σ) (s t : σ) (es : List ε) (e : ε) :
    run step s (es ++ [e]) = some t ↔ ∃ m, run step s es = some m ∧ step m e = some t := by
  rw [run_append, Option.bind_eq_some_iff]
  constructor
  · rintro ⟨m, hm, ht⟩
    rw [run_cons, Option.bind_eq_some_iff] at ht
    obtain ⟨t', ht', hnil⟩ := ht
    exact ⟨m, hm, by rw [ht', ← hnil, run_nil]⟩
  · rintro ⟨m, hm, ht⟩
    exact ⟨m, hm, by rw [run_cons, ht]; rfl⟩

/-- **The run rule.**  A property of (events so far, state) that holds at the start and that every
enabled step carries along holds at the end of every run. -/
theorem run_induction (step : σ → ε → Option σ) (s₀ : σ) (motive : List ε → σ → Prop)
    (hstart : motive [] s₀)
    (hstep : ∀ es s e t, run step s₀ es = some s → motive es s → step s e = some t →
      motive (es ++ [e]) t) :
    ∀ es t, run step s₀ es = some t → motive es t := by
  intro es
  induction es using List.reverseRecOn with
  | nil =>
    intro t ht
    rw [run_nil, Option.some.injEq] at ht
    exact ht ▸ hstart
  | append_singleton es e ih =>
    intro t ht
    obtain ⟨m, hm, hlast⟩ := (run_snoc_eq_some step s₀ t es e).mp ht
    exact hstep es m e t hm (ih m hm) hlast

/-- Every prefix of a run is a run. -/
theorem run_prefix {step : σ → ε → Option σ} {s t : σ} {es fs : List ε}
    (h : run step s (es ++ fs) = some t) : ∃ m, run step s es = some m ∧ run step m fs = some t := by
  rw [run_append, Option.bind_eq_some_iff] at h
  exact h

/-! ### Runs under a condition -/

/-- Every event of the run meets `cond` in the state that it finds. -/
def Throughout (step : σ → ε → Option σ) (cond : σ → ε → Prop) : σ → List ε → Prop
  | _, [] => True
  | s, e :: es => cond s e ∧ ∀ s', step s e = some s' → Throughout step cond s' es

/-- A condition that can be decided can be tested along a run. -/
instance Throughout.decidable (step : σ → ε → Option σ) (cond : σ → ε → Prop) [∀ s e, Decidable (cond s e)] :
    (s : σ) → (es : List ε) → Decidable (Throughout step cond s es)
  | _, [] => .isTrue trivial
  | s, e :: es =>
    match hstep : step s e with
    | none => decidable_of_iff (cond s e) ⟨fun h => ⟨h, fun s' hs' => by rw [hstep] at hs'; cases hs'⟩, fun h => h.1⟩
    | some s' =>
      have : Decidable (Throughout step cond s' es) := Throughout.decidable step cond s' es
      decidable_of_iff (cond s e ∧ Throughout step cond s' es)
        ⟨fun h => ⟨h.1, fun t ht => by rw [hstep] at ht; cases ht; exact h.2⟩, fun h => ⟨h.1, h.2 s' hstep⟩⟩

/-- The rule of consequence. -/
theorem Throughout.mono {step : σ → ε → Option σ} {cond cond' : σ → ε → Prop} {es : List ε} {s : σ}
    (h : Throughout step cond s es) (himp : ∀ s e, cond s e → cond' s e) : Throughout step cond' s es := by
  induction es generalizing s with
  | nil => trivial
  | cons e es ih => exact ⟨himp s e h.1, fun s' hs' => ih (h.2 s' hs')⟩

/-- Two conditions at once. -/
theorem Throughout.and {step : σ → ε → Option σ} {cond cond' : σ → ε → Prop} {es : List ε} {s : σ}
    (h : Throughout step cond s es) (h' : Throughout step cond' s es) :
    Throughout step (fun s e => cond s e ∧ cond' s e) s es := by
  induction es generalizing s with
  | nil => trivial
  | cons e es ih => exact ⟨⟨h.1, h'.1⟩, fun s' hs' => ih (h.2 s' hs') (h'.2 s' hs')⟩

/-- The run rule under a condition: only steps that meet it have to keep the property. -/
theorem run_of_throughout {step : σ → ε → Option σ} {cond : σ → ε → Prop} {motive : σ → Prop}
    (hstep : ∀ s e t, motive s → cond s e → step s e = some t → motive t) {es : List ε} {s t : σ}
    (hcond : Throughout step cond s es) (hrun : run step s es = some t) (hstart : motive s) : motive t := by
  induction es generalizing s with
  | nil =>
    rw [run_nil, Option.some.injEq] at hrun
    exact hrun ▸ hstart
  | cons e es ih =>
    rw [run_cons, Option.bind_eq_some_iff] at hrun
    obtain ⟨m, hm, hrest⟩ := hrun
    exact ih (hcond.2 m hm) hrest (hstep s e m hstart hcond.1 hm)

/-- A condition that an invariant of these events implies. -/
theorem throughout_of_invariant {step : σ → ε → Option σ} {cond : σ → ε → Prop} {motive : σ → Prop} {es : List ε}
    (h : ∀ s, motive s → ∀ e ∈ es, cond s e ∧ ∀ t, step s e = some t → motive t) {s : σ} (hs : motive s) :
    Throughout step cond s es := by
  induction es generalizing s with
  | nil => trivial
  | cons e es ih =>
    obtain ⟨hfirst, hmove⟩ := h s hs e List.mem_cons_self
    exact ⟨hfirst, fun t ht => ih (fun s hs e he => h s hs e (List.mem_cons_of_mem _ he)) (hmove t ht)⟩

theorem throughout_append {step : σ → ε → Option σ} {cond : σ → ε → Prop} {es fs : List ε} {s : σ} :
    Throughout step cond s (es ++ fs) ↔
      Throughout step cond s es ∧ ∀ t, run step s es = some t → Throughout step cond t fs := by
  induction es generalizing s with
  | nil => simp [Throughout]
  | cons e es ih =>
    rw [List.cons_append, Throughout, Throughout]
    constructor
    · intro ⟨hfirst, hrest⟩
      refine ⟨⟨hfirst, fun m hm => (ih.mp (hrest m hm)).1⟩, fun t ht => ?_⟩
      rw [run_cons, Option.bind_eq_some_iff] at ht
      obtain ⟨m, hm, ht⟩ := ht
      exact (ih.mp (hrest m hm)).2 t ht
    · intro ⟨⟨hfirst, hrest⟩, hafter⟩
      refine ⟨hfirst, fun m hm => ih.mpr ⟨hrest m hm, fun t ht => hafter t ?_⟩⟩
      rw [run_cons, hm]
      exact ht

/-- One more event, in the state that the run has led to. -/
theorem throughout_snoc {step : σ → ε → Option σ} {cond : σ → ε → Prop} {es : List ε} {e : ε} {s m : σ}
    (hrun : run step s es = some m) :
    Throughout step cond s (es ++ [e]) ↔ Throughout step cond s es ∧ cond m e := by
  rw [throughout_append]
  constructor
  · intro ⟨hthrough, hlast⟩
    exact ⟨hthrough, (hlast m hrun).1⟩
  · intro ⟨hthrough, hlast⟩
    refine ⟨hthrough, fun t ht => ?_⟩
    cases hrun.symm.trans ht
    exact ⟨hlast, fun _ _ => trivial⟩

/-! ### Calls with replies -/

/-- Execute calls one after another, collecting their replies in order. -/
def runCalls (step : σ → ε → σ × ρ) : σ → List ε → σ × List ρ
  | s, [] => (s, [])
  | s, e :: es =>
    let next := step s e
    let rest := runCalls step next.1 es
    (rest.1, next.2 :: rest.2)

@[simp] theorem runCalls_nil (step : σ → ε → σ × ρ) (s : σ) : runCalls step s [] = (s, []) := rfl

theorem runCalls_cons (step : σ → ε → σ × ρ) (s : σ) (e : ε) (es : List ε) :
    runCalls step s (e :: es)
      = ((runCalls step (step s e).1 es).1, (step s e).2 :: (runCalls step (step s e).1 es).2) := rfl

theorem runCalls_append (step : σ → ε → σ × ρ) (s : σ) (es fs : List ε) :
    runCalls step s (es ++ fs)
      = ((runCalls step (runCalls step s es).1 fs).1,
          (runCalls step s es).2 ++ (runCalls step (runCalls step s es).1 fs).2) := by
  induction es generalizing s with
  | nil => rfl
  | cons e es ih => simp only [List.cons_append, runCalls_cons, ih]

theorem runCalls_snoc (step : σ → ε → σ × ρ) (s : σ) (es : List ε) (e : ε) :
    runCalls step s (es ++ [e])
      = ((step (runCalls step s es).1 e).1,
          (runCalls step s es).2 ++ [(step (runCalls step s es).1 e).2]) := by
  rw [runCalls_append]; rfl

@[simp] theorem runCalls_length (step : σ → ε → σ × ρ) (s : σ) (es : List ε) :
    (runCalls step s es).2.length = es.length := by
  induction es generalizing s with
  | nil => rfl
  | cons e es ih => simp only [runCalls_cons, List.length_cons, ih]

/-- **The call rule.**  An invariant of (calls so far, state) established at the start and kept by
every call whose turn is legal holds after every run of legal turns. -/
theorem runCalls_induction (step : σ → ε → σ × ρ) (s₀ : σ) (motive : List ε → σ → Prop)
    (es : List ε) (hstart : motive [] s₀)
    (hstep : ∀ done e todo s, es = done ++ e :: todo → s = (runCalls step s₀ done).1 →
      motive done s → motive (done ++ [e]) (step s e).1) :
    motive es (runCalls step s₀ es).1 := by
  induction es using List.reverseRecOn with
  | nil => exact hstart
  | append_singleton es e ih =>
    rw [runCalls_snoc]
    refine hstep es e [] _ rfl rfl (ih ?_)
    intro done e' todo s hsplit hs hm
    exact hstep done e' (todo ++ [e]) s (by rw [hsplit]; simp) hs hm

/-- The reply of the call after `done` is what that call answers in the state `done` leads to. -/
theorem runCalls_reply (step : σ → ε → σ × ρ) (s : σ) (done todo : List ε) (e : ε) :
    (runCalls step s (done ++ e :: todo)).2[done.length]? = some (step (runCalls step s done).1 e).2 := by
  rw [runCalls_append, List.getElem?_append_right (Nat.le_of_eq (runCalls_length step s done)), runCalls_length,
    Nat.sub_self]
  rfl

end EdgeSphere.Library.Runs
