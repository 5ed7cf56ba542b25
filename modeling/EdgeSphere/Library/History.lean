import EdgeSphere.Library.Runs
import Mathlib

/-!
# Histories

What a state remembers of the events that led to it.

* `trail` — the steps of a run, each with the events before it and the state that it finds;
* `switched`, `switched_iff` — a switch is on iff the last event that sets it sets it on;
* `Covers` — a buffer from which old items are dropped still has all items from some time on:
  `Covers.push`, `Covers.trim`.
-/

namespace EdgeSphere.Library.Runs

variable {σ ε α : Type*}

/-! ### The steps of a run -/

theorem run_singleton (step : σ → ε → Option σ) (s : σ) (e : ε) : run step s [e] = step s e := by
  rw [run_cons]
  exact Option.bind_fun_some (step s e)

/-- The steps of a run after `done`. -/
def trailFrom (step : σ → ε → Option σ) : List ε → σ → List ε → List (List ε × σ × ε)
  | _, _, [] => []
  | done, s, e :: es => (done, s, e) :: ((step s e).map fun s' => trailFrom step (done ++ [e]) s' es).getD []

/-- The steps of a run, each with the events before it and the state that it finds. -/
def trail (step : σ → ε → Option σ) (s : σ) (es : List ε) : List (List ε × σ × ε) := trailFrom step [] s es

@[simp] theorem trail_nil (step : σ → ε → Option σ) (s : σ) : trail step s [] = [] := rfl

theorem trailFrom_snoc {step : σ → ε → Option σ} {done es : List ε} {s m : σ} (h : run step s es = some m) (e : ε) :
    trailFrom step done s (es ++ [e]) = trailFrom step done s es ++ [(done ++ es, m, e)] := by
  induction es generalizing done s with
  | nil =>
    cases h
    rw [List.append_nil]
    show (done, m, e) :: ((step m e).map fun s' => trailFrom step (done ++ [e]) s' []).getD [] = [(done, m, e)]
    cases step m e <;> rfl
  | cons first es ih =>
    obtain ⟨s', hfirst, hrest⟩ := Option.bind_eq_some_iff.mp (run_cons step s first es ▸ h)
    show (done, s, first) :: ((step s first).map fun s' => trailFrom step (done ++ [first]) s' (es ++ [e])).getD []
      = (done, s, first) :: ((step s first).map fun s' => trailFrom step (done ++ [first]) s' es).getD []
        ++ [(done ++ first :: es, m, e)]
    rw [hfirst, Option.map_some, Option.map_some, Option.getD_some, Option.getD_some, ih hrest, List.append_assoc]
    rfl

/-- One more step, in the state that the run has led to. -/
theorem trail_snoc {step : σ → ε → Option σ} {es : List ε} {s m : σ} (h : run step s es = some m) (e : ε) :
    trail step s (es ++ [e]) = trail step s es ++ [(es, m, e)] := trailFrom_snoc h e

/-! ### Switches -/

/-- A switch after one event; an event that sets it on and off sets it on. -/
def switch (on off : ε → Bool) (held : Bool) (e : ε) : Bool := on e || held && !off e

/-- A switch that is off at first. -/
def switched (on off : ε → Bool) (es : List ε) : Bool := es.foldl (switch on off) false

theorem switched_snoc (on off : ε → Bool) (es : List ε) (e : ε) :
    switched on off (es ++ [e]) = switch on off (switched on off es) e := List.foldl_concat ..

/-- **A switch is on** iff some event has set it on and none has set it off since. -/
theorem switched_iff {on off : ε → Bool} {es : List ε} : switched on off es = true ↔
    ∃ before e after, es = before ++ e :: after ∧ on e = true ∧ ∀ e' ∈ after, off e' = true → on e' = true := by
  induction es using List.reverseRecOn with
  | nil => simp [switched]
  | append_singleton es last ih =>
    rw [switched_snoc, switch, Bool.or_eq_true, Bool.and_eq_true, Bool.not_eq_true', ih]
    constructor
    · rintro (hon | ⟨⟨before, e, after, rfl, he, hafter⟩, hoff⟩)
      · exact ⟨es, last, [], rfl, hon, fun e' he' => absurd he' List.not_mem_nil⟩
      · refine ⟨before, e, after ++ [last], by rw [List.append_assoc, List.cons_append], he, fun e' he' hset => ?_⟩
        rcases List.mem_append.mp he' with he' | he'
        · exact hafter e' he' hset
        · rw [List.mem_singleton.mp he', hoff] at hset
          cases hset
    · rintro ⟨before, e, after, hsplit, he, hafter⟩
      rcases List.eq_nil_or_concat after with rfl | ⟨init, final, rfl⟩
      · obtain ⟨rfl, hlast⟩ := List.append_inj' hsplit rfl
        cases hlast
        exact .inl he
      · rw [List.concat_eq_append, ← List.cons_append, ← List.append_assoc] at hsplit
        obtain ⟨rfl, hlast⟩ := List.append_inj' hsplit rfl
        cases hlast
        by_cases hon : on last = true
        · exact .inl hon
        · have hmem : last ∈ init.concat last := List.concat_eq_append .. ▸ List.mem_append_right _ List.mem_cons_self
          refine .inr ⟨⟨before, e, init, rfl, he, fun e' he' => hafter e' ?_⟩, ?_⟩
          · rw [List.concat_eq_append]
            exact List.mem_append_left _ he'
          · exact Bool.eq_false_iff.mpr fun hoff => hon (hafter last hmem hoff)

/-! ### Buffers that drop what is old -/

variable {τ : Type*} [LinearOrder τ] {stamp : α → τ} {buffer items : List α} {since : τ}

/-- From `since` on, the buffer has all the items. -/
def Covers (stamp : α → τ) (items buffer : List α) (since : τ) : Prop :=
  ∀ cutoff, since ≤ cutoff →
    buffer.filter (fun a => decide (cutoff ≤ stamp a)) = items.filter fun a => decide (cutoff ≤ stamp a)

theorem Covers.push (h : Covers stamp items buffer since) (a : α) :
    Covers stamp (items ++ [a]) (buffer ++ [a]) since := by
  intro cutoff hcutoff
  rw [List.filter_append, List.filter_append, h cutoff hcutoff]

/-- **A cut of what is older loses nothing.** -/
theorem Covers.trim (h : Covers stamp items buffer since) {cutoff : τ} (hearlier : cutoff ≤ since) :
    Covers stamp items (buffer.filter fun a => decide (cutoff ≤ stamp a)) since := by
  intro cutoff' hcutoff'
  rw [List.filter_filter, ← h cutoff' hcutoff']
  refine List.filter_congr fun a _ => ?_
  by_cases ha : cutoff' ≤ stamp a
  · rw [decide_eq_true ha, decide_eq_true ((hearlier.trans hcutoff').trans ha), Bool.and_true]
  · rw [decide_eq_false ha, Bool.false_and]

end EdgeSphere.Library.Runs
