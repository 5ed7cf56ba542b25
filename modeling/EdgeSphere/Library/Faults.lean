import EdgeSphere.Library.Program

/-!
# Services that fail for a while

A command can fail in two ways: it is executed and its answer is lost, or nothing of it happens.

* `lossy` — a handler that loses answers; `exec_lossy` — a program that asks for no lost answer does not notice;
* `execOutage` — the run of a program in which one command, given by its number, fails without effect;
* `RejectsIn` — what still holds when a program rejects, whichever command fails: `RejectsIn.bind`, `RejectsIn.last`.
-/

namespace EdgeSphere.Library.Program

universe u v w x

variable {C : Type u} {R : C → Type v} {ε : Type x} {α β : Type w} {σ : Type*}

/-! ### Lost answers -/

/-- Every command is executed; the answers of some are lost. -/
def lossy (lost : C → Option ε) (handle : σ → (c : C) → σ × Except ε (R c)) (s : σ) (c : C) : σ × Except ε (R c) :=
  ((handle s c).1, match lost c with | some e => .error e | none => (handle s c).2)

theorem lossy_of_none {lost : C → Option ε} {c : C} (h : lost c = none) (handle : σ → (c : C) → σ × Except ε (R c))
    (s : σ) : lossy lost handle s c = handle s c := by
  unfold lossy
  rw [h]

theorem lossy_of_some {lost : C → Option ε} {c : C} {e : ε} (h : lost c = some e)
    (handle : σ → (c : C) → σ × Except ε (R c)) (s : σ) : lossy lost handle s c = ((handle s c).1, .error e) := by
  unfold lossy
  rw [h]

/-- A program that asks for no lost answer runs as ever. -/
theorem exec_lossy {lost : C → Option ε} {P : C → Prop} {p : Program C R ε α} (hp : p.Within P)
    (hnone : ∀ c, P c → lost c = none) (handle : σ → (c : C) → σ × Except ε (R c)) (s : σ) :
    exec (lossy lost handle) s p = exec handle s p := by
  induction p generalizing s with
  | ret a => rfl
  | throw e => rfl
  | call c next ih =>
    unfold exec
    rw [lossy_of_none (hnone c hp.1)]
    exact ih _ (hp.2 _) _

/-! ### One failure -/

/-- The number of the failing command, one command later. -/
def afterOne : Option ℕ → Option ℕ
  | some (n + 1) => some n
  | _ => none

/-- Run a program; the command whose number `n` gives, counted from 0, fails with `e` and changes nothing. -/
def execOutage (handle : σ → (c : C) → σ × Except ε (R c)) (e : ε) (n : Option ℕ) (s : σ) :
    Program C R ε α → σ × Except ε α
  | ret a => (s, .ok a)
  | throw x => (s, .error x)
  | call c next =>
    let out := if n = some 0 then (s, .error e) else handle s c
    execOutage handle e (afterOne n) out.1 (next out.2)

section Outage

variable (handle : σ → (c : C) → σ × Except ε (R c)) (e : ε)

theorem execOutage_call_zero (s : σ) (c : C) (next : Except ε (R c) → Program C R ε α) :
    execOutage handle e (some 0) s (call c next) = execOutage handle e none s (next (.error e)) := rfl

theorem execOutage_call_succ (n : ℕ) (s : σ) (c : C) (next : Except ε (R c) → Program C R ε α) :
    execOutage handle e (some (n + 1)) s (call c next)
      = execOutage handle e (some n) (handle s c).1 (next (handle s c).2) := rfl

/-- A program of one command. -/
theorem execOutage_command (n : Option ℕ) (s : σ) (c : C) :
    execOutage handle e n s (command c : Program C R ε (R c)) = if n = some 0 then (s, .error e) else handle s c := by
  by_cases hfails : n = some 0
  · rw [if_pos hfails, hfails]
    rfl
  · rw [if_neg hfails]
    unfold command execOutage
    rw [if_neg hfails]
    cases handle s c with
    | mk s' r =>
      cases r with
      | ok r => rfl
      | error x => rfl

/-- **Sequencing.**  The failure falls into the first half or into the second. -/
theorem execOutage_bind (n : Option ℕ) (s : σ) (p : Program C R ε α) (f : α → Program C R ε β) :
    (∃ s' x, execOutage handle e n s p = (s', .error x) ∧ execOutage handle e n s (p.bind f) = (s', .error x)) ∨
      ∃ s' a k, execOutage handle e n s p = (s', .ok a) ∧
        execOutage handle e n s (p.bind f) = execOutage handle e k s' (f a) := by
  induction p generalizing n s with
  | ret a => exact .inr ⟨s, a, n, rfl, rfl⟩
  | throw x => exact .inl ⟨s, x, rfl, rfl⟩
  | call c next ih => exact ih _ (afterOne n) _

/-- Commands that keep an invariant keep it, failing or not. -/
theorem execOutage_invariant {P : C → Prop} {I : σ → Prop} {p : Program C R ε α} (hp : p.Within P)
    (hkeep : ∀ s c, P c → I s → I (handle s c).1) (n : Option ℕ) {s : σ} (hs : I s) :
    I (execOutage handle e n s p).1 := by
  induction p generalizing n s with
  | ret a => exact hs
  | throw x => exact hs
  | call c next ih =>
    refine ih _ (hp.2 _) (afterOne n) ?_
    by_cases hfails : n = some 0
    · rw [if_pos hfails]
      exact hs
    · rw [if_neg hfails]
      exact hkeep s c hp.1 hs

/-- Whatever command fails: when the program rejects, `I` still holds. -/
def RejectsIn (I : σ → Prop) (p : Program C R ε α) : Prop :=
  ∀ n s s' x, I s → execOutage handle e n s p = (s', .error x) → I s'

variable {handle e} {I : σ → Prop}

/-- The rule of sequencing. -/
theorem RejectsIn.bind {P : C → Prop} {p : Program C R ε α} {f : α → Program C R ε β} (hp : p.Within P)
    (hkeep : ∀ s c, P c → I s → I (handle s c).1) (hf : ∀ a, RejectsIn handle e I (f a)) :
    RejectsIn handle e I (p.bind f) := by
  intro n s s' x hs hrejects
  have hinvariant := execOutage_invariant handle e hp hkeep n hs
  rcases execOutage_bind handle e n s p f with ⟨t, y, hfirst, hboth⟩ | ⟨t, a, k, hfirst, hboth⟩
  · cases hboth.symm.trans hrejects
    rwa [hfirst] at hinvariant
  · rw [hfirst] at hinvariant
    exact hf a k t s' x hinvariant (hboth.symm.trans hrejects)

/-- A last command that never fails by itself: when the program rejects, it was not executed. -/
theorem RejectsIn.last {γ : Type v} {c : C} {a : R c → γ} (hok : ∀ s, ∃ r, (handle s c).2 = .ok r) :
    RejectsIn handle e I ((command c).bind fun r => (ret (a r) : Program C R ε γ)) := by
  intro n s s' x hs hrejects
  rcases execOutage_bind handle e n s (command c) (fun r => ret (a r)) with
    ⟨t, y, hfirst, hboth⟩ | ⟨t, r, k, -, hboth⟩
  · cases hboth.symm.trans hrejects
    rw [execOutage_command] at hfirst
    by_cases hfails : n = some 0
    · rw [if_pos hfails] at hfirst
      cases hfirst
      exact hs
    · obtain ⟨r, hr⟩ := hok s
      rw [if_neg hfails] at hfirst
      rw [hfirst] at hr
      cases hr
  · cases hboth.symm.trans hrejects

end Outage

end EdgeSphere.Library.Program
