import EdgeSphere.Library.Faults

/-!
# Calling a program again

A program that failed half-way is run once more, from the state that the failure left behind.

* `Rethrows` — a failed command ends the program; `execOutage_fails` — so a failure during the run fails the run;
* `FailsCleanly` — a run that rejects has changed nothing, whichever command failed: `FailsCleanly.command`,
  `FailsCleanly.reads`;
* `exec_retry` — **the rule of a retry.**  A program that sets something up, failing cleanly and finding it set up when it
  comes again, and then sends one last command, can be called again after any failure: only the last command may tell
  the two runs from one.
-/

namespace EdgeSphere.Library.Program

universe u v w x

variable {C : Type u} {R : C → Type v} {ε : Type x} {α β : Type w} {σ : Type*}

/-! ### Failures that end a program -/

/-- A failed command ends the program with its error. -/
def Rethrows : Program C R ε α → Prop
  | ret _ => True
  | throw _ => True
  | call _ next => (∀ e, next (.error e) = throw e) ∧ ∀ r, Rethrows (next (.ok r))

theorem rethrows_command (c : C) : (command c : Program C R ε (R c)).Rethrows := ⟨fun _ => rfl, fun _ => trivial⟩

/-- The rule of sequencing. -/
theorem Rethrows.bind {p : Program C R ε α} {f : α → Program C R ε β} (hp : p.Rethrows) (hf : ∀ a, (f a).Rethrows) :
    (p.bind f).Rethrows := by
  induction p with
  | ret a => exact hf a
  | throw e => trivial
  | call c next ih =>
    refine ⟨fun e => ?_, fun r => ih (.ok r) (hp.2 r)⟩
    show (next (.error e)).bind f = throw e
    rw [hp.1 e]
    rfl

theorem rethrows_map (c : C) {γ : Type v} (f : R c → γ) :
    ((command c).bind fun r => (ret (f r) : Program C R ε γ)).Rethrows := (rethrows_command c).bind fun _ => trivial

section Outage

variable {handle : σ → (c : C) → σ × Except ε (R c)} {e : ε}

/-- **A failure during the run fails the run.** -/
theorem execOutage_fails {p : Program C R ε α} (hp : p.Rethrows) {n : ℕ} {s : σ} (h : n < (trace handle s p).length) :
    (execOutage handle e (some n) s p).2 = .error e := by
  induction p generalizing s n with
  | ret a => cases h
  | throw x => cases h
  | call c next ih =>
    cases n with
    | zero =>
      rw [execOutage_call_zero, hp.1 e]
      rfl
    | succ n =>
      rw [execOutage_call_succ]
      have hrest : n < (trace handle (handle s c).1 (next (handle s c).2)).length := Nat.lt_of_succ_lt_succ h
      refine ih _ ?_ hrest
      cases hanswer : (handle s c).2 with
      | ok r => exact hp.2 r
      | error x => exact (hp.1 x).symm ▸ trivial

/-- A run that returns has not met the failure. -/
theorem execOutage_returns {p : Program C R ε α} (hp : p.Rethrows) {n : Option ℕ} {s s' : σ} {a : α}
    (h : execOutage handle e n s p = (s', .ok a)) : exec handle s p = (s', .ok a) := by
  induction p generalizing s n with
  | ret b => exact h
  | throw x => exact h
  | call c next ih =>
    by_cases hfails : n = some 0
    · rw [hfails, execOutage_call_zero, hp.1 e] at h
      cases h
    · have hmeets : execOutage handle e (afterOne n) (handle s c).1 (next (handle s c).2) = (s', .ok a) := by
        unfold execOutage at h
        rw [if_neg hfails] at h
        exact h
      refine ih _ ?_ hmeets
      cases hanswer : (handle s c).2 with
      | ok r => exact hp.2 r
      | error x => exact (hp.1 x).symm ▸ trivial

end Outage

/-- Services that answer alike are told apart by no program that sends only such commands. -/
theorem exec_congr {P : C → Prop} {handle handle' : σ → (c : C) → σ × Except ε (R c)} {p : Program C R ε α}
    (hp : p.Within P) (h : ∀ s c, P c → handle' s c = handle s c) (s : σ) : exec handle' s p = exec handle s p := by
  induction p generalizing s with
  | ret a => rfl
  | throw e => rfl
  | call c next ih =>
    show exec handle' (handle' s c).1 (next (handle' s c).2) = exec handle (handle s c).1 (next (handle s c).2)
    rw [h s c hp.1]
    exact ih _ (hp.2 _) _

/-! ### Failures without effect -/

/-- When the run rejects, whichever command fails, nothing has changed. -/
def FailsCleanly (handle : σ → (c : C) → σ × Except ε (R c)) (e : ε) (p : Program C R ε α) : Prop :=
  ∀ s, RejectsIn handle e (· = s) p

section Clean

variable {handle : σ → (c : C) → σ × Except ε (R c)} {e : ε}

theorem FailsCleanly.ret (a : α) : FailsCleanly handle e (ret a : Program C R ε α) := by
  rintro s n _ s' x rfl hrejects
  cases hrejects

theorem FailsCleanly.throw (y : ε) : FailsCleanly handle e (throw y : Program C R ε α) := by
  rintro s n _ s' x rfl hrejects
  cases hrejects
  rfl

/-- A command that is refused without effect. -/
theorem FailsCleanly.command {c : C} (h : ∀ s x, (handle s c).2 = .error x → (handle s c).1 = s) :
    FailsCleanly handle e (Program.command c : Program C R ε (R c)) := by
  rintro s n _ s' x rfl hrejects
  rw [execOutage_command] at hrejects
  by_cases hfails : n = some 0
  · rw [if_pos hfails] at hrejects
    cases hrejects
    rfl
  · rw [if_neg hfails] at hrejects
    have hsame := h _ x (by rw [hrejects])
    rwa [hrejects] at hsame

/-- What reads may go before. -/
theorem FailsCleanly.reads {P : C → Prop} {p : Program C R ε α} {f : α → Program C R ε β} (hp : p.Within P)
    (hread : ∀ s c, P c → (handle s c).1 = s) (hf : ∀ a, FailsCleanly handle e (f a)) :
    FailsCleanly handle e (p.bind f) := by
  intro s
  refine RejectsIn.bind hp ?_ fun a => hf a s
  rintro t c hc rfl
  exact hread t c hc

/-- What follows may not fail. -/
theorem FailsCleanly.map {p : Program C R ε α} (hp : FailsCleanly handle e p) (f : α → β) :
    FailsCleanly handle e (p.bind fun a => Program.ret (f a)) := by
  rintro s n _ s' x rfl hrejects
  rcases execOutage_bind handle e n _ p fun a => Program.ret (f a) with ⟨t, y, hfirst, hboth⟩ | ⟨t, a, k, -, hboth⟩
  · cases hboth.symm.trans hrejects
    exact hp _ n _ _ _ rfl hfirst
  · cases hboth.symm.trans hrejects

/-! ### The retry -/

/-- **The rule of a retry.**  `first` are the services of the call that fails, `retry` those of the repeated call and
`plain` those of a call that meets no failure; they answer alike as long as something is set up.  The repeated call
ends as the undisturbed one, or both have only the last command left, in one state. -/
theorem exec_retry {P : C → Prop} {first plain retry : σ → (c : C) → σ × Except ε (R c)} {setup : Program C R ε α}
    {last : α → Program C R ε β} (hwithin : setup.Within P) (hrethrows : setup.Rethrows)
    (hfirst : ∀ s c, P c → first s c = plain s c) (hretry : ∀ s c, P c → retry s c = plain s c)
    (hclean : FailsCleanly first e setup) (hlast : ∀ a, FailsCleanly first e (last a))
    (hagain : ∀ s s' a, exec plain s setup = (s', .ok a) → exec plain s' setup = (s', .ok a))
    {n : Option ℕ} {s : σ} {x : ε} (hfails : (execOutage first e n s (setup.bind last)).2 = .error x) :
    exec retry (execOutage first e n s (setup.bind last)).1 (setup.bind last) = exec plain s (setup.bind last) ∨
      ∃ s' a, exec plain s setup = (s', .ok a) ∧ exec plain s (setup.bind last) = exec plain s' (last a) ∧
        exec retry (execOutage first e n s (setup.bind last)).1 (setup.bind last) = exec retry s' (last a) := by
  have hsame : ∀ t, exec retry t setup = exec plain t setup := exec_congr hwithin hretry
  have hreached : ∀ t t' a, exec plain t setup = (t', .ok a) →
      exec plain t (setup.bind last) = exec plain t' (last a) ∧
        exec retry t (setup.bind last) = exec retry t' (last a) := by
    intro t t' a hset
    rw [exec_bind, exec_bind, hsame, hset]
    exact ⟨rfl, rfl⟩
  rcases execOutage_bind first e n s setup last with ⟨t, y, hset, hboth⟩ | ⟨t, a, k, hset, hboth⟩
  · -- nothing was set up: the repeated call starts where the first did
    have hleft : t = s := hclean s n s t y rfl hset
    subst hleft
    rw [hboth]
    cases hplain : exec plain t setup with
    | mk t' out =>
      cases out with
      | error z =>
        refine .inl ?_
        rw [exec_bind, exec_bind, hsame, hplain]
      | ok a => exact .inr ⟨t', a, rfl, hreached t t' a hplain⟩
  · -- everything was set up, and the last command changed nothing
    have hset' : exec plain s setup = (t, .ok a) := by
      rw [← exec_congr hwithin hfirst]
      exact execOutage_returns hrethrows hset
    have hleft : (execOutage first e n s (setup.bind last)).1 = t := by
      rw [hboth] at hfails ⊢
      exact hlast a t k t _ x rfl (Prod.ext rfl hfails)
    rw [hleft]
    exact .inr ⟨t, a, hset', (hreached s t a hset').1, (hreached t t a (hagain s t a hset')).2⟩

end Clean

end EdgeSphere.Library.Program
