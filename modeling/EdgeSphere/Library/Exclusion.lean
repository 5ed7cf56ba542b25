import EdgeSphere.Library.Interference

/-!
# Programs that take turns

Programs of a pool that are now and then busy with what they share, and free otherwise.  While nobody is busy the
shared state is calm; while one program is, only that program says what it is like.

* `Stages` — when a program is free, when it is busy, and when the state is calm;
* `Pool.Exclusive` — at most one program is busy;
* `Pool.Exclusive.step` — **the rule of turns**: a step keeps this if the program that it moves becomes busy only
  when no other program is.
-/

namespace EdgeSphere.Library.Program

universe u v w x

variable {C : Type u} {R : C → Type v} {ε : Type x} {α : Type w} {σ ι τ : Type*}

/-- When program `i` is free, when it is busy, and when the state is calm. -/
structure Stages (σ ι : Type*) (C : Type u) (R : C → Type v) (ε : Type x) (α : Type w) where
  free : ι → σ → Program C R ε α → Prop
  busy : ι → σ → Program C R ε α → Prop
  calm : σ → Prop
  disjoint : ∀ {i s p}, free i s p → ¬ busy i s p

/-- At most one program is busy, and the state is calm when there is none. -/
structure Pool.Exclusive (S : Stages σ ι C R ε α) (pool : Pool σ ι C R ε α) : Prop where
  stands : ∀ i, S.free i pool.state (pool.procs i) ∨ S.busy i pool.state (pool.procs i)
  alone : ∀ i j, S.busy i pool.state (pool.procs i) → S.busy j pool.state (pool.procs j) → i = j
  calm : (∀ i, ¬ S.busy i pool.state (pool.procs i)) → S.calm pool.state

variable {S : Stages σ ι C R ε α} {pool pool' : Pool σ ι C R ε α} {i : ι} {t : τ}

/-- Everybody is free. -/
theorem Pool.exclusive_of_free (hfree : ∀ i, S.free i pool.state (pool.procs i)) (hcalm : S.calm pool.state) :
    pool.Exclusive S :=
  ⟨fun i => .inl (hfree i), fun i _ hi => absurd hi (S.disjoint (hfree i)), fun _ => hcalm⟩

/-- Everybody but one program is free. -/
theorem Pool.exclusive_of_others (hothers : ∀ j, j ≠ i → S.free j pool.state (pool.procs j))
    (hi : S.busy i pool.state (pool.procs i) ∨ S.free i pool.state (pool.procs i) ∧ S.calm pool.state) :
    pool.Exclusive S := by
  have honly : ∀ j, S.busy j pool.state (pool.procs j) → j = i := fun j hj => by
    by_contra hne
    exact S.disjoint (hothers j hne) hj
  refine ⟨fun j => ?_, fun j k hj hk => (honly j hj).trans (honly k hk).symm, fun hnone => ?_⟩
  · by_cases hne : j = i
    · rw [hne]
      exact hi.symm.imp_left And.left
    · exact .inl (hothers j hne)
  · exact (hi.resolve_left (hnone i)).2

/-- A step of a free program that stays free, and that nobody notices. -/
structure Pool.Quiet (S : Stages σ ι C R ε α) (pool pool' : Pool σ ι C R ε α) (i : ι) : Prop where
  before : S.free i pool.state (pool.procs i)
  after : S.free i pool'.state (pool'.procs i)
  busy : ∀ j, j ≠ i → ∀ p, S.busy j pool.state p ↔ S.busy j pool'.state p
  calm : S.calm pool.state → S.calm pool'.state

/-- **The rule of turns.** -/
theorem Pool.Exclusive.step [DecidableEq ι] {handle : τ → σ → (c : C) → σ × Except ε (R c)} (h : pool.Exclusive S)
    (hstep : Pool.step handle pool (i, t) = some pool')
    (hfree : ∀ j, j ≠ i → ∀ p, S.free j pool.state p → S.free j pool'.state p)
    (hmove : pool.Quiet S pool' i ∨ (∀ j, j ≠ i → ¬ S.busy j pool.state (pool.procs j)) ∧
      (S.busy i pool'.state (pool'.procs i) ∨ S.free i pool'.state (pool'.procs i) ∧ S.calm pool'.state)) :
    pool'.Exclusive S := by
  obtain ⟨c, next, -, -, -, hprocs⟩ := Pool.step_cases hstep
  rcases hmove with hquiet | ⟨hnone, hi⟩
  · have hsame : ∀ j, S.busy j pool.state (pool.procs j) ↔ S.busy j pool'.state (pool'.procs j) := by
      intro j
      by_cases hji : j = i
      · rw [hji]
        exact iff_of_false (S.disjoint hquiet.before) (S.disjoint hquiet.after)
      · rw [hprocs j hji]
        exact hquiet.busy j hji _
    refine ⟨fun j => ?_, fun j k hj hk => h.alone j k ((hsame j).mpr hj) ((hsame k).mpr hk), fun hnone => ?_⟩
    · by_cases hji : j = i
      · rw [hji]
        exact .inl hquiet.after
      · refine (h.stands j).imp (fun hj => ?_) (hsame j).mp
        rw [hprocs j hji]
        exact hfree j hji _ hj
    · exact hquiet.calm (h.calm fun j hj => hnone j ((hsame j).mp hj))
  · refine Pool.exclusive_of_others (fun j hji => ?_) hi
    rw [hprocs j hji]
    exact hfree j hji _ ((h.stands j).resolve_right (hnone j hji))

end EdgeSphere.Library.Program
