import EdgeSphere.Library.Program

/-!
# Programs under interference

Programs that share a state, each proved alone against what the others may do meanwhile.  A `Protocol` says
how commands are executed, what every step keeps of the state, and how the state may differ when a program is
resumed.

* `Keeps` — whatever happens between its commands, the program keeps the protocol and ends as it says; closed
  under sequencing and `try`;
* `Pool.Steady` — all programs of a pool do so, which every step of the pool keeps (`Pool.Steady.step`);
* `Every` — what holds of all that a program can become (`Pool.every_step`);
* `Reaches` — what a program is bound to send before it ends.
-/

namespace EdgeSphere.Library.Program

universe u v w x

variable {C : Type u} {R : C → Type v} {ε : Type x} {α β : Type w} {σ τ : Type*}

/-- How programs share a state: `t : τ` is what the environment adds to a command, `allowed` restricts it. -/
structure Protocol (σ τ : Type*) (C : Type u) (R : C → Type v) (ε : Type x) where
  handle : τ → σ → (c : C) → σ × Except ε (R c)
  allowed : τ → σ → C → Prop
  inv : σ → Prop
  later : σ → σ → Prop
  refl : ∀ s, later s s
  trans : ∀ {a b c}, later a b → later b c → later a c

/-- Resumed in any later state, the program executes its commands as the protocol wants it, and ends in a state
and with a result, or an error, as said. -/
def Keeps (P : Protocol σ τ C R ε) (post : σ → α → Prop) (fail : σ → ε → Prop) : Program C R ε α → σ → Prop
  | ret a, s => post s a
  | throw e, s => fail s e
  | call c next, s => ∀ s', P.later s s' → P.inv s' → ∀ t, P.allowed t s' c →
    P.inv (P.handle t s' c).1 ∧ P.later s' (P.handle t s' c).1 ∧
      Keeps P post fail (next (P.handle t s' c).2) (P.handle t s' c).1

section Keeps

variable {P : Protocol σ τ C R ε} {fail : σ → ε → Prop} {s : σ}

/-- A program that waits may be resumed later. -/
theorem Keeps.later {post : σ → α → Prop} {c : C} {next : Except ε (R c) → Program C R ε α} {s' : σ}
    (h : (call c next).Keeps P post fail s) (hlater : P.later s s') : (call c next).Keeps P post fail s' :=
  fun s'' hs'' => h s'' (P.trans hlater hs'')

/-- The rule of consequence. -/
theorem Keeps.mono {post post' : σ → α → Prop} {fail' : σ → ε → Prop} {p : Program C R ε α}
    (h : p.Keeps P post fail s) (hpost : ∀ s a, post s a → post' s a) (hfail : ∀ s e, fail s e → fail' s e) :
    p.Keeps P post' fail' s := by
  induction p generalizing s with
  | ret a => exact hpost s a h
  | throw e => exact hfail s e h
  | call c next ih =>
    intro s' hlater hinv t hallowed
    obtain ⟨hinv', hlater', hnext⟩ := h s' hlater hinv t hallowed
    exact ⟨hinv', hlater', ih _ hnext⟩

/-- The rule of sequencing. -/
theorem Keeps.bind {Q : σ → α → Prop} {post : σ → β → Prop} {p : Program C R ε α} {f : α → Program C R ε β}
    (hp : p.Keeps P Q fail s) (hf : ∀ s a, Q s a → (f a).Keeps P post fail s) :
    (p.bind f).Keeps P post fail s := by
  induction p generalizing s with
  | ret a => exact hf s a hp
  | throw e => exact hp
  | call c next ih =>
    intro s' hlater hinv t hallowed
    obtain ⟨hinv', hlater', hnext⟩ := hp s' hlater hinv t hallowed
    exact ⟨hinv', hlater', ih _ hnext⟩

/-- The rule of `try`. -/
theorem Keeps.catchAll {mid : σ → ε → Prop} {post : σ → α → Prop} {p : Program C R ε α}
    {handler : ε → Program C R ε α} (hp : p.Keeps P post mid s)
    (hh : ∀ s e, mid s e → (handler e).Keeps P post fail s) : (p.catchAll handler).Keeps P post fail s := by
  induction p generalizing s with
  | ret a => exact hp
  | throw e => exact hh s e hp
  | call c next ih =>
    intro s' hlater hinv t hallowed
    obtain ⟨hinv', hlater', hnext⟩ := hp s' hlater hinv t hallowed
    exact ⟨hinv', hlater', ih _ hnext⟩

/-- The rule of one command. -/
theorem keeps_command {c : C} {post : σ → R c → Prop}
    (h : ∀ s', P.later s s' → P.inv s' → ∀ t, P.allowed t s' c →
      P.inv (P.handle t s' c).1 ∧ P.later s' (P.handle t s' c).1 ∧
        (∀ r, (P.handle t s' c).2 = .ok r → post (P.handle t s' c).1 r) ∧
        ∀ e, (P.handle t s' c).2 = .error e → fail (P.handle t s' c).1 e) :
    (command c : Program C R ε (R c)).Keeps P post fail s := by
  intro s' hlater hinv t hallowed
  obtain ⟨hinv', hlater', hok, herror⟩ := h s' hlater hinv t hallowed
  refine ⟨hinv', hlater', ?_⟩
  cases hr : (P.handle t s' c).2 with
  | ok r => exact hok r hr
  | error e => exact herror e hr

/-- Commands that keep the invariant, each by itself. -/
theorem Within.keeps {Q : C → Prop} {post : σ → α → Prop}
    (hcommand : ∀ t s c, P.inv s → Q c → P.inv (P.handle t s c).1 ∧ P.later s (P.handle t s c).1)
    (hpost : ∀ s a, post s a) (hfail : ∀ s e, fail s e) {p : Program C R ε α} (hp : p.Within Q) (s : σ) :
    p.Keeps P post fail s := by
  induction p generalizing s with
  | ret a => exact hpost s a
  | throw e => exact hfail s e
  | call c next ih =>
    intro s' _ hinv t _
    obtain ⟨hinv', hlater'⟩ := hcommand t s' c hinv hp.1
    exact ⟨hinv', hlater', ih _ (hp.2 _) _⟩

end Keeps

/-! ### Pools -/

/-- The state is as the protocol wants it, and so is every program that has not ended. -/
structure Pool.Steady {ι : Type*} (P : Protocol σ τ C R ε) (post : ι → σ → α → Prop) (fail : ι → σ → ε → Prop)
    (pool : Pool σ ι C R ε α) : Prop where
  inv : P.inv pool.state
  keeps : ∀ i c next, pool.procs i = call c next → (call c next).Keeps P (post i) (fail i) pool.state

section Pools

variable {ι : Type*} {P : Protocol σ τ C R ε} {post : ι → σ → α → Prop} {fail : ι → σ → ε → Prop}
  {pool pool' : Pool σ ι C R ε α}

/-- What happens outside of the pool, if the protocol expects it. -/
theorem Pool.Steady.environment (h : pool.Steady P post fail) {s : σ} (hinv : P.inv s)
    (hlater : P.later pool.state s) : Pool.Steady P post fail ⟨s, pool.procs⟩ :=
  ⟨hinv, fun i c next hi => (h.keeps i c next hi).later hlater⟩

variable [DecidableEq ι]

/-- A step moves one program and leaves the others where they are. -/
theorem Pool.step_cases {handle : τ → σ → (c : C) → σ × Except ε (R c)} {i : ι} {t : τ}
    (hstep : Pool.step handle pool (i, t) = some pool') : ∃ c next, pool.procs i = call c next ∧
      pool'.state = (handle t pool.state c).1 ∧ pool'.procs i = next (handle t pool.state c).2 ∧
        ∀ j, j ≠ i → pool'.procs j = pool.procs j := by
  obtain ⟨c, next, hi, rfl⟩ := Pool.step_eq_some.mp hstep
  exact ⟨c, next, hi, rfl, Function.update_self i _ _, fun j hj => Function.update_of_ne hj _ _⟩

/-- **The rule of interleavings.**  A step keeps a pool steady, and a program that it ends, ends as said. -/
theorem Pool.Steady.step {i : ι} {t : τ} (h : pool.Steady P post fail)
    (hstep : Pool.step P.handle pool (i, t) = some pool')
    (hallowed : ∀ c next, pool.procs i = call c next → P.allowed t pool.state c) :
    pool'.Steady P post fail ∧ P.later pool.state pool'.state ∧
      (∀ a, pool'.procs i = ret a → post i pool'.state a) ∧
        ∀ e, pool'.procs i = throw e → fail i pool'.state e := by
  obtain ⟨c, next, hi, hstate, hself, hothers⟩ := Pool.step_cases hstep
  obtain ⟨hinv, hlater, hnext⟩ := h.keeps i c next hi pool.state (P.refl _) h.inv t (hallowed c next hi)
  rw [← hstate, ← hself] at hnext
  rw [← hstate] at hinv hlater
  refine ⟨⟨hinv, fun j c' next' hj => ?_⟩, hlater, fun a ha => ?_, fun e he => ?_⟩
  · by_cases hij : j = i
    · rw [hij] at hj ⊢
      rw [hj] at hnext
      exact hnext
    · rw [hothers j hij] at hj
      exact (h.keeps j c' next' hj).later hlater
  · rw [ha] at hnext
    exact hnext
  · rw [he] at hnext
    exact hnext

end Pools

/-- A program that has ended. -/
def Ended (p : Program C R ε α) : Prop := ∀ c next, p ≠ call c next

/-- The command that a program waits for. -/
def nextCommand : Program C R ε α → Option C
  | call c _ => some c
  | _ => none

theorem nextCommand_eq_some {p : Program C R ε α} {c : C} :
    p.nextCommand = some c ↔ ∃ next, p = call c next := by
  cases p with
  | ret a => simp [nextCommand]
  | throw e => simp [nextCommand]
  | call c' next =>
    constructor
    · intro h
      cases h
      exact ⟨next, rfl⟩
    · rintro ⟨next', heq⟩
      cases heq
      rfl

theorem ended_iff {p : Program C R ε α} : p.Ended ↔ p.nextCommand = none := by
  cases p with
  | ret a => exact iff_of_true (fun _ _ h => by cases h) rfl
  | throw e => exact iff_of_true (fun _ _ h => by cases h) rfl
  | call c next => exact iff_of_false (fun h => h c next rfl) (by simp [nextCommand])

/-! ### What a program can become -/

/-- The program, and all that answers can turn it into, satisfies `S`. -/
def Every (S : Program C R ε α → Prop) : Program C R ε α → Prop
  | ret a => S (ret a)
  | throw e => S (throw e)
  | call c next => S (call c next) ∧ ∀ r, Every S (next r)

section Every

variable {S : Program C R ε α → Prop}

theorem Every.here {p : Program C R ε α} (h : p.Every S) : S p := by
  cases p with
  | ret a => exact h
  | throw e => exact h
  | call c next => exact h.1

/-- The rule of one command and what follows it. -/
theorem Every.command_bind {γ : Type v} {S : Program C R ε γ → Prop} {c : C} {f : R c → Program C R ε γ}
    (hhere : S ((command c : Program C R ε (R c)).bind f)) (hok : ∀ r, (f r).Every S)
    (herror : ∀ e, S (throw e)) : ((command c : Program C R ε (R c)).bind f).Every S := by
  refine ⟨hhere, fun r => ?_⟩
  cases r with
  | ok r => exact hok r
  | error e => exact herror e

/-- Commands that satisfy `P` only: nothing is to be shown but of what is waited for. -/
theorem Within.every {P : C → Prop} {p : Program C R ε α} (hp : p.Within P)
    (hcall : ∀ c next, P c → S (call c next)) (hret : ∀ a, S (ret a)) (hthrow : ∀ e, S (throw e)) :
    p.Every S := by
  induction p with
  | ret a => exact hret a
  | throw e => exact hthrow e
  | call c next ih => exact ⟨hcall c next hp.1, fun r => ih r (hp.2 r)⟩

/-- What holds of all programs with such commands. -/
theorem Within.every_within {P : C → Prop} {p : Program C R ε α} (hp : p.Within P) (h : ∀ q, q.Within P → S q) :
    p.Every S := by
  induction p with
  | ret a => exact h _ hp
  | throw e => exact h _ hp
  | call c next ih => exact ⟨h _ hp, fun r => ih r (hp.2 r)⟩

/-- Such commands first. -/
theorem Within.every_bind {P : C → Prop} {S : Program C R ε β → Prop} {p : Program C R ε α}
    {f : α → Program C R ε β} (hp : p.Within P) (hcall : ∀ c next, P c → S (call c next))
    (hthrow : ∀ e, S (throw e)) (hf : ∀ a, (f a).Every S) : (p.bind f).Every S := by
  induction p with
  | ret a => exact hf a
  | throw e => exact hthrow e
  | call c next ih => exact ⟨hcall c _ hp.1, fun r => ih r (hp.2 r)⟩

/-- A step of a pool goes on with what a program can become. -/
theorem Pool.every_step {ι : Type*} [DecidableEq ι] {handle : τ → σ → (c : C) → σ × Except ε (R c)}
    {pool pool' : Pool σ ι C R ε α} {i : ι} {t : τ} {S : ι → Program C R ε α → Prop}
    (h : ∀ i, (pool.procs i).Every (S i)) (hstep : Pool.step handle pool (i, t) = some pool') (j : ι) :
    (pool'.procs j).Every (S j) := by
  obtain ⟨c, next, hi, -, hself, hothers⟩ := Pool.step_cases hstep
  by_cases hij : j = i
  · have hmoved := h i
    rw [hi] at hmoved
    rw [hij, hself]
    exact hmoved.2 _
  · rw [hothers j hij]
    exact h j

/-- A program sends no other commands later on. -/
theorem Pool.within_step {ι : Type*} [DecidableEq ι] {handle : τ → σ → (c : C) → σ × Except ε (R c)}
    {pool pool' : Pool σ ι C R ε α} {event : ι × τ} {P : C → Prop} {j : ι} (h : (pool.procs j).Within P)
    (hstep : Pool.step handle pool event = some pool') : (pool'.procs j).Within P := by
  obtain ⟨c, next, hi, -, hself, hothers⟩ := Pool.step_cases (i := event.1) (t := event.2) hstep
  by_cases hij : j = event.1
  · rw [hij, hi] at h
    rw [hij, hself]
    exact h.2 _
  · rw [hothers j hij]
    exact h

/-- Turning the result into another sends no command. -/
theorem Obeys.map {possible : (c : C) → Except ε (R c) → Prop} {P : C → Prop} {p : Program C R ε α}
    (hp : p.Obeys possible P) (f : α → β) : (p.bind fun a => ret (f a)).Obeys possible P := by
  induction p with
  | ret a => trivial
  | throw e => trivial
  | call c next ih => exact ⟨hp.1, fun r hr => ih r (hp.2 r hr)⟩

/-- A program goes on obeying, if the answer it is given is a possible one. -/
theorem Pool.obeys_step {ι : Type*} [DecidableEq ι] {handle : τ → σ → (c : C) → σ × Except ε (R c)}
    {pool pool' : Pool σ ι C R ε α} {event : ι × τ} {possible : (c : C) → Except ε (R c) → Prop} {P : C → Prop} {j : ι}
    (h : (pool.procs j).Obeys possible P) (hstep : Pool.step handle pool event = some pool')
    (hpossible : event.1 = j → ∀ c next, pool.procs j = call c next → possible c (handle event.2 pool.state c).2) :
    (pool'.procs j).Obeys possible P := by
  obtain ⟨c, next, hi, -, hself, hothers⟩ := Pool.step_cases (i := event.1) (t := event.2) hstep
  by_cases hij : j = event.1
  · subst hij
    rw [hi] at h
    rw [hself]
    exact h.2 _ (hpossible rfl c next hi)
  · rw [hothers j hij]
    exact h

end Every

/-! ### What a program is bound to do -/

/-- Whatever answers `possible` allows, the program sends a command that satisfies `Q` before it ends, and nothing
after that but what satisfies `T`. -/
def Reaches (possible : (c : C) → Except ε (R c) → Prop) (Q T : C → Prop) : Program C R ε α → Prop
  | ret _ => False
  | throw _ => False
  | call c next => (Q c ∧ ∀ r, (next r).Within T) ∨ ∀ r, possible c r → Reaches possible Q T (next r)

section Reaches

variable {possible : (c : C) → Except ε (R c) → Prop} {Q T : C → Prop}

/-- What is bound to happen happens before what follows. -/
theorem Reaches.bind {p : Program C R ε α} {f : α → Program C R ε β} (hp : p.Reaches possible Q T)
    (hf : ∀ a, (f a).Within T) : (p.bind f).Reaches possible Q T := by
  induction p with
  | ret a => exact absurd hp id
  | throw e => exact absurd hp id
  | call c next ih =>
    rcases hp with ⟨hhere, htail⟩ | hlater
    · exact .inl ⟨hhere, fun r => (htail r).bind hf⟩
    · exact .inr fun r hr => ih r (hlater r hr)

/-- Or it happens after what is bound to return. -/
theorem Ensures.reaches_bind {mid : α → Prop} {p : Program C R ε α} {f : α → Program C R ε β}
    (hp : p.Ensures possible mid fun _ => False) (hf : ∀ a, mid a → (f a).Reaches possible Q T) :
    (p.bind f).Reaches possible Q T := by
  induction p with
  | ret a => exact hf a hp
  | throw e => exact absurd hp id
  | call c next ih => exact .inr fun r hr => ih r (hp r hr)

theorem reaches_command {c : C} (h : Q c) : (command c : Program C R ε (R c)).Reaches possible Q T := by
  refine .inl ⟨h, fun r => ?_⟩
  cases r with
  | ok a => trivial
  | error e => trivial

end Reaches

end EdgeSphere.Library.Program
