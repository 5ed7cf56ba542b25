import EdgeSphere.Library.Runs
import Mathlib.Logic.Function.Basic

/-!
# Programs that call services

Asynchronous code as the tree of what it awaits: a `Program` returns, throws, or sends a command and
goes on with the answer, which may be a failure.  One tree has two readings:

* `exec` — the program runs alone, command after command (`exec_bind`, `exec_catchAll`);
* `Pool.step` — many programs share one state, and a schedule decides whose next command is executed.

`trace` lists the commands of a run.  `Within` bounds the commands a program can ever send, `Obeys` those
it sends when the answers are possible ones, `Ensures` what it can end with, and `Traces` both together;
all four are closed under sequencing.
-/

namespace EdgeSphere.Library

universe u v w x

/-- Code that awaits: `C` are the commands, `R c` the answers to `c`, `ε` what can be thrown. -/
inductive Program (C : Type u) (R : C → Type v) (ε : Type x) (α : Type w) where
  | ret (a : α)
  | throw (e : ε)
  | call (c : C) (next : Except ε (R c) → Program C R ε α)

namespace Program

variable {C : Type u} {R : C → Type v} {ε : Type x} {α β : Type w} {σ τ : Type*}

/-- Sequencing; a throw skips the rest. -/
def bind (p : Program C R ε α) (f : α → Program C R ε β) : Program C R ε β :=
  match p with
  | ret a => f a
  | throw e => throw e
  | call c next => call c fun r => (next r).bind f

instance : Monad (Program C R ε) where
  pure := ret
  bind := bind

/-- `try { p } catch (e) { handler e }`. -/
def catchAll (p : Program C R ε α) (handler : ε → Program C R ε α) : Program C R ε α :=
  match p with
  | ret a => ret a
  | throw e => handler e
  | call c next => call c fun r => (next r).catchAll handler

/-- `await c`: a failed command throws. -/
def command (c : C) : Program C R ε (R c) :=
  call c fun
    | .ok r => ret r
    | .error e => throw e

/-- What the program has returned, if it has ended so. -/
def result : Program C R ε α → Option α
  | ret a => some a
  | _ => none

theorem result_eq_some {p : Program C R ε α} {a : α} : p.result = some a ↔ p = ret a := by
  cases p with
  | ret b => simp [result]
  | throw e => simp [result]
  | call c next => simp [result]

@[simp] theorem pure_eq (a : α) : (pure a : Program C R ε α) = ret a := rfl

@[simp] theorem bind_eq (p : Program C R ε α) (f : α → Program C R ε β) : p >>= f = p.bind f := rfl

@[simp] theorem ret_bind (a : α) (f : α → Program C R ε β) : (ret a : Program C R ε α).bind f = f a := rfl

@[simp] theorem throw_bind (e : ε) (f : α → Program C R ε β) :
    (throw e : Program C R ε α).bind f = throw e := rfl

theorem bind_assoc {γ : Type w} (p : Program C R ε α) (f : α → Program C R ε β)
    (g : β → Program C R ε γ) : (p.bind f).bind g = p.bind fun a => (f a).bind g := by
  induction p with
  | ret a => rfl
  | throw e => rfl
  | call c next ih => exact congrArg (call c) (funext ih)

/-! ### Running alone -/

/-- Run to the end; `handle` executes one command. -/
def exec (handle : σ → (c : C) → σ × Except ε (R c)) (s : σ) : Program C R ε α → σ × Except ε α
  | ret a => (s, .ok a)
  | throw e => (s, .error e)
  | call c next => exec handle (handle s c).1 (next (handle s c).2)

section Exec

variable (handle : σ → (c : C) → σ × Except ε (R c)) (s : σ)

@[simp] theorem exec_ret (a : α) : exec handle s (ret a : Program C R ε α) = (s, .ok a) := rfl

@[simp] theorem exec_throw (e : ε) : exec handle s (throw e : Program C R ε α) = (s, .error e) := rfl

/-- **Sequencing.**  The second half runs in the state the first half leaves. -/
theorem exec_bind (p : Program C R ε α) (f : α → Program C R ε β) :
    exec handle s (p.bind f) = match exec handle s p with
      | (s', .ok a) => exec handle s' (f a)
      | (s', .error e) => (s', .error e) := by
  induction p generalizing s with
  | ret a => rfl
  | throw e => rfl
  | call c next ih => exact ih (handle s c).2 (handle s c).1

/-- A sequence that returns has run both halves. -/
theorem exec_bind_ok {p : Program C R ε α} {f : α → Program C R ε β} {s s' : σ} {b : β}
    (h : exec handle s (p.bind f) = (s', .ok b)) :
    ∃ m a, exec handle s p = (m, .ok a) ∧ exec handle m (f a) = (s', .ok b) := by
  rw [exec_bind] at h
  cases hp : exec handle s p with
  | mk m r =>
    rw [hp] at h
    cases r with
    | ok a => exact ⟨m, a, rfl, h⟩
    | error e => cases h

theorem exec_catchAll (p : Program C R ε α) (handler : ε → Program C R ε α) :
    exec handle s (p.catchAll handler) = match exec handle s p with
      | (s', .ok a) => (s', .ok a)
      | (s', .error e) => exec handle s' (handler e) := by
  induction p generalizing s with
  | ret a => rfl
  | throw e => rfl
  | call c next ih => exact ih (handle s c).2 (handle s c).1

/-- A program of one command does what the command does. -/
@[simp] theorem exec_command (c : C) :
    exec handle s (command c : Program C R ε (R c)) = handle s c := by
  cases h : handle s c with
  | mk s' r =>
    cases r with
    | ok r => simp only [command, exec, h]
    | error e => simp only [command, exec, h]

end Exec

/-- The commands a program executes when it runs alone, each with its answer. -/
def trace (handle : σ → (c : C) → σ × Except ε (R c)) (s : σ) :
    Program C R ε α → List (Σ c, Except ε (R c))
  | ret _ => []
  | throw _ => []
  | call c next => ⟨c, (handle s c).2⟩ :: trace handle (handle s c).1 (next (handle s c).2)

section Trace

variable (handle : σ → (c : C) → σ × Except ε (R c)) (s : σ)

@[simp] theorem trace_ret (a : α) : trace handle s (ret a : Program C R ε α) = [] := rfl

@[simp] theorem trace_throw (e : ε) : trace handle s (throw e : Program C R ε α) = [] := rfl

theorem trace_bind (p : Program C R ε α) (f : α → Program C R ε β) :
    trace handle s (p.bind f) = trace handle s p ++ match exec handle s p with
      | (s', .ok a) => trace handle s' (f a)
      | (_, .error _) => [] := by
  induction p generalizing s with
  | ret a => rfl
  | throw e => rfl
  | call c next ih =>
    show _ :: trace handle _ ((next _).bind f) = _ :: trace handle _ (next _) ++ _
    rw [ih, List.cons_append]
    rfl

@[simp] theorem trace_command (c : C) :
    trace handle s (command c : Program C R ε (R c)) = [⟨c, (handle s c).2⟩] := by
  cases h : handle s c with
  | mk s' r =>
    cases r with
    | ok r => simp only [command, trace, h]
    | error e => simp only [command, trace, h]

/-- Turning the result into another sends no command. -/
theorem trace_bind_ret (p : Program C R ε α) (f : α → β) :
    trace handle s (p.bind fun a => ret (f a)) = trace handle s p := by
  rw [trace_bind]
  cases exec handle s p with
  | mk s' r =>
    cases r with
    | ok a => exact List.append_nil _
    | error e => exact List.append_nil _

/-- Every answer in a trace is one the environment gives. -/
theorem answer_of_mem_trace {p : Program C R ε α} {s : σ} {e : Σ c, Except ε (R c)}
    (h : e ∈ trace handle s p) : ∃ s', e.2 = (handle s' e.1).2 := by
  induction p generalizing s with
  | ret a => cases h
  | throw e => cases h
  | call c next ih =>
    rcases List.mem_cons.mp h with rfl | h
    · exact ⟨s, rfl⟩
    · exact ih _ h

/-- What a run changes, one of its commands changes. -/
theorem exists_mem_trace_of_ne {κ : Type*} (f : σ → κ) {p : Program C R ε α} {s : σ}
    (h : f (exec handle s p).1 ≠ f s) :
    ∃ s' c, ⟨c, (handle s' c).2⟩ ∈ trace handle s p ∧ f (handle s' c).1 ≠ f s' := by
  induction p generalizing s with
  | ret a => exact absurd rfl h
  | throw e => exact absurd rfl h
  | call c next ih =>
    by_cases hfirst : f (handle s c).1 = f s
    · obtain ⟨s', c', hmem, hne⟩ := ih (handle s c).2 (fun heq => h (heq.trans hfirst))
      exact ⟨s', c', List.mem_cons_of_mem _ hmem, hne⟩
    · exact ⟨s, c, List.mem_cons_self, hfirst⟩

end Trace

/-! ### What a program can do -/

/-- Every command the program may send satisfies `P`, whatever the answers. -/
def Within (P : C → Prop) : Program C R ε α → Prop
  | ret _ => True
  | throw _ => True
  | call c next => P c ∧ ∀ r, Within P (next r)

theorem Within.bind {P : C → Prop} {p : Program C R ε α} {f : α → Program C R ε β}
    (hp : p.Within P) (hf : ∀ a, (f a).Within P) : (p.bind f).Within P := by
  induction p with
  | ret a => exact hf a
  | throw e => trivial
  | call c next ih => exact ⟨hp.1, fun r => ih r (hp.2 r)⟩

theorem Within.catchAll {P : C → Prop} {p : Program C R ε α} {handler : ε → Program C R ε α}
    (hp : p.Within P) (hh : ∀ e, (handler e).Within P) : (p.catchAll handler).Within P := by
  induction p with
  | ret a => trivial
  | throw e => exact hh e
  | call c next ih => exact ⟨hp.1, fun r => ih r (hp.2 r)⟩

theorem within_command {P : C → Prop} {c : C} (h : P c) :
    (command c : Program C R ε (R c)).Within P := by
  refine ⟨h, fun r => ?_⟩
  cases r with
  | ok r => trivial
  | error e => trivial

/-- Whatever answers `possible` allows, the program returns as `post` says or throws as `fail` says. -/
def Ensures (possible : (c : C) → Except ε (R c) → Prop) (post : α → Prop) (fail : ε → Prop) :
    Program C R ε α → Prop
  | ret a => post a
  | throw e => fail e
  | call c next => ∀ r, possible c r → Ensures possible post fail (next r)

section Ensures

variable {possible : (c : C) → Except ε (R c) → Prop} {fail : ε → Prop}

/-- The rule of sequencing. -/
theorem Ensures.bind {Q : α → Prop} {post : β → Prop} {p : Program C R ε α}
    {f : α → Program C R ε β} (hp : p.Ensures possible Q fail)
    (hf : ∀ a, Q a → (f a).Ensures possible post fail) : (p.bind f).Ensures possible post fail := by
  induction p with
  | ret a => exact hf a hp
  | throw e => exact hp
  | call c next ih => exact fun r hr => ih r (hp r hr)

/-- The rule of `try`. -/
theorem Ensures.catchAll {Q : ε → Prop} {post : α → Prop} {p : Program C R ε α}
    {handler : ε → Program C R ε α} (hp : p.Ensures possible post Q)
    (hh : ∀ e, Q e → (handler e).Ensures possible post fail) :
    (p.catchAll handler).Ensures possible post fail := by
  induction p with
  | ret a => exact hp
  | throw e => exact hh e hp
  | call c next ih => exact fun r hr => ih r (hp r hr)

theorem ensures_command {c : C} {post : R c → Prop} (hok : ∀ a, possible c (.ok a) → post a)
    (herror : ∀ e, possible c (.error e) → fail e) :
    (command c : Program C R ε (R c)).Ensures possible post fail := by
  intro r hr
  cases r with
  | ok a => exact hok a hr
  | error e => exact herror e hr

end Ensures

/-- Whatever answers `possible` allows, every command the program sends satisfies `P`. -/
def Obeys (possible : (c : C) → Except ε (R c) → Prop) (P : C → Prop) : Program C R ε α → Prop
  | ret _ => True
  | throw _ => True
  | call c next => P c ∧ ∀ r, possible c r → Obeys possible P (next r)

section Obeys

variable {possible : (c : C) → Except ε (R c) → Prop} {P : C → Prop}

/-- The rule of sequencing: the second half may rely on what the first half returns. -/
theorem Obeys.bind {mid : α → Prop} {p : Program C R ε α} {f : α → Program C R ε β}
    (hp : p.Obeys possible P) (hmid : p.Ensures possible mid fun _ => True)
    (hf : ∀ a, mid a → (f a).Obeys possible P) : (p.bind f).Obeys possible P := by
  induction p with
  | ret a => exact hf a hmid
  | throw e => trivial
  | call c next ih => exact ⟨hp.1, fun r hr => ih r (hp.2 r hr) (hmid r hr)⟩

/-- The rule of `try`. -/
theorem Obeys.catchAll {p : Program C R ε α} {handler : ε → Program C R ε α} (hp : p.Obeys possible P)
    (hh : ∀ e, (handler e).Obeys possible P) : (p.catchAll handler).Obeys possible P := by
  induction p with
  | ret a => trivial
  | throw e => exact hh e
  | call c next ih => exact ⟨hp.1, fun r hr => ih r (hp.2 r hr)⟩

theorem obeys_command {c : C} (h : P c) : (command c : Program C R ε (R c)).Obeys possible P := by
  refine ⟨h, fun r _ => ?_⟩
  cases r with
  | ok r => trivial
  | error e => trivial

/-- Commands bounded whatever the answers are bounded for the possible ones. -/
theorem Within.obeys {p : Program C R ε α} (hp : p.Within P) : p.Obeys possible P := by
  induction p with
  | ret a => trivial
  | throw e => trivial
  | call c next ih => exact ⟨hp.1, fun r _ => ih r (hp.2 r)⟩

/-- **The rule of obedience.**  If commands that satisfy `P` keep the invariant, and under the invariant
the answers are possible ones, then the run keeps the invariant and sends only such commands. -/
theorem Obeys.exec {handle : σ → (c : C) → σ × Except ε (R c)} {I : σ → Prop}
    (hkeep : ∀ s c, I s → P c → I (handle s c).1) (hpossible : ∀ s c, I s → possible c (handle s c).2)
    {p : Program C R ε α} (hp : p.Obeys possible P) {s : σ} (hs : I s) :
    I (exec handle s p).1 ∧ ∀ e ∈ trace handle s p, P e.1 := by
  induction p generalizing s with
  | ret a => exact ⟨hs, fun e he => by cases he⟩
  | throw e => exact ⟨hs, fun e he => by cases he⟩
  | call c next ih =>
    obtain ⟨hend, hrest⟩ := ih _ (hp.2 _ (hpossible s c hs)) (hkeep s c hs hp.1)
    refine ⟨hend, fun e he => ?_⟩
    rcases List.mem_cons.mp he with rfl | he
    · exact hp.1
    · exact hrest e he

end Obeys

/-- Whatever answers `possible` allows, what the program sends, with the answers, and what it ends with
satisfy `Q`. -/
def Traces (possible : (c : C) → Except ε (R c) → Prop) :
    Program C R ε α → (List (Σ c, Except ε (R c)) → Except ε α → Prop) → Prop
  | ret a, Q => Q [] (.ok a)
  | throw e, Q => Q [] (.error e)
  | call c next, Q =>
    ∀ r, possible c r → Traces possible (next r) fun entries out => Q (⟨c, r⟩ :: entries) out

section Traces

variable {possible : (c : C) → Except ε (R c) → Prop} {Q : List (Σ c, Except ε (R c)) → Except ε β → Prop}

theorem traces_ret {b : β} (h : Q [] (.ok b)) : (ret b : Program C R ε β).Traces possible Q := h

/-- The rule of consequence. -/
theorem Traces.mono {Q' : List (Σ c, Except ε (R c)) → Except ε β → Prop} {p : Program C R ε β}
    (hp : p.Traces possible Q) (h : ∀ entries out, Q entries out → Q' entries out) :
    p.Traces possible Q' := by
  induction p generalizing Q Q' with
  | ret a => exact h _ _ hp
  | throw e => exact h _ _ hp
  | call c next ih => exact fun r hr => ih r (hp r hr) fun entries out => h _ out

/-- The rule of sequencing. -/
theorem Traces.bind {p : Program C R ε α} {f : α → Program C R ε β}
    (hp : p.Traces possible fun entries out => match out with
      | .ok a => (f a).Traces possible fun entries' out' => Q (entries ++ entries') out'
      | .error e => Q entries (.error e)) : (p.bind f).Traces possible Q := by
  induction p generalizing Q with
  | ret a => exact hp
  | throw e => exact hp
  | call c next ih => exact fun r hr => ih r (hp r hr)

/-- The rule of one command and what follows it. -/
theorem Traces.command_bind {γ : Type v} {Q : List (Σ c, Except ε (R c)) → Except ε γ → Prop} {c : C}
    {f : R c → Program C R ε γ}
    (hok : ∀ a, possible c (.ok a) → (f a).Traces possible fun entries out => Q (⟨c, .ok a⟩ :: entries) out)
    (herror : ∀ e, possible c (.error e) → Q [⟨c, .error e⟩] (.error e)) :
    ((command c : Program C R ε (R c)).bind f).Traces possible Q := by
  intro r hr
  cases r with
  | ok a => exact hok a hr
  | error e => exact herror e hr

/-- The rule of `try`. -/
theorem Traces.catchAll {p : Program C R ε β} {handler : ε → Program C R ε β}
    (hp : p.Traces possible fun entries out => match out with
      | .ok b => Q entries (.ok b)
      | .error e => (handler e).Traces possible fun entries' out' => Q (entries ++ entries') out') :
    (p.catchAll handler).Traces possible Q := by
  induction p generalizing Q with
  | ret a => exact hp
  | throw e => exact hp
  | call c next ih => exact fun r hr => ih r (hp r hr)

theorem traces_command {c : C} {Q : List (Σ c, Except ε (R c)) → Except ε (R c) → Prop}
    (h : ∀ r, possible c r → Q [⟨c, r⟩] r) : (command c : Program C R ε (R c)).Traces possible Q := by
  intro r hr
  cases r with
  | ok a => exact h _ hr
  | error e => exact h _ hr

/-- **What holds of all traces holds of a run.** -/
theorem Traces.exec {handle : σ → (c : C) → σ × Except ε (R c)} {p : Program C R ε β}
    (hp : p.Traces possible Q) (hpossible : ∀ s c, possible c (handle s c).2) (s : σ) :
    Q (trace handle s p) (exec handle s p).2 := by
  induction p generalizing s Q with
  | ret a => exact hp
  | throw e => exact hp
  | call c next ih => exact ih _ (hp _ (hpossible s c)) _

end Traces

/-! ### Interleavings -/

/-- Programs that share a state. -/
structure Pool (σ : Type*) (ι : Type*) (C : Type u) (R : C → Type v) (ε : Type x) (α : Type w) where
  state : σ
  procs : ι → Program C R ε α

/-- One event: program `i` has its next command executed, `t` being what the environment adds to it
(a clock reading, a failure).  A program that has ended has no next command. -/
def Pool.step {ι : Type*} [DecidableEq ι] (handle : τ → σ → (c : C) → σ × Except ε (R c))
    (pool : Pool σ ι C R ε α) (event : ι × τ) : Option (Pool σ ι C R ε α) :=
  match pool.procs event.1 with
  | call c next =>
    let out := handle event.2 pool.state c
    some ⟨out.1, Function.update pool.procs event.1 (next out.2)⟩
  | _ => none

/-- **What a step does**: it executes the next command of one program and leaves the others alone. -/
theorem Pool.step_eq_some {ι : Type*} [DecidableEq ι]
    {handle : τ → σ → (c : C) → σ × Except ε (R c)} {pool pool' : Pool σ ι C R ε α} {event : ι × τ} :
    Pool.step handle pool event = some pool' ↔
      ∃ c next, pool.procs event.1 = call c next ∧
        pool' = ⟨(handle event.2 pool.state c).1,
          Function.update pool.procs event.1 (next (handle event.2 pool.state c).2)⟩ := by
  unfold Pool.step
  cases pool.procs event.1 with
  | ret a => simp
  | throw e => simp
  | call c next =>
    constructor
    · intro h
      exact ⟨c, next, rfl, (Option.some.inj h).symm⟩
    · intro ⟨c', next', heq, hpool⟩
      cases heq
      rw [hpool]

end Program

end EdgeSphere.Library
