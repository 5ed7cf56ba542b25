import Mathlib.Data.Int.Basic
import Mathlib.Data.Option.Basic

/-!
# Keys with a time to live

A stored value with an optional instant after which it is gone, as a key-value server keeps it:
`Cell` is the stored pair, a missing key is `none`, and every access carries the reading of the
server's clock in milliseconds.  A key is gone strictly after its deadline.

* `read` — the value a command sees at an instant;
* `put`, `modify`, `expire`, — the three ways a command leaves a key behind: with a fresh deadline,
  with the deadline it had (a key that was gone starts again without one), with a new deadline.
-/

namespace EdgeSphere.Library.Expiry

variable {α : Type*}

/-- A stored value; `deadline = none` is a key without a time to live. -/
structure Cell (α : Type*) where
  value : α
  deadline : Option ℕ
  deriving DecidableEq, Repr

/-- The cell has not passed its deadline at `now`. -/
def Cell.alive (c : Cell α) (now : ℕ) : Bool :=
  match c.deadline with
  | none => true
  | some d => decide (now ≤ d)

/-- What a command reading the key at `now` sees. -/
def read (now : ℕ) : Option (Cell α) → Option α
  | none => none
  | some c => if c.alive now then some c.value else none

/-- Store `v` with a time to live of `seconds`. -/
def put (now seconds : ℕ) (v : α) : Option (Cell α) := some ⟨v, some (now + 1000 * seconds)⟩

/-- Replace what the key holds by `f` of it, keeping the deadline of a key that is still there. -/
def modify (now : ℕ) (f : Option α → α) : Option (Cell α) → Option (Cell α)
  | none => some ⟨f none, none⟩
  | some c => if c.alive now then some ⟨f (some c.value), c.deadline⟩ else some ⟨f none, none⟩

/-- Set the time to live of an existing key; a non-positive one deletes it. -/
def expire (now : ℕ) (seconds : ℤ) : Option (Cell α) → Option (Cell α)
  | none => none
  | some c =>
    if c.alive now then
      if seconds ≤ 0 then none else some ⟨c.value, some (now + 1000 * seconds.toNat)⟩
    else none

@[simp] theorem read_none (now : ℕ) : read now (none : Option (Cell α)) = none := rfl

@[simp] theorem read_some_deadline (now d : ℕ) (v : α) :
    read now (some ⟨v, some d⟩) = if now ≤ d then some v else none := by
  simp [read, Cell.alive]

@[simp] theorem read_some_forever (now : ℕ) (v : α) : read now (some ⟨v, none⟩) = some v := rfl

@[simp] theorem read_put_self (now seconds : ℕ) (v : α) :
    read now (put now seconds v) = some v := by
  simp [put]

/-- Reading a key with a time to live at a later instant. -/
theorem read_put (now later seconds : ℕ) (v : α) :
    read later (put now seconds v) = if later ≤ now + 1000 * seconds then some v else none := by
  simp [put]

/-- `modify` sees what `read` sees. -/
@[simp] theorem read_modify (now : ℕ) (f : Option α → α) (c : Option (Cell α)) :
    read now (modify now f c) = some (f (read now c)) := by
  cases c with
  | none => rfl
  | some c =>
    by_cases h : c.alive now
    · have h' : (Cell.mk (f (some c.value)) c.deadline).alive now = true := h
      simp only [modify, read, h, h', if_true]
    · simp only [modify, read, h, if_false, Bool.false_eq_true]
      rfl

/-- `EXPIRE` with a positive time to live keeps the value of a key that is there. -/
theorem expire_of_read {now : ℕ} {seconds : ℤ} {c : Option (Cell α)} {v : α} (hs : 0 < seconds)
    (hv : read now c = some v) :
    expire now seconds c = put now seconds.toNat v := by
  cases c with
  | none => simp at hv
  | some c =>
    by_cases h : c.alive now
    · simp only [read, h, if_true, Option.some.injEq] at hv
      have hs' : ¬ seconds ≤ 0 := by omega
      simp only [expire, put, h, if_true, hs', if_false, hv]
    · simp [read, h] at hv

/-- What is read of a cell is its value. -/
theorem value_of_read {now : ℕ} {c : Cell α} {v : α} (h : read now (some c) = some v) : c.value = v := by
  unfold read at h
  simp only at h
  split at h
  · exact Option.some.inj h
  · cases h

/-- What is read at an instant was there before. -/
theorem read_of_le {now later : ℕ} {c : Option (Cell α)} {v : α} (hle : now ≤ later)
    (h : read later c = some v) : read now c = some v := by
  cases c with
  | none => cases h
  | some c =>
    obtain ⟨w, d⟩ := c
    cases d with
    | none => exact h
    | some d =>
      rw [read_some_deadline] at h ⊢
      split at h
      · rw [if_pos (by omega)]
        exact h
      · cases h

end EdgeSphere.Library.Expiry
