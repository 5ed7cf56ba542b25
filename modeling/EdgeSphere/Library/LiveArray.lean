import Mathlib.Data.List.Basic
import Mathlib.Data.List.GetD
import Mathlib.Data.List.Infix

/-!
# Loops over an array that changes

A variable holds an array.  A loop goes through the array that the variable held when it began, index by index; in the
meantime the array is edited in place, or the variable is given another one.

* `Slot` — the arrays that a variable has held; `Change` — an edit, or another array;
* `array_foldl` — **what becomes of an array**: the edits up to the moment when it is no longer held (`settled`);
* `Loop.Faithful` — the loop has looked at the entries of its array, in order, up to its index: kept by edits that
  change no key (`Faithful.change`) and by the turns of the loop (`Faithful.advance`);
* `Loop.Faithful.ended` — a loop that ends has looked at every entry once.
-/

namespace EdgeSphere.Library.LiveArray

variable {α κ : Type*}

/-- The arrays that a variable held, the first one first, and the one it holds. -/
structure Slot (α : Type*) where
  past : List (List α)
  current : List α

/-- The array that is held after the arrays of number less than `g`. -/
def Slot.array (v : Slot α) (g : ℕ) : List α := (v.past ++ [v.current]).getD g []

inductive Change (α : Type*) where
  | edit (f : List α → List α)
  | replace (f : List α → List α)

/-- What the variable holds after a change. -/
def Change.value (l : List α) : Change α → List α
  | .edit f => f l
  | .replace f => f l

def Slot.apply (v : Slot α) : Change α → Slot α
  | .edit f => { v with current := f v.current }
  | .replace f => ⟨v.past ++ [v.current], f v.current⟩

@[simp] theorem Slot.apply_current (v : Slot α) (c : Change α) : (v.apply c).current = c.value v.current := by
  cases c with
  | edit f => rfl
  | replace f => rfl

theorem Slot.array_current (v : Slot α) : v.array v.past.length = v.current := by
  unfold Slot.array
  rw [List.getD_eq_getElem?_getD, List.getElem?_concat_length]
  rfl

theorem Slot.array_past {v : Slot α} {g : ℕ} (h : g < v.past.length) : v.array g = v.past.getD g [] := by
  unfold Slot.array
  rw [List.getD_append _ _ _ _ h]

theorem Slot.past_le (v : Slot α) (c : Change α) : v.past.length ≤ (v.apply c).past.length := by
  cases c with
  | edit f => exact le_refl _
  | replace f => exact (List.prefix_append v.past [v.current]).length_le

/-- An array that is no longer held stays as it is. -/
theorem Slot.array_apply_past {v : Slot α} {g : ℕ} (h : g < v.past.length) (c : Change α) :
    (v.apply c).array g = v.array g := by
  rw [Slot.array_past h, Slot.array_past (h.trans_le (v.past_le c))]
  cases c with
  | edit f => rfl
  | replace f => exact List.getD_append _ _ _ _ h

/-- The array that is held takes the edits. -/
theorem Slot.array_apply_current (v : Slot α) (c : Change α) :
    (v.apply c).array v.past.length = match c with
      | .edit f => f v.current
      | .replace _ => v.current := by
  cases c with
  | edit f => exact Slot.array_current _
  | replace f =>
    have hlt : v.past.length < (v.past ++ [v.current]).length := by
      rw [List.length_append]
      exact Nat.lt_succ_self _
    have hpast : (v.apply (.replace f)).array v.past.length = (v.past ++ [v.current]).getD v.past.length [] :=
      Slot.array_past hlt
    exact hpast.trans v.array_current

/-- What an array is after changes: those that come after another array has taken its place do not matter. -/
def settled (l : List α) : List (Change α) → List α
  | [] => l
  | .replace _ :: _ => l
  | .edit f :: cs => settled (f l) cs

theorem Slot.array_foldl_past {v : Slot α} {g : ℕ} (h : g < v.past.length) (cs : List (Change α)) :
    (cs.foldl Slot.apply v).array g = v.array g := by
  induction cs generalizing v with
  | nil => rfl
  | cons c cs ih => exact (ih (h.trans_le (v.past_le c))).trans (Slot.array_apply_past h c)

/-- **What becomes of the array that is held.** -/
theorem Slot.array_foldl (v : Slot α) (cs : List (Change α)) :
    (cs.foldl Slot.apply v).array v.past.length = settled v.current cs := by
  induction cs generalizing v with
  | nil => exact v.array_current
  | cons c cs ih =>
    cases c with
    | edit f => exact ih (v.apply (.edit f))
    | replace f =>
      have hlt : v.past.length < (v.apply (.replace f)).past.length := by
        show v.past.length < (v.past ++ [v.current]).length
        rw [List.length_append]
        exact Nat.lt_succ_self _
      exact (Slot.array_foldl_past hlt cs).trans (v.array_apply_current (.replace f))

/-! ### Loops -/

/-- The number of its array, the next index, and the entries that the loop has looked at, as they were then. -/
structure Loop (α : Type*) where
  generation : ℕ
  index : ℕ
  looked : List α

def Loop.start (v : Slot α) : Loop α := ⟨v.past.length, 0, []⟩

/-- The entry at the next index, if the array is that long. -/
def Loop.next (l : Loop α) (v : Slot α) : Option α := (v.array l.generation)[l.index]?

def Loop.advance (l : Loop α) (a : α) : Loop α := ⟨l.generation, l.index + 1, l.looked ++ [a]⟩

/-- The keys of the entries that the loop has looked at are those of its array, up to the index. -/
structure Loop.Faithful (key : α → κ) (v : Slot α) (l : Loop α) : Prop where
  held : l.generation ≤ v.past.length
  index : l.index ≤ (v.array l.generation).length
  looked : l.looked.map key = ((v.array l.generation).map key).take l.index

/-- A change that leaves the keys as they are, but for new ones at the end; or another array. -/
def Change.KeepsKeys (key : α → κ) (l : List α) : Change α → Prop
  | .edit f => l.map key <+: (f l).map key
  | .replace _ => True

section Loops

variable {key : α → κ} {v : Slot α} {l : Loop α}

theorem Loop.faithful_start (key : α → κ) (v : Slot α) : (Loop.start v).Faithful key v :=
  ⟨le_refl _, Nat.zero_le _, rfl⟩

/-- The keys of a loop's array after a change. -/
theorem prefix_array_apply {c : Change α} {g : ℕ} (hheld : g ≤ v.past.length) (hkeys : c.KeepsKeys key v.current) :
    (v.array g).map key <+: ((v.apply c).array g).map key := by
  rcases hheld.lt_or_eq with hpast | rfl
  · rw [Slot.array_apply_past hpast]
  · rw [Slot.array_apply_current, Slot.array_current]
    cases c with
    | edit f => exact hkeys
    | replace f => exact List.prefix_refl _

/-- **A change of the array.** -/
theorem Loop.Faithful.change {c : Change α} (h : l.Faithful key v) (hkeys : c.KeepsKeys key v.current) :
    l.Faithful key (v.apply c) := by
  have hprefix := prefix_array_apply h.held hkeys
  have hlength := hprefix.length_le
  rw [List.length_map, List.length_map] at hlength
  refine ⟨h.held.trans (v.past_le c), h.index.trans hlength, ?_⟩
  obtain ⟨more, hmore⟩ := hprefix
  have hindex : l.index ≤ ((v.array l.generation).map key).length := by
    rw [List.length_map]
    exact h.index
  rw [h.looked, ← hmore, List.take_append_of_le_length hindex]

/-- **A turn of the loop.** -/
theorem Loop.Faithful.advance {a : α} (h : l.Faithful key v) (hnext : l.next v = some a) :
    (l.advance a).Faithful key v := by
  obtain ⟨hlt, -⟩ := List.getElem?_eq_some_iff.mp hnext
  refine ⟨h.held, hlt, ?_⟩
  show (l.looked ++ [a]).map key = ((v.array l.generation).map key).take (l.index + 1)
  rw [List.map_append, h.looked, List.take_add_one, List.getElem?_map]
  have hkey : ((v.array l.generation)[l.index]?).map key = some (key a) := congrArg (Option.map key) hnext
  rw [hkey]
  rfl

/-- **A loop that ends has looked at every entry once.** -/
theorem Loop.Faithful.ended (h : l.Faithful key v) (hnext : l.next v = none) :
    l.looked.map key = (v.array l.generation).map key := by
  have hindex : (v.array l.generation).length ≤ l.index := List.getElem?_eq_none_iff.mp hnext
  rw [h.looked, List.take_of_length_le (by rwa [List.length_map])]

/-- The number of entries looked at. -/
theorem Loop.Faithful.length_looked (h : l.Faithful key v) : l.looked.length = l.index := by
  have hlength := congrArg List.length h.looked
  rw [List.length_map, List.length_take, List.length_map, Nat.min_eq_left h.index] at hlength
  exact hlength

end Loops

end EdgeSphere.Library.LiveArray
