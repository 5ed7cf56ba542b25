import Mathlib.Data.List.Basic
import Mathlib.Data.Int.Notation
import Mathlib.Tactic.Common

/-!
# Lists of the newest

A list that takes new elements at its head and is cut to a length.

* `remember` — one new element;
* `foldl_remember` — after many, the list has the newest of them, the newest first, and then what it had;
* `newest` — the list that some events make: `newest_snoc_some`, `newest_snoc_none`;
* `Kept` — a list that is cut only some time after an element has come: it still begins with the newest
  (`Kept.take`), and is longer than it should be by no more than the cuts that are due;
* `lpush`, `lrange`, `ltrim` — the commands of Redis on such a list.
-/

namespace EdgeSphere.Library

variable {α β : Type*}

/-- `[a, ...l].slice(0, n)`. -/
def remember (n : ℕ) (l : List α) (a : α) : List α := (a :: l).take n

theorem remember_take (n : ℕ) (l : List α) (a : α) : remember n (l.take n) a = (a :: l).take n := by
  unfold remember
  cases n with
  | zero => rfl
  | succ n => rw [List.take_succ_cons, List.take_succ_cons, List.take_take, Nat.min_eq_left (Nat.le_succ n)]

/-- **The newest come first**, and only so many of them stay. -/
theorem foldl_remember (n : ℕ) (l as : List α) : as.foldl (remember n) (l.take n) = (as.reverse ++ l).take n := by
  induction as generalizing l with
  | nil => rfl
  | cons a as ih => rw [List.foldl_cons, remember_take, ih, List.reverse_cons, List.append_assoc]; rfl

/-- The newest of the elements that events bring. -/
def newest (n : ℕ) (f : β → Option α) (es : List β) : List α := (es.filterMap f).reverse.take n

section Newest

variable {n : ℕ} {f : β → Option α} {es : List β} {e : β} {a : α}

theorem newest_snoc_some (h : f e = some a) : newest n f (es ++ [e]) = remember n (newest n f es) a := by
  unfold newest
  rw [remember_take, List.filterMap_append, List.filterMap_cons_some h, List.filterMap_nil, List.reverse_append]
  rfl

theorem newest_snoc_none (h : f e = none) : newest n f (es ++ [e]) = newest n f es := by
  unfold newest
  rw [List.filterMap_append, List.filterMap_cons_none h, List.filterMap_nil, List.append_nil]

theorem length_newest_le : (newest n f es).length ≤ n := by
  unfold newest
  rw [List.length_take]
  exact Nat.min_le_left _ _

end Newest

/-! ### Lists that are cut later -/

/-- A list of the newest elements, the newest first: at least `n` of them, and at most `due` more. -/
structure Kept (n : ℕ) (came l : List α) (due : ℕ) : Prop where
  isPrefix : l <+: came.reverse
  enough : min n came.length ≤ l.length
  bounded : l.length ≤ n + due

namespace Kept

variable {n due : ℕ} {came l : List α}

theorem nil (n due : ℕ) : Kept n ([] : List α) [] due := ⟨List.nil_prefix, Nat.min_le_right _ _, Nat.zero_le _⟩

/-- An element comes, and a cut is due. -/
theorem push (h : Kept n came l due) (a : α) : Kept n (came ++ [a]) (a :: l) (due + 1) := by
  have henough := h.enough
  refine ⟨?_, ?_, by rw [List.length_cons]; exact Nat.succ_le_succ h.bounded⟩
  · rw [List.reverse_append]
    exact List.cons_prefix_cons.mpr ⟨rfl, h.isPrefix⟩
  · rw [List.length_append, List.length_singleton, List.length_cons]
    omega

/-- **A cut**, whoever makes it. -/
theorem trim (h : Kept n came l due) (due' : ℕ) : Kept n came (l.take n) due' := by
  have henough := h.enough
  refine ⟨(List.take_prefix n l).trans h.isPrefix, ?_, ?_⟩
  · rw [List.length_take]
    omega
  · rw [List.length_take]
    omega

/-- **The first `n` are the newest `n`.** -/
theorem take (h : Kept n came l due) {k : ℕ} (hk : k ≤ n) : l.take k = came.reverse.take k := by
  have henough := h.enough
  have hlength : (came.reverse).length = came.length := List.length_reverse
  rw [List.prefix_iff_eq_take.mp h.isPrefix, List.take_take]
  rcases Nat.lt_or_ge l.length k with hlt | hge
  · rw [Nat.min_eq_right (Nat.le_of_lt hlt), List.take_of_length_le (by omega), List.take_of_length_le (by omega)]
  · rw [Nat.min_eq_left hge]

/-- When no cut is due, the list is the newest `n`. -/
theorem eq_take (h : Kept n came l 0) : l = came.reverse.take n := by
  have hbounded : l.length ≤ n := h.bounded
  rw [← h.take (Nat.le_refl n), List.take_of_length_le hbounded]

end Kept

/-! ### The list commands of Redis -/

def lpush (l : List α) (a : α) : List α := a :: l

/-- The place that an index of a list of this length means: negative ones count from its end. -/
def absolute (length : ℕ) (index : ℤ) : ℤ := if index < 0 then length + index else index

/-- `LRANGE`: from a place to a place, both included. -/
def lrange (l : List α) (start stop : ℤ) : List α :=
  let first := (absolute l.length start).toNat
  (l.take (absolute l.length stop + 1).toNat).drop first

/-- `LTRIM`. -/
def ltrim (l : List α) (start stop : ℤ) : List α := lrange l start stop

theorem lrange_zero (l : List α) {stop : ℤ} (h : 0 ≤ stop) : lrange l 0 stop = l.take (stop.toNat + 1) := by
  unfold lrange absolute
  simp only
  rw [if_neg (by omega), if_neg (by omega)]
  show (l.take (stop + 1).toNat).drop 0 = _
  rw [List.drop_zero]
  congr 1
  omega

end EdgeSphere.Library
