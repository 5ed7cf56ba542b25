import Mathlib.Data.List.TakeWhile

/-!
# Lists of things that belong to someone

A list whose entries carry labels, seen by one of the owners.

* `select` — what belongs to one label, in order;
* `select_set`, `select_eraseIdx` — a change of one entry is a change of one entry of its owner, and of nobody
  else.
-/

namespace EdgeSphere.Library

variable {ι α : Type*} [DecidableEq ι]

/-- What belongs to `i`. -/
def select (i : ι) (l : List (ι × α)) : List α := (l.filter fun x => decide (x.1 = i)).map Prod.snd

@[simp] theorem select_nil (i : ι) : select i ([] : List (ι × α)) = [] := rfl

@[simp] theorem select_append (i : ι) (l l' : List (ι × α)) : select i (l ++ l') = select i l ++ select i l' := by
  unfold select
  rw [List.filter_append, List.map_append]

theorem select_cons_self (i : ι) (a : α) (l : List (ι × α)) : select i ((i, a) :: l) = a :: select i l := by
  unfold select
  rw [List.filter_cons_of_pos (by rw [decide_eq_true_eq])]
  rfl

theorem select_cons_of_ne {i j : ι} (h : j ≠ i) (a : α) (l : List (ι × α)) :
    select i ((j, a) :: l) = select i l := by
  unfold select
  rw [List.filter_cons_of_neg (by rw [decide_eq_true_eq]; exact h)]

/-- What is added for `i`. -/
theorem select_map_self (i : ι) (l : List α) : select i (l.map fun a => (i, a)) = l := by
  induction l with
  | nil => rfl
  | cons a l ih => rw [List.map_cons, select_cons_self, ih]

theorem select_map_of_ne {i j : ι} (h : j ≠ i) (l : List α) : select i (l.map fun a => (j, a)) = [] := by
  induction l with
  | nil => rfl
  | cons a l ih => rw [List.map_cons, select_cons_of_ne h, ih]

theorem mem_select {i : ι} {a : α} {l : List (ι × α)} : a ∈ select i l ↔ (i, a) ∈ l := by
  unfold select
  rw [List.mem_map]
  constructor
  · rintro ⟨⟨j, b⟩, hmem, rfl⟩
    obtain ⟨hmem, hj⟩ := List.mem_filter.mp hmem
    rw [← of_decide_eq_true hj]
    exact hmem
  · intro hmem
    exact ⟨(i, a), List.mem_filter.mpr ⟨hmem, decide_eq_true rfl⟩, rfl⟩

/-- The place of an entry among those of its owner. -/
def placeOf (i : ι) (l : List (ι × α)) (place : ℕ) : ℕ := (select i (l.take place)).length

section Place

variable {i j : ι} {a : α} {l : List (ι × α)} {place : ℕ}

omit [DecidableEq ι] in
/-- A list around one of its entries. -/
theorem split_at (h : l[place]? = some (i, a)) : l = l.take place ++ (i, a) :: l.drop (place + 1) := by
  obtain ⟨hplace, hget⟩ := List.getElem?_eq_some_iff.mp h
  rw [← hget, ← List.drop_eq_getElem_cons hplace, List.take_append_drop]

theorem select_getElem? (h : l[place]? = some (i, a)) : (select i l)[placeOf i l place]? = some a := by
  have hsplit := congrArg (select i) (split_at h)
  rw [select_append, select_cons_self] at hsplit
  rw [hsplit, placeOf, List.getElem?_append_right (Nat.le_refl _), Nat.sub_self]
  rfl

theorem select_set (h : l[place]? = some (i, a)) (b : α) :
    select i (l.set place (i, b)) = (select i l).set (placeOf i l place) b := by
  obtain ⟨hplace, -⟩ := List.getElem?_eq_some_iff.mp h
  have hsplit := congrArg (select i) (split_at h)
  rw [select_append, select_cons_self] at hsplit
  rw [List.set_eq_take_append_cons_drop, if_pos hplace, select_append, select_cons_self, hsplit, placeOf,
    List.set_append_right _ _ (Nat.le_refl _), Nat.sub_self, List.set_cons_zero]

theorem select_eraseIdx (h : l[place]? = some (i, a)) :
    select i (l.eraseIdx place) = (select i l).eraseIdx (placeOf i l place) := by
  have hsplit := congrArg (select i) (split_at h)
  rw [select_append, select_cons_self] at hsplit
  rw [List.eraseIdx_eq_take_drop_succ, select_append, hsplit, placeOf,
    List.eraseIdx_append_of_length_le (Nat.le_refl _), Nat.sub_self]
  rfl

theorem select_set_of_ne (h : l[place]? = some (j, a)) (hji : j ≠ i) (b : α) :
    select i (l.set place (j, b)) = select i l := by
  obtain ⟨hplace, -⟩ := List.getElem?_eq_some_iff.mp h
  have hsplit := congrArg (select i) (split_at h)
  rw [select_append, select_cons_of_ne hji] at hsplit
  rw [List.set_eq_take_append_cons_drop, if_pos hplace, select_append, select_cons_of_ne hji, hsplit]

theorem select_eraseIdx_of_ne (h : l[place]? = some (j, a)) (hji : j ≠ i) :
    select i (l.eraseIdx place) = select i l := by
  have hsplit := congrArg (select i) (split_at h)
  rw [select_append, select_cons_of_ne hji] at hsplit
  rw [List.eraseIdx_eq_take_drop_succ, select_append, hsplit]

end Place

end EdgeSphere.Library
