import Mathlib

/-!
# Groups of rows

`GROUP BY` over a list of rows, and what may be asked of the groups: their order and the first of them.

* `groupBy` — each key with its rows; `groupBy_perm` — the groups are the rows; `sum_groups` — so what is summed over
  the groups is summed over the rows;
* `Ranked` — an order by a measure, the largest first, ties in any order; `Ranked.le_of_not_mem` — what is not among the
  first is no larger than they;
* `byKey` — the one order by increasing keys; `byKey_strict`.
-/

namespace EdgeSphere.Library

variable {α κ γ M : Type*}

/-! ### Classes -/

section Classes

variable [DecidableEq κ]

/-- The rows of one key. -/
def rowsOf (key : α → κ) (rows : List α) (k : κ) : List α := rows.filter fun a => decide (key a = k)

/-- The keys, each with its rows. -/
def groupBy (key : α → κ) (rows : List α) : List (κ × List α) :=
  (rows.map key).dedup.map fun k => (k, rowsOf key rows k)

variable {key : α → κ} {rows : List α}

theorem mem_groupBy {group : κ × List α} :
    group ∈ groupBy key rows ↔ group.1 ∈ rows.map key ∧ group.2 = rowsOf key rows group.1 := by
  unfold groupBy
  rw [List.mem_map]
  constructor
  · rintro ⟨k, hk, rfl⟩
    exact ⟨List.mem_dedup.mp hk, rfl⟩
  · rintro ⟨hkey, hrows⟩
    exact ⟨group.1, List.mem_dedup.mpr hkey, Prod.ext rfl hrows.symm⟩

theorem groupBy_keys (key : α → κ) (rows : List α) : (groupBy key rows).map Prod.fst = (rows.map key).dedup := by
  unfold groupBy
  rw [List.map_map]
  exact List.map_id _

theorem groupBy_keys_nodup (key : α → κ) (rows : List α) : ((groupBy key rows).map Prod.fst).Nodup := by
  rw [groupBy_keys]
  exact List.nodup_dedup _

/-- A group has a row. -/
theorem groupBy_rows_ne_nil {group : κ × List α} (h : group ∈ groupBy key rows) : group.2 ≠ [] := by
  obtain ⟨hkey, hrows⟩ := mem_groupBy.mp h
  obtain ⟨a, ha, hak⟩ := List.mem_map.mp hkey
  rw [hrows]
  exact List.ne_nil_of_mem (List.mem_filter.mpr ⟨ha, decide_eq_true hak⟩)

/-- Rows by the keys of a list that has each of them once. -/
theorem classes_perm {keys : List κ} (hkeys : keys.Nodup) (hall : ∀ a ∈ rows, key a ∈ keys) :
    (keys.flatMap (rowsOf key rows)).Perm rows := by
  induction keys generalizing rows with
  | nil =>
    cases rows with
    | nil => exact .refl _
    | cons a rows => exact absurd (hall a List.mem_cons_self) List.not_mem_nil
  | cons k keys ih =>
    obtain ⟨hk, hkeys⟩ := List.nodup_cons.mp hkeys
    let others := rows.filter fun a => !decide (key a = k)
    have hothers : ∀ a ∈ others, key a ∈ keys := by
      intro a ha
      obtain ⟨ha, hne⟩ := List.mem_filter.mp ha
      have hne : ¬ key a = k := by simpa using hne
      exact (List.mem_cons.mp (hall a ha)).resolve_left hne
    -- the other keys find their rows among the rows of the other keys
    have hsame : keys.flatMap (rowsOf key rows) = keys.flatMap (rowsOf key others) := by
      refine List.flatMap_congr fun k' hk' => ?_
      unfold rowsOf
      rw [List.filter_filter]
      refine List.filter_congr fun a _ => ?_
      by_cases hak : key a = k'
      · have hne : ¬ key a = k := fun heq => hk ((heq.symm.trans hak) ▸ hk')
        rw [decide_eq_true hak, decide_eq_false hne]
        rfl
      · rw [decide_eq_false hak]
        rfl
    rw [List.flatMap_cons, hsame]
    exact ((ih hkeys hothers).append_left _).trans (List.filter_append_perm _ rows)

/-- **The groups are the rows.** -/
theorem groupBy_perm (key : α → κ) (rows : List α) : ((groupBy key rows).flatMap Prod.snd).Perm rows := by
  unfold groupBy
  rw [List.flatMap_map]
  exact classes_perm (List.nodup_dedup _) fun a ha => List.mem_dedup.mpr (List.mem_map_of_mem ha)

omit [DecidableEq κ] in
theorem sum_flatten [AddCommMonoid M] (f : α → M) (groups : List (κ × List α)) :
    (groups.map fun group => (group.2.map f).sum).sum = ((groups.flatMap Prod.snd).map f).sum := by
  induction groups with
  | nil => rfl
  | cons group groups ih => rw [List.map_cons, List.sum_cons, ih, List.flatMap_cons, List.map_append, List.sum_append]

/-- **What is summed over the groups is summed over the rows**, in whatever order the groups come. -/
theorem sum_groups [AddCommMonoid M] (f : α → M) {groups : List (κ × List α)} (h : groups.Perm (groupBy key rows)) :
    (groups.map fun group => (group.2.map f).sum).sum = (rows.map f).sum := by
  rw [sum_flatten]
  exact ((h.flatMap_right _).trans (groupBy_perm key rows)).map f |>.sum_eq

theorem sum_lengths {groups : List (κ × List α)} (h : groups.Perm (groupBy key rows)) :
    (groups.map fun group => group.2.length).sum = rows.length := by
  have hsum := sum_groups (fun _ => 1) h
  simpa using hsum

omit [DecidableEq κ] in
theorem sum_indicator (p : α → Bool) (l : List α) : (l.map fun a => if p a then 1 else 0).sum = l.countP p := by
  induction l with
  | nil => rfl
  | cons a l ih => rw [List.map_cons, List.sum_cons, ih, List.countP_cons, Nat.add_comm]

theorem sum_countP (p : α → Bool) {groups : List (κ × List α)} (h : groups.Perm (groupBy key rows)) :
    (groups.map fun group => group.2.countP p).sum = rows.countP p := by
  rw [← sum_indicator p rows, ← sum_groups _ h]
  refine congrArg List.sum (List.map_congr_left fun group _ => ?_)
  exact (sum_indicator p group.2).symm

end Classes

/-! ### Orders -/

/-- `ORDER BY measure DESC`: ties are in any order. -/
structure Ranked (measure : γ → ℕ) (groups answer : List γ) : Prop where
  perm : answer.Perm groups
  descending : answer.Pairwise fun g h => measure h ≤ measure g

namespace Ranked

variable {measure : γ → ℕ} {groups answer : List γ}

theorem length_take (h : Ranked measure groups answer) (n : ℕ) : (answer.take n).length = min n groups.length := by
  rw [List.length_take, h.perm.length_eq]

/-- **What is not among the first is no larger than they.** -/
theorem le_of_not_mem (h : Ranked measure groups answer) {n : ℕ} {first other : γ} (hfirst : first ∈ answer.take n)
    (hother : other ∈ groups) (hnot : other ∉ answer.take n) : measure other ≤ measure first := by
  have hmem : other ∈ answer := h.perm.mem_iff.mpr hother
  rw [← List.take_append_drop n answer] at hmem
  have hdescending := h.descending
  rw [← List.take_append_drop n answer] at hdescending
  rcases List.mem_append.mp hmem with hin | hdrop
  · exact absurd hin hnot
  · exact (List.pairwise_append.mp hdescending).2.2 first hfirst other hdrop

end Ranked

/-- `ORDER BY key`. -/
def byKey [LinearOrder κ] (groups : List (κ × List α)) : List (κ × List α) :=
  groups.insertionSort fun g h => g.1 ≤ h.1

theorem byKey_perm [LinearOrder κ] (groups : List (κ × List α)) : (byKey groups).Perm groups :=
  List.perm_insertionSort _ groups

/-- The keys of groups come in increasing order. -/
theorem byKey_strict [LinearOrder κ] (key : α → κ) (rows : List α) :
    ((byKey (groupBy key rows)).map Prod.fst).Pairwise (· < ·) := by
  have hle : (byKey (groupBy key rows)).Pairwise fun g h => g.1 ≤ h.1 :=
    List.pairwise_insertionSort (fun g h : κ × List α => g.1 ≤ h.1) _
  have hne : ((byKey (groupBy key rows)).map Prod.fst).Nodup :=
    ((byKey_perm _).map Prod.fst).nodup_iff.mpr (groupBy_keys_nodup key rows)
  refine (List.pairwise_map.mpr hle).imp₂ (fun a b hab hnot => lt_of_le_of_ne hab hnot) hne

end EdgeSphere.Library
