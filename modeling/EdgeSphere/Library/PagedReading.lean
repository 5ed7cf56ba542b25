import Mathlib.Data.Finset.Card
import Mathlib.Data.List.Sublists
import Mathlib.Tactic.Common

/-!
# Reading a list page by page

A list is read one page after another, and changes between the pages: rows come in anywhere, and rows leave.

* `rest` — what is past the first `n` rows;
* `Orderly` — a change keeps the rows that stay in their order;
* `rest_sdiff_le` — **at most as many rows come under a bound as leave the list**;
* `Reading` — how far a reader is; `Account` — of the rows he began with, all but as many as have left are shown or
  still to come: kept by every change (`Account.change`) and every page (`Account.turn`).
-/

namespace EdgeSphere.Library.PagedReading

variable {α : Type*}

/-- Past the first `n` rows that a filter leaves. -/
theorem drop_filter (p : α → Bool) (n : ℕ) (rows : List α) :
    (rows.filter p).drop n = ((rows.drop n).filter p).drop (n - ((rows.take n).filter p).length) := by
  have hshort : ((rows.take n).filter p).length ≤ n :=
    (List.length_filter_le _ _).trans (List.length_take_le _ _)
  conv_lhs => rw [← List.take_append_drop n rows, List.filter_append, List.drop_append, List.drop_of_length_le hshort]
  rfl

variable [DecidableEq α]

/-- The rows past the first `n`. -/
def rest (n : ℕ) (rows : List α) : Finset α := (rows.drop n).toFinset

/-- The rows of a page; pages are counted from one. -/
def pageRows (page size : ℕ) (rows : List α) : List α := (rows.drop ((page - 1) * size)).take size

omit [DecidableEq α] in
theorem pageRows_map {β : Type*} (key : β → α) (page size : ℕ) (rows : List β) :
    pageRows page size (rows.map key) = (pageRows page size rows).map key := by
  unfold pageRows
  rw [List.map_take, List.map_drop]

/-- The rows that are there before a change, and not after it. -/
def leaving (rows rows' : List α) : Finset α := rows.toFinset \ rows'.toFinset

/-- The rows that stay, stay in their order. -/
def Orderly (rows rows' : List α) : Prop := (rows.filter fun a => decide (a ∈ rows')).Sublist rows'

theorem orderly_of_sublist {rows rows' : List α} (h : rows.Sublist rows') : Orderly rows rows' :=
  List.filter_sublist.trans h

/-- Two selections of rows that a key tells apart. -/
theorem orderly_selection {β : Type*} (key : β → α) {rows : List β} (hnodup : (rows.map key).Nodup) (p q : β → Bool) :
    Orderly ((rows.filter p).map key) ((rows.filter q).map key) := by
  have hstay : ∀ b ∈ rows, decide (key b ∈ (rows.filter q).map key) = q b := by
    intro b hb
    rw [Bool.eq_iff_iff, decide_eq_true_eq]
    constructor
    · intro hin
      obtain ⟨c, hc, hkey⟩ := List.mem_map.mp hin
      obtain ⟨hmem, hq⟩ := List.mem_filter.mp hc
      rwa [← List.inj_on_of_nodup_map hnodup hmem hb hkey]
    · exact fun hq => List.mem_map_of_mem (List.mem_filter.mpr ⟨hb, hq⟩)
  unfold Orderly
  rw [List.filter_map, List.filter_filter]
  have hsame : (rows.filter fun b => (fun a => decide (a ∈ (rows.filter q).map key)) (key b) && p b)
      = rows.filter fun b => q b && p b :=
    List.filter_congr fun b hb => congrArg (· && p b) (hstay b hb)
  have hboth : (rows.filter fun b => q b && p b).Sublist (rows.filter q) :=
    List.monotone_filter_right rows fun b hb => (Bool.and_eq_true_iff.mp hb).1
  exact (hsame ▸ hboth).map key

/-! ### What comes under a bound -/

/-- Where rows come in only, none does. -/
theorem rest_subset_of_sublist {rows rows' : List α} (h : rows.Sublist rows') (n : ℕ) : rest n rows ⊆ rest n rows' :=
  fun _ ha => List.mem_toFinset.mpr ((h.drop n).subset (List.mem_toFinset.mp ha))

/-- A filter moves rows down by the number of those that it takes out. -/
theorem rest_filter_le (p : α → Bool) (n : ℕ) (rows : List α) :
    (rest n rows \ rest n (rows.filter p)).card ≤ (rows.filter fun a => !p a).length := by
  rcases Nat.lt_or_ge rows.length n with hshort | hlong
  · have hnone : rest n rows = ∅ := by
      unfold rest
      rw [List.drop_of_length_le hshort.le]
      rfl
    rw [hnone, Finset.empty_sdiff]
    exact Nat.zero_le _
  · set early := rows.take n
    set late := rows.drop n with hlate
    have hcover : rest n rows \ rest n (rows.filter p)
        ⊆ ((late.filter fun a => !p a) ++ (late.filter p).take (n - (early.filter p).length)).toFinset := by
      intro a ha
      obtain ⟨hin, hout⟩ := Finset.mem_sdiff.mp ha
      rw [rest, List.mem_toFinset] at hin hout
      rw [drop_filter] at hout
      rw [List.mem_toFinset, List.mem_append]
      cases hp : p a with
      | false => exact .inl (List.mem_filter.mpr ⟨hin, by rw [hp]; rfl⟩)
      | true =>
        have hmem : a ∈ late.filter p := List.mem_filter.mpr ⟨hin, hp⟩
        rw [← List.take_append_drop (n - (early.filter p).length) (late.filter p), List.mem_append] at hmem
        exact .inr (hmem.resolve_right hout)
    have htaken : (early.filter p).length + (early.filter fun a => !p a).length = n := by
      rw [← List.length_eq_length_filter_add p, List.length_take_of_le hlong]
    have hall : (rows.filter fun a => !p a).length
        = (early.filter fun a => !p a).length + (late.filter fun a => !p a).length := by
      conv_lhs => rw [← List.take_append_drop n rows, List.filter_append, List.length_append]
    calc (rest n rows \ rest n (rows.filter p)).card
        ≤ ((late.filter fun a => !p a) ++ (late.filter p).take (n - (early.filter p).length)).length :=
          (Finset.card_le_card hcover).trans (List.toFinset_card_le _)
      _ ≤ (late.filter fun a => !p a).length + (n - (early.filter p).length) := by
          rw [List.length_append]
          exact Nat.add_le_add_left (List.length_take_le _ _) _
      _ = (rows.filter fun a => !p a).length := by omega

/-- **At most as many rows come under a bound as leave.** -/
theorem rest_sdiff_le {rows rows' : List α} (hnodup : rows.Nodup) (h : Orderly rows rows') (n : ℕ) :
    (rest n rows \ rest n rows').card ≤ (leaving rows rows').card := by
  have hleave : (leaving rows rows').card = (rows.filter fun a => !decide (a ∈ rows')).length := by
    rw [← List.toFinset_card_of_nodup (hnodup.filter _), List.toFinset_filter]
    unfold leaving
    congr 1
    ext a
    rw [Finset.mem_sdiff, Finset.mem_filter, List.mem_toFinset, List.mem_toFinset, Bool.not_eq_true',
      decide_eq_false_iff_not]
  calc (rest n rows \ rest n rows').card
      ≤ (rest n rows \ rest n (rows.filter fun a => decide (a ∈ rows'))).card :=
        Finset.card_le_card (Finset.sdiff_subset_sdiff subset_rfl (rest_subset_of_sublist h n))
    _ ≤ (rows.filter fun a => !decide (a ∈ rows')).length := rest_filter_le _ n rows
    _ = (leaving rows rows').card := hleave.symm

/-! ### The reader -/

/-- The pages that were read, the rows they had, and the total that came with the last one. -/
structure Reading (α : Type*) where
  pages : ℕ
  shown : Finset α
  total : ℕ

def Reading.initial : Reading α := ⟨0, ∅, 0⟩

/-- The next page. -/
def Reading.turn (r : Reading α) (data : List α) (total : ℕ) : Reading α :=
  ⟨r.pages + 1, r.shown ∪ data.toFinset, total⟩

/-- There is no further page, as far as the reader knows. -/
def Reading.Complete (size : ℕ) (r : Reading α) : Prop := 0 < r.pages ∧ r.total ≤ r.pages * size

/-- Of the rows `first`, all but `left` were shown or are still to come; at the last page they were shown. -/
structure Account (size left : ℕ) (first : Finset α) (r : Reading α) (rows : List α) : Prop where
  coming : (first \ (r.shown ∪ rest (r.pages * size) rows)).card ≤ left
  complete : r.Complete size → (first \ r.shown).card ≤ left

variable {size left : ℕ} {first : Finset α} {r : Reading α} {rows rows' : List α}

theorem account_initial (rows : List α) : Account size 0 rows.toFinset .initial rows := by
  refine ⟨le_of_eq ?_, fun h => absurd h.1 (Nat.lt_irrefl 0)⟩
  show (rows.toFinset \ (∅ ∪ rest (0 * size) rows)).card = 0
  rw [Nat.zero_mul, rest, List.drop_zero, Finset.empty_union, Finset.sdiff_self, Finset.card_empty]

/-- A change between two pages. -/
theorem Account.change (h : Account size left first r rows) (hnodup : rows.Nodup) (horderly : Orderly rows rows') :
    Account size (left + (leaving rows rows').card) first r rows' := by
  refine ⟨?_, fun hcomplete => (h.complete hcomplete).trans (Nat.le_add_right _ _)⟩
  have hcover : first \ (r.shown ∪ rest (r.pages * size) rows') ⊆
      (first \ (r.shown ∪ rest (r.pages * size) rows)) ∪
        (rest (r.pages * size) rows \ rest (r.pages * size) rows') := by
    intro a ha
    simp only [Finset.mem_sdiff, Finset.mem_union, not_or] at ha ⊢
    by_cases hin : a ∈ rest (r.pages * size) rows
    · exact .inr ⟨hin, ha.2.2⟩
    · exact .inl ⟨ha.1, ha.2.1, hin⟩
  calc (first \ (r.shown ∪ rest (r.pages * size) rows')).card
      ≤ (first \ (r.shown ∪ rest (r.pages * size) rows)).card
          + (rest (r.pages * size) rows \ rest (r.pages * size) rows').card :=
        (Finset.card_le_card hcover).trans (Finset.card_union_le _ _)
    _ ≤ left + (leaving rows rows').card := Nat.add_le_add h.coming (rest_sdiff_le hnodup horderly _)

/-- A page and what is past it. -/
theorem pageRows_union_rest (pages size : ℕ) (rows : List α) :
    (pageRows (pages + 1) size rows).toFinset ∪ rest ((pages + 1) * size) rows = rest (pages * size) rows := by
  unfold pageRows rest
  rw [Nat.add_sub_cancel, Nat.succ_mul, ← List.drop_drop, ← List.toFinset_append, List.take_append_drop]

/-- A page that is read. -/
theorem Account.turn (h : Account size left first r rows) :
    Account size left first (r.turn (pageRows (r.pages + 1) size rows) rows.length) rows := by
  have hcoming : (first \ (r.shown ∪ (pageRows (r.pages + 1) size rows).toFinset ∪
      rest ((r.pages + 1) * size) rows)).card ≤ left := by
    rw [Finset.union_assoc, pageRows_union_rest]
    exact h.coming
  refine ⟨hcoming, fun hcomplete => ?_⟩
  have hlast : rows.length ≤ (r.pages + 1) * size := hcomplete.2
  have hend : rest ((r.pages + 1) * size) rows = ∅ := by
    unfold rest
    rw [List.drop_of_length_le hlast]
    rfl
  rw [hend, Finset.union_empty] at hcoming
  exact hcoming

end EdgeSphere.Library.PagedReading
