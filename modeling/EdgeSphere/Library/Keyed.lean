import Mathlib.Data.List.Nodup
import Mathlib.Data.List.TakeWhile

/-!
# Lists of entries with keys

A list in which entries are found by a key: the first entry of a key is replaced, all entries of a key are deleted,
and new ones are added at the end.

* `Distinct` — no key occurs twice;
* `updateFirst_eq_some` — what a replacement does: it changes the first entry of the key, and no other;
* `distinct_replace`, `distinct_filter`, `distinct_concat` — when keys stay distinct;
* `filter_of_distinct` — where keys are distinct, a deletion takes out one entry.
-/

namespace EdgeSphere.Library.Keyed

variable {α κ : Type*}

/-- No key occurs twice. -/
def Distinct (key : α → κ) (l : List α) : Prop := (l.map key).Nodup

instance [DecidableEq κ] (key : α → κ) (l : List α) : Decidable (Distinct key l) :=
  inferInstanceAs (Decidable (l.map key).Nodup)

/-- Replace the first entry that `found` accepts: the list, and the new entry; `none` if there is none. -/
def updateFirst (found : α → Bool) (f : α → α) (l : List α) : Option (List α × α) :=
  match l.findIdx? found with
  | none => none
  | some i => l[i]?.map fun a => (l.set i (f a), f a)

section Update

variable {found : α → Bool} {f : α → α} {l l' : List α} {b : α}

/-- **A replacement changes the first entry that is found, and no other.** -/
theorem updateFirst_eq_some : updateFirst found f l = some (l', b) ↔ ∃ before a after, l = before ++ a :: after ∧
    found a = true ∧ (∀ c ∈ before, found c = false) ∧ b = f a ∧ l' = before ++ b :: after := by
  induction l generalizing l' with
  | nil => simp [updateFirst]
  | cons c l ih =>
    by_cases hc : found c = true
    · have hfirst : updateFirst found f (c :: l) = some (f c :: l, f c) := by
        unfold updateFirst
        rw [List.findIdx?_cons, if_pos hc]
        rfl
      rw [hfirst, Option.some.injEq, Prod.mk.injEq]
      constructor
      · rintro ⟨rfl, rfl⟩
        exact ⟨[], c, l, rfl, hc, by simp, rfl, rfl⟩
      · rintro ⟨before, a, after, hsplit, -, hbefore, rfl, rfl⟩
        cases before with
        | nil => cases hsplit; exact ⟨rfl, rfl⟩
        | cons d before =>
          cases hsplit
          rw [hbefore c List.mem_cons_self] at hc
          cases hc
    · have hrest : updateFirst found f (c :: l) = (updateFirst found f l).map fun p => (c :: p.1, p.2) := by
        unfold updateFirst
        rw [List.findIdx?_cons, if_neg hc]
        cases l.findIdx? found with
        | none => rfl
        | some i =>
          show ((c :: l)[i + 1]?.map fun a => ((c :: l).set (i + 1) (f a), f a))
            = (l[i]?.map fun a => (l.set i (f a), f a)).map fun p => (c :: p.1, p.2)
          rw [List.getElem?_cons_succ, Option.map_map]
          rfl
      rw [hrest, Option.map_eq_some_iff]
      constructor
      · rintro ⟨⟨m, d⟩, hm, heq⟩
        simp only [Prod.mk.injEq] at heq
        obtain ⟨rfl, rfl⟩ := heq
        obtain ⟨before, a, after, rfl, ha, hbefore, rfl, rfl⟩ := ih.mp hm
        refine ⟨c :: before, a, after, rfl, ha, fun d hd => ?_, rfl, rfl⟩
        rcases List.mem_cons.mp hd with rfl | hd
        · exact eq_false_of_ne_true hc
        · exact hbefore d hd
      · rintro ⟨before, a, after, hsplit, ha, hbefore, rfl, rfl⟩
        cases before with
        | nil => cases hsplit; exact absurd ha hc
        | cons d before =>
          cases hsplit
          have hbefore' : ∀ e ∈ before, found e = false := fun e he => hbefore e (List.mem_cons_of_mem _ he)
          exact ⟨_, ih.mpr ⟨before, a, after, rfl, ha, hbefore', rfl, rfl⟩, rfl⟩

theorem updateFirst_eq_none : updateFirst found f l = none ↔ ∀ a ∈ l, found a = false := by
  unfold updateFirst
  rw [← List.findIdx?_eq_none_iff]
  cases hfind : l.findIdx? found with
  | none => simp
  | some i =>
    obtain ⟨hi, -⟩ := List.findIdx?_eq_some_iff_getElem.mp hfind
    simp [List.getElem?_eq_getElem hi]

end Update

section Distinct

variable {key : α → κ} {before after l : List α} {a b : α}

/-- A key belongs to one entry. -/
theorem Distinct.eq (h : Distinct key l) (ha : a ∈ l) (hb : b ∈ l) (hkey : key a = key b) : a = b :=
  List.inj_on_of_nodup_map h ha hb hkey

/-- A replacement that leaves the key alone. -/
theorem distinct_replace (h : Distinct key (before ++ a :: after)) (hkey : key b = key a) :
    Distinct key (before ++ b :: after) := by
  unfold Distinct at h ⊢
  rw [List.map_append, List.map_cons] at h ⊢
  rw [hkey]
  exact h

/-- A deletion. -/
theorem distinct_filter (h : Distinct key l) (keep : α → Bool) : Distinct key (l.filter keep) :=
  h.sublist (List.filter_sublist.map key)

/-- A new entry of a new key. -/
theorem distinct_concat (h : Distinct key l) (hnew : key a ∉ l.map key) : Distinct key (l ++ [a]) := by
  unfold Distinct at h ⊢
  rw [List.map_append, List.map_cons, List.map_nil]
  exact List.nodup_append'.mpr ⟨h, List.nodup_singleton _, List.disjoint_singleton.mpr hnew⟩

/-- **Where keys are distinct, deleting a key deletes one entry.** -/
theorem filter_of_distinct {keep : α → Bool} (hkeep : ∀ b, keep b = false ↔ key b = key a)
    (h : Distinct key (before ++ a :: after)) : (before ++ a :: after).filter keep = before ++ after := by
  unfold Distinct at h
  rw [List.map_append, List.map_cons, List.nodup_middle, List.nodup_cons, ← List.map_append] at h
  have hothers : ∀ b ∈ before ++ after, keep b = true := by
    intro b hb
    by_contra hfalse
    exact h.1 ((hkeep b).mp (eq_false_of_ne_true hfalse) ▸ List.mem_map_of_mem hb)
  rw [List.filter_append, List.filter_cons_of_neg (by rw [(hkeep a).mpr rfl]; exact Bool.false_ne_true),
    ← List.filter_append]
  exact List.filter_eq_self.mpr hothers

end Distinct

end EdgeSphere.Library.Keyed
