import Mathlib

/-!
# Headers of a response

A response has one header of each name, whichever letters the name is written in.  Values are of any type.

* `Headers` — the headers by their names in small letters;
* `set`, `get_set` — what is set is what is got, and nothing else changes;
* `putAll`, `get_putAll` — the headers of another response put on one after another.
-/

namespace EdgeSphere.Library

/-- `name.toLowerCase()`, for the characters of a name. -/
def lowerCase (name : String) : String := String.ofList (name.toList.map Char.toLower)

theorem lowerCase_lowerCase (name : String) : lowerCase (lowerCase name) = lowerCase name := by
  unfold lowerCase
  rw [String.toList_ofList, List.map_map]
  refine congrArg String.ofList (List.map_congr_left fun c _ => ?_)
  exact Char.toLower_eq_of_not_isUpper (by rw [Char.isUpper_toLower_eq_false]; exact Bool.false_ne_true)

/-- The headers of a response by their names in small letters, one of each name. -/
structure Headers (α : Type*) where
  entries : List (String × α)
  distinct : (entries.map Prod.fst).Nodup
  small : ∀ h ∈ entries, lowerCase h.1 = h.1

namespace Headers

variable {α : Type*}

def empty : Headers α := ⟨[], List.nodup_nil, fun _ h => by cases h⟩

def get (hs : Headers α) (name : String) : Option α := hs.entries.lookup name

/-- The entries without those of a name. -/
def others (name : String) (hs : Headers α) : List (String × α) :=
  hs.entries.filter fun h => decide (h.1 ≠ name)

theorem set_distinct (hs : Headers α) (name : String) (value : α) :
    (((name, value) :: hs.others name).map Prod.fst).Nodup := by
  rw [List.map_cons, List.nodup_cons]
  refine ⟨fun hmem => ?_, hs.distinct.sublist (List.Sublist.map _ List.filter_sublist)⟩
  obtain ⟨h, hh, hname⟩ := List.mem_map.mp hmem
  exact of_decide_eq_true (List.mem_filter.mp hh).2 hname

theorem set_small (hs : Headers α) (name : String) (value : α) :
    ∀ h ∈ (lowerCase name, value) :: hs.others (lowerCase name), lowerCase h.1 = h.1 := by
  intro h hh
  rcases List.mem_cons.mp hh with rfl | hold
  · exact lowerCase_lowerCase name
  · exact hs.small h (List.mem_filter.mp hold).1

/-- `setHeader`. -/
def set (name : String) (value : α) (hs : Headers α) : Headers α where
  entries := (lowerCase name, value) :: hs.others (lowerCase name)
  distinct := hs.set_distinct (lowerCase name) value
  small := hs.set_small name value

theorem lookup_others {name other : String} (hs : Headers α) (h : other ≠ name) :
    (hs.others name).lookup other = hs.get other := by
  unfold others get
  induction hs.entries with
  | nil => rfl
  | cons e es ih =>
    by_cases he : e.1 = name
    · have hother : (other == e.1) = false := by rw [he]; exact beq_eq_false_iff_ne.mpr h
      rw [List.filter_cons_of_neg (by simp [he]), ih, List.lookup_cons, hother]
    · rw [List.filter_cons_of_pos (by simp [he]), List.lookup_cons, List.lookup_cons, ih]

/-- **What is set is what is got.** -/
theorem get_set (hs : Headers α) (name other : String) (value : α) :
    (hs.set name value).get other = if other = lowerCase name then some value else hs.get other := by
  show List.lookup other ((lowerCase name, value) :: hs.others (lowerCase name)) = _
  rw [List.lookup_cons]
  by_cases h : other = lowerCase name
  · rw [if_pos h, beq_iff_eq.mpr h]
  · rw [if_neg h, beq_eq_false_iff_ne.mpr h]
    exact hs.lookup_others h

/-- Headers put on one after another, by `Object.entries(headers).forEach`. -/
def putAll (entries : List (String × α)) (hs : Headers α) : Headers α :=
  entries.foldl (fun hs h => hs.set h.1 h.2) hs

theorem get_putAll {entries : List (String × α)} (hdistinct : (entries.map Prod.fst).Nodup)
    (hsmall : ∀ h ∈ entries, lowerCase h.1 = h.1) (hs : Headers α) (name : String) :
    (hs.putAll entries).get name = (entries.lookup name).or (hs.get name) := by
  induction entries generalizing hs with
  | nil => rfl
  | cons e es ih =>
    obtain ⟨hfresh, hrest⟩ := List.nodup_cons.mp hdistinct
    show ((hs.set e.1 e.2).putAll es).get name = _
    rw [ih hrest (fun h hh => hsmall h (List.mem_cons_of_mem _ hh)), get_set, hsmall e List.mem_cons_self,
      List.lookup_cons]
    by_cases he : name = e.1
    · have hnone : es.lookup name = none := by
        refine List.lookup_eq_none_iff.mpr fun h hh => bne_iff_ne.mpr fun hsame => hfresh ?_
        rw [← he, hsame]
        exact List.mem_map_of_mem hh
      rw [if_pos he, hnone, beq_iff_eq.mpr he]
      rfl
    · rw [if_neg he, beq_eq_false_iff_ne.mpr he]

end Headers

end EdgeSphere.Library
