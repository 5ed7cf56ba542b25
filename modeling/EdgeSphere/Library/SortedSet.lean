import Mathlib.Data.List.Nodup
import Mathlib.Data.List.MinMax
import Mathlib.Order.Defs.LinearOrder

/-!
# Sorted sets

Members with scores, one score a member, the container behind a key-value server's sorted-set
commands.  `SortedSet` carries the "one score a member" invariant as a field, so that every command
below returns a well-formed set by construction.

* `zadd` — insert a member or move it to a new score;
* `zrem`, `zremrangebyscore` — drop a member, drop a closed range of scores;
* `zcard` — the number of members;
* `zrangeFirst` — the member of rank `0`: the least score, ties broken by the member.

Entries are kept newest first (`zadd` puts its member in front).  The order is not observable through
the commands, but it makes the set of a client that adds at increasing scores a list in decreasing
order of score (`Decreasing`), whose last entry is the one of rank `0` (`zrangeFirst_of_decreasing`).
-/

namespace EdgeSphere.Library

variable {μ κ : Type*}

/-- Members with their scores, no member twice. -/
structure SortedSet (μ κ : Type*) where
  entries : List (μ × κ)
  nodup : (entries.map Prod.fst).Nodup

namespace SortedSet

@[ext] theorem ext {s t : SortedSet μ κ} (h : s.entries = t.entries) : s = t := by
  cases s; cases t; cases h; rfl

/-- The set of a key that does not exist. -/
def empty : SortedSet μ κ := ⟨[], List.nodup_nil⟩

@[simp] theorem empty_entries : (empty : SortedSet μ κ).entries = [] := rfl

/-- The members, newest first. -/
def members (s : SortedSet μ κ) : List μ := s.entries.map Prod.fst

/-- Keep the entries that satisfy `p`. -/
def keep (p : μ × κ → Bool) (s : SortedSet μ κ) : SortedSet μ κ :=
  ⟨s.entries.filter p, s.nodup.sublist (List.filter_sublist.map Prod.fst)⟩

/-- `ZCARD`. -/
def zcard (s : SortedSet μ κ) : ℕ := s.entries.length

/-! ### Commands that compare members -/

section Members

variable [DecidableEq μ]

/-- `ZREM key member`. -/
def zrem (member : μ) (s : SortedSet μ κ) : SortedSet μ κ := s.keep fun e => decide (e.1 ≠ member)

/-- `ZADD key score member`: a member that is already there moves to the new score. -/
def zadd (score : κ) (member : μ) (s : SortedSet μ κ) : SortedSet μ κ where
  entries := (member, score) :: (s.zrem member).entries
  nodup := by
    rw [List.map_cons, List.nodup_cons]
    refine ⟨?_, (s.zrem member).nodup⟩
    simp [zrem, keep]

@[simp] theorem zrem_entries (member : μ) (s : SortedSet μ κ) :
    (s.zrem member).entries = s.entries.filter fun e => decide (e.1 ≠ member) := rfl

@[simp] theorem zadd_entries (score : κ) (member : μ) (s : SortedSet μ κ) :
    (s.zadd score member).entries
      = (member, score) :: s.entries.filter fun e => decide (e.1 ≠ member) := rfl

/-- Adding a member that is not there yet only puts it in front. -/
theorem zadd_entries_of_fresh {score : κ} {member : μ} {s : SortedSet μ κ}
    (h : member ∉ s.members) : (s.zadd score member).entries = (member, score) :: s.entries := by
  rw [zadd_entries, List.filter_eq_self.mpr]
  intro e he
  have hne : e.1 ≠ member := fun heq => h (heq ▸ List.mem_map_of_mem he)
  simpa using hne

theorem members_zrem (member : μ) (s : SortedSet μ κ) :
    (s.zrem member).members = s.members.filter fun x => decide (x ≠ member) := by
  rw [members, zrem_entries, members, List.filter_map]
  rfl

theorem members_zadd (score : κ) (member : μ) (s : SortedSet μ κ) :
    (s.zadd score member).members
      = member :: s.members.filter fun x => decide (x ≠ member) := by
  rw [← members_zrem]
  rfl

/-- Removing the last member of a list without repetitions drops it. -/
theorem filter_ne_getLast {l : List μ} (h : l.Nodup) {x : μ} (hx : l.getLast? = some x) :
    l.filter (fun y => decide (y ≠ x)) = l.dropLast := by
  obtain ⟨init, rfl⟩ := List.getLast?_eq_some_iff.mp hx
  have hnot : x ∉ init := fun hmem =>
    (List.nodup_append.mp h).2.2 x hmem x (List.mem_singleton_self x) rfl
  rw [List.filter_append, List.dropLast_concat]
  have hself : init.filter (fun y => decide (y ≠ x)) = init := by
    rw [List.filter_eq_self]
    intro y hy
    exact decide_eq_true fun heq => hnot (heq ▸ hy)
  rw [hself]
  simp

end Members

/-! ### Commands that read the scores -/

section Scores

variable [LinearOrder κ]

/-- `ZREMRANGEBYSCORE key lo hi`, both ends included. -/
def zremrangebyscore (lo hi : κ) (s : SortedSet μ κ) : SortedSet μ κ :=
  s.keep fun e => !(decide (lo ≤ e.2) && decide (e.2 ≤ hi))

@[simp] theorem zremrangebyscore_entries (lo hi : κ) (s : SortedSet μ κ) :
    (s.zremrangebyscore lo hi).entries
      = s.entries.filter fun e => !(decide (lo ≤ e.2) && decide (e.2 ≤ hi)) := rfl

/-- Rank order: by score, then by member. -/
def ranksBefore [LT μ] [DecidableLT μ] (a b : μ × κ) : Bool :=
  decide (a.2 < b.2) || (decide (a.2 = b.2) && decide (a.1 < b.1))

/-- `ZRANGE key 0 0`: the member of rank `0`, if the set has one. -/
def zrangeFirst [LT μ] [DecidableLT μ] (s : SortedSet μ κ) : Option μ :=
  match s.entries with
  | [] => none
  | e :: es => some (es.foldl (fun best x => if ranksBefore x best then x else best) e).1

/-- Newest first is also highest score first, strictly. -/
def Decreasing (es : List (μ × κ)) : Prop := es.Pairwise fun a b => b.2 < a.2

theorem Decreasing.filter {es : List (μ × κ)} (h : Decreasing es) (p : μ × κ → Bool) :
    Decreasing (es.filter p) := List.Pairwise.sublist List.filter_sublist h

theorem foldl_lowest_of_decreasing [LT μ] [DecidableLT μ] (e : μ × κ) (es : List (μ × κ))
    (h : Decreasing (e :: es)) :
    es.foldl (fun best x => if ranksBefore x best then x else best) e
      = (e :: es).getLast (List.cons_ne_nil e es) := by
  induction es generalizing e with
  | nil => rfl
  | cons x xs ih =>
    obtain ⟨hlt, htail⟩ := List.pairwise_cons.mp h
    have hx : ranksBefore x e = true := by simp [ranksBefore, hlt x List.mem_cons_self]
    rw [List.foldl_cons, if_pos hx, ih x htail, List.getLast_cons_cons]

/-- In a set kept in decreasing order of score, rank `0` is the oldest entry. -/
theorem zrangeFirst_of_decreasing [LT μ] [DecidableLT μ] {s : SortedSet μ κ}
    (h : Decreasing s.entries) : s.zrangeFirst = s.members.getLast? := by
  obtain ⟨entries, nodup⟩ := s
  cases entries with
  | nil => rfl
  | cons e es =>
    show some (es.foldl _ e).1 = ((e :: es).map Prod.fst).getLast?
    rw [foldl_lowest_of_decreasing e es h, List.getLast?_map,
      List.getLast?_eq_getLast_of_ne_nil (List.cons_ne_nil e es)]
    rfl

end Scores

end SortedSet

end EdgeSphere.Library
