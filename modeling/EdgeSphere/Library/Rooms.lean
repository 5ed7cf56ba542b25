import Mathlib.Data.Finset.Image
import Mathlib.Data.Finset.Prod
import Mathlib.Logic.Function.Basic

/-!
# Rooms

A server that sends messages to the clients of a room.  Only clients that are online are in rooms.

* `Hub` — the clients online, the rooms they are in, and what each has received;
* `connect`, `disconnect`, `joinAll`, `leaveAll` — who is in which room afterwards: `mem_disconnect`,
  `mem_joinAll`, `mem_leaveAll`;
* `tell`, `publish` — what a client has received afterwards: `inbox_tell`, `inbox_publish`.
-/

namespace EdgeSphere.Library

/-- The clients `κ`, the rooms `ρ` and the messages `μ` of a server. -/
structure Hub (κ ρ μ : Type*) where
  online : Finset κ
  members : Finset (κ × ρ)
  inbox : κ → List μ
  members_online : ∀ m ∈ members, m.1 ∈ online

namespace Hub

variable {κ ρ μ : Type*} {h : Hub κ ρ μ} {c c' : κ} {r : ρ} {rooms : List ρ} {m : μ}

def empty : Hub κ ρ μ := ⟨∅, ∅, fun _ => [], fun _ h => absurd h (Finset.notMem_empty _)⟩

/-- A client that is not online is in no room. -/
theorem notMem_of_offline (hc : c ∉ h.online) : (c, r) ∉ h.members := fun hm => hc (h.members_online _ hm)

/-! ### Clients -/

variable [DecidableEq κ]

def connect (h : Hub κ ρ μ) (c : κ) : Hub κ ρ μ :=
  { h with
    online := insert c h.online
    members_online := fun m hm => Finset.mem_insert_of_mem (h.members_online m hm) }

/-- A client that goes leaves its rooms. -/
def disconnect (h : Hub κ ρ μ) (c : κ) : Hub κ ρ μ :=
  { h with
    online := h.online.erase c
    members := h.members.filter fun m => m.1 ≠ c
    members_online := fun m hm => Finset.mem_erase.mpr
      ⟨(Finset.mem_filter.mp hm).2, h.members_online m (Finset.mem_filter.mp hm).1⟩ }

/-- A message for one client. -/
def tell (h : Hub κ ρ μ) (c : κ) (m : μ) : Hub κ ρ μ :=
  { h with inbox := Function.update h.inbox c (h.inbox c ++ [m]) }

@[simp] theorem members_connect : (h.connect c).members = h.members := rfl

@[simp] theorem online_connect : (h.connect c).online = insert c h.online := rfl

@[simp] theorem inbox_connect : (h.connect c).inbox = h.inbox := rfl

@[simp] theorem mem_disconnect : (c', r) ∈ (h.disconnect c).members ↔ (c', r) ∈ h.members ∧ c' ≠ c :=
  Finset.mem_filter

@[simp] theorem online_disconnect : (h.disconnect c).online = h.online.erase c := rfl

@[simp] theorem inbox_disconnect : (h.disconnect c).inbox = h.inbox := rfl

@[simp] theorem members_tell : (h.tell c m).members = h.members := rfl

@[simp] theorem online_tell : (h.tell c m).online = h.online := rfl

theorem inbox_tell : (h.tell c m).inbox c' = h.inbox c' ++ if c' = c then [m] else [] := by
  unfold tell
  simp only
  by_cases hc : c' = c
  · rw [hc, Function.update_self, if_pos rfl]
  · rw [Function.update_of_ne hc, if_neg hc, List.append_nil]

/-! ### Rooms -/

variable [DecidableEq ρ]

/-- Join some rooms; only a client online can. -/
def joinAll (h : Hub κ ρ μ) (c : κ) (rooms : List ρ) : Hub κ ρ μ :=
  if hc : c ∈ h.online then
    { h with
      members := h.members ∪ rooms.toFinset.image fun r => (c, r)
      members_online := fun m hm => by
        rcases Finset.mem_union.mp hm with hm | hm
        · exact h.members_online m hm
        · obtain ⟨r, -, rfl⟩ := Finset.mem_image.mp hm
          exact hc }
  else h

def leaveAll (h : Hub κ ρ μ) (c : κ) (rooms : List ρ) : Hub κ ρ μ :=
  { h with
    members := h.members.filter fun m => ¬ (m.1 = c ∧ m.2 ∈ rooms)
    members_online := fun m hm => h.members_online m (Finset.mem_filter.mp hm).1 }

/-- A message for everybody in the room. -/
def publish (h : Hub κ ρ μ) (r : ρ) (m : μ) : Hub κ ρ μ :=
  { h with inbox := fun c => if (c, r) ∈ h.members then h.inbox c ++ [m] else h.inbox c }

@[simp] theorem online_joinAll : (h.joinAll c rooms).online = h.online := by
  unfold joinAll
  split <;> rfl

@[simp] theorem inbox_joinAll : (h.joinAll c rooms).inbox = h.inbox := by
  unfold joinAll
  split <;> rfl

theorem mem_joinAll (hc : c ∈ h.online) :
    (c', r) ∈ (h.joinAll c rooms).members ↔ (c', r) ∈ h.members ∨ c' = c ∧ r ∈ rooms := by
  unfold joinAll
  rw [dif_pos hc, Finset.mem_union]
  refine or_congr_right ?_
  rw [Finset.mem_image]
  constructor
  · rintro ⟨_, hroom, heq⟩
    cases heq
    exact ⟨rfl, List.mem_toFinset.mp hroom⟩
  · rintro ⟨rfl, hroom⟩
    exact ⟨r, List.mem_toFinset.mpr hroom, rfl⟩

@[simp] theorem mem_leaveAll :
    (c', r) ∈ (h.leaveAll c rooms).members ↔ (c', r) ∈ h.members ∧ ¬ (c' = c ∧ r ∈ rooms) := Finset.mem_filter

@[simp] theorem online_leaveAll : (h.leaveAll c rooms).online = h.online := rfl

@[simp] theorem inbox_leaveAll : (h.leaveAll c rooms).inbox = h.inbox := rfl

@[simp] theorem members_publish : (h.publish r m).members = h.members := rfl

@[simp] theorem online_publish : (h.publish r m).online = h.online := rfl

theorem inbox_publish : (h.publish r m).inbox c = h.inbox c ++ if (c, r) ∈ h.members then [m] else [] := by
  unfold publish
  simp only
  split
  · rfl
  · exact (List.append_nil _).symm

end Hub

end EdgeSphere.Library
