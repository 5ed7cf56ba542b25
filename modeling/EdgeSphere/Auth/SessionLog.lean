import EdgeSphere.Auth.Sessions

/-!
# What a history of sessions says

The abstract side of the session store: a `Log` of what has happened, newest first, and what follows
from it without any Redis.

* `devices` — the devices a user has a session on, most recently issued first, never more than five;
* `LastIssued` — a token is the last one issued for its user and device, and since then it has not
  been presented, logged out or evicted;
* `held` — the same as a function of the log, one entry at a time;
* `held_eq_some_iff` — the two agree.
-/

namespace EdgeSphere.Auth

/-- What happens to the sessions of a user. -/
inductive Entry where
  /-- A token was issued for a user and a device, at an instant. -/
  | issued (user device token : String) (time : ℕ)
  /-- A token was presented for refreshing. -/
  | presented (token : String)
  /-- A user logged out of a device. -/
  | loggedOut (user device : String)
  deriving DecidableEq, Repr

/-- Newest first. -/
abbrev Log := List Entry

/-- The devices `user` has a session on, most recently issued first.  A sixth one pushes the last of
them out. -/
def devices (user : String) : Log → List String
  | [] => []
  | .issued user' device _ _ :: log =>
    if user' = user then (device :: (devices user log).filter (· ≠ device)).take MAX_SESSIONS
    else devices user log
  | .presented _ :: log => devices user log
  | .loggedOut user' device :: log =>
    if user' = user then (devices user log).filter (· ≠ device) else devices user log

/-- Issuing a token for `device'` evicts `device`: with `device'` there would be six, and `device` is
the least recently issued of them. -/
def Evicts (user : String) (log : Log) (device' device : String) : Prop :=
  device' ∉ devices user log ∧ (devices user log).length = MAX_SESSIONS ∧
    (devices user log).getLast? = some device

instance (user : String) (log : Log) (device' device : String) :
    Decidable (Evicts user log device' device) := inferInstanceAs (Decidable (_ ∧ _ ∧ _))

/-- `token` is the last one issued for `(user, device)`, at `time`, and has since not been presented,
logged out or evicted. -/
def LastIssued (log : Log) (user device token : String) (time : ℕ) : Prop :=
  ∃ newer older, log = newer ++ .issued user device token time :: older ∧
    (∀ token' time', .issued user device token' time' ∉ newer) ∧
    .presented token ∉ newer ∧ .loggedOut user device ∉ newer ∧
    ∀ later device' token' time' earlier,
      newer = later ++ .issued user device' token' time' :: earlier →
        ¬ Evicts user (earlier ++ .issued user device token time :: older) device' device

/-- The token of `(user, device)` and when it was issued, if it still stands. -/
def held (user device : String) : Log → Option (String × ℕ)
  | [] => none
  | .issued user' device' token time :: log =>
    if user' = user then
      if device' = device then some (token, time)
      else if Evicts user log device' device then none else held user device log
    else held user device log
  | .presented token :: log =>
    if (held user device log).map Prod.fst = some token then none else held user device log
  | .loggedOut user' device' :: log =>
    if user' = user ∧ device' = device then none else held user device log

/-! ### The devices of a user -/

theorem devices_length (user : String) (log : Log) : (devices user log).length ≤ MAX_SESSIONS := by
  induction log with
  | nil => exact Nat.zero_le _
  | cons e log ih =>
    cases e with
    | issued user' device token time =>
      simp only [devices]
      split
      · exact List.length_take_le _ _
      · exact ih
    | presented token => exact ih
    | loggedOut user' device =>
      simp only [devices]
      split
      · exact (List.length_filter_le _ _).trans ih
      · exact ih

theorem devices_nodup (user : String) (log : Log) : (devices user log).Nodup := by
  induction log with
  | nil => exact List.nodup_nil
  | cons e log ih =>
    cases e with
    | issued user' device token time =>
      simp only [devices]
      split
      · refine List.Nodup.sublist (List.take_sublist _ _) (List.nodup_cons.mpr ⟨?_, ih.filter _⟩)
        simp
      · exact ih
    | presented token => exact ih
    | loggedOut user' device =>
      simp only [devices]
      split
      · exact ih.filter _
      · exact ih

/-- Issuing for another device keeps a device that it does not evict. -/
theorem mem_take_of_not_evicted {user device device' : String} {log : Log}
    (hmem : device ∈ devices user log) (hne : device ≠ device')
    (hev : ¬ Evicts user log device' device) :
    device ∈ (device' :: (devices user log).filter (· ≠ device')).take MAX_SESSIONS := by
  have hle := devices_length user log
  have hfilter : device ∈ (devices user log).filter (· ≠ device') :=
    List.mem_filter.mpr ⟨hmem, decide_eq_true hne⟩
  by_cases hfull : device' ∉ devices user log ∧ (devices user log).length = MAX_SESSIONS
  · obtain ⟨hnot, hlen⟩ := hfull
    have hself : (devices user log).filter (· ≠ device') = devices user log := by
      rw [List.filter_eq_self]
      intro x hx
      exact decide_eq_true fun heq => hnot (heq ▸ hx)
    have hnonempty : devices user log ≠ [] := List.ne_nil_of_mem hmem
    have hlast : device ≠ (devices user log).getLast hnonempty := fun heq =>
      hev ⟨hnot, hlen, by rw [List.getLast?_eq_getLast_of_ne_nil hnonempty, heq]⟩
    have hinit : device ∈ (devices user log).dropLast :=
      List.mem_dropLast_of_mem_of_ne_getLast hmem hlast
    rw [hself, MAX_SESSIONS, List.take_succ_cons]
    rw [List.dropLast_eq_take, hlen] at hinit
    exact List.mem_cons_of_mem _ hinit
  · have hshort : ((devices user log).filter (· ≠ device')).length + 1 ≤ MAX_SESSIONS := by
      by_cases hin : device' ∈ devices user log
      · have hlt : ((devices user log).filter (· ≠ device')).length < (devices user log).length :=
          List.length_filter_lt_length_iff_exists.mpr ⟨device', hin, by simp⟩
        omega
      · have hlen : (devices user log).length ≠ MAX_SESSIONS := fun heq => hfull ⟨hin, heq⟩
        have hflen := List.length_filter_le (fun x => decide (x ≠ device')) (devices user log)
        omega
    rw [List.take_of_length_le (by rw [List.length_cons]; exact hshort)]
    exact List.mem_cons_of_mem _ hfilter

/-- A device with a standing token has a session. -/
theorem mem_devices_of_held {user device : String} {log : Log} {p : String × ℕ}
    (h : held user device log = some p) : device ∈ devices user log := by
  induction log with
  | nil => cases h
  | cons e log ih =>
    cases e with
    | issued user' device' token time =>
      simp only [held] at h
      simp only [devices]
      split at h
      · rename_i hu
        rw [if_pos hu]
        split at h
        · rename_i hd
          rw [hd]
          exact List.mem_cons_self
        · rename_i hd
          split at h
          · cases h
          · rename_i hev
            exact mem_take_of_not_evicted (ih h) (fun heq => hd heq.symm) hev
      · rename_i hu
        rw [if_neg hu]
        exact ih h
    | presented token =>
      simp only [held] at h
      split at h
      · cases h
      · exact ih h
    | loggedOut user' device' =>
      simp only [held] at h
      simp only [devices]
      split at h
      · cases h
      · rename_i hne
        split
        · rename_i hu
          exact List.mem_filter.mpr ⟨ih h, decide_eq_true fun heq => hne ⟨hu, heq.symm⟩⟩
        · exact ih h

/-! ### The two readings agree -/

/-- `LastIssued` one entry at a time. -/
theorem lastIssued_cons (e : Entry) (log : Log) (user device token : String) (time : ℕ) :
    LastIssued (e :: log) user device token time ↔
      e = .issued user device token time ∨
        LastIssued log user device token time ∧
          (∀ token' time', e ≠ .issued user device token' time') ∧ e ≠ .presented token ∧
          e ≠ .loggedOut user device ∧
          ∀ device' token' time', e = .issued user device' token' time' →
            ¬ Evicts user log device' device := by
  constructor
  · intro ⟨newer, older, hlog, hissue, hpres, hout, hevict⟩
    cases newer with
    | nil =>
      rw [List.nil_append, List.cons.injEq] at hlog
      exact Or.inl hlog.1
    | cons n newer =>
      rw [List.cons_append, List.cons.injEq] at hlog
      obtain ⟨rfl, rfl⟩ := hlog
      refine Or.inr ⟨⟨newer, older, rfl, ?_, ?_, ?_, ?_⟩, ?_, ?_, ?_, ?_⟩
      · exact fun token' time' hmem => hissue token' time' (List.mem_cons_of_mem _ hmem)
      · exact fun hmem => hpres (List.mem_cons_of_mem _ hmem)
      · exact fun hmem => hout (List.mem_cons_of_mem _ hmem)
      · intro later device' token' time' earlier hsplit
        exact hevict (e :: later) device' token' time' earlier (by rw [hsplit]; rfl)
      · exact fun token' time' heq => hissue token' time' (heq ▸ List.mem_cons_self)
      · exact fun heq => hpres (heq ▸ List.mem_cons_self)
      · exact fun heq => hout (heq ▸ List.mem_cons_self)
      · exact fun device' token' time' heq => hevict [] device' token' time' newer (by rw [heq]; rfl)
  · intro h
    rcases h with rfl | ⟨⟨newer, older, rfl, hissue, hpres, hout, hevict⟩, hissue', hpres', hout', hevict'⟩
    · refine ⟨[], log, rfl, ?_, ?_, ?_, ?_⟩
      · simp
      · simp
      · simp
      · intro later device' token' time' earlier hsplit
        simp at hsplit
    · refine ⟨e :: newer, older, rfl, ?_, ?_, ?_, ?_⟩
      · intro token' time' hmem
        rcases List.mem_cons.mp hmem with heq | hmem
        · exact hissue' token' time' heq.symm
        · exact hissue token' time' hmem
      · intro hmem
        rcases List.mem_cons.mp hmem with heq | hmem
        · exact hpres' heq.symm
        · exact hpres hmem
      · intro hmem
        rcases List.mem_cons.mp hmem with heq | hmem
        · exact hout' heq.symm
        · exact hout hmem
      · intro later device' token' time' earlier hsplit
        cases later with
        | nil =>
          rw [List.nil_append, List.cons.injEq] at hsplit
          obtain ⟨heq, rfl⟩ := hsplit
          exact hevict' device' token' time' heq
        | cons l later =>
          rw [List.cons_append, List.cons.injEq] at hsplit
          obtain ⟨-, rfl⟩ := hsplit
          exact hevict later device' token' time' earlier rfl

theorem not_lastIssued_nil (user device token : String) (time : ℕ) :
    ¬ LastIssued [] user device token time := by
  intro ⟨newer, older, hlog, _⟩
  simp at hlog

/-- **The two readings agree.** -/
theorem held_eq_some_iff (log : Log) (user device token : String) (time : ℕ) :
    held user device log = some (token, time) ↔ LastIssued log user device token time := by
  induction log with
  | nil =>
    constructor
    · intro h
      cases h
    · intro h
      exact absurd h (not_lastIssued_nil _ _ _ _)
  | cons e log ih =>
    rw [lastIssued_cons, ← ih]
    cases e with
    | issued user' device' token' time' =>
      simp only [held]
      by_cases hu : user' = user
      · subst hu
        by_cases hd : device' = device
        · subst hd
          simp [eq_comm]
        · by_cases hev : Evicts user' log device' device
          · simp [hd, hev]
          · simp [hd, hev]
      · simp [hu]
    | presented token' =>
      simp only [held]
      cases held user device log with
      | none => simp
      | some p =>
        obtain ⟨token'', time''⟩ := p
        simp only [Option.map_some, Option.some.injEq, Prod.mk.injEq]
        by_cases heq : token'' = token'
        · rw [if_pos heq]
          constructor
          · intro h
            cases h
          · intro h
            rcases h with h | ⟨⟨rfl, _⟩, _, hne, _⟩
            · cases h
            · exact absurd (congrArg Entry.presented heq.symm) hne
        · rw [if_neg heq, Option.some.injEq, Prod.mk.injEq]
          constructor
          · intro ⟨rfl, htime⟩
            exact Or.inr ⟨⟨rfl, htime⟩, by simp, by simpa using Ne.symm heq, by simp, by simp⟩
          · intro h
            rcases h with h | ⟨hp, _⟩
            · cases h
            · exact hp
    | loggedOut user' device' =>
      simp only [held]
      by_cases hh : user' = user ∧ device' = device
      · simp [hh]
      · simp [hh]

end EdgeSphere.Auth
