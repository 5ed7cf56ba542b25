import EdgeSphere.Library.Interference
import EdgeSphere.Gateway.SlidingWindow

/-!
# The sliding window, command by command

A pipeline is no transaction: between two commands of one call Redis may run commands of other calls, issued by
other gateways with clocks of their own.

* `slidingWindowProgram` — one call as the program of its four commands; alone it is `slidingWindow`
  (`exec_slidingWindowProgram`);
* `Spares` — a step takes out nothing that a call has still to count;
* `Tracks` — the invariant: what the calls have added is there while it matters, and every call has counted
  what was added before it;
* `admitted_le` — **no window holds more than `limit` admitted calls**, if every step of the run spares what is to be
  counted.
-/

namespace EdgeSphere.Gateway

open EdgeSphere.Library
open EdgeSphere.Library.Expiry
open EdgeSphere.Library.Program
open EdgeSphere.Library.Runs

variable {K : Type} [Field K] [LinearOrder K] [FloorRing K]

/-! ### One call -/

/-- The commands of the pipeline, on one key. -/
inductive WindowCommand (K : Type) where
  | zadd (score : K) (member : String)
  | zremrangebyscore (min max : K)
  | zcard
  | expire (seconds : ℤ)

abbrev WindowAnswer : WindowCommand K → Type
  | .zcard => ℕ
  | .zadd _ _ | .zremrangebyscore _ _ | .expire _ => Unit

/-- Redis is healthy: nothing is thrown. -/
abbrev WindowProgram (K : Type) [Field K] [LinearOrder K] [FloorRing K] :=
  Program (WindowCommand K) WindowAnswer Empty (SlidingWindowReply K)

abbrev send (c : WindowCommand K) : Program (WindowCommand K) WindowAnswer Empty (WindowAnswer c) := command c

/-- The key of one identifier. -/
abbrev WindowKey (K : Type) := Option (Cell (SortedSet String K))

/-- A sorted set that becomes empty is a missing key. -/
def dropEmpty : WindowKey K → WindowKey K
  | none => none
  | some cell => if cell.value.zcard = 0 then none else some cell

/-- Redis executes one command at the reading `t` of its clock. -/
def execute (t : ℕ) (key : WindowKey K) : (c : WindowCommand K) → WindowKey K × Except Empty (WindowAnswer c)
  | .zadd score member => (modify t (fun s => (s.getD .empty).zadd score member) key, .ok ())
  | .zremrangebyscore min max => (dropEmpty (modify t (fun s => (s.getD .empty).zremrangebyscore min max) key), .ok ())
  | .zcard => (key, .ok ((read t key).getD .empty).zcard)
  | .expire seconds => (expire t seconds key, .ok ())

/-- `RateLimitService.slidingWindow`, with the clock and the request id of the call. -/
def slidingWindowProgram (limit windowMs : K) (c : WindowCall) : WindowProgram K := do
  send (.zadd (c.now : K) c.requestId)
  send (.zremrangebyscore 0 ((c.now : K) - windowMs))
  let card : ℕ ← send .zcard
  send (.expire ⌈windowMs / 1000⌉)
  return slidingWindowReply limit windowMs c.now (some card)

omit [Field K] [LinearOrder K] [FloorRing K] in
/-- What is read of a set that has been changed, and when its key goes. -/
theorem dropEmpty_modify (t : ℕ) (f : Option (SortedSet String K) → SortedSet String K) (key : WindowKey K) :
    ((read t (dropEmpty (modify t f key))).getD .empty).zcard = (f (read t key)).zcard ∧
      dropEmpty (modify t f key) = if (f (read t key)).zcard = 0 then none else modify t f key := by
  have hmodify := read_modify t f key
  cases hkey : modify t f key with
  | none =>
    rw [hkey] at hmodify
    cases hmodify
  | some cell =>
    rw [hkey] at hmodify
    rw [← value_of_read hmodify]
    unfold dropEmpty
    by_cases hempty : cell.value.zcard = 0
    · simp only [hempty, if_true]
      exact ⟨rfl, trivial⟩
    · simp only [hempty, if_false]
      rw [hmodify, ← value_of_read hmodify]
      exact ⟨rfl, trivial⟩

/-- **Alone, the program is the pipeline** executed as a whole. -/
theorem exec_slidingWindowProgram (limit windowMs : K) (c : WindowCall) (key : WindowKey K) :
    exec (execute c.now) key (slidingWindowProgram limit windowMs c)
      = ((slidingPipeline c.requestId windowMs c.now key).1,
          .ok (slidingWindowReply limit windowMs c.now (some (slidingPipeline c.requestId windowMs c.now key).2))) := by
  obtain ⟨hcard, hdrop⟩ := dropEmpty_modify c.now
    (fun s => (s.getD .empty).zremrangebyscore 0 ((c.now : K) - windowMs))
    (modify c.now (fun s => (s.getD .empty).zadd (c.now : K) c.requestId) key)
  unfold slidingPipeline
  simp only [read_modify, Option.getD_some] at hcard hdrop ⊢
  refine Prod.ext ?_ ?_
  · exact congrArg (expire c.now ⌈windowMs / 1000⌉) hdrop
  · exact congrArg (fun card => Except.ok (slidingWindowReply limit windowMs c.now (some card))) hcard

/-! ### Where a call stands -/

/-- How far a call has come, with what it has counted. -/
inductive Stage where
  | add
  | trim
  | count
  | refresh (card : ℕ)
  | done (card : ℕ)
  deriving DecidableEq

/-- What is left of the program. -/
def Stage.rest (limit windowMs : K) (c : WindowCall) : Stage → WindowProgram K
  | add => slidingWindowProgram limit windowMs c
  | trim => do
    send (.zremrangebyscore 0 ((c.now : K) - windowMs))
    let card : ℕ ← send .zcard
    send (.expire ⌈windowMs / 1000⌉)
    return slidingWindowReply limit windowMs c.now (some card)
  | count => do
    let card : ℕ ← send .zcard
    send (.expire ⌈windowMs / 1000⌉)
    return slidingWindowReply limit windowMs c.now (some card)
  | refresh card => do
    send (.expire ⌈windowMs / 1000⌉)
    return slidingWindowReply limit windowMs c.now (some card)
  | done card => return slidingWindowReply limit windowMs c.now (some card)

/-- The command it sends next. -/
def Stage.command (windowMs : K) (c : WindowCall) : Stage → Option (WindowCommand K)
  | add => some (.zadd (c.now : K) c.requestId)
  | trim => some (.zremrangebyscore 0 ((c.now : K) - windowMs))
  | count => some .zcard
  | refresh _ => some (.expire ⌈windowMs / 1000⌉)
  | done _ => none

/-- Where it stands after that, if `card` is what would be counted. -/
def Stage.next (card : ℕ) : Stage → Stage
  | add => trim
  | trim => count
  | count => refresh card
  | refresh card => done card
  | done card => done card

theorem Stage.nextCommand_rest (limit windowMs : K) (c : WindowCall) (stage : Stage) :
    (stage.rest limit windowMs c).nextCommand = stage.command windowMs c := by
  cases stage <;> rfl

/-- The size of the set at the reading `t` of the clock. -/
def cardAt (t : ℕ) (key : WindowKey K) : ℕ := ((read t key).getD .empty).zcard

variable {ι : Type*}

/-- The calls of a run, each at its stage. -/
def poolAt (limit windowMs : K) (calls : ι → WindowCall) (key : WindowKey K) (stage : ι → Stage) :
    Pool (WindowKey K) ι (WindowCommand K) WindowAnswer Empty (SlidingWindowReply K) :=
  ⟨key, fun i => (stage i).rest limit windowMs (calls i)⟩

section Runs

variable [DecidableEq ι] {limit windowMs : K} {calls : ι → WindowCall} {key : WindowKey K} {stage : ι → Stage}

/-- **A step** executes the next command of one call. -/
theorem step_poolAt {pool : Pool (WindowKey K) ι (WindowCommand K) WindowAnswer Empty (SlidingWindowReply K)}
    {i : ι} {t : ℕ} (hstep : Pool.step execute (poolAt limit windowMs calls key stage) (i, t) = some pool) :
    ∃ c, (stage i).command windowMs (calls i) = some c ∧
      pool = poolAt limit windowMs calls (execute t key c).1
        (Function.update stage i ((stage i).next (cardAt t key))) := by
  obtain ⟨c, next, hi, rfl⟩ := Pool.step_eq_some.mp hstep
  have hrest : (stage i).rest limit windowMs (calls i) = call c next := hi
  have hcommand : (stage i).command windowMs (calls i) = some c := by
    rw [← Stage.nextCommand_rest limit, hrest]
    rfl
  have hnext : next (execute t key c).2 = ((stage i).next (cardAt t key)).rest limit windowMs (calls i) := by
    cases hstage : stage i with
    | add =>
      rw [hstage] at hrest
      cases hrest
      rfl
    | trim =>
      rw [hstage] at hrest
      cases hrest
      rfl
    | count =>
      rw [hstage] at hrest
      cases hrest
      rfl
    | refresh card =>
      rw [hstage] at hrest
      cases hrest
      rfl
    | done card =>
      rw [hstage] at hrest
      cases hrest
  refine ⟨c, hcommand, ?_⟩
  show Pool.mk _ _ = Pool.mk _ _
  rw [show next (execute t (poolAt limit windowMs calls key stage).state c).2 = _ from hnext]
  congr 1
  funext j
  by_cases hji : j = i
  · subst hji
    rw [Function.update_self, Function.update_self]
  · rw [Function.update_of_ne hji, Function.update_of_ne hji]
    rfl

end Runs

/-! ### What a step takes out -/

omit [Field K] [FloorRing K] in
/-- The command drops entries of this score. -/
def WindowCommand.trims (score : K) : WindowCommand K → Bool
  | .zremrangebyscore min max => decide (min ≤ score) && decide (score ≤ max)
  | _ => false

/-- The entries that a key holds, whether it has expired or not. -/
def stored : WindowKey K → List (String × K)
  | none => []
  | some cell => cell.value.entries

/-- The entries that a command takes out: those that it trims, and all of a key that it finds expired. -/
def takenOut (t : ℕ) (key : WindowKey K) (c : WindowCommand K) : List (String × K) :=
  (stored key).filter fun e => (read t key).isNone || c.trims e.2

/-- A time in the window that ends at `t`. -/
def InWindow (windowMs t time : K) : Prop := t - windowMs < time ∧ time ≤ t

instance (windowMs t time : K) : Decidable (InWindow windowMs t time) :=
  inferInstanceAs (Decidable (t - windowMs < time ∧ time ≤ t))

/-- The call has added its entry. -/
def hasAdded (p : WindowProgram K) : Bool := p.nextCommand.all fun
  | .zadd _ _ => false
  | _ => true

/-- The call has added its entry and not counted yet. -/
def isCounting (p : WindowProgram K) : Bool := p.nextCommand.any fun
  | .zremrangebyscore _ _ | .zcard => true
  | _ => false

abbrev WindowPool (K : Type) [Field K] [LinearOrder K] [FloorRing K] (ι : Type*) :=
  Pool (WindowKey K) ι (WindowCommand K) WindowAnswer Empty (SlidingWindowReply K)

/-- `ZADD` is executed in the order of the times of the calls. -/
def InOrder (calls : ι → WindowCall) (pool : WindowPool K ι) (event : ι × ℕ) : Prop :=
  hasAdded (pool.procs event.1) = false → ∀ j, hasAdded (pool.procs j) = true → (calls j).now ≤ (calls event.1).now

/-- What the step takes out is out of the window of its call, and of every call that has added its entry and not
counted yet. -/
def Spares (windowMs : K) (calls : ι → WindowCall) (pool : WindowPool K ι) (event : ι × ℕ) : Prop :=
  ∀ c ∈ (pool.procs event.1).nextCommand, ∀ e ∈ takenOut event.2 pool.state c,
    e.2 ≤ ((calls event.1).now : K) - windowMs ∧
      ∀ b, isCounting (pool.procs b) = true → ¬ InWindow windowMs (calls b).now e.2

instance [Fintype ι] (calls : ι → WindowCall) (pool : WindowPool K ι) (event : ι × ℕ) :
    Decidable (InOrder calls pool event) :=
  inferInstanceAs (Decidable (hasAdded (pool.procs event.1) = false → ∀ j, hasAdded (pool.procs j) = true →
    (calls j).now ≤ (calls event.1).now))

instance [Fintype ι] (windowMs : K) (calls : ι → WindowCall) (pool : WindowPool K ι) (event : ι × ℕ) :
    Decidable (Spares windowMs calls pool event) :=
  inferInstanceAs (Decidable (∀ c ∈ (pool.procs event.1).nextCommand, ∀ e ∈ takenOut event.2 pool.state c,
    e.2 ≤ ((calls event.1).now : K) - windowMs ∧
      ∀ b, isCounting (pool.procs b) = true → ¬ InWindow windowMs (calls b).now e.2))

omit [Field K] [LinearOrder K] [FloorRing K] in
theorem mem_stored {t : ℕ} {key : WindowKey K} {s : SortedSet String K} (h : read t key = some s) {e : String × K} :
    e ∈ stored key ↔ e ∈ s.entries := by
  cases key with
  | none => cases h
  | some cell =>
    rw [← value_of_read h]
    rfl

omit [Field K] [LinearOrder K] [FloorRing K] in
/-- A key that a command finds holds the entry. -/
theorem mem_stored_modify {t : ℕ} {key : WindowKey K} {f : Option (SortedSet String K) → SortedSet String K}
    {e : String × K} (h : e ∈ (f (read t key)).entries) : e ∈ stored (modify t f key) :=
  (mem_stored (read_modify t f key)).mpr h

omit [Field K] [LinearOrder K] [FloorRing K] in
theorem mem_stored_dropEmpty {key : WindowKey K} {e : String × K} (h : e ∈ stored key) :
    e ∈ stored (dropEmpty key) := by
  cases key with
  | none => exact h
  | some cell =>
    have hfull : cell.value.zcard ≠ 0 := fun hempty => List.ne_nil_of_mem h (List.length_eq_zero_iff.mp hempty)
    show e ∈ stored (if cell.value.zcard = 0 then none else some cell)
    rw [if_neg hfull]
    exact h

omit [Field K] [FloorRing K] in
/-- What is not taken out is found. -/
theorem exists_read_of_left {t : ℕ} {key : WindowKey K} {c : WindowCommand K} {e : String × K} (h : e ∈ stored key)
    (hleft : e ∉ takenOut t key c) : ∃ s, read t key = some s ∧ e ∈ s.entries ∧ c.trims e.2 = false := by
  have hkeep : ¬ ((read t key).isNone || c.trims e.2) = true := fun hout => hleft (List.mem_filter.mpr ⟨h, hout⟩)
  rw [Bool.or_eq_true, not_or] at hkeep
  obtain ⟨s, hs⟩ : ∃ s, read t key = some s :=
    Option.ne_none_iff_exists'.mp fun hnone => hkeep.1 (by rw [hnone]; rfl)
  exact ⟨s, hs, (mem_stored hs).mp h, Bool.eq_false_iff.mpr hkeep.2⟩

omit [Field K] [FloorRing K] in
/-- What is not taken out stays, unless a call adds an entry under the same id. -/
theorem mem_stored_execute {t : ℕ} {key : WindowKey K} {c : WindowCommand K} {e : String × K} (h : e ∈ stored key)
    (hleft : e ∉ takenOut t key c) (hid : ∀ score member, c = .zadd score member → e.1 ≠ member)
    (hexpire : ∀ seconds, c = .expire seconds → 0 < seconds) : e ∈ stored (execute t key c).1 := by
  obtain ⟨s, hs, hmem, htrims⟩ := exists_read_of_left h hleft
  cases c with
  | zadd score member =>
    refine (mem_stored_modify ?_ : e ∈ stored (modify t (fun s => (s.getD .empty).zadd score member) key))
    rw [hs, Option.getD_some, SortedSet.zadd_entries]
    exact List.mem_cons_of_mem _ (List.mem_filter.mpr ⟨hmem, decide_eq_true (hid score member rfl)⟩)
  | zremrangebyscore min max =>
    refine mem_stored_dropEmpty (mem_stored_modify ?_)
    rw [hs, Option.getD_some, SortedSet.zremrangebyscore_entries]
    refine List.mem_filter.mpr ⟨hmem, ?_⟩
    rw [Bool.not_eq_true']
    exact htrims
  | zcard => exact h
  | expire seconds =>
    show e ∈ stored (expire t seconds key)
    rw [expire_of_read (hexpire seconds rfl) hs]
    exact (mem_stored (read_put_self t seconds.toNat s)).mpr hmem

/-! ### The invariant -/

/-- The entry of a call. -/
def entryOf (c : WindowCall) : String × K := (c.requestId, (c.now : K))

/-- **The invariant of a run**; `added` are the calls that have added their entries, the latest first. -/
structure Tracks (windowMs : K) (calls : ι → WindowCall) (key : WindowKey K) (stage : ι → Stage) (added : List ι) :
    Prop where
  nodup : added.Nodup
  mem : ∀ i, i ∈ added ↔ stage i ≠ .add
  sorted : added.Pairwise fun later earlier => (calls earlier).now ≤ (calls later).now
  /-- An entry is there while it is in the windows of all calls that have been added. -/
  recent : ∀ a ∈ added, (∀ d ∈ added, ((calls d).now : K) - windowMs < (calls a).now) →
    entryOf (calls a) ∈ stored key
  /-- And while it is in the window of a call that has still to count. -/
  counting : ∀ b, stage b = .trim ∨ stage b = .count → ∀ a ∈ added,
    InWindow windowMs ((calls b).now : K) (calls a).now → entryOf (calls a) ∈ stored key
  /-- A call has counted itself and what was added before it. -/
  counted : ∀ later b earlier card, added = later ++ b :: earlier →
    stage b = .refresh card ∨ stage b = .done card →
      ((b :: earlier).countP fun a => decide (InWindow windowMs ((calls b).now : K) (calls a).now)) ≤ card

section Invariant

variable {windowMs : K} {calls : ι → WindowCall} {key : WindowKey K} {stage : ι → Stage} {added : List ι}

omit [FloorRing K] in
theorem tracks_start (windowMs : K) (calls : ι → WindowCall) : Tracks windowMs calls none (fun _ => .add) [] where
  nodup := List.nodup_nil
  mem i := by simp
  sorted := List.Pairwise.nil
  recent a ha := by cases ha
  counting b hb := by simp at hb
  counted later b earlier card hsplit := by simp at hsplit

variable {i : ι} {t : ℕ} {c : WindowCommand K}

/-- What the step of call `i` takes out is out of its window, and out of the windows of those that have still to
count. -/
def SparesAt (windowMs : K) (calls : ι → WindowCall) (stage : ι → Stage) (i : ι) (out : List (String × K)) : Prop :=
  ∀ e ∈ out, e.2 ≤ ((calls i).now : K) - windowMs ∧
    ∀ b, stage b = .trim ∨ stage b = .count → ¬ InWindow windowMs ((calls b).now : K) e.2

omit [FloorRing K] in
/-- **A call counts** itself and what was added before it. -/
theorem Tracks.count_le (h : Tracks windowMs calls key stage added)
    (hids : Function.Injective fun i => (calls i).requestId) (hstage : stage i = .count)
    (hspares : SparesAt windowMs calls stage i (takenOut t key .zcard)) {later earlier : List ι}
    (hsplit : added = later ++ i :: earlier) :
    ((i :: earlier).countP fun a => decide (InWindow windowMs ((calls i).now : K) (calls a).now)) ≤ cardAt t key := by
  rw [List.countP_eq_length_filter]
  set inWindow := (i :: earlier).filter fun a => decide (InWindow windowMs ((calls i).now : K) (calls a).now)
    with hinWindow
  have hsub : inWindow.Sublist added := by
    rw [hsplit]
    exact List.filter_sublist.trans (List.sublist_append_right _ _)
  have hnodup : (inWindow.map fun a => entryOf (K := K) (calls a)).Nodup :=
    (h.nodup.sublist hsub).map fun a b hab => hids (congrArg Prod.fst hab)
  have hfound : ∀ e ∈ inWindow.map fun a => entryOf (K := K) (calls a), e ∈ ((read t key).getD .empty).entries := by
    intro e he
    obtain ⟨a, ha, rfl⟩ := List.mem_map.mp he
    have hin : InWindow windowMs ((calls i).now : K) (calls a).now := of_decide_eq_true (List.mem_filter.mp ha).2
    have hstored := h.counting i (.inr hstage) a (hsub.subset ha) hin
    obtain ⟨s, hs, hmem, -⟩ := exists_read_of_left hstored fun hout =>
      (hspares _ hout).2 i (.inr hstage) hin
    rw [hs]
    exact hmem
  have hle := (hnodup.subperm hfound).length_le
  rw [List.length_map] at hle
  exact hle

variable [IsStrictOrderedRing K]

/-- An entry that matters to the call that moves, or to one that has still to count, outlasts the step. -/
theorem Tracks.left (h : Tracks windowMs calls key stage added) (hW : 0 < windowMs)
    (hids : Function.Injective fun i => (calls i).requestId) (hc : (stage i).command windowMs (calls i) = some c)
    (hspares : SparesAt windowMs calls stage i (takenOut t key c)) {a : ι} (ha : a ∈ added)
    (hstored : entryOf (calls a) ∈ stored key)
    (hmatters : ((calls i).now : K) - windowMs < (calls a).now ∨
      ∃ b, (stage b = .trim ∨ stage b = .count) ∧ InWindow windowMs ((calls b).now : K) (calls a).now) :
    entryOf (calls a) ∈ stored (execute t key c).1 := by
  refine mem_stored_execute hstored (fun hout => ?_) (fun score member hadd => ?_) (fun seconds hexpire => ?_)
  · obtain ⟨hlow, hnone⟩ := hspares _ hout
    rcases hmatters with hin | ⟨b, hb, hin⟩
    · exact absurd hin (not_lt.mpr hlow)
    · exact hnone b hb hin
  · subst hadd
    cases hstage : stage i with
    | add =>
      rw [hstage] at hc
      cases hc
      intro hsame
      have hai : a = i := hids hsame
      exact (h.mem a).mp ha (hai ▸ hstage)
    | _ =>
      rw [hstage] at hc
      cases hc
  · subst hexpire
    cases hstage : stage i with
    | refresh card =>
      rw [hstage] at hc
      cases hc
      exact Int.ceil_pos.mpr (div_pos hW (by norm_num))
    | _ =>
      rw [hstage] at hc
      cases hc

variable [DecidableEq ι]

/-- **A call adds its entry.** -/
theorem Tracks.add (h : Tracks windowMs calls key stage added) (hW : 0 < windowMs)
    (hids : Function.Injective fun i => (calls i).requestId) (hstage : stage i = .add)
    (horder : ∀ j ∈ added, (calls j).now ≤ (calls i).now)
    (hspares : SparesAt windowMs calls stage i (takenOut t key (.zadd ((calls i).now : K) (calls i).requestId))) :
    Tracks windowMs calls (execute t key (.zadd ((calls i).now : K) (calls i).requestId)).1
      (Function.update stage i .trim) (i :: added) := by
  have hnot : i ∉ added := fun hmem => (h.mem i).mp hmem hstage
  have hother : ∀ {a}, a ∈ added → Function.update stage i .trim a = stage a := by
    intro a ha
    have hai : a ≠ i := by
      rintro rfl
      exact hnot ha
    exact Function.update_of_ne hai _ _
  have hnew : entryOf (calls i) ∈ stored (execute t key (.zadd ((calls i).now : K) (calls i).requestId)).1 :=
    mem_stored_modify (f := fun s => (s.getD .empty).zadd ((calls i).now : K) (calls i).requestId) List.mem_cons_self
  have hleft : ∀ {a}, a ∈ added → entryOf (calls a) ∈ stored key → _ := fun ha hstored =>
    h.left hW hids (by rw [hstage]; rfl) hspares ha hstored
  refine ⟨List.nodup_cons.mpr ⟨hnot, h.nodup⟩, fun j => ?_, List.pairwise_cons.mpr ⟨horder, h.sorted⟩, ?_, ?_, ?_⟩
  · by_cases hji : j = i
    · subst hji
      simp
    · rw [List.mem_cons, Function.update_of_ne hji, h.mem j]
      simp [hji]
  · intro a ha hrecent
    rcases List.mem_cons.mp ha with rfl | ha
    · exact hnew
    · exact hleft ha (h.recent a ha fun d hd => hrecent d (List.mem_cons_of_mem _ hd))
        (.inl (hrecent i List.mem_cons_self))
  · intro b hb a ha hin
    rcases List.mem_cons.mp ha with rfl | hold
    · exact hnew
    · by_cases hbi : b = i
      · rw [hbi] at hin
        refine hleft hold (h.recent a hold fun d hd => ?_) (.inl hin.1)
        have hcast : ((calls d).now : K) ≤ ((calls i).now : K) := by exact_mod_cast horder d hd
        linarith [hin.1]
      · rw [Function.update_of_ne hbi] at hb
        exact hleft hold (h.counting b hb a hold hin) (.inr ⟨b, hb, hin⟩)
  · intro later b earlier card hsplit hb
    cases later with
    | nil =>
      cases hsplit
      rw [Function.update_self] at hb
      simp at hb
    | cons first later =>
      obtain ⟨rfl, hrest⟩ := List.cons.inj hsplit
      rw [hother (by rw [hrest]; simp)] at hb
      exact h.counted later b earlier card hrest hb

/-- **A call that has added its entry** goes on to its next stage. -/
theorem Tracks.advance (h : Tracks windowMs calls key stage added) (hW : 0 < windowMs)
    (hids : Function.Injective fun i => (calls i).requestId) (hstage : stage i ≠ .add)
    (hc : (stage i).command windowMs (calls i) = some c)
    (hspares : SparesAt windowMs calls stage i (takenOut t key c)) :
    Tracks windowMs calls (execute t key c).1 (Function.update stage i ((stage i).next (cardAt t key))) added := by
  have hi : i ∈ added := (h.mem i).mpr hstage
  have hleft : ∀ {a}, a ∈ added → entryOf (calls a) ∈ stored key → _ := fun ha hstored =>
    h.left hW hids hc hspares ha hstored
  refine ⟨h.nodup, fun j => ?_, h.sorted, ?_, ?_, ?_⟩
  · by_cases hji : j = i
    · rw [hji, Function.update_self]
      refine iff_of_true hi ?_
      cases stage i <;> exact Stage.noConfusion
    · rw [Function.update_of_ne hji]
      exact h.mem j
  · intro a ha hrecent
    exact hleft ha (h.recent a ha hrecent) (.inl (hrecent i hi))
  · intro b hb a ha hin
    have hbefore : stage b = .trim ∨ stage b = .count := by
      by_cases hbi : b = i
      · rw [hbi, Function.update_self] at hb
        rw [hbi]
        cases hat : stage i with
        | add => exact absurd hat hstage
        | trim => exact .inl rfl
        | count => exact .inr rfl
        | refresh card =>
          rw [hat] at hb
          simp [Stage.next] at hb
        | done card =>
          rw [hat] at hb
          simp [Stage.next] at hb
      · rw [Function.update_of_ne hbi] at hb
        exact hb
    exact hleft ha (h.counting b hbefore a ha hin) (.inr ⟨b, hbefore, hin⟩)
  · intro later b earlier card hsplit hb
    by_cases hbi : b = i
    · subst hbi
      rw [Function.update_self] at hb
      cases hat : stage b with
      | add => exact absurd hat hstage
      | trim =>
        rw [hat] at hb
        simp [Stage.next] at hb
      | count =>
        rw [hat] at hb hc
        cases hc
        have hcard : cardAt t key = card := by simpa [Stage.next] using hb
        rw [← hcard]
        exact h.count_le hids hat hspares hsplit
      | refresh card' =>
        rw [hat] at hb
        have hcard : card' = card := by simpa [Stage.next] using hb
        exact h.counted later b earlier card hsplit (.inl (hcard ▸ hat))
      | done card' =>
        rw [hat] at hc
        cases hc
    · rw [Function.update_of_ne hbi] at hb
      exact h.counted later b earlier card hsplit hb

end Invariant

/-! ### Runs -/

theorem hasAdded_rest (limit windowMs : K) (c : WindowCall) (stage : Stage) :
    hasAdded (stage.rest limit windowMs c) = true ↔ stage ≠ .add := by
  unfold hasAdded
  rw [Stage.nextCommand_rest]
  cases stage <;> simp [Stage.command]

theorem isCounting_rest (limit windowMs : K) (c : WindowCall) (stage : Stage) :
    isCounting (stage.rest limit windowMs c) = true ↔ stage = .trim ∨ stage = .count := by
  unfold isCounting
  rw [Stage.nextCommand_rest]
  cases stage <;> simp [Stage.command]

/-- The call has returned, and its request may pass. -/
def WasAdmitted (p : WindowProgram K) : Prop := ∃ reply, p = .ret reply ∧ reply.allowed = true

instance (p : WindowProgram K) : Decidable (WasAdmitted p) :=
  decidable_of_iff (p.result.any SlidingWindowReply.allowed = true) (by
    simp only [Option.any_eq_true, WasAdmitted, result_eq_some])

section Bound

variable [IsStrictOrderedRing K] [DecidableEq ι] {limit windowMs : K} {calls : ι → WindowCall}

/-- The invariant, for a pool. -/
def Tracked (limit windowMs : K) (calls : ι → WindowCall) (pool : WindowPool K ι) : Prop :=
  ∃ key stage added, pool = poolAt limit windowMs calls key stage ∧ Tracks windowMs calls key stage added

/-- **The step lemma.** -/
theorem tracked_step (hW : 0 < windowMs) (hids : Function.Injective fun i => (calls i).requestId)
    {pool pool' : WindowPool K ι} {event : ι × ℕ} (h : Tracked limit windowMs calls pool)
    (horder : InOrder calls pool event) (hspares : Spares windowMs calls pool event)
    (hstep : Pool.step execute pool event = some pool') : Tracked limit windowMs calls pool' := by
  obtain ⟨key, stage, added, rfl, h⟩ := h
  obtain ⟨i, t⟩ := event
  obtain ⟨c, hc, rfl⟩ := step_poolAt hstep
  have hsparesAt : SparesAt windowMs calls stage i (takenOut t key c) := by
    intro e he
    obtain ⟨hlow, hnone⟩ := hspares c ((Stage.nextCommand_rest _ _ _ _).trans hc) e he
    exact ⟨hlow, fun b hb => hnone b ((isCounting_rest _ _ _ _).mpr hb)⟩
  by_cases hstage : stage i = .add
  · have hadded : ∀ j ∈ added, (calls j).now ≤ (calls i).now := fun j hj =>
      horder (Bool.eq_false_iff.mpr fun hi => (hasAdded_rest _ _ _ _).mp hi hstage) j
        ((hasAdded_rest _ _ _ _).mpr ((h.mem j).mp hj))
    rw [hstage] at hc ⊢
    cases hc
    exact ⟨_, _, i :: added, rfl, h.add hW hids hstage hadded hsparesAt⟩
  · exact ⟨_, _, added, rfl, h.advance hW hids hstage hc hsparesAt⟩

omit [IsStrictOrderedRing K] [DecidableEq ι] in
/-- A call that has been admitted has counted no more than the limit. -/
theorem WasAdmitted.stage {c : WindowCall} {stage : Stage} (h : WasAdmitted (stage.rest limit windowMs c)) :
    ∃ card : ℕ, stage = .done card ∧ (card : K) ≤ limit := by
  obtain ⟨reply, hreply, hallowed⟩ := h
  cases stage with
  | done card =>
    cases hreply
    refine ⟨card, rfl, ?_⟩
    simpa [slidingWindowReply] using hallowed
  | _ => cases hreply

omit [DecidableEq ι] in
/-- Under the invariant, no window holds more than `limit` admitted calls: the last of them to be added has counted
the others. -/
theorem Tracks.counted_le {key : WindowKey K} {stage : ι → Stage} {added : List ι}
    (h : Tracks windowMs calls key stage added) (hlimit : 0 ≤ limit) (t : K) (S : Finset ι)
    (hS : ∀ i ∈ S, WasAdmitted ((stage i).rest limit windowMs (calls i)) ∧ InWindow windowMs t (calls i).now) :
    (S.card : K) ≤ limit := by
  classical
  have hadded : ∀ i ∈ S, i ∈ added := by
    intro i hi
    obtain ⟨card, hstage, -⟩ := (hS i hi).1.stage
    rw [h.mem, hstage]
    exact Stage.noConfusion
  cases hlast : added.find? fun i => decide (i ∈ S) with
  | none =>
    have hempty : S = ∅ := Finset.eq_empty_of_forall_notMem fun i hi => by
      have hout := List.find?_eq_none.mp hlast i (hadded i hi)
      exact hout (decide_eq_true hi)
    rw [hempty]
    simpa using hlimit
  | some b =>
    obtain ⟨hb, later, earlier, hsplit, hlater⟩ := List.find?_eq_some_iff_append.mp hlast
    have hbS : b ∈ S := of_decide_eq_true hb
    obtain ⟨card, hstage, hcard⟩ := (hS b hbS).1.stage
    have hsorted := h.sorted
    rw [hsplit, List.pairwise_append, List.pairwise_cons] at hsorted
    have hcounted := h.counted later b earlier card hsplit (.inr hstage)
    have hsub : S ⊆ ((b :: earlier).filter fun a =>
        decide (InWindow windowMs ((calls b).now : K) (calls a).now)).toFinset := by
      intro a ha
      have hmem : a ∈ b :: earlier := by
        have hall := hadded a ha
        rw [hsplit] at hall
        refine (List.mem_append.mp hall).resolve_left fun hbefore => ?_
        simpa [ha] using hlater a hbefore
      have hle : (calls a).now ≤ (calls b).now := by
        rcases List.mem_cons.mp hmem with rfl | hearlier
        · exact le_refl _
        · exact hsorted.2.1.1 a hearlier
      have hcast : ((calls a).now : K) ≤ ((calls b).now : K) := by exact_mod_cast hle
      have hwindow : InWindow windowMs ((calls b).now : K) (calls a).now :=
        ⟨by linarith [(hS a ha).2.1, (hS b hbS).2.2], hcast⟩
      exact List.mem_toFinset.mpr (List.mem_filter.mpr ⟨hmem, decide_eq_true hwindow⟩)
    have hsize : S.card ≤ card := by
      rw [List.countP_eq_length_filter] at hcounted
      exact ((Finset.card_le_card hsub).trans (List.toFinset_card_le _)).trans hcounted
    exact le_trans (by exact_mod_cast hsize) hcard

/-- **Interleaved pipelines.**  In every run of the commands of calls for one identifier that executes `ZADD` in the
order of their times, and in which no step takes out what a call has still to count, no window ever holds more than
`limit` admitted calls. -/
theorem admitted_le (hids : Function.Injective fun i => (calls i).requestId) (hlimit : 0 ≤ limit)
    {events : List (ι × ℕ)} {pool : WindowPool K ι}
    (horder : Throughout (Pool.step execute) (InOrder calls)
      ⟨none, fun i => slidingWindowProgram limit windowMs (calls i)⟩ events)
    (hspares : Throughout (Pool.step execute) (Spares windowMs calls)
      ⟨none, fun i => slidingWindowProgram limit windowMs (calls i)⟩ events)
    (hrun : run (Pool.step execute) ⟨none, fun i => slidingWindowProgram limit windowMs (calls i)⟩ events = some pool)
    (t : K) (S : Finset ι) (hS : ∀ i ∈ S, WasAdmitted (pool.procs i) ∧ InWindow windowMs t (calls i).now) :
    (S.card : K) ≤ limit := by
  by_cases hW : 0 < windowMs
  · obtain ⟨key, stage, added, rfl, htracks⟩ := run_of_throughout
      (motive := Tracked limit windowMs calls)
      (fun s e s' hs hcond hstep => tracked_step hW hids hs hcond.1 hcond.2 hstep)
      (horder.and hspares) hrun ⟨none, fun _ => .add, [], rfl, tracks_start windowMs calls⟩
    exact htracks.counted_le hlimit t S hS
  · -- a window of no length holds nothing
    have hempty : S = ∅ := Finset.eq_empty_of_forall_notMem fun i hi => by
      have hin := (hS i hi).2
      exact hW (by linarith [hin.1, hin.2])
    rw [hempty]
    simpa using hlimit

end Bound

/-- Two calls at almost the same time, and one a minute later. -/
def threeCalls : Fin 3 → WindowCall
  | 0 => ⟨0, "a"⟩
  | 1 => ⟨1, "b"⟩
  | 2 => ⟨60001, "c"⟩

/-- The calls before any command. -/
def threeStart : WindowPool ℚ (Fin 3) := ⟨none, fun i => slidingWindowProgram 1 60000 (threeCalls i)⟩

/-- The second call has added its entry when the third call trims. -/
def trimmedBetween : List (Fin 3 × ℕ) :=
  [(0, 5), (0, 5), (0, 5), (0, 5), (1, 6), (2, 60004), (2, 60004), (1, 60004), (1, 60004), (1, 60004)]

/-- One after the other. -/
def inTurn : List (Fin 3 × ℕ) := [(0, 5), (0, 5), (0, 5), (0, 5), (1, 6), (1, 6), (1, 6), (1, 6)]

/-- **The pipeline is not atomic**: with a limit of one, both of the first two calls are admitted. -/
theorem pipeline_admits_two :
    Throughout (Pool.step execute) (InOrder threeCalls) threeStart trimmedBetween ∧
      ∃ pool, run (Pool.step execute) threeStart trimmedBetween = some pool ∧
        (∀ i ∈ ({0, 1} : Finset (Fin 3)), WasAdmitted (pool.procs i) ∧ InWindow (60000 : ℚ) 1 (threeCalls i).now) ∧
        ¬ ((({0, 1} : Finset (Fin 3)).card : ℚ) ≤ 1) := by
  obtain ⟨pool, hrun, hadmitted⟩ := (Option.any_eq_true _ _).mp (show
    ((run (Pool.step execute) threeStart trimmedBetween).any fun pool =>
      decide (∀ i ∈ ({0, 1} : Finset (Fin 3)), WasAdmitted (pool.procs i) ∧
        InWindow (60000 : ℚ) 1 (threeCalls i).now)) = true by decide +kernel)
  exact ⟨by decide +kernel, pool, hrun, of_decide_eq_true hadmitted, by decide +kernel⟩

/-- In turn, the first call is admitted, and the window it is in holds no more. -/
theorem pipeline_admits_one : ∃ pool, run (Pool.step execute) threeStart inTurn = some pool ∧
    WasAdmitted (pool.procs 0) ∧ ((({0} : Finset (Fin 3)).card : ℕ) : ℚ) ≤ 1 := by
  obtain ⟨pool, hrun, hfirst⟩ := (Option.any_eq_true _ _).mp (show
    ((run (Pool.step execute) threeStart inTurn).any fun pool =>
      decide (∀ i ∈ ({0} : Finset (Fin 3)), WasAdmitted (pool.procs i) ∧
        InWindow (60000 : ℚ) 1 (threeCalls i).now)) = true by decide +kernel)
  have hin := of_decide_eq_true hfirst
  have horder : Throughout (Pool.step execute) (InOrder threeCalls) threeStart inTurn := by decide +kernel
  have hspares : Throughout (Pool.step execute) (Spares 60000 threeCalls) threeStart inTurn := by decide +kernel
  exact ⟨pool, hrun, (hin 0 (Finset.mem_singleton_self 0)).1,
    admitted_le (show Function.Injective fun i => (threeCalls i).requestId by decide) (by norm_num) horder hspares hrun
      1 {0} hin⟩

end EdgeSphere.Gateway
