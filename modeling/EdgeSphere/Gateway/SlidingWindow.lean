import EdgeSphere.Gateway.RateLimit

/-!
# The sliding window counts the whole history

The sorted set behind `slidingWindow` is pruned at every call and expires; what it decides is the
count over the history that was never pruned.

* `countingWindow` — the abstract limiter: it remembers every call and counts those in the window;
* `Mirrors` — the simulation relation: the key holds exactly the part of the history that the last
  call left in its window, with a deadline past that window;
* `slidingWindow_refines_counting` — **the refinement**: both limiters give the same replies on every
  run;
* `slidingWindow_run_counts` — the decision, the `remaining` and the bound on admitted calls.
-/

namespace EdgeSphere.Gateway

open EdgeSphere.Library
open EdgeSphere.Library.Expiry
open EdgeSphere.Library.Runs

variable {K : Type*} [Field K] [LinearOrder K]

/-- One call of `slidingWindow`: the clock and the fresh `requestId`. -/
structure WindowCall where
  now : ℕ
  requestId : String
  deriving DecidableEq, Repr

/-! ### The abstract limiter -/

/-- How many of `calls` have a time in `(t - windowMs, t]`. -/
def countIn (windowMs : K) (t : ℕ) (calls : List WindowCall) : ℕ :=
  calls.countP fun c => decide ((t : K) - windowMs < (c.now : K)) && decide (c.now ≤ t)

/-- The limiter that forgets nothing: its state is the whole history. -/
def countingWindow (limit windowMs : K) (history : List WindowCall) (c : WindowCall) :
    List WindowCall × SlidingWindowReply K :=
  (history ++ [c],
    slidingWindowReply limit windowMs c.now (some (countIn windowMs c.now (history ++ [c]))))

theorem countIn_append (windowMs : K) (t : ℕ) (as bs : List WindowCall) :
    countIn windowMs t (as ++ bs) = countIn windowMs t as + countIn windowMs t bs :=
  List.countP_append

theorem countIn_singleton (windowMs : K) (t : ℕ) (c : WindowCall) :
    countIn windowMs t [c] = if (t : K) - windowMs < (c.now : K) ∧ c.now ≤ t then 1 else 0 := by
  simp [countIn, List.countP_singleton]

theorem countingWindow_history (limit windowMs : K) (history calls : List WindowCall) :
    (runCalls (countingWindow limit windowMs) history calls).1 = history ++ calls := by
  induction calls generalizing history with
  | nil => simp
  | cons c cs ih =>
    rw [runCalls_cons, ih]
    simp [countingWindow]

/-! ### What the pipeline leaves behind -/

/-- The sorted-set entries of a history, newest first. -/
def entriesOf (history : List WindowCall) : List (String × K) :=
  history.reverse.map fun c => (c.requestId, (c.now : K))

omit [LinearOrder K] in
theorem entriesOf_snoc (history : List WindowCall) (c : WindowCall) :
    entriesOf (history ++ [c]) = (c.requestId, (c.now : K)) :: entriesOf history := by
  simp [entriesOf]

omit [LinearOrder K] in
theorem mem_entriesOf {e : String × K} {history : List WindowCall} :
    e ∈ entriesOf history ↔ ∃ c ∈ history, e = (c.requestId, (c.now : K)) := by
  simp [entriesOf, eq_comm]

/-- The entries of a history that lie in the window ending at `t`. -/
def recent (windowMs : K) (t : ℕ) (history : List WindowCall) : List (String × K) :=
  (entriesOf history).filter fun e => decide ((t : K) - windowMs < e.2)

/-- Counting the recent entries is counting the calls, as none of them is later than `t`. -/
theorem recent_length (windowMs : K) (t : ℕ) (history : List WindowCall)
    (hle : ∀ c ∈ history, c.now ≤ t) :
    (recent windowMs t history).length = countIn windowMs t history := by
  rw [recent, ← List.countP_eq_length_filter, entriesOf, List.countP_map, List.countP_reverse,
    countIn]
  apply List.countP_congr
  intro c hc
  simp [hle c hc]

section Ordered

variable [IsStrictOrderedRing K]

/-- Pruning an older window further is pruning the newer one. -/
theorem recent_filter {windowMs : K} {t later : ℕ} (h : t ≤ later) (history : List WindowCall) :
    (recent windowMs t history).filter (fun e => decide ((later : K) - windowMs < e.2))
      = recent windowMs later history := by
  rw [recent, List.filter_filter, recent]
  apply List.filter_congr
  intro e _
  have hcast : (t : K) ≤ (later : K) := by exact_mod_cast h
  rw [Bool.eq_iff_iff, Bool.and_eq_true, decide_eq_true_eq, decide_eq_true_eq]
  exact ⟨fun hlt => hlt.1, fun hlt => ⟨hlt, by linarith⟩⟩

/-- Nothing of the history is recent once the window has passed its last call. -/
theorem recent_eq_nil {windowMs : K} {t later : ℕ} (history : List WindowCall)
    (hle : ∀ c ∈ history, c.now ≤ t) (h : (t : K) + windowMs ≤ (later : K)) :
    recent windowMs later history = [] := by
  rw [recent, List.filter_eq_nil_iff]
  intro e he
  obtain ⟨c, hc, rfl⟩ := mem_entriesOf.mp he
  have hcast : (c.now : K) ≤ (t : K) := by exact_mod_cast hle c hc
  rw [decide_eq_true_eq, not_lt]
  show (c.now : K) ≤ (later : K) - windowMs
  linarith

/-- `ZADD` and `ZREMRANGEBYSCORE` on a set whose entries are history: what remains is the recent part
of the longer history.  Scores are clock readings, so the lower end `0` of the range spares none. -/
theorem pruned_entries {windowMs : K} (hW : 0 < windowMs) {s : SortedSet String K}
    {history : List WindowCall} {c : WindowCall} (hsub : ∀ e ∈ s.entries, e ∈ entriesOf history)
    (hrecent : s.entries.filter (fun e => decide ((c.now : K) - windowMs < e.2))
      = recent windowMs c.now history)
    (hid : c.requestId ∉ history.map WindowCall.requestId) :
    ((s.zadd (c.now : K) c.requestId).zremrangebyscore 0 ((c.now : K) - windowMs)).entries
      = recent windowMs c.now (history ++ [c]) := by
  have hfresh : c.requestId ∉ s.members := by
    intro hmem
    obtain ⟨e, he, heq⟩ := List.mem_map.mp hmem
    obtain ⟨d, hd, rfl⟩ := mem_entriesOf.mp (hsub e he)
    exact hid (List.mem_map.mpr ⟨d, hd, heq⟩)
  rw [SortedSet.zremrangebyscore_entries, SortedSet.zadd_entries_of_fresh hfresh]
  have hnonneg : ∀ e ∈ (c.requestId, (c.now : K)) :: s.entries, 0 ≤ e.2 := by
    intro e he
    rcases List.mem_cons.mp he with rfl | he
    · exact Nat.cast_nonneg c.now
    · obtain ⟨d, _, rfl⟩ := mem_entriesOf.mp (hsub e he)
      exact Nat.cast_nonneg d.now
  have hkeep : ((c.requestId, (c.now : K)) :: s.entries).filter
        (fun e => !(decide (0 ≤ e.2) && decide (e.2 ≤ (c.now : K) - windowMs)))
      = ((c.requestId, (c.now : K)) :: s.entries).filter
        (fun e => decide ((c.now : K) - windowMs < e.2)) := by
    apply List.filter_congr
    intro e he
    rw [Bool.eq_iff_iff]
    simp [hnonneg e he]
  rw [hkeep, recent, entriesOf_snoc, List.filter_cons_of_pos (by simpa using hW), hrecent,
    List.filter_cons_of_pos (by simpa using hW)]
  rfl

variable [FloorRing K]

/-- The window has passed when its key expires. -/
theorem window_le_deadline (windowMs : K) (t : ℕ) :
    (t : K) + windowMs ≤ ((t + 1000 * ⌈windowMs / 1000⌉.toNat : ℕ) : K) := by
  have hceil : windowMs / 1000 ≤ (⌈windowMs / 1000⌉ : K) := Int.le_ceil _
  have hnat : (⌈windowMs / 1000⌉ : ℤ) ≤ (⌈windowMs / 1000⌉.toNat : ℤ) := Int.self_le_toNat _
  have hnat' : ((⌈windowMs / 1000⌉ : ℤ) : K) ≤ ((⌈windowMs / 1000⌉.toNat : ℕ) : K) := by
    exact_mod_cast hnat
  push_cast
  linarith

/-- The pipeline in one line: the pruned set with a fresh deadline, and its size. -/
theorem slidingPipeline_eq {windowMs : K} (hW : 0 < windowMs) (c : WindowCall)
    (cell : Option (Cell (SortedSet String K))) (s : SortedSet String K)
    (hs : s = ((((read c.now cell).getD .empty).zadd (c.now : K) c.requestId).zremrangebyscore 0
      ((c.now : K) - windowMs))) (hne : s.entries ≠ []) :
    slidingPipeline c.requestId windowMs c.now cell
      = (put c.now ⌈windowMs / 1000⌉.toNat s, s.entries.length) := by
  have hread : read c.now (modify c.now
      (fun s => (s.getD .empty).zremrangebyscore 0 ((c.now : K) - windowMs))
      (modify c.now (fun s => (s.getD .empty).zadd (c.now : K) c.requestId) cell)) = some s := by
    rw [read_modify, read_modify, hs]
    rfl
  have hceil : 0 < ⌈windowMs / 1000⌉ := Int.ceil_pos.mpr (div_pos hW (by norm_num))
  have hcard : s.zcard ≠ 0 := fun h => hne (List.length_eq_zero_iff.mp h)
  simp only [slidingPipeline, hread, Option.getD_some, hcard, if_false]
  rw [expire_of_read hceil hread]
  rfl

/-! ### The simulation -/

/-- **The simulation relation.**  Before the first call the key is missing; after it, the key holds
the recent part of the history as the last call left it. -/
def Mirrors (windowMs : K) (history : List WindowCall) (cell : Option (Cell (SortedSet String K))) :
    Prop :=
  (history = [] ∧ cell = none) ∨
    ∃ earlier last s, history = earlier ++ [last] ∧ s.entries = recent windowMs last.now history ∧
      cell = put last.now ⌈windowMs / 1000⌉.toNat s

/-- What a later command reads from a mirrored key: entries of the history, the recent ones all
there.  A key that has expired has outlived its window. -/
theorem Mirrors.read {windowMs : K} {history : List WindowCall}
    {cell : Option (Cell (SortedSet String K))} (h : Mirrors windowMs history cell)
    (hsorted : (history.map WindowCall.now).Pairwise (· ≤ ·)) {now : ℕ}
    (hle : ∀ c ∈ history, c.now ≤ now) :
    (∀ e ∈ ((Expiry.read now cell).getD .empty).entries, e ∈ entriesOf history) ∧
      ((Expiry.read now cell).getD .empty).entries.filter
        (fun e => decide ((now : K) - windowMs < e.2)) = recent windowMs now history := by
  rcases h with ⟨rfl, rfl⟩ | ⟨earlier, last, s, rfl, hs, rfl⟩
  · simp [recent, entriesOf]
  · have hlast : ∀ c ∈ earlier ++ [last], c.now ≤ last.now := by
      rw [List.map_append, List.pairwise_append] at hsorted
      intro c hc
      rcases List.mem_append.mp hc with hc | hc
      · exact hsorted.2.2 c.now (List.mem_map_of_mem hc) last.now (by simp)
      · rw [List.mem_singleton.mp hc]
    rw [read_put]
    split
    · refine ⟨fun e he => ?_, ?_⟩
      · rw [Option.getD_some, hs] at he
        exact (List.mem_filter.mp he).1
      · rw [Option.getD_some, hs]
        exact recent_filter (hle last (by simp)) _
    · rename_i hgone
      have hdead := window_le_deadline windowMs last.now
      have hcast : ((last.now + 1000 * ⌈windowMs / 1000⌉.toNat : ℕ) : K) ≤ (now : K) := by
        exact_mod_cast (Nat.le_of_lt (not_le.mp hgone))
      rw [recent_eq_nil _ hlast (hdead.trans hcast)]
      simp

/-- **One call.**  On a mirrored key the pipeline counts what the whole history has in the window,
and leaves the key mirroring the longer history. -/
theorem slidingPipeline_mirrors {windowMs : K} (hW : 0 < windowMs) {history : List WindowCall}
    {cell : Option (Cell (SortedSet String K))} {c : WindowCall}
    (h : Mirrors windowMs history cell)
    (hsorted : ((history ++ [c]).map WindowCall.now).Pairwise (· ≤ ·))
    (hids : ((history ++ [c]).map WindowCall.requestId).Nodup) :
    Mirrors windowMs (history ++ [c]) (slidingPipeline c.requestId windowMs c.now cell).1 ∧
      (slidingPipeline c.requestId windowMs c.now cell).2
        = countIn windowMs c.now (history ++ [c]) := by
  rw [List.map_append, List.pairwise_append] at hsorted
  have hle : ∀ d ∈ history, d.now ≤ c.now := fun d hd =>
    hsorted.2.2 d.now (List.mem_map_of_mem hd) c.now (by simp)
  have hle' : ∀ d ∈ history ++ [c], d.now ≤ c.now := by
    intro d hd
    rcases List.mem_append.mp hd with hd | hd
    · exact hle d hd
    · rw [List.mem_singleton.mp hd]
  have hid : c.requestId ∉ history.map WindowCall.requestId := by
    rw [List.map_append, List.nodup_append] at hids
    exact fun hmem => hids.2.2 c.requestId hmem c.requestId (by simp) rfl
  obtain ⟨hsub, hrecent⟩ := h.read hsorted.1 hle
  have hentries := pruned_entries hW hsub hrecent hid
  have hne : recent windowMs c.now (history ++ [c]) ≠ [] := by
    rw [recent, entriesOf_snoc, List.filter_cons_of_pos (by simpa using hW)]
    exact List.cons_ne_nil _ _
  rw [slidingPipeline_eq hW c cell _ rfl (hentries ▸ hne)]
  refine ⟨Or.inr ⟨history, c, _, rfl, hentries, rfl⟩, ?_⟩
  rw [hentries, recent_length windowMs c.now _ hle']

/-! ### Runs -/

omit [IsStrictOrderedRing K] in
/-- The calls for one identifier, one after another. -/
def slidingWindowRun (identifier : String) (limit windowMs : K) :
    Redis K → List WindowCall → Redis K × List (SlidingWindowReply K) :=
  runCalls fun redis c => slidingWindow identifier c.requestId limit windowMs c.now redis

theorem slidingWindowRun_mirrors {limit windowMs : K} (hW : 0 < windowMs) (identifier : String)
    (calls : List WindowCall) :
    ∀ (redis : Redis K) (history : List WindowCall),
      Mirrors windowMs history (redis.zsets (slidingWindowKey identifier)) →
      ((history ++ calls).map WindowCall.now).Pairwise (· ≤ ·) →
      ((history ++ calls).map WindowCall.requestId).Nodup →
      (slidingWindowRun identifier limit windowMs redis calls).2
        = (runCalls (countingWindow limit windowMs) history calls).2 := by
  induction calls with
  | nil => intro redis history _ _ _; rfl
  | cons c cs ih =>
    intro redis history h hsorted hids
    have hsplit : history ++ c :: cs = (history ++ [c]) ++ cs := by simp
    rw [hsplit] at hsorted hids
    have hsub : (history ++ [c]).Sublist ((history ++ [c]) ++ cs) := List.sublist_append_left _ _
    have hsorted' := hsorted.sublist (hsub.map WindowCall.now)
    have hids' := hids.sublist (hsub.map WindowCall.requestId)
    obtain ⟨hnext, hcount⟩ := slidingPipeline_mirrors hW h hsorted' hids'
    have hcell : (slidingWindow identifier c.requestId limit windowMs c.now redis).1.zsets
        (slidingWindowKey identifier)
          = (slidingPipeline c.requestId windowMs c.now
              (redis.zsets (slidingWindowKey identifier))).1 := by
      simp only [slidingWindow, Function.update_self]
    have hrest := ih _ (history ++ [c]) (hcell ▸ hnext) hsorted hids
    show (slidingWindow identifier c.requestId limit windowMs c.now redis).2
        :: (slidingWindowRun identifier limit windowMs _ cs).2 = _
    rw [hrest, runCalls_cons]
    simp only [slidingWindow, hcount, countingWindow]

/-- **The refinement.**  On every run for one identifier, at non-decreasing times and with distinct
request ids, the pruned and expiring sorted set answers like the limiter that forgets nothing. -/
theorem slidingWindow_refines_counting {limit windowMs : K} (hW : 0 < windowMs) (identifier : String)
    (redis : Redis K) (hfresh : redis.zsets (slidingWindowKey identifier) = none)
    (calls : List WindowCall) (hsorted : (calls.map WindowCall.now).Pairwise (· ≤ ·))
    (hids : (calls.map WindowCall.requestId).Nodup) :
    (slidingWindowRun identifier limit windowMs redis calls).2
      = (runCalls (countingWindow limit windowMs) [] calls).2 :=
  slidingWindowRun_mirrors hW identifier calls redis [] (Or.inl ⟨rfl, hfresh⟩)
    (by simpa using hsorted) (by simpa using hids)

/-! ### What a run decides -/

/-- How many calls of a run were admitted at a time in `(t - windowMs, t]`. -/
def admittedBetween (windowMs t : K) (calls : List WindowCall)
    (replies : List (SlidingWindowReply K)) : ℕ :=
  (calls.zip replies).countP fun p =>
    decide (t - windowMs < (p.1.now : K)) && decide ((p.1.now : K) ≤ t) && p.2.allowed

omit [IsStrictOrderedRing K] [FloorRing K] in
theorem admittedBetween_le_calls (windowMs t : K) (calls : List WindowCall)
    (replies : List (SlidingWindowReply K)) :
    admittedBetween windowMs t calls replies
      ≤ calls.countP fun c => decide (t - windowMs < (c.now : K)) && decide ((c.now : K) ≤ t) := by
  induction calls generalizing replies with
  | nil => simp [admittedBetween]
  | cons c cs ih =>
    cases replies with
    | nil => simp [admittedBetween]
    | cons r rs =>
      have hrest := ih rs
      simp only [admittedBetween] at hrest ⊢
      rw [List.zip_cons_cons, List.countP_cons, List.countP_cons]
      by_cases hc : (decide (t - windowMs < (c.now : K)) && decide ((c.now : K) ≤ t)) = true
      · cases r.allowed <;> simp only [hc, Bool.and_true, Bool.and_false, if_true] <;> simp <;> omega
      · simp only [hc, Bool.false_and, Bool.not_eq_true] at *
        simpa [hc] using hrest

omit [FloorRing K] in
/-- In the abstract limiter no window holds more than `limit` admitted calls: the last admitted call
of a window was admitted because its own window, which holds the others, did not. -/
theorem counting_admitted_le {limit windowMs : K} (calls : List WindowCall)
    (hsorted : (calls.map WindowCall.now).Pairwise (· ≤ ·)) (t : K) :
    (admittedBetween windowMs t calls (runCalls (countingWindow limit windowMs) [] calls).2 : K)
      ≤ max 0 limit := by
  induction calls using List.reverseRecOn with
  | nil => simp [admittedBetween]
  | append_singleton calls c ih =>
    rw [List.map_append, List.pairwise_append] at hsorted
    have hle : ∀ d ∈ calls, d.now ≤ c.now := fun d hd =>
      hsorted.2.2 d.now (List.mem_map_of_mem hd) c.now (by simp)
    have hprev := ih hsorted.1
    rw [runCalls_snoc, countingWindow_history]
    have hzip : (calls ++ [c]).zip ((runCalls (countingWindow limit windowMs) [] calls).2
          ++ [(countingWindow limit windowMs ([] ++ calls) c).2])
        = calls.zip (runCalls (countingWindow limit windowMs) [] calls).2
          ++ [(c, (countingWindow limit windowMs ([] ++ calls) c).2)] := by
      rw [List.zip_append (by simp)]
      rfl
    rw [admittedBetween, hzip, List.countP_append, List.countP_singleton, List.nil_append]
    split
    · rename_i hc
      simp only [countingWindow, slidingWindowReply, Bool.and_eq_true, decide_eq_true_eq,
        Bool.not_eq_true', decide_eq_false_iff_not, not_lt] at hc
      obtain ⟨⟨hlo, hhi⟩, hcount⟩ := hc
      have hwin : calls.countP (fun d => decide (t - windowMs < (d.now : K)) && decide ((d.now : K) ≤ t))
          ≤ countIn windowMs c.now calls := by
        apply List.countP_mono_left
        intro d hd hin
        simp only [Bool.and_eq_true, decide_eq_true_eq] at hin ⊢
        exact ⟨by linarith [hin.1], hle d hd⟩
      have hself : countIn windowMs c.now [c] = 1 := by
        rw [countIn_singleton, if_pos ⟨by linarith, le_refl _⟩]
      have hall := (admittedBetween_le_calls windowMs t calls
        (runCalls (countingWindow limit windowMs) [] calls).2).trans hwin
      rw [countIn_append, hself] at hcount
      refine le_trans ?_ (le_max_of_le_right hcount)
      exact_mod_cast Nat.add_le_add_right hall 1
    · rw [Nat.add_zero]
      exact hprev

/-- **The sliding window.**  On every run for one identifier, at non-decreasing times and with
distinct request ids: a call at time `t` is admitted iff at most `limit` calls so far, this one
included and rejected ones too, have a time in `(t - windowMs, t]`; `remaining` is `limit` minus that
number, not below `0`; and no such window holds more than `limit` admitted calls (none, should the
limit be negative). -/
theorem slidingWindow_run_counts {limit windowMs : K} (hW : 0 < windowMs) (identifier : String)
    (redis : Redis K) (hfresh : redis.zsets (slidingWindowKey identifier) = none)
    (calls : List WindowCall) (hsorted : (calls.map WindowCall.now).Pairwise (· ≤ ·))
    (hids : (calls.map WindowCall.requestId).Nodup) :
    (∀ done c todo, calls = done ++ c :: todo →
        ∃ reply, (slidingWindowRun identifier limit windowMs redis calls).2[done.length]? = some reply ∧
          (reply.allowed = true ↔ (countIn windowMs c.now (done ++ [c]) : K) ≤ limit) ∧
          reply.remaining = max 0 (limit - countIn windowMs c.now (done ++ [c]))) ∧
      ∀ t : K, (admittedBetween windowMs t calls
        (slidingWindowRun identifier limit windowMs redis calls).2 : K) ≤ max 0 limit := by
  rw [slidingWindow_refines_counting hW identifier redis hfresh calls hsorted hids]
  refine ⟨?_, counting_admitted_le calls hsorted⟩
  rintro done c todo rfl
  refine ⟨_, runCalls_reply _ [] done todo c, ?_, ?_⟩
  · rw [countingWindow_history]
    simp [countingWindow, slidingWindowReply]
  · rw [countingWindow_history]
    simp [countingWindow, slidingWindowReply]

/-- Limit 2 and a one-second window on four calls, two of them at the same time. -/
theorem slidingWindow_run_counts_burst :
    (admittedBetween (1000 : ℚ) 1200 [⟨0, "a"⟩, ⟨500, "b"⟩, ⟨500, "c"⟩, ⟨1200, "d"⟩]
        (slidingWindowRun "ip-1" 2 1000 Redis.empty
          [⟨0, "a"⟩, ⟨500, "b"⟩, ⟨500, "c"⟩, ⟨1200, "d"⟩]).2 : ℚ) ≤ 2 :=
  ((@slidingWindow_run_counts ℚ _ _ _ _ 2 1000 (by norm_num) "ip-1" Redis.empty rfl
    [⟨0, "a"⟩, ⟨500, "b"⟩, ⟨500, "c"⟩, ⟨1200, "d"⟩] (by decide) (by decide)).2 1200).trans
    (by norm_num)

end Ordered

end EdgeSphere.Gateway
