import EdgeSphere.Gateway.SlidingWindow

/-!
# Rejected calls and the quota

`slidingWindow` adds its entry before it counts, so a rejected call stays in the set and is counted
against the calls after it.  Whether taking a rejected call out of a run changes what the other calls
are told is therefore a question about the windows:

* `verdicts_eq_iff` — two histories decide a list of calls alike iff they decide each of them alike;
* `countIn_insert` — one more call in the history counts once in the windows that hold it;
* `rejected_calls_free_iff` — **the exact condition**: deleting any rejected call leaves every other
  decision alone iff no call that is over the limit by at most one has a rejected call in its window;
* `rejected_call_consumes_quota` — a run that violates it.
-/

namespace EdgeSphere.Gateway

open EdgeSphere.Library.Runs

variable {K : Type*} [Field K] [LinearOrder K]

/-- The `allowed` decisions of a run, in order. -/
def decisions [FloorRing K] (identifier : String) (limit windowMs : K) (redis : Redis K)
    (calls : List WindowCall) : List Bool :=
  (slidingWindowRun identifier limit windowMs redis calls).2.map SlidingWindowReply.allowed

/-- Deleting any rejected call of the run leaves the decisions on all others unchanged. -/
def RejectedCallsFree [FloorRing K] (identifier : String) (limit windowMs : K) (redis : Redis K)
    (calls : List WindowCall) : Prop :=
  ∀ before rejected after, calls = before ++ rejected :: after →
    (decisions identifier limit windowMs redis calls)[before.length]? = some false →
    decisions identifier limit windowMs redis (before ++ after)
      = (decisions identifier limit windowMs redis calls).eraseIdx before.length

/-- No call whose window holds more than `limit` but at most `limit + 1` calls, itself included, has
an earlier call in that window whose own window held more than `limit`. -/
def NoRejectedCallTipsTheScale (limit windowMs : K) (calls : List WindowCall) : Prop :=
  ∀ before r between c after, calls = before ++ r :: (between ++ c :: after) →
    limit < (countIn windowMs r.now (before ++ [r]) : K) →
    (c.now : K) - windowMs < (r.now : K) →
    limit < (countIn windowMs c.now (before ++ r :: (between ++ [c])) : K) →
    limit + 1 < (countIn windowMs c.now (before ++ r :: (between ++ [c])) : K)

/-! ### Decisions of the abstract limiter -/

/-- What the abstract limiter tells a call after a history. -/
def verdict (limit windowMs : K) (history : List WindowCall) (c : WindowCall) : Bool :=
  decide ((countIn windowMs c.now (history ++ [c]) : K) ≤ limit)

/-- What the abstract limiter tells a list of calls after a history. -/
def verdicts (limit windowMs : K) : List WindowCall → List WindowCall → List Bool
  | _, [] => []
  | history, c :: cs =>
    verdict limit windowMs history c :: verdicts limit windowMs (history ++ [c]) cs

theorem verdicts_eq_allowed (limit windowMs : K) (calls : List WindowCall) :
    ∀ history, (runCalls (countingWindow limit windowMs) history calls).2.map
      SlidingWindowReply.allowed = verdicts limit windowMs history calls := by
  induction calls with
  | nil => intro history; rfl
  | cons c cs ih =>
    intro history
    rw [runCalls_cons, List.map_cons, ih, verdicts]
    congr 1
    simp only [countingWindow, slidingWindowReply, verdict, ← decide_not, not_lt]

theorem verdicts_append (limit windowMs : K) (as bs : List WindowCall) :
    ∀ history, verdicts limit windowMs history (as ++ bs)
      = verdicts limit windowMs history as ++ verdicts limit windowMs (history ++ as) bs := by
  induction as with
  | nil => intro history; simp [verdicts]
  | cons a as ih =>
    intro history
    rw [List.cons_append, verdicts, ih, verdicts, List.cons_append, List.append_assoc]
    rfl

theorem verdicts_length (limit windowMs : K) (calls : List WindowCall) :
    ∀ history, (verdicts limit windowMs history calls).length = calls.length := by
  induction calls with
  | nil => intro history; rfl
  | cons c cs ih =>
    intro history
    rw [verdicts, List.length_cons, List.length_cons, ih]

/-- Two histories decide a list of calls alike iff they decide each call in its turn alike. -/
theorem verdicts_eq_iff (limit windowMs : K) (calls : List WindowCall) :
    ∀ h₁ h₂ : List WindowCall,
      verdicts limit windowMs h₁ calls = verdicts limit windowMs h₂ calls ↔
        ∀ between c after, calls = between ++ c :: after →
          verdict limit windowMs (h₁ ++ between) c = verdict limit windowMs (h₂ ++ between) c := by
  induction calls with
  | nil => intro h₁ h₂; simp [verdicts]
  | cons d ds ih =>
    intro h₁ h₂
    rw [verdicts, verdicts, List.cons.injEq, ih]
    constructor
    · rintro ⟨hd, hds⟩ between c after hsplit
      cases between with
      | nil =>
        obtain ⟨rfl, -⟩ := List.cons.inj hsplit
        simpa using hd
      | cons b bs =>
        obtain ⟨rfl, hrest⟩ := List.cons.inj hsplit
        simpa using hds bs c after hrest
    · intro h
      refine ⟨by simpa using h [] d ds rfl, fun between c after hsplit => ?_⟩
      simpa using h (d :: between) c after (by rw [hsplit]; rfl)

section Ordered

variable [IsStrictOrderedRing K]

omit [IsStrictOrderedRing K] in
/-- One more call in the history counts once in the windows that hold it. -/
theorem countIn_insert (windowMs : K) {r c : WindowCall} (before between : List WindowCall)
    (hle : r.now ≤ c.now) :
    countIn windowMs c.now (before ++ r :: (between ++ [c]))
      = countIn windowMs c.now (before ++ between ++ [c])
        + if (c.now : K) - windowMs < (r.now : K) then 1 else 0 := by
  have hr : countIn windowMs c.now [r] = if (c.now : K) - windowMs < (r.now : K) then 1 else 0 := by
    rw [countIn_singleton]
    simp [hle]
  rw [← hr, show before ++ r :: (between ++ [c]) = before ++ ([r] ++ (between ++ [c])) from rfl]
  simp only [countIn_append]
  omega

/-- Removing `r` changes the verdict on `c` exactly if `r` lies in `c`'s window and that window is
over the limit by at most one. -/
theorem verdict_insert_eq_iff (limit windowMs : K) {r c : WindowCall}
    (before between : List WindowCall) (hle : r.now ≤ c.now) :
    verdict limit windowMs (before ++ between) c
        = verdict limit windowMs (before ++ [r] ++ between) c ↔
      ((c.now : K) - windowMs < (r.now : K) →
        limit < (countIn windowMs c.now (before ++ r :: (between ++ [c])) : K) →
        limit + 1 < (countIn windowMs c.now (before ++ r :: (between ++ [c])) : K)) := by
  have hshape : before ++ [r] ++ between ++ [c] = before ++ r :: (between ++ [c]) := by simp
  unfold verdict
  rw [hshape, countIn_insert windowMs before between hle, decide_eq_decide]
  split
  · rename_i hin
    push_cast
    constructor
    · intro hiff _ hover
      by_contra hle1
      exact absurd (hiff.mp (by linarith [not_lt.mp hle1])) (not_le.mpr hover)
    · intro h
      constructor
      · intro hle0
        by_contra hover
        have := h hin (not_le.mp hover)
        linarith
      · intro hle1
        linarith
  · rename_i hout
    simp [hout]

variable [FloorRing K]

theorem decisions_eq_verdicts {limit windowMs : K} (hW : 0 < windowMs) (identifier : String)
    (redis : Redis K) (hfresh : redis.zsets (slidingWindowKey identifier) = none)
    (calls : List WindowCall) (hsorted : (calls.map WindowCall.now).Pairwise (· ≤ ·))
    (hids : (calls.map WindowCall.requestId).Nodup) :
    decisions identifier limit windowMs redis calls = verdicts limit windowMs [] calls := by
  rw [decisions, slidingWindow_refines_counting hW identifier redis hfresh calls hsorted hids,
    verdicts_eq_allowed]

/-- **When rejected calls are free.**  On every run for one identifier, at non-decreasing times and
with distinct request ids, deleting any rejected call leaves every other decision unchanged iff no
call over the limit by at most one has a rejected call in its window. -/
theorem rejected_calls_free_iff {limit windowMs : K} (hW : 0 < windowMs) (identifier : String)
    (redis : Redis K) (hfresh : redis.zsets (slidingWindowKey identifier) = none)
    (calls : List WindowCall) (hsorted : (calls.map WindowCall.now).Pairwise (· ≤ ·))
    (hids : (calls.map WindowCall.requestId).Nodup) :
    RejectedCallsFree identifier limit windowMs redis calls ↔
      NoRejectedCallTipsTheScale limit windowMs calls := by
  have hdel : ∀ before r after, calls = before ++ r :: after →
      (decisions identifier limit windowMs redis (before ++ after)
          = (decisions identifier limit windowMs redis calls).eraseIdx before.length ↔
        ∀ between c rest, after = between ++ c :: rest →
          verdict limit windowMs (before ++ between) c
            = verdict limit windowMs (before ++ [r] ++ between) c) := by
    rintro before r after rfl
    have hsub : (before ++ after).Sublist (before ++ r :: after) :=
      (List.sublist_cons_self r after).append_left before
    rw [decisions_eq_verdicts hW identifier redis hfresh _ (hsorted.sublist (hsub.map _))
        (hids.sublist (hsub.map _)),
      decisions_eq_verdicts hW identifier redis hfresh _ hsorted hids, verdicts_append,
      verdicts_append, verdicts, List.nil_append,
      List.eraseIdx_append_of_length_le (by rw [verdicts_length]), verdicts_length, Nat.sub_self,
      List.eraseIdx_cons_zero, List.append_cancel_left_eq, verdicts_eq_iff]
  have hrej : ∀ before r after, calls = before ++ r :: after →
      ((decisions identifier limit windowMs redis calls)[before.length]? = some false ↔
        limit < (countIn windowMs r.now (before ++ [r]) : K)) := by
    rintro before r after rfl
    rw [decisions_eq_verdicts hW identifier redis hfresh _ hsorted hids, verdicts_append, verdicts,
      List.getElem?_append_right (by rw [verdicts_length]), verdicts_length, Nat.sub_self]
    simp [verdict]
  have horder : ∀ before r between c rest, calls = before ++ r :: (between ++ c :: rest) →
      r.now ≤ c.now := by
    rintro before r between c rest rfl
    rw [List.map_append, List.pairwise_append, List.map_cons, List.pairwise_cons] at hsorted
    exact hsorted.2.1.1 c.now (by simp)
  constructor
  · intro hfree before r between c rest hsplit hr hin hover
    have heq := (hdel before r _ hsplit).mp
      (hfree before r _ hsplit ((hrej before r _ hsplit).mpr hr)) between c rest rfl
    exact (verdict_insert_eq_iff limit windowMs before between
      (horder before r between c rest hsplit)).mp heq hin hover
  · intro hcond before r after hsplit hr
    refine (hdel before r after hsplit).mpr ?_
    rintro between c rest rfl
    refine (verdict_insert_eq_iff limit windowMs before between
      (horder before r between c rest hsplit)).mpr fun hin hover => ?_
    exact hcond before r between c rest hsplit ((hrej before r _ hsplit).mp hr) hin hover

end Ordered

/-- Limit 1, a one-second window and calls at 0 s, 0.5 s and 1.2 s: the second is rejected, and
because it stays in the window so is the third. -/
theorem rejected_call_consumes_quota :
    ¬ RejectedCallsFree "ip-1" (1 : ℚ) 1000 Redis.empty [⟨0, "a"⟩, ⟨500, "b"⟩, ⟨1200, "c"⟩] := by
  intro h
  have hdel := h [⟨0, "a"⟩] ⟨500, "b"⟩ [⟨1200, "c"⟩] rfl (by decide +kernel)
  exact absurd hdel (by decide +kernel)

/-- The same limit with calls a second apart from the burst: nothing is tipped. -/
theorem rejected_calls_free_spaced :
    RejectedCallsFree "ip-1" (1 : ℚ) 1000 Redis.empty [⟨0, "a"⟩, ⟨500, "b"⟩] := by
  refine (@rejected_calls_free_iff ℚ _ _ _ _ 1 1000 (by norm_num) "ip-1" Redis.empty rfl
    [⟨0, "a"⟩, ⟨500, "b"⟩] (by decide) (by decide)).mpr ?_
  intro before r between c after hsplit
  match before, between with
  | [], [] => 
    obtain ⟨rfl, h⟩ := List.cons.inj hsplit
    obtain ⟨rfl, -⟩ := List.cons.inj h
    intro hover
    exact absurd hover (by decide +kernel)
  | [], _ :: [] => simp at hsplit
  | [], _ :: _ :: _ => simp at hsplit
  | _ :: [], _ => simp at hsplit
  | _ :: _ :: _, _ => simp at hsplit

end EdgeSphere.Gateway
