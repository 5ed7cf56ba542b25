import EdgeSphere.Library.Runs

/-!
# One user of a shared service

Calls of many users reach one store.  What a user sees of a run are the replies to its own calls.

* `repliesTo` — the replies to the calls of one user;
* `repliesTo_runCalls` — **the frame rule of a run**: where the calls of the others leave alone what the store keeps
  for the user, its replies are those of its own calls, run alone;
* `good_of_credit`, `good_after_credit` — how a credit that every call draws on decides the replies to the next calls,
  and the reply to the call that comes after them.
-/

namespace EdgeSphere.Library.Runs

variable {σ τ ε δ ρ : Type*}

/-- The replies to the calls that are `mine`, in order. -/
def repliesTo (mine : ε → Bool) (es : List ε) (replies : List ρ) : List ρ :=
  ((es.zip replies).filter fun p => mine p.1).map Prod.snd

theorem repliesTo_cons (mine : ε → Bool) (e : ε) (es : List ε) (r : ρ) (rs : List ρ) :
    repliesTo mine (e :: es) (r :: rs)
      = if mine e then r :: repliesTo mine es rs else repliesTo mine es rs := by
  unfold repliesTo
  rw [List.zip_cons_cons, List.filter_cons]
  split <;> rfl

section Frame

variable {step : σ → ε → σ × ρ} {own : τ → δ → τ × ρ} (view : σ → τ) {mine : ε → Bool} {part : ε → Option δ}

/-- **The frame rule of a run.**  `view` is what the store keeps for the user, `part` its calls as it makes them. -/
theorem repliesTo_runCalls {es : List ε}
    (hmine : ∀ e ∈ es, mine e = true → ∃ d, part e = some d ∧
      ∀ s, view (step s e).1 = (own (view s) d).1 ∧ (step s e).2 = (own (view s) d).2)
    (hother : ∀ e ∈ es, mine e = false → part e = none ∧ ∀ s, view (step s e).1 = view s) (s : σ) :
    repliesTo mine es (runCalls step s es).2 = (runCalls own (view s) (es.filterMap part)).2 := by
  induction es generalizing s with
  | nil => rfl
  | cons e es ih =>
    have hrest := ih (fun d hd => hmine d (List.mem_cons_of_mem _ hd))
      (fun d hd => hother d (List.mem_cons_of_mem _ hd)) (step s e).1
    rw [runCalls_cons, repliesTo_cons]
    cases hm : mine e with
    | true =>
      obtain ⟨d, hpart, hstep⟩ := hmine e List.mem_cons_self hm
      rw [if_pos rfl, List.filterMap_cons_some hpart, runCalls_cons, hrest, (hstep s).1, (hstep s).2]
    | false =>
      obtain ⟨hpart, hstep⟩ := hother e List.mem_cons_self hm
      rw [if_neg Bool.false_ne_true, List.filterMap_cons_none hpart, hrest, hstep s]

end Frame

/-- A user's share of what the calls carry, in order. -/
theorem filterMap_sublist {f g : ε → Option δ} (h : ∀ e d, f e = some d → g e = some d) (es : List ε) :
    (es.filterMap f).Sublist (es.filterMap g) := by
  induction es with
  | nil => exact List.Sublist.slnil
  | cons e es ih =>
    cases hf : f e with
    | some d =>
      rw [List.filterMap_cons_some hf, List.filterMap_cons_some (h e d hf)]
      exact ih.cons_cons d
    | none =>
      rw [List.filterMap_cons_none hf]
      exact ih.trans ((List.sublist_cons_self e es).filterMap g)

section Credit

variable {step : σ → ε → σ × ρ} (good : ρ → Prop) {credit : ℕ → σ → List ε → Prop}

/-- **A credit of `k` is good for `k` calls**, if each of them is served from it and leaves the rest. -/
theorem good_of_credit
    (hstep : ∀ k s e es, credit (k + 1) s (e :: es) → good (step s e).2 ∧ credit k (step s e).1 es)
    (k : ℕ) (s : σ) (es : List ε) (h : credit k s es) : ∀ r ∈ (runCalls step s es).2.take k, good r := by
  induction k generalizing s es with
  | zero => intro r hr; cases hr
  | succ k ih =>
    cases es with
    | nil => intro r hr; cases hr
    | cons e es =>
      obtain ⟨hgood, hrest⟩ := hstep k s e es h
      intro r hr
      rw [runCalls_cons, List.take_succ_cons] at hr
      rcases List.mem_cons.mp hr with rfl | hr
      · exact hgood
      · exact ih _ es hrest r hr

/-- **What comes after `k` calls**, if every call draws on the credit and none is left at the last. -/
theorem good_after_credit (hlast : ∀ s e es, credit 0 s (e :: es) → good (step s e).2)
    (hstep : ∀ k s e es, credit (k + 1) s (e :: es) → credit k (step s e).1 es)
    (k : ℕ) (s : σ) (es : List ε) (h : credit k s es) {r : ρ} (hr : (runCalls step s es).2[k]? = some r) :
    good r := by
  induction k generalizing s es with
  | zero =>
    cases es with
    | nil => cases hr
    | cons e es =>
      rw [runCalls_cons, List.getElem?_cons_zero, Option.some.injEq] at hr
      exact hr ▸ hlast s e es h
  | succ k ih =>
    cases es with
    | nil => cases hr
    | cons e es =>
      rw [runCalls_cons, List.getElem?_cons_succ] at hr
      exact ih _ es (hstep k s e es h) hr

end Credit

end EdgeSphere.Library.Runs
