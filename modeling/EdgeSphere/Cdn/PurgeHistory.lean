import EdgeSphere.Cdn.Invalidation
import EdgeSphere.Library.Addition
import EdgeSphere.Library.Newest

/-!
# The history of the purges

Every purge of the cache-service records itself with a pipeline of `LPUSH` and `LTRIM`.  A pipeline is no transaction:
between its two commands Redis may run those of other instances, and an instance may be gone before its second one.

* `HistoryEvent`, `historyStep` — the two commands, of any number of pipelines in any order;
* `getHistory` — what `GET /cache/history` reads, for any limit;
* `kept_of_run` — the list has the newest hundred, and at most as many more as there are pipelines between their
  commands;
* `history_newest` — **in every interleaving a limit of up to a hundred is answered with exactly the newest records**.
-/

namespace EdgeSphere.Cdn

open EdgeSphere.Library
open EdgeSphere.Library.Runs

/-! ### Pipelines -/

/-- The list `purge:history`, and the pipelines that have pushed and not trimmed. -/
structure HistoryKey (ι : Type*) where
  history : List PurgeRecord
  between : Finset ι

inductive HistoryEvent (ι : Type*) where
  | lpush (pipeline : ι) (record : PurgeRecord)
  | ltrim (pipeline : ι)

variable {ι : Type*} [DecidableEq ι]

/-- One command of a pipeline. -/
def historyStep (s : HistoryKey ι) : HistoryEvent ι → Option (HistoryKey ι)
  | .lpush i record =>
    if i ∈ s.between then none else some ⟨lpush s.history record, insert i s.between⟩
  | .ltrim i =>
    if i ∈ s.between then some ⟨ltrim s.history 0 99, s.between.erase i⟩ else none

/-- A pipeline that nothing interrupts is the command of `executePurge`. -/
theorem pipeline_alone (s : HistoryKey ι) {i : ι} (hi : i ∉ s.between) (record : PurgeRecord) :
    run historyStep s [.lpush i record, .ltrim i] = some ⟨(record :: s.history).take 100, s.between⟩ := by
  rw [run_cons, historyStep, if_neg hi, Option.bind_some, run_cons, historyStep, if_pos (Finset.mem_insert_self _ _),
    Option.bind_some, run_nil, Finset.erase_insert hi]
  exact congrArg some (congrArg (fun l => HistoryKey.mk l s.between) (lrange_zero _ (by norm_num)))

/-! ### Reading -/

/-- `getHistory(limit)` of the controller and the service: `limit` is what the pipe has made of the query, `NaN` if there
is none; `none` is the error of Redis about a number that is no integer of 64 bits. -/
def getHistory (limit : Number) (history : List PurgeRecord) : Option (List PurgeRecord) :=
  let limit := if limit = .nan ∨ limit = .finite 0 then .finite 100 else limit
  match limit.add (.finite (-1)) with
  | .finite stop =>
    if stop.den = 1 ∧ -2 ^ 63 ≤ stop.num ∧ stop.num < 2 ^ 63 then some (lrange history 0 stop.num) else none
  | _ => none

theorem ofRat_zero : Number.ofRat 0 = .finite 0 := by
  unfold Number.ofRat
  simp [Number.roundEven]

/-- A limit of up to a hundred is a prefix of the list. -/
theorem getHistory_natCast {k : ℕ} (hpos : 1 ≤ k) (hk : k ≤ 100) (history : List PurgeRecord) :
    getHistory (.finite k) history = some (history.take k) := by
  have hlimit : ¬ ((Number.finite (k : ℚ)) = .nan ∨ Number.finite (k : ℚ) = .finite 0) := by
    rintro (h | h)
    · cases h
    · have hzero := Number.finite.inj h
      norm_cast at hzero
      omega
  have hsum : (k : ℚ) + -1 = ((k - 1 : ℕ) : ℚ) := by
    push_cast [hpos]
    ring
  have hstop : Number.ofRat (((k - 1 : ℕ) : ℚ)) = .finite ((k - 1 : ℕ) : ℚ) := by
    rcases Nat.eq_zero_or_pos (k - 1) with hzero | hpos'
    · rw [hzero]
      exact_mod_cast ofRat_zero
    · exact Number.ofRat_natCast hpos' (by omega)
  unfold getHistory
  simp only
  rw [if_neg hlimit, Number.add, hsum, hstop]
  simp only [Rat.den_natCast, Rat.num_natCast, true_and]
  rw [if_pos (by omega), lrange_zero _ (by omega)]
  congr 2
  omega

/-- No limit, or zero, is a hundred. -/
theorem getHistory_default (history : List PurgeRecord) : getHistory .nan history = getHistory (.finite 100) history := by
  unfold getHistory
  simp only
  rw [if_pos (.inl trivial), if_neg]
  rintro (h | h)
  · cases h
  · exact absurd (Number.finite.inj h) (by norm_num)

/-! ### Interleavings -/

/-- The records that have been pushed. -/
def HistoryEvent.pushed : HistoryEvent ι → Option PurgeRecord
  | .lpush _ record => some record
  | .ltrim _ => none

variable {es : List (HistoryEvent ι)} {s : HistoryKey ι}

/-- **The invariant** of every interleaving. -/
theorem kept_of_run (hrun : run historyStep (⟨[], ∅⟩ : HistoryKey ι) es = some s) :
    Kept 100 (es.filterMap HistoryEvent.pushed) s.history s.between.card := by
  refine run_induction historyStep ⟨[], ∅⟩
    (fun es s => Kept 100 (es.filterMap HistoryEvent.pushed) s.history s.between.card) (.nil 100 _) ?_ es s hrun
  intro es s e s' _ ih hstep
  rw [List.filterMap_append]
  cases e with
  | lpush i record =>
    obtain ⟨hi, heq⟩ := Option.ite_none_left_eq_some.mp hstep
    cases heq
    rw [Finset.card_insert_of_notMem hi]
    exact ih.push record
  | ltrim i =>
    obtain ⟨-, heq⟩ := Option.ite_none_right_eq_some.mp hstep
    cases heq
    rw [List.filterMap_cons_none rfl, List.filterMap_nil, List.append_nil, ltrim, lrange_zero _ (by norm_num)]
    exact ih.trim _

/-- **What the history answers.**  Whatever pipelines run between each other's commands or are never ended, a limit of
up to a hundred gives the newest records; the list has at most one more for each pipeline between its commands. -/
theorem history_newest (hrun : run historyStep (⟨[], ∅⟩ : HistoryKey ι) es = some s) :
    (∀ k : ℕ, 1 ≤ k → k ≤ 100 →
      getHistory (.finite k) s.history = some ((es.filterMap HistoryEvent.pushed).reverse.take k)) ∧
    getHistory .nan s.history = some ((es.filterMap HistoryEvent.pushed).reverse.take 100) ∧
    s.history.length ≤ 100 + s.between.card ∧
    (s.between = ∅ → s.history = (es.filterMap HistoryEvent.pushed).reverse.take 100) := by
  have hkept := kept_of_run hrun
  refine ⟨fun k hpos hk => ?_, ?_, hkept.bounded, fun hnone => ?_⟩
  · rw [getHistory_natCast hpos hk, hkept.take hk]
  · have hhundred := getHistory_natCast (k := 100) (by norm_num) le_rfl s.history
    rw [getHistory_default, ← hkept.take le_rfl]
    exact_mod_cast hhundred
  · rw [hnone, Finset.card_empty] at hkept
    exact hkept.eq_take

/-- Two pipelines, the second between the commands of the first. -/
theorem history_newest_two : ∃ s, run historyStep (⟨[], ∅⟩ : HistoryKey Bool)
      [.lpush true ⟨"a", "all", ⟨none, none, none⟩, "now", 0⟩, .lpush false ⟨"b", "all", ⟨none, none, none⟩, "now", 0⟩,
        .ltrim false] = some s ∧
    getHistory .nan s.history
      = some [⟨"b", "all", ⟨none, none, none⟩, "now", 0⟩, ⟨"a", "all", ⟨none, none, none⟩, "now", 0⟩] ∧
    s.between = {true} := by
  have hrun : run historyStep (⟨[], ∅⟩ : HistoryKey Bool)
      [.lpush true ⟨"a", "all", ⟨none, none, none⟩, "now", 0⟩, .lpush false ⟨"b", "all", ⟨none, none, none⟩, "now", 0⟩,
        .ltrim false] = some _ := rfl
  exact ⟨_, hrun, (history_newest hrun).2.1, by decide⟩

end EdgeSphere.Cdn
