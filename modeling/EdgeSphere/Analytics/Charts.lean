import EdgeSphere.Analytics.Summary
import EdgeSphere.Library.GroupBy
import EdgeSphere.Library.Interpolation

/-!
# The charts of the analytics-service

The methods of `AnalyticsService` that group the rows of their window, next to `getSummaryStats` over the same rows.
Averages and ratios are exact before they are rounded, as in the summary.

* `getRequestRate`, `getBandwidthOverTime`, `getCacheHitRatioTimeSeries` — one point a minute;
* `getTopPaths`, `getRequestsByService`, `getGeoDistribution`, `getEdgeStats` — on any order the database may answer in;
* `series_agree` — **the points of the charts add up to the summary**;
* `top_paths_correct`, `services_add_up`, `percentages_add_up`, `edges_agree` — what the lists show;
* `percentiles_ordered` — **p50, p95 and p99 grow**, between the smallest and the largest latency.
-/

namespace EdgeSphere.Analytics

open EdgeSphere.Library

/-! ### Rows -/

/-- A row of `request_events` with the columns that it is grouped by. -/
structure TrafficEvent extends RequestEvent where
  service : Option String
  path : Option String
  country : Option String
  edgeRegion : Option String
  deriving DecidableEq, Repr

/-- The columns of the summary. -/
def plain (rows : List TrafficEvent) : List RequestEvent := rows.map TrafficEvent.toRequestEvent

/-- `WHERE time > NOW() - INTERVAL '… minutes'`, in milliseconds. -/
def recent (now windowMinutes : ℕ) (events : List TrafficEvent) : List TrafficEvent :=
  events.filter fun e => decide (now < e.time + 60000 * windowMinutes)

/-- `status >= 400`. -/
def isError (e : TrafficEvent) : Bool := e.status.any fun s => decide (400 ≤ s)

theorem errorCount_plain (rows : List TrafficEvent) : errorCount (plain rows) = rows.countP isError := by
  unfold errorCount plain
  rw [List.countP_map]
  rfl

theorem hitCount_plain (rows : List TrafficEvent) : hitCount (plain rows) = rows.countP fun e => e.cacheHit := by
  unfold hitCount plain
  rw [List.countP_map]
  rfl

theorem totalBytes_plain (rows : List TrafficEvent) : totalBytes (plain rows) = (rows.map fun e => e.bytes).sum := by
  unfold totalBytes plain
  rw [List.map_map]
  rfl

/-! ### Minutes -/

/-- `time_bucket('1 minute', time)`. -/
def minute (e : TrafficEvent) : ℕ := 60000 * (e.time / 60000)

structure TimeSeriesPoint where
  t : ℕ
  value : ℤ
  deriving DecidableEq, Repr

/-- `GROUP BY t ORDER BY t`. -/
def minutes (rows : List TrafficEvent) : List (ℕ × List TrafficEvent) := byKey (groupBy minute rows)

def getRequestRate (rows : List TrafficEvent) : List TimeSeriesPoint :=
  (minutes rows).map fun group => ⟨group.1, group.2.length⟩

def getBandwidthOverTime (rows : List TrafficEvent) : List TimeSeriesPoint :=
  (minutes rows).map fun group => ⟨group.1, totalBytes (plain group.2)⟩

/-- `AVG(cache_hit::int)`. -/
def hitShare (rows : List TrafficEvent) : ℚ := (hitCount (plain rows) : ℚ) / rows.length

/-- `ROUND(AVG(cache_hit::int) * 100)`. -/
def getCacheHitRatioTimeSeries (rows : List TrafficEvent) : List TimeSeriesPoint :=
  (minutes rows).map fun group => ⟨group.1, round (hitShare group.2 * 100)⟩

theorem minutes_perm (rows : List TrafficEvent) : (minutes rows).Perm (groupBy minute rows) := byKey_perm _

theorem hitShare_mul_length (rows : List TrafficEvent) :
    hitShare rows * rows.length = (hitCount (plain rows) : ℚ) := by
  unfold hitShare
  by_cases hrows : rows = []
  · rw [hrows]
    simp [plain, hitCount]
  · have hlength : (rows.length : ℚ) ≠ 0 := Nat.cast_ne_zero.mpr fun h => hrows (List.eq_nil_of_length_eq_zero h)
    exact div_mul_cancel₀ _ hlength

theorem hitShare_mem (rows : List TrafficEvent) : 0 ≤ hitShare rows ∧ hitShare rows ≤ 1 := by
  refine ⟨by unfold hitShare; positivity, ?_⟩
  unfold hitShare
  refine div_le_one_of_le₀ ?_ (Nat.cast_nonneg _)
  rw [hitCount_plain]
  exact_mod_cast List.countP_le_length

/-- A rounded share, weighted with its rows, is off by half a step for each of them. -/
theorem rounded_share (rows : List TrafficEvent) (scale : ℚ) :
    |(round (hitShare rows * scale) : ℚ) * rows.length - scale * hitCount (plain rows)| ≤ rows.length / 2 := by
  have hround := abs_sub_round (hitShare rows * scale)
  have hsplit : (round (hitShare rows * scale) : ℚ) * rows.length - scale * hitCount (plain rows)
      = (round (hitShare rows * scale) - hitShare rows * scale) * rows.length := by
    rw [← hitShare_mul_length]
    ring
  rw [hsplit, abs_mul, abs_sub_comm, abs_of_nonneg (Nat.cast_nonneg (α := ℚ) rows.length)]
  calc |hitShare rows * scale - round (hitShare rows * scale)| * rows.length
      ≤ 1 / 2 * rows.length := mul_le_mul_of_nonneg_right hround (Nat.cast_nonneg _)
    _ = rows.length / 2 := by ring

/-- **Rounded shares of groups**, weighted with their rows, are off by half a step for each row of all. -/
theorem rounded_shares {κ : Type*} [DecidableEq κ] {key : TrafficEvent → κ} {rows : List TrafficEvent}
    {groups : List (κ × List TrafficEvent)} (h : groups.Perm (groupBy key rows)) (scale : ℚ) :
    |(groups.map fun group => (round (hitShare group.2 * scale) : ℚ) * group.2.length).sum
      - scale * hitCount (plain rows)| ≤ rows.length / 2 := by
  have hlengths := sum_lengths h
  have hhits : (groups.map fun group => hitCount (plain group.2)).sum = hitCount (plain rows) := by
    simp only [hitCount_plain]
    exact sum_countP _ h
  rw [← hlengths, ← hhits]
  clear hlengths hhits h
  induction groups with
  | nil => simp
  | cons group groups ih =>
    have hfirst := rounded_share group.2 scale
    simp only [List.map_cons, List.sum_cons, Nat.cast_add] at ih ⊢
    rw [abs_le] at hfirst ih ⊢
    constructor
    · linarith [hfirst.1, ih.1]
    · linarith [hfirst.2, ih.2]

/-! ### The series -/

/-- The shares of the minutes, weighted with the requests of each. -/
def weightedShares (rows : List TrafficEvent) : ℚ :=
  (List.zipWith (fun rate ratio => (rate.value * ratio.value : ℚ)) (getRequestRate rows)
    (getCacheHitRatioTimeSeries rows)).sum

theorem weightedShares_eq (rows : List TrafficEvent) : weightedShares rows
    = ((minutes rows).map fun group => (round (hitShare group.2 * 100) : ℚ) * group.2.length).sum := by
  unfold weightedShares getRequestRate getCacheHitRatioTimeSeries
  rw [List.zipWith_map, List.zipWith_self]
  refine congrArg List.sum (List.map_congr_left fun group _ => ?_)
  push_cast
  ring

theorem hitRatio_mul_total (rows : List RequestEvent) :
    (getCacheHitRatio rows).hitRatio * rows.length = hitCount rows := by
  unfold getCacheHitRatio
  by_cases hrows : 0 < rows.length
  · have hlength : (rows.length : ℚ) ≠ 0 := Nat.cast_ne_zero.mpr (by omega)
    rw [if_pos hrows]
    exact div_mul_cancel₀ _ hlength
  · have hnil : rows = [] := List.eq_nil_of_length_eq_zero (by omega)
    rw [hnil]
    simp [hitCount]

theorem rate_times (rows : List TrafficEvent) :
    (getRequestRate rows).map TimeSeriesPoint.t = (minutes rows).map Prod.fst := by
  unfold getRequestRate
  rw [List.map_map]
  rfl

/-- Rows that are not from the future lie in the minutes of the window and the one that has begun. -/
theorem rate_points_le {now windowMinutes : ℕ} {events : List TrafficEvent} (hpast : ∀ e ∈ events, e.time ≤ now) :
    (getRequestRate (recent now windowMinutes events)).length ≤ windowMinutes + 1 := by
  let first := now / 60000 - windowMinutes
  let times := (getRequestRate (recent now windowMinutes events)).map TimeSeriesPoint.t
  have hnodup : times.Nodup := by
    show ((getRequestRate _).map TimeSeriesPoint.t).Nodup
    rw [rate_times]
    exact (byKey_strict _ _).imp fun hlt => hlt.ne
  have hsubset : times.toFinset ⊆ (Finset.Icc first (now / 60000)).image fun q => 60000 * q := by
    intro t ht
    rw [List.mem_toFinset] at ht
    rw [show times = _ from rate_times _] at ht
    have hkey : t ∈ (groupBy minute (recent now windowMinutes events)).map Prod.fst :=
      ((minutes_perm _).map Prod.fst).subset ht
    rw [groupBy_keys, List.mem_dedup] at hkey
    obtain ⟨e, he, rfl⟩ := List.mem_map.mp hkey
    obtain ⟨hmem, hrecent⟩ := List.mem_filter.mp he
    have hrecent := of_decide_eq_true hrecent
    have hle := hpast e hmem
    refine Finset.mem_image.mpr ⟨e.time / 60000, Finset.mem_Icc.mpr ⟨?_, Nat.div_le_div_right hle⟩, rfl⟩
    show now / 60000 - windowMinutes ≤ e.time / 60000
    omega
  calc (getRequestRate (recent now windowMinutes events)).length = times.length := (List.length_map _).symm
    _ = times.toFinset.card := (List.toFinset_card_of_nodup hnodup).symm
    _ ≤ ((Finset.Icc first (now / 60000)).image fun q => 60000 * q).card := Finset.card_le_card hsubset
    _ ≤ (Finset.Icc first (now / 60000)).card := Finset.card_image_le
    _ ≤ windowMinutes + 1 := by
      rw [Nat.card_Icc]
      show now / 60000 + 1 - (now / 60000 - windowMinutes) ≤ windowMinutes + 1
      omega

/-- **The charts of a window add up to its summary**: the requests and the bytes of the minutes to the totals, and the
percentages of the minutes, weighted with their requests, to the ratio, but for half a percent. -/
theorem series_agree (now windowMinutes : ℕ) (events : List TrafficEvent) :
    let rows := recent now windowMinutes events
    let stats := getSummaryStats windowMinutes (plain rows)
    ((getRequestRate rows).map TimeSeriesPoint.value).sum = stats.totalRequests ∧
    ((getBandwidthOverTime rows).map TimeSeriesPoint.value).sum = stats.totalBandwidthBytes ∧
    |weightedShares rows - 100 * stats.cacheHitRatio * stats.totalRequests| ≤ (stats.totalRequests : ℚ) / 2 ∧
    (∀ point ∈ getCacheHitRatioTimeSeries rows, 0 ≤ point.value ∧ point.value ≤ 100) ∧
    (getRequestRate rows).map TimeSeriesPoint.t = (getBandwidthOverTime rows).map TimeSeriesPoint.t ∧
    (getRequestRate rows).map TimeSeriesPoint.t = (getCacheHitRatioTimeSeries rows).map TimeSeriesPoint.t ∧
    ((getRequestRate rows).map TimeSeriesPoint.t).Pairwise (· < ·) ∧
    ((∀ e ∈ events, e.time ≤ now) → (getRequestRate rows).length ≤ windowMinutes + 1) := by
  intro rows stats
  have htotal : stats.totalRequests = rows.length := List.length_map _
  refine ⟨?_, ?_, ?_, fun point hpoint => ?_, ?_, ?_, ?_, rate_points_le⟩
  · rw [htotal, ← sum_lengths (minutes_perm rows)]
    unfold getRequestRate
    rw [List.map_map, Nat.cast_list_sum, List.map_map]
    rfl
  · show _ = totalBytes (plain rows)
    rw [totalBytes_plain, ← sum_groups _ (minutes_perm rows)]
    unfold getBandwidthOverTime
    rw [List.map_map]
    exact congrArg List.sum (List.map_congr_left fun group _ => totalBytes_plain group.2)
  · have hhits : stats.cacheHitRatio * (stats.totalRequests : ℚ) = hitCount (plain rows) := hitRatio_mul_total _
    rw [mul_assoc, hhits, weightedShares_eq, htotal]
    exact rounded_shares (minutes_perm rows) 100
  · obtain ⟨group, -, rfl⟩ := List.mem_map.mp hpoint
    obtain ⟨hlow, hhigh⟩ := hitShare_mem group.2
    show 0 ≤ round (hitShare group.2 * 100) ∧ round (hitShare group.2 * 100) ≤ 100
    rw [round_eq]
    refine ⟨Int.floor_nonneg.mpr (by linarith), ?_⟩
    have hlt : ⌊hitShare group.2 * 100 + 1 / 2⌋ < 101 := Int.floor_lt.mpr (by push_cast; linarith)
    omega
  · rw [rate_times]
    unfold getBandwidthOverTime
    rw [List.map_map]
    rfl
  · rw [rate_times]
    unfold getCacheHitRatioTimeSeries
    rw [List.map_map]
    rfl
  · rw [rate_times]
    exact byKey_strict _ _

/-- A request of a service and a path at an edge. -/
def sampleRow (time : ℕ) (service path : String) (status : ℤ) (cacheHit : Bool) : TrafficEvent where
  time
  status := some status
  latencyMs := some 10
  userId := none
  cacheHit
  bytes := 100
  service := some service
  path := some path
  country := some "DE"
  edgeRegion := some "eu-west"

/-- Two requests of one minute, and one of the next. -/
def sampleRows : List TrafficEvent :=
  [sampleRow 0 "cdn" "/cdn/a" 200 true, sampleRow 60000 "cdn" "/cdn/a" 200 false,
    sampleRow 1000 "storage" "/v1/storage" 404 false]

theorem series_agree_three : (getRequestRate (recent 60000 5 sampleRows)).length ≤ 6 ∧
    ((getRequestRate (recent 60000 5 sampleRows)).map TimeSeriesPoint.value).sum = 3 := by
  obtain ⟨hsum, -, -, -, -, -, -, hpoints⟩ := series_agree 60000 5 sampleRows
  refine ⟨hpoints (by decide), hsum.trans ?_⟩
  decide

/-! ### Rankings -/

/-- `GROUP BY key ORDER BY COUNT(*) DESC`: ties are in any order. -/
def Answers {κ : Type*} [DecidableEq κ] (key : TrafficEvent → κ) (rows : List TrafficEvent)
    (answer : List (κ × List TrafficEvent)) : Prop :=
  Ranked (fun group => group.2.length) (groupBy key rows) answer

theorem length_rowsOf {κ : Type*} [DecidableEq κ] (key : TrafficEvent → κ) (rows : List TrafficEvent) (k : κ) :
    (rowsOf key rows k).length = rows.countP fun e => decide (key e = k) :=
  List.countP_eq_length_filter.symm

structure TopPath where
  path : Option String
  count : ℕ
  avgLatency : ℚ
  deriving DecidableEq, Repr

def getTopPaths (limit : ℕ) (answer : List (Option String × List TrafficEvent)) : List TopPath :=
  (answer.take limit).map fun group => ⟨group.1, group.2.length, meanLatency (plain group.2)⟩

/-- The requests of a path. -/
def pathCount (rows : List TrafficEvent) (path : Option String) : ℕ := rows.countP fun e => decide (e.path = path)

/-- **The top paths** are distinct, in descending order, with the counts and averages of their requests, and no other
path has more requests than one of them. -/
theorem top_paths_correct (limit : ℕ) (rows : List TrafficEvent) (answer : List (Option String × List TrafficEvent))
    (hanswer : Answers TrafficEvent.path rows answer) :
    let top := getTopPaths limit answer
    top.length = min limit (rows.map TrafficEvent.path).dedup.length ∧
    (top.map TopPath.path).Nodup ∧
    (top.Pairwise fun a b => b.count ≤ a.count) ∧
    (∀ entry ∈ top, entry.count = pathCount rows entry.path ∧
      entry.avgLatency = meanLatency (plain (rowsOf TrafficEvent.path rows entry.path))) ∧
    ∀ entry ∈ top, ∀ path ∉ top.map TopPath.path, pathCount rows path ≤ entry.count := by
  intro top
  have hpaths : top.map TopPath.path = (answer.take limit).map Prod.fst := List.map_map ..
  have hgroup : ∀ group ∈ answer.take limit, group.2 = rowsOf TrafficEvent.path rows group.1 := fun group hgroup =>
    (mem_groupBy.mp (hanswer.perm.subset (List.mem_of_mem_take hgroup))).2
  refine ⟨?_, ?_, ?_, fun entry hentry => ?_, fun entry hentry path hpath => ?_⟩
  · rw [← groupBy_keys, List.length_map, ← hanswer.length_take]
    exact List.length_map _
  · rw [hpaths]
    have hnodup := (hanswer.perm.map Prod.fst).nodup_iff.mpr (groupBy_keys_nodup TrafficEvent.path rows)
    exact hnodup.sublist ((List.take_sublist _ _).map _)
  · exact List.pairwise_map.mpr (hanswer.descending.sublist (List.take_sublist _ _))
  · obtain ⟨group, hmem, rfl⟩ := List.mem_map.mp hentry
    refine ⟨?_, congrArg (fun l => meanLatency (plain l)) (hgroup group hmem)⟩
    show group.2.length = _
    rw [hgroup group hmem]
    exact length_rowsOf _ _ _
  · obtain ⟨group, hmem, rfl⟩ := List.mem_map.mp hentry
    by_cases hknown : path ∈ rows.map TrafficEvent.path
    · have hother : (path, rowsOf TrafficEvent.path rows path) ∈ groupBy TrafficEvent.path rows :=
        mem_groupBy.mpr ⟨hknown, rfl⟩
      have hle := hanswer.le_of_not_mem hmem hother fun hin => hpath (hpaths ▸ List.mem_map_of_mem hin)
      rwa [length_rowsOf] at hle
    · have hzero : pathCount rows path = 0 := List.countP_eq_zero.mpr fun e he heq =>
        hknown (List.mem_map.mpr ⟨e, he, of_decide_eq_true heq⟩)
      rw [hzero]
      exact Nat.zero_le _

theorem top_paths_correct_three : (getTopPaths 1 (groupBy TrafficEvent.path sampleRows)).length = 1 ∧
    ∀ entry ∈ getTopPaths 1 (groupBy TrafficEvent.path sampleRows), pathCount sampleRows (some "/v1/storage")
      ≤ entry.count := by
  obtain ⟨hlength, -, -, -, hlargest⟩ := top_paths_correct 1 sampleRows _ ⟨.refl _, by decide⟩
  exact ⟨hlength, fun entry hentry => hlargest entry hentry _ (by decide)⟩

/-! ### Shares -/

/-- `WHERE column IS NOT NULL`. -/
def having (column : TrafficEvent → Option String) (rows : List TrafficEvent) : List TrafficEvent :=
  rows.filter fun e => (column e).isSome

structure ServiceCount where
  service : Option String
  count : ℕ
  errorCount : ℕ
  deriving DecidableEq, Repr

def getRequestsByService (answer : List (Option String × List TrafficEvent)) : List ServiceCount :=
  answer.map fun group => ⟨group.1, group.2.length, group.2.countP isError⟩

structure EdgeStats where
  region : Option String
  requests : ℕ
  cacheHitRatio : ℚ
  avgLatencyMs : ℚ
  lastSeen : ℕ
  deriving DecidableEq, Repr

/-- `ROUND(AVG(cache_hit::int), 4)`, and `MAX(time)`. -/
def getEdgeStats (answer : List (Option String × List TrafficEvent)) : List EdgeStats :=
  answer.map fun group =>
    { region := group.1
      requests := group.2.length
      cacheHitRatio := round (hitShare group.2 * 10000) / 10000
      avgLatencyMs := meanLatency (plain group.2)
      lastSeen := (group.2.map fun e => e.time).foldr max 0 }

structure CountryShare where
  country : Option String
  count : ℕ
  pct : ℚ
  deriving DecidableEq, Repr

/-- `ROUND(COUNT(*) * 100.0 / SUM(COUNT(*)) OVER (), 2)`: the window is that of all groups, before `LIMIT 20`. -/
def getGeoDistribution (answer : List (Option String × List TrafficEvent)) : List CountryShare :=
  let all : ℕ := (answer.map fun group => group.2.length).sum
  (answer.take 20).map fun group =>
    ⟨group.1, group.2.length, round (((group.2.length : ℚ) * 100 / all) * 100) / 100⟩

/-- The rows of a window are those with a value in a column, and the others. -/
theorem countP_having (column : TrafficEvent → Option String) (p : TrafficEvent → Bool) (rows : List TrafficEvent) :
    (having column rows).countP p + rows.countP (fun e => (column e).isNone && p e) = rows.countP p := by
  unfold having
  rw [List.countP_filter]
  induction rows with
  | nil => rfl
  | cons e rows ih =>
    simp only [List.countP_cons] at ih ⊢
    cases column e <;> cases p e <;> simp <;> omega

/-- **The services account for all requests and errors** but those without a service. -/
theorem services_add_up (rows : List TrafficEvent) (answer : List (Option String × List TrafficEvent))
    (hanswer : Answers TrafficEvent.service (having TrafficEvent.service rows) answer) :
    let list := getRequestsByService answer
    let errors := getErrorRate (plain rows)
    (list.map ServiceCount.count).sum + rows.countP (fun e => e.service.isNone) = errors.total ∧
    (list.map ServiceCount.errorCount).sum + rows.countP (fun e => e.service.isNone && isError e) = errors.errors ∧
    ∀ entry ∈ list, entry.service ≠ none ∧ 0 < entry.count ∧ entry.errorCount ≤ entry.count := by
  intro list errors
  refine ⟨?_, ?_, fun entry hentry => ?_⟩
  · have hcounts : (list.map ServiceCount.count).sum = (having TrafficEvent.service rows).length := by
      rw [← sum_lengths hanswer.perm]
      exact congrArg List.sum (List.map_map ..)
    have hall := countP_having TrafficEvent.service (fun _ => true) rows
    simp only [List.countP_true, Bool.and_true] at hall
    rw [hcounts, hall]
    exact (List.length_map _).symm
  · have hcounts : (list.map ServiceCount.errorCount).sum = (having TrafficEvent.service rows).countP isError := by
      rw [← sum_countP isError hanswer.perm]
      exact congrArg List.sum (List.map_map ..)
    rw [hcounts, countP_having]
    exact (errorCount_plain rows).symm
  · obtain ⟨group, hmem, rfl⟩ := List.mem_map.mp hentry
    have hgroup := hanswer.perm.subset hmem
    refine ⟨fun hnone => ?_, List.length_pos_iff.mpr (groupBy_rows_ne_nil hgroup), List.countP_le_length⟩
    obtain ⟨e, he, hservice⟩ := List.mem_map.mp (mem_groupBy.mp hgroup).1
    have hsome := (List.mem_filter.mp he).2
    rw [hservice, show group.1 = none from hnone] at hsome
    cases hsome

theorem services_add_up_three :
    ((getRequestsByService (groupBy TrafficEvent.service (having TrafficEvent.service sampleRows))).map
      ServiceCount.count).sum = 3 :=
  (services_add_up sampleRows _ ⟨.refl _, by decide⟩).1

theorem le_foldr_max (l : List ℕ) : ∀ a ∈ l, a ≤ l.foldr max 0 := by
  induction l with
  | nil => exact fun a ha => absurd ha List.not_mem_nil
  | cons b l ih =>
    intro a ha
    rcases List.mem_cons.mp ha with rfl | ha
    · exact le_max_left _ _
    · exact (ih a ha).trans (le_max_right _ _)

/-- **The edges account for all requests with a region**, their ratios, weighted with their requests, for the hits, but
for a rounding in the fourth place, and each edge was last seen when its last request came. -/
theorem edges_agree (rows : List TrafficEvent) (answer : List (Option String × List TrafficEvent))
    (hanswer : Answers TrafficEvent.edgeRegion (having TrafficEvent.edgeRegion rows) answer) :
    let list := getEdgeStats answer
    let seen := having TrafficEvent.edgeRegion rows
    (list.map EdgeStats.requests).sum = seen.length ∧
    |(list.map fun entry => (entry.requests * entry.cacheHitRatio : ℚ)).sum - hitCount (plain seen)|
      ≤ (seen.length : ℚ) / 20000 ∧
    ∀ e ∈ seen, ∃ entry ∈ list, entry.region = e.edgeRegion ∧ e.time ≤ entry.lastSeen := by
  intro list seen
  refine ⟨?_, ?_, fun e he => ?_⟩
  · rw [← sum_lengths hanswer.perm]
    exact congrArg List.sum (List.map_map ..)
  · have hshares := rounded_shares hanswer.perm 10000
    have hweighted : (list.map fun entry => (entry.requests * entry.cacheHitRatio : ℚ)).sum
        = (answer.map fun group => (round (hitShare group.2 * 10000) : ℚ) * group.2.length).sum * (1 / 10000) := by
      show ((getEdgeStats answer).map _).sum = _
      unfold getEdgeStats
      rw [List.map_map, ← List.sum_map_mul_right]
      refine congrArg List.sum (List.map_congr_left fun group _ => ?_)
      show (group.2.length : ℚ) * (round (hitShare group.2 * 10000) / 10000) = _
      ring
    rw [hweighted]
    rw [abs_le] at hshares ⊢
    constructor
    · linarith [hshares.1]
    · linarith [hshares.2]
  · have hgroup : (e.edgeRegion, rowsOf TrafficEvent.edgeRegion seen e.edgeRegion)
        ∈ groupBy TrafficEvent.edgeRegion seen := mem_groupBy.mpr ⟨List.mem_map_of_mem he, rfl⟩
    refine ⟨_, List.mem_map_of_mem (hanswer.perm.mem_iff.mpr hgroup), rfl, ?_⟩
    refine le_foldr_max _ _ (List.mem_map.mpr ⟨e, ?_, rfl⟩)
    exact List.mem_filter.mpr ⟨he, decide_eq_true rfl⟩

theorem edges_agree_three :
    ((getEdgeStats (groupBy TrafficEvent.edgeRegion (having TrafficEvent.edgeRegion sampleRows))).map
      EdgeStats.requests).sum = 3 :=
  (edges_agree sampleRows _ ⟨.refl _, by decide⟩).1

/-- Values rounded to two places. -/
theorem sum_rounded (l : List ℚ) :
    |(l.map fun x => (round (x * 100) : ℚ) / 100).sum - l.sum| ≤ (l.length : ℚ) / 200 := by
  induction l with
  | nil => simp
  | cons x l ih =>
    have hround := abs_sub_round (x * 100)
    simp only [List.map_cons, List.sum_cons, List.length_cons, Nat.cast_add, Nat.cast_one]
    rw [abs_le] at hround ih ⊢
    constructor
    · linarith [hround.2, ih.1]
    · linarith [hround.1, ih.2]

/-- **The percentages of the countries** are those of the requests that have one, but for their rounding; if no country
is left out, they add up to 100 but for a tenth. -/
theorem percentages_add_up (rows : List TrafficEvent) (answer : List (Option String × List TrafficEvent))
    (hanswer : Answers TrafficEvent.country (having TrafficEvent.country rows) answer) :
    let list := getGeoDistribution answer
    let known := having TrafficEvent.country rows
    |(list.map CountryShare.pct).sum - (list.map CountryShare.count).sum * 100 / known.length|
      ≤ (list.length : ℚ) / 200 ∧
    list.length ≤ 20 ∧
    ((known.map TrafficEvent.country).dedup.length ≤ 20 → known ≠ [] →
      |(list.map CountryShare.pct).sum - 100| ≤ 1 / 10) := by
  intro list known
  have hall : (answer.map fun group => group.2.length).sum = known.length := sum_lengths hanswer.perm
  let share := fun group : Option String × List TrafficEvent => (group.2.length : ℚ) * 100 / known.length
  have hpct : (list.map CountryShare.pct).sum
      = (((answer.take 20).map share).map fun x => (round (x * 100) : ℚ) / 100).sum := by
    show ((getGeoDistribution answer).map _).sum = _
    unfold getGeoDistribution
    rw [hall, List.map_map, List.map_map]
    rfl
  have hshares : ((answer.take 20).map share).sum = (list.map CountryShare.count).sum * 100 / known.length := by
    show _ = (((getGeoDistribution answer).map CountryShare.count).sum : ℚ) * 100 / known.length
    unfold getGeoDistribution
    rw [List.map_map, Nat.cast_list_sum, List.map_map, mul_div_assoc, ← List.sum_map_mul_right]
    refine congrArg List.sum (List.map_congr_left fun group _ => ?_)
    exact mul_div_assoc _ _ _
  have hlength : ((answer.take 20).map share).length = list.length := by
    rw [List.length_map]
    exact (List.length_map _).symm
  have hclose := sum_rounded ((answer.take 20).map share)
  rw [← hpct, hshares, hlength] at hclose
  have htwenty : list.length ≤ 20 := by
    rw [← hlength, List.length_map]
    exact List.length_take_le _ _
  refine ⟨hclose, htwenty, fun hfew hsome => ?_⟩
  have hcomplete : answer.take 20 = answer := by
    refine List.take_of_length_le ?_
    rw [hanswer.perm.length_eq, ← List.length_map Prod.fst, groupBy_keys]
    exact hfew
  have hcounts : (list.map CountryShare.count).sum = known.length := by
    show ((getGeoDistribution answer).map _).sum = _
    unfold getGeoDistribution
    rw [hcomplete, List.map_map, ← hall]
    rfl
  have hpos : (known.length : ℚ) ≠ 0 := Nat.cast_ne_zero.mpr fun h => hsome (List.eq_nil_of_length_eq_zero h)
  rw [hcounts, mul_div_assoc, mul_div_cancel₀ _ hpos] at hclose
  have hbound : (list.length : ℚ) ≤ 20 := by exact_mod_cast htwenty
  linarith

theorem percentages_add_up_three :
    |((getGeoDistribution (groupBy TrafficEvent.country (having TrafficEvent.country sampleRows))).map
      CountryShare.pct).sum - 100| ≤ 1 / 10 :=
  (percentages_add_up sampleRows _ ⟨.refl _, by decide⟩).2.2 (by decide) (by decide)

/-! ### Percentiles -/

theorem percentileCont_eq (fraction : ℚ) (values : List ℤ) : percentileCont fraction values
    = interpolate (fun i => ((values.insertionSort (· ≤ ·)).getD i 0 : ℚ)) (fraction * ((values.length : ℚ) - 1)) := rfl

/-- The sorted values grow with their places. -/
theorem sorted_mono (values : List ℤ) (i j : ℕ) (hij : i ≤ j) (hj : j ≤ values.length - 1) (hpos : values ≠ []) :
    (((values.insertionSort (· ≤ ·)).getD i 0 : ℤ) : ℚ) ≤ ((values.insertionSort (· ≤ ·)).getD j 0 : ℤ) := by
  have hlength : (values.insertionSort (· ≤ ·)).length = values.length := List.length_insertionSort _ values
  have hlt : j < (values.insertionSort (· ≤ ·)).length := by
    have := List.length_pos_iff.mpr hpos
    omega
  rw [List.getD_eq_getElem _ _ hlt, List.getD_eq_getElem _ _ (lt_of_le_of_lt hij hlt)]
  rcases eq_or_lt_of_le hij with rfl | hlt'
  · exact le_refl _
  · have hsorted := List.pairwise_iff_getElem.mp (List.pairwise_insertionSort (· ≤ ·) values)
    exact_mod_cast hsorted i j _ hlt hlt'

/-- The places of a percentile among the values. -/
theorem place_mem {fraction : ℚ} {values : List ℤ} (hlow : 0 ≤ fraction) (hhigh : fraction ≤ 1) (hpos : values ≠ []) :
    0 ≤ fraction * ((values.length : ℚ) - 1) ∧
      fraction * ((values.length : ℚ) - 1) ≤ ((values.length - 1 : ℕ) : ℚ) := by
  have hlength := List.length_pos_iff.mpr hpos
  rw [Nat.cast_sub hlength, Nat.cast_one]
  have hlast : (0 : ℚ) ≤ (values.length : ℚ) - 1 := by
    have hone : (1 : ℚ) ≤ (values.length : ℚ) := by exact_mod_cast hlength
    linarith
  exact ⟨mul_nonneg hlow hlast, mul_le_of_le_one_left hlast hhigh⟩

theorem percentileCont_nil (fraction : ℚ) : percentileCont fraction [] = 0 := by
  simp [percentileCont_eq, interpolate]

/-- **A percentile grows with its fraction.** -/
theorem percentileCont_mono {fraction fraction' : ℚ} (hlow : 0 ≤ fraction) (hle : fraction ≤ fraction')
    (hhigh : fraction' ≤ 1) (values : List ℤ) : percentileCont fraction values ≤ percentileCont fraction' values := by
  by_cases hpos : values = []
  · rw [hpos, percentileCont_nil, percentileCont_nil]
  · rw [percentileCont_eq, percentileCont_eq]
    have hplace := place_mem hlow (hle.trans hhigh) hpos
    have hplace' := place_mem (hlow.trans hle) hhigh hpos
    have hlast : (0 : ℚ) ≤ (values.length : ℚ) - 1 := by
      have hone : (1 : ℚ) ≤ (values.length : ℚ) := by exact_mod_cast List.length_pos_iff.mpr hpos
      linarith
    exact interpolate_mono (fun i j hij hj => sorted_mono values i j hij hj hpos) hplace.1
      (mul_le_mul_of_nonneg_right hle hlast) hplace'.2

/-- A percentile lies where the values lie. -/
theorem percentileCont_mem {fraction : ℚ} (hlow : 0 ≤ fraction) (hhigh : fraction ≤ 1) {values : List ℤ}
    (hpos : values ≠ []) {low high : ℤ} (hvalues : ∀ value ∈ values, low ≤ value ∧ value ≤ high) :
    (low : ℚ) ≤ percentileCont fraction values ∧ percentileCont fraction values ≤ high := by
  obtain ⟨hzero, hlast⟩ := place_mem hlow hhigh hpos
  let sorted := values.insertionSort (· ≤ ·)
  have hsorted : ∀ i ≤ values.length - 1, low ≤ sorted.getD i 0 ∧ sorted.getD i 0 ≤ high := by
    intro i hi
    have hlength : sorted.length = values.length := List.length_insertionSort _ values
    have hlt : i < sorted.length := by
      have := List.length_pos_iff.mpr hpos
      omega
    rw [List.getD_eq_getElem _ _ hlt]
    exact hvalues _ ((List.mem_insertionSort _).mp (List.getElem_mem hlt))
  have hceil := ceil_le_last hlast
  have hfloor := (floor_le_ceil_toNat _).trans hceil
  obtain ⟨hbelow, habove⟩ := interpolate_between (fun i j hij hj => sorted_mono values i j hij hj hpos) hlast
  rw [percentileCont_eq]
  constructor
  · refine le_trans ?_ hbelow
    exact_mod_cast (hsorted _ hfloor).1
  · refine habove.trans ?_
    exact_mod_cast (hsorted _ hceil).2

/-- **p50, p95 and p99 are in order**, and lie where the latencies lie. -/
theorem percentiles_ordered (rows : List RequestEvent) :
    let percentiles := getLatencyPercentiles rows
    percentiles.p50 ≤ percentiles.p95 ∧ percentiles.p95 ≤ percentiles.p99 ∧
    ∀ low high : ℤ, latencies rows ≠ [] → (∀ value ∈ latencies rows, low ≤ value ∧ value ≤ high) →
      low ≤ percentiles.p50 ∧ percentiles.p99 ≤ high := by
  refine ⟨percentileCont_mono (by norm_num) (by norm_num) (by norm_num) _,
    percentileCont_mono (by norm_num) (by norm_num) (by norm_num) _, fun low high hpos hvalues => ?_⟩
  exact ⟨(percentileCont_mem (by norm_num) (by norm_num) hpos hvalues).1,
    (percentileCont_mem (by norm_num) (by norm_num) hpos hvalues).2⟩

end EdgeSphere.Analytics
