import Mathlib.Data.List.Sort
import Mathlib.Data.Rat.Floor

/-!
# The summary of the analytics-service

`AnalyticsService.getSummaryStats` over the rows of `request_events` in a window.  Ratios and averages are
exact rational numbers; the instant `generatedAt`, which no reader of the summary looks at, is left out.

`SummaryStats.json` is the summary as another service receives it: an object with numbers by name.
-/

namespace EdgeSphere.Analytics

/-- A row of `request_events`: the columns the summary reads. -/
structure RequestEvent where
  time : ℕ
  status : Option ℤ
  latencyMs : Option ℤ
  userId : Option String
  cacheHit : Bool
  bytes : ℤ
  deriving DecidableEq, Repr

/-- `WHERE time > NOW() - INTERVAL '… minutes'`, in milliseconds. -/
def inWindow (now windowMinutes : ℕ) (events : List RequestEvent) : List RequestEvent :=
  events.filter fun e => decide (now < e.time + 60000 * windowMinutes)

/-! ### Aggregates -/

/-- `COUNT(*) FILTER (WHERE status >= 400)`. -/
def errorCount (rows : List RequestEvent) : ℕ := rows.countP fun e => e.status.any fun s => decide (400 ≤ s)

/-- `SUM(CASE WHEN cache_hit THEN 1 ELSE 0 END)`. -/
def hitCount (rows : List RequestEvent) : ℕ := rows.countP fun e => e.cacheHit

/-- `SUM(bytes)`. -/
def totalBytes (rows : List RequestEvent) : ℤ := (rows.map RequestEvent.bytes).sum

/-- The latencies that are not `NULL`. -/
def latencies (rows : List RequestEvent) : List ℤ := rows.filterMap RequestEvent.latencyMs

/-- `AVG(latency_ms)`; of no values it is `NULL`, which the service reads as 0. -/
def meanLatency (rows : List RequestEvent) : ℚ := ((latencies rows).sum : ℚ) / (latencies rows).length

/-- `percentile_cont(fraction)`: between the two nearest values. -/
def percentileCont (fraction : ℚ) (values : List ℤ) : ℚ :=
  let sorted := values.insertionSort (· ≤ ·)
  let row : ℚ := fraction * ((values.length : ℚ) - 1)
  let low : ℚ := (sorted.getD ⌊row⌋.toNat 0 : ℤ)
  let high : ℚ := (sorted.getD ⌈row⌉.toNat 0 : ℤ)
  low + (high - low) * (row - ⌊row⌋)

/-- `COUNT(DISTINCT user_id)`. -/
def activeUsers (rows : List RequestEvent) : ℕ := (rows.filterMap RequestEvent.userId).dedup.length

/-! ### The methods -/

structure ErrorRate where
  errorRate : ℚ
  total : ℕ
  errors : ℕ
  deriving DecidableEq, Repr

def getErrorRate (rows : List RequestEvent) : ErrorRate where
  errorRate := if 0 < rows.length then (errorCount rows : ℚ) / rows.length else 0
  total := rows.length
  errors := errorCount rows

structure CacheHitRatio where
  hitRatio : ℚ
  hits : ℕ
  misses : ℕ
  cachedBytes : ℤ
  deriving DecidableEq, Repr

def getCacheHitRatio (rows : List RequestEvent) : CacheHitRatio where
  hitRatio := if 0 < rows.length then (hitCount rows : ℚ) / rows.length else 0
  hits := hitCount rows
  misses := rows.length - hitCount rows
  cachedBytes := totalBytes (rows.filter fun e => e.cacheHit)

structure LatencyPercentiles where
  p50 : ℚ
  p95 : ℚ
  p99 : ℚ
  deriving DecidableEq, Repr

def getLatencyPercentiles (rows : List RequestEvent) : LatencyPercentiles where
  p50 := percentileCont (1 / 2) (latencies rows)
  p95 := percentileCont (19 / 20) (latencies rows)
  p99 := percentileCont (99 / 100) (latencies rows)

structure SummaryStats where
  totalRequests : ℕ
  cacheHitRatio : ℚ
  avgLatency : ℚ
  p95Latency : ℚ
  totalBandwidthBytes : ℤ
  errorRate : ℚ
  activeUsers : ℕ
  windowMinutes : ℕ
  deriving DecidableEq, Repr

/-- `AnalyticsService.getSummaryStats` on the rows of its window. -/
def getSummaryStats (windowMinutes : ℕ) (rows : List RequestEvent) : SummaryStats where
  totalRequests := (getErrorRate rows).total
  cacheHitRatio := (getCacheHitRatio rows).hitRatio
  avgLatency := meanLatency rows
  p95Latency := (getLatencyPercentiles rows).p95
  totalBandwidthBytes := totalBytes rows
  errorRate := (getErrorRate rows).errorRate
  activeUsers := activeUsers rows
  windowMinutes

/-- The body of the response. -/
def SummaryStats.json (stats : SummaryStats) : List (String × ℚ) :=
  [("totalRequests", stats.totalRequests), ("cacheHitRatio", stats.cacheHitRatio),
    ("avgLatency", stats.avgLatency), ("p95Latency", stats.p95Latency),
    ("totalBandwidthBytes", stats.totalBandwidthBytes), ("errorRate", stats.errorRate),
    ("activeUsers", stats.activeUsers), ("windowMinutes", stats.windowMinutes)]

/-- An average of nothing counts as 0, so the guard on the number of rows changes no value. -/
theorem errorRate_eq (rows : List RequestEvent) :
    (getErrorRate rows).errorRate = (errorCount rows : ℚ) / rows.length := by
  show (if 0 < rows.length then (errorCount rows : ℚ) / rows.length else 0) = _
  split
  · rfl
  · rename_i hempty
    have hzero : rows.length = 0 := by omega
    rw [hzero, Nat.cast_zero, div_zero]

/-- No ratio of the summary exceeds 1. -/
theorem ratio_le_one (rows : List RequestEvent) (p : RequestEvent → Bool) :
    (rows.countP p : ℚ) / rows.length ≤ 1 := by
  refine div_le_one_of_le₀ ?_ (Nat.cast_nonneg _)
  exact_mod_cast List.countP_le_length

end EdgeSphere.Analytics
