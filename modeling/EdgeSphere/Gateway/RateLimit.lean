import Mathlib
import EdgeSphere.Library.Runs
import EdgeSphere.Library.Expiry
import EdgeSphere.Library.SortedSet

/-!
# The gateway's rate limiters

`RateLimitService` keeps two kinds of Redis key: a hash with the tokens of a bucket
(`ratelimit:tb:…`) and a sorted set with one entry a request (`ratelimit:sw:…`).  Both methods are
translated here as a call on the Redis state that answers with a reply.

JavaScript numbers that are no clock readings (capacity, rate, limit, window, token counts) live in
an ordered field `K` with a floor, so that the same definitions run on `ℚ` and speak about `ℝ`; the
clock is `Date.now()`, a natural number of milliseconds.  The counters of `MetricsService` are left
out: no method reads them.
-/

namespace EdgeSphere.Gateway

open EdgeSphere.Library
open EdgeSphere.Library.Expiry

variable {K : Type*} [Field K] [LinearOrder K] [FloorRing K]

/-- The literal 1000 of the milliseconds rests on this. -/
instance atLeastTwo_1000 : Nat.AtLeastTwo 1000 := ⟨by decide⟩

/-- The hash written by `tokenBucket`; both fields are always written together. -/
structure Bucket (K : Type*) where
  tokens : K
  lastRefill : ℕ
  deriving DecidableEq, Repr

/-- The two key families of `RateLimitService`. -/
structure Redis (K : Type*) where
  hashes : String → Option (Cell (Bucket K))
  zsets : String → Option (Cell (SortedSet String K))

/-- A Redis without keys. -/
def Redis.empty : Redis K := ⟨fun _ => none, fun _ => none⟩

/-! ### Token bucket -/

structure TokenBucketReply where
  allowed : Bool
  remaining : ℤ
  resetAt : ℤ
  deriving DecidableEq, Repr

def tokenBucketKey (identifier : String) : String := "ratelimit:tb:" ++ identifier

/-- The tokens a call finds: a missing hash is a full bucket, a stored one is refilled for the time
since it was written and capped. -/
def refilled (capacity refillRatePerSec : K) (now : ℕ) : Option (Bucket K) → K
  | none => capacity
  | some b =>
    min capacity (b.tokens + ((now : K) - (b.lastRefill : K)) / 1000 * refillRatePerSec)

/-- What is left of `tokens` after a call: an admitted call takes one. -/
def spend (tokens : K) : K := if 1 ≤ tokens then tokens - 1 else tokens

/-- `RateLimitService.tokenBucket`. -/
def tokenBucket (identifier : String) (capacity refillRatePerSec : K) (now : ℕ) (redis : Redis K) :
    Redis K × TokenBucketReply :=
  let key := tokenBucketKey identifier
  let found := refilled capacity refillRatePerSec now (read now (redis.hashes key))
  let tokens := spend found
  let written := modify now (fun _ => Bucket.mk tokens now) (redis.hashes key)
  ({ redis with hashes := Function.update redis.hashes key (expire now 60 written) },
    { allowed := decide (1 ≤ found)
      remaining := ⌊tokens⌋
      resetAt := now + 1000 * ⌈(1 - tokens) / refillRatePerSec⌉ })

/-! ### Sliding window -/

structure SlidingWindowReply (K : Type*) where
  allowed : Bool
  remaining : K
  resetAt : K
  deriving DecidableEq, Repr

def slidingWindowKey (identifier : String) : String := "ratelimit:sw:" ++ identifier

/-- The pipeline `ZADD`, `ZREMRANGEBYSCORE`, `ZCARD`, `EXPIRE` on one key, executed as a whole; the
second component is the reply to `ZCARD`.  A sorted set that becomes empty is a missing key. -/
def slidingPipeline (requestId : String) (windowMs : K) (now : ℕ)
    (cell : Option (Cell (SortedSet String K))) : Option (Cell (SortedSet String K)) × ℕ :=
  let added := modify now (fun s => (s.getD .empty).zadd (now : K) requestId) cell
  let pruned := modify now (fun s => (s.getD .empty).zremrangebyscore 0 ((now : K) - windowMs)) added
  let card := ((read now pruned).getD .empty).zcard
  (expire now ⌈windowMs / 1000⌉ (if card = 0 then none else pruned), card)

/-- The decision taken on the reply to `ZCARD`; `none` is an `exec()` that returned nothing or an
error in that slot, which fails open. -/
def slidingWindowReply (limit windowMs : K) (now : ℕ) (zcardReply : Option ℕ) :
    SlidingWindowReply K :=
  { allowed := match zcardReply with
      | some count => !decide (limit < (count : K))
      | none => true
    remaining := max 0 (limit - ((zcardReply.getD 0 : ℕ) : K))
    resetAt := (now : K) + windowMs }

/-- `RateLimitService.slidingWindow` against a Redis that answers. -/
def slidingWindow (identifier requestId : String) (limit windowMs : K) (now : ℕ) (redis : Redis K) :
    Redis K × SlidingWindowReply K :=
  let key := slidingWindowKey identifier
  let out := slidingPipeline requestId windowMs now (redis.zsets key)
  ({ redis with zsets := Function.update redis.zsets key out.1 },
    slidingWindowReply limit windowMs now (some out.2))

end EdgeSphere.Gateway
