import EdgeSphere.Gateway.Routes

/-!
# The circuit breaker

`ProxyService.handle` gives the breaker of a service a promise for each request: the callback of the proxy rejects or
resolves it, and the executor resolves it at its end.

* `settlement` — what settles a promise is the first call, and the proxy calls back only after it has returned;
* `openAt` — when the breaker is open, by the outcomes of the promises it was given;
* `Lawful` — what the breaker should count of a request, and when it should turn one away;
* `breaker_lawful_iff` — **the exact condition**: a run is lawful iff none of its exchanges fails;
* `breaker_never_opens` — six refused connections, and six successes.
-/

namespace EdgeSphere.Gateway

open EdgeSphere.Library
open EdgeSphere.Library.Program
open EdgeSphere.Library.Runs

/-! ### The breaker -/

structure BreakerOptions where
  timeout : ℕ
  errorThresholdPercentage : ℕ
  resetTimeout : ℕ
  volumeThreshold : ℕ

/-- The options of `CircuitBreakerService.createBreaker`. -/
def breakerOptions : BreakerOptions where
  timeout := 3000
  errorThresholdPercentage := 50
  resetTimeout := 30000
  volumeThreshold := 5

/-- A call that has ended, and how. -/
structure Outcome where
  time : ℕ
  failed : Bool
  deriving DecidableEq, Repr

/-- At `now`, enough calls fell into the rolling window, and enough of them failed. -/
def tripped (window : ℕ) (outcomes : List Outcome) (now : ℕ) : Bool :=
  let recent := outcomes.filter fun o => decide (o.time ≤ now) && decide (now < o.time + window)
  decide (breakerOptions.volumeThreshold ≤ recent.length) &&
    decide (breakerOptions.errorThresholdPercentage * recent.length ≤ 100 * recent.countP Outcome.failed)

/-- The breaker is open from the call that trips it until the reset timeout. -/
def openAt (window : ℕ) (outcomes : List Outcome) (now : ℕ) : Bool :=
  outcomes.any fun o => decide (o.time ≤ now) && decide (now < o.time + breakerOptions.resetTimeout)
    && tripped window outcomes o.time

/-- Calls that succeeded trip nothing. -/
theorem tripped_of_succeeded {window : ℕ} {outcomes : List Outcome} (h : ∀ o ∈ outcomes, o.failed = false) (now : ℕ) :
    tripped window outcomes now = false := by
  unfold tripped
  dsimp only
  have hnone : (outcomes.filter fun o => decide (o.time ≤ now) && decide (now < o.time + window)).countP Outcome.failed
      = 0 := by
    rw [List.countP_eq_zero]
    intro o ho
    rw [h o (List.mem_of_mem_filter ho)]
    exact Bool.false_ne_true
  rw [hnone, Bool.and_eq_false_iff, decide_eq_false_iff_not, decide_eq_false_iff_not]
  have hvolume : breakerOptions.volumeThreshold = 5 := rfl
  have hshare : breakerOptions.errorThresholdPercentage = 50 := rfl
  rw [hvolume, hshare]
  omega

theorem openAt_of_succeeded {window : ℕ} {outcomes : List Outcome} (h : ∀ o ∈ outcomes, o.failed = false) (now : ℕ) :
    openAt window outcomes now = false := by
  unfold openAt
  rw [List.any_eq_false]
  intro o _
  rw [tripped_of_succeeded h, Bool.and_false]
  exact Bool.false_ne_true

/-! ### The promise -/

/-- What becomes of a request at the service: an answer with a status after some time, a refused or a broken
connection, or nothing. -/
inductive Exchange where
  | answered (ms status : ℕ)
  | refused (ms : ℕ)
  | reset (ms : ℕ)
  | silent
  deriving DecidableEq, Repr

/-- The exchange fails: there is no answer within the timeout of the breaker. -/
def Exchange.fails : Exchange → Bool
  | .answered ms _ => decide (breakerOptions.timeout ≤ ms)
  | .refused _ | .reset _ | .silent => true

/-- How long the exchange takes, at most the timeout. -/
def Exchange.duration : Exchange → ℕ
  | .answered ms _ | .refused ms | .reset ms => min ms breakerOptions.timeout
  | .silent => breakerOptions.timeout

/-- A call of the callback that `proxy(req, res, callback)` is given: while `proxy` runs, or some time after. -/
structure CallbackCall where
  during : Bool
  ms : ℕ
  error : Bool

/-- A call of `resolve` or of `reject`, and when. -/
structure Settling where
  ms : ℕ
  rejected : Bool

/-- The calls of `resolve` and `reject` by the executor, in their order: those of the callback while `proxy` runs, the
one at the end, and those of the callback later. -/
def settlings (calls : List CallbackCall) : List Settling :=
  (calls.filter fun call => call.during).map (fun call => ⟨0, call.error⟩) ++ [⟨0, false⟩] ++
    (calls.filter fun call => !call.during).map fun call => ⟨call.ms, call.error⟩

/-- A promise is settled by the first call. -/
def settlement (calls : List CallbackCall) : Option Settling := (settlings calls).head?

/-- A proxy that never calls back while it runs: the promise is resolved at once. -/
theorem settlement_of_later {calls : List CallbackCall} (h : ∀ call ∈ calls, call.during = false) :
    settlement calls = some ⟨0, false⟩ := by
  have hnone : (calls.filter fun call => call.during) = [] :=
    List.filter_eq_nil_iff.mpr fun call hcall => by rw [h call hcall]; exact Bool.false_ne_true
  unfold settlement settlings
  rw [hnone]
  rfl

/-- What `breaker.fire` says of a promise: it settles in time, or the call has timed out. -/
def fired (now : ℕ) (promise : Option Settling) : Outcome :=
  match promise with
  | none => ⟨now + breakerOptions.timeout, true⟩
  | some settling =>
    if settling.ms < breakerOptions.timeout then ⟨now + settling.ms, settling.rejected⟩
    else ⟨now + breakerOptions.timeout, true⟩

/-! ### A request -/

/-- A request for the service, and what becomes of it there. -/
structure ProxiedRequest where
  url : String
  time : ℕ
  exchange : Exchange

/-- The breaker's outcomes of a service, and what is answered by the gateway itself. -/
structure Proxying where
  outcomes : List Outcome
  headers : List (String × String)
  response : Option (ℕ × String)

variable {N : Type} (callbacks : Exchange → List CallbackCall) (window : ℕ)

/-- Execute a command of `ProxyService.handle`; the limiters admit the request.  `CircuitBreakerService.execute` turns
the error of an open breaker into a `ServiceUnavailableException`. -/
def handleProxy (r : ProxiedRequest) (s : Proxying) :
    (c : ProxyCommand N) → Proxying × Except ProxyError (ProxyAnswer c)
  | .slidingWindow _ => (s, .ok true)
  | .tokenBucket _ => (s, .ok true)
  | .execute serviceName _ =>
    if openAt window s.outcomes r.time then
      (s, .error (.serviceUnavailable ("Service " ++ serviceName ++ " is unavailable")))
    else
      let outcome := fired r.time (settlement (callbacks r.exchange))
      ({ s with outcomes := outcome :: s.outcomes },
        if outcome.failed then .error (.other "the promise was rejected, or timed out") else .ok ())
  | .executeMember serviceName member =>
    if openAt window s.outcomes r.time then
      (s, .error (.serviceUnavailable ("Service " ++ serviceName ++ " is unavailable")))
    else
      ({ s with outcomes := ⟨r.time, !member.returns⟩ :: s.outcomes },
        if member.returns then .ok () else .error (.other "the member has thrown"))
  | .handleRequest => (s, .ok ())
  | .setHeader name value => ({ s with headers := (name, value) :: s.headers }, .ok ())
  | .respond status message => ({ s with response := some (status, message) }, .ok ())

/-- `ProxyService.handle` for a request, with the outcomes that the breaker of the service has counted. -/
def handleRequest (service : String) (outcomes : List Outcome) (r : ProxiedRequest) : Proxying :=
  (exec (handleProxy (N := ℤ) callbacks window r) ⟨outcomes, [], none⟩ (proxyHandle service r.url)).1

/-- The gateway answers that the service is unavailable, and when to try again. -/
def Proxying.Unavailable (p : Proxying) : Prop :=
  p.response.map Prod.fst = some 503 ∧ ("Retry-After", "30") ∈ p.headers

instance (p : Proxying) : Decidable p.Unavailable :=
  inferInstanceAs (Decidable (p.response.map Prod.fst = some 503 ∧ ("Retry-After", "30") ∈ p.headers))

/-! ### A run -/

/-- What the breaker of the service has counted, and what has become of the requests that reached the service. -/
structure BreakerLog where
  counted : List Outcome
  actual : List Outcome

/-- One request: it reaches the service unless the breaker is open. -/
def breakerStep (service : String) (s : BreakerLog) (r : ProxiedRequest) : Option BreakerLog :=
  some
    { counted := (handleRequest callbacks window service s.counted r).outcomes
      actual :=
        if openAt window s.counted r.time then s.actual
        else ⟨r.time + r.exchange.duration, r.exchange.fails⟩ :: s.actual }

/-- **The law**: where the requests that reached the service should have opened the breaker, the request is answered
503 with Retry-After; otherwise it is counted, as a failure exactly if its exchange fails. -/
def Lawful (service : String) (s : BreakerLog) (r : ProxiedRequest) : Prop :=
  (openAt window s.actual r.time = true → (handleRequest callbacks window service s.counted r).Unavailable) ∧
    (openAt window s.actual r.time = false →
      (handleRequest callbacks window service s.counted r).outcomes.map Outcome.failed
        = r.exchange.fails :: s.counted.map Outcome.failed)

instance (service : String) : ∀ s r, Decidable (Lawful callbacks window service s r) := fun s r =>
  inferInstanceAs (Decidable
    ((openAt window s.actual r.time = true → (handleRequest callbacks window service s.counted r).Unavailable) ∧
      (openAt window s.actual r.time = false →
        (handleRequest callbacks window service s.counted r).outcomes.map Outcome.failed
          = r.exchange.fails :: s.counted.map Outcome.failed)))

section Run

variable {callbacks window} {service : String} {r : ProxiedRequest}

/-- **One request is a success**, whatever becomes of it. -/
theorem handleRequest_counts (hservice : proxies.contains service = true)
    (hlater : ∀ exchange, ∀ call ∈ callbacks exchange, call.during = false) {outcomes : List Outcome}
    (houtcomes : ∀ o ∈ outcomes, o.failed = false) :
    handleRequest callbacks window service outcomes r = ⟨⟨r.time, false⟩ :: outcomes, [], none⟩ := by
  have hfired : fired r.time (settlement (callbacks r.exchange)) = ⟨r.time, false⟩ := by
    rw [settlement_of_later (hlater r.exchange)]
    rfl
  unfold handleRequest
  rw [proxyHandle_of_mem hservice, exec_catchAll, exec_command]
  simp only [handleProxy, openAt_of_succeeded houtcomes, hfired]
  rfl

/-- Nothing has failed so far, neither by the breaker's count nor at the service. -/
structure Unfailed (s : BreakerLog) : Prop where
  counted : ∀ o ∈ s.counted, o.failed = false
  actual : ∀ o ∈ s.actual, o.failed = false

/-- So far, a request is lawful exactly if its exchange does not fail. -/
theorem Unfailed.lawful_iff (hservice : proxies.contains service = true)
    (hlater : ∀ exchange, ∀ call ∈ callbacks exchange, call.during = false) {s : BreakerLog} (h : Unfailed s) :
    Lawful callbacks window service s r ↔ r.exchange.fails = false := by
  unfold Lawful
  rw [handleRequest_counts hservice hlater h.counted, openAt_of_succeeded h.actual]
  simp only [Bool.false_eq_true, false_implies, true_and, true_implies, List.map_cons, List.cons.injEq, and_true]
  exact eq_comm

/-- And after it, nothing has failed. -/
theorem Unfailed.step (hservice : proxies.contains service = true)
    (hlater : ∀ exchange, ∀ call ∈ callbacks exchange, call.during = false) {s s' : BreakerLog} (h : Unfailed s)
    (hr : r.exchange.fails = false) (hstep : breakerStep callbacks window service s r = some s') : Unfailed s' := by
  cases hstep
  rw [handleRequest_counts hservice hlater h.counted, openAt_of_succeeded h.counted]
  refine ⟨fun o ho => ?_, fun o ho => ?_⟩
  · rcases List.mem_cons.mp ho with rfl | hold
    · rfl
    · exact h.counted o hold
  · rcases List.mem_cons.mp ho with rfl | hold
    · exact hr
    · exact h.actual o hold

theorem Unfailed.run_iff (hservice : proxies.contains service = true)
    (hlater : ∀ exchange, ∀ call ∈ callbacks exchange, call.during = false) {requests : List ProxiedRequest}
    {s : BreakerLog} (h : Unfailed s) :
    Throughout (breakerStep callbacks window service) (Lawful callbacks window service) s requests ↔
      ∀ r ∈ requests, r.exchange.fails = false := by
  induction requests generalizing s with
  | nil => exact iff_of_true trivial fun r hr => by cases hr
  | cons r requests ih =>
    rw [List.forall_mem_cons, Throughout, h.lawful_iff hservice hlater]
    refine and_congr_right fun hr => ?_
    constructor
    · intro hrest
      exact (ih (h.step hservice hlater hr rfl)).mp (hrest _ rfl)
    · intro hrest s' hstep
      exact (ih (h.step hservice hlater hr hstep)).mpr hrest

end Run

/-- **The exact condition.**  In every run of requests for a configured service, with a proxy that calls back only after
it has returned: every exchange is counted as what it is, and an open circuit turns requests away, iff no exchange of
the run fails. -/
theorem breaker_lawful_iff {service : String} (hservice : proxies.contains service = true)
    (hlater : ∀ exchange, ∀ call ∈ callbacks exchange, call.during = false) (requests : List ProxiedRequest) :
    Throughout (breakerStep callbacks window service) (Lawful callbacks window service) ⟨[], []⟩ requests ↔
      ∀ r ∈ requests, r.exchange.fails = false := by
  have hstart : Unfailed ⟨[], []⟩ := ⟨fun o ho => (by cases ho), fun o ho => (by cases ho)⟩
  exact hstart.run_iff hservice hlater

/-! ### A service that is down -/

/-- A proxy that answers every request itself. -/
def silentProxy : Exchange → List CallbackCall := fun _ => []

/-- A slow answer and a fast one. -/
theorem breaker_lawful_iff_two :
    Throughout (breakerStep silentProxy 10000 "storage") (Lawful silentProxy 10000 "storage") ⟨[], []⟩
        [⟨"/v1/storage/buckets", 0, .answered 2900 200⟩, ⟨"/v1/storage/buckets", 5000, .answered 12 500⟩] ↔
      ∀ r ∈ ([⟨"/v1/storage/buckets", 0, .answered 2900 200⟩, ⟨"/v1/storage/buckets", 5000, .answered 12 500⟩] :
        List ProxiedRequest), r.exchange.fails = false :=
  breaker_lawful_iff silentProxy 10000 (by decide) (fun _ call hcall => by cases hcall) _

/-- Six requests for a service that refuses connections, a second apart. -/
def refusedRequests : List ProxiedRequest :=
  [0, 1000, 2000, 3000, 4000, 5000].map fun time => ⟨"/v1/storage/buckets", time, .refused 1⟩

/-- **Six refused connections are six successes**, and the circuit stays closed. -/
theorem breaker_never_opens :
    (run (breakerStep silentProxy 10000 "storage") ⟨[], []⟩ refusedRequests).map
        (fun s => (s.counted.map Outcome.failed, s.actual.map Outcome.failed,
          openAt 10000 s.counted 6000, openAt 10000 s.actual 6000))
      = some (List.replicate 6 false, List.replicate 6 true, false, true) ∧
    ¬ Throughout (breakerStep silentProxy 10000 "storage") (Lawful silentProxy 10000 "storage") ⟨[], []⟩
      refusedRequests := by
  decide +kernel

end EdgeSphere.Gateway
