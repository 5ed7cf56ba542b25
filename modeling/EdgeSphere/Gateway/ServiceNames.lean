import EdgeSphere.Gateway.CircuitBreaker

/-!
# Names of services

`ProxyService.handle` looks a service up in an ordinary object, under a name that the client has chosen.  A name that
the object has not, `Object.prototype` may have.

* `handleService` — what becomes of a request, by the breakers that are open and by the forwarders;
* `Served` — the request is handed to the forwarder of its service, turned away by an open breaker, or answered 404;
* `served_iff` — **the exact condition**: every request is served so iff its name is none of `Object.prototype`, or the
  breaker of that name is open;
* `member_unserved` — what becomes of the others: nothing at all, or 500;
* `member_never_answered` — in every run of requests for a member that returns, no request is ever answered.
-/

namespace EdgeSphere.Gateway

open EdgeSphere.Library
open EdgeSphere.Library.Program

variable {N : Type}

/-! ### A request -/

/-- What takes a request over. -/
inductive Forwarder where
  | proxy (serviceName url : String)
  | cdnRoute
  deriving DecidableEq, Repr

/-- The forwarder that is configured for a service. -/
def forwarderOf (service url : String) : Option Forwarder :=
  if service = "cdn" then some .cdnRoute
  else if proxies.contains service then some (.proxy (service ++ "-service") (pathRewrite service url))
  else none

/-- What has become of a request: the forwarders that it was handed to, and what the gateway has answered itself. -/
structure Handled where
  handed : List Forwarder
  headers : List (String × String)
  response : Option (ℕ × String)
  deriving DecidableEq, Repr

/-- What a request meets: the breakers that turn it away, and the error that the call of a forwarder ends with. -/
structure Weather where
  isOpen : String → Bool
  failure : Option String

/-- The message of `CircuitBreakerService.execute` for an open breaker. -/
def unavailable (serviceName : String) : String := "Service " ++ serviceName ++ " is unavailable"

/-- What `ProxyService.handle` awaits and does. -/
def answerHandle (w : Weather) (s : Handled) : (c : ProxyCommand N) → Handled × Except ProxyError (ProxyAnswer c)
  | .slidingWindow _ => (s, .ok true)
  | .tokenBucket _ => (s, .ok true)
  | .execute serviceName url =>
    if w.isOpen serviceName then (s, .error (.serviceUnavailable (unavailable serviceName)))
    else ({ s with handed := s.handed ++ [.proxy serviceName url] },
      match w.failure with
      | none => .ok ()
      | some message => .error (.other message))
  | .executeMember serviceName member =>
    if w.isOpen serviceName then (s, .error (.serviceUnavailable (unavailable serviceName)))
    else (s, if member.returns then .ok () else .error (.other "TypeError"))
  | .handleRequest => ({ s with handed := s.handed ++ [.cdnRoute] }, .ok ())
  | .setHeader name value => ({ s with headers := s.headers ++ [(name, value)] }, .ok ())
  | .respond status message => ({ s with response := some (status, message) }, .ok ())

/-- `ProxyService.handle` for a request. -/
def handleService (w : Weather) (service url : String) : Handled :=
  (exec (answerHandle (N := ℤ) w) ⟨[], [], none⟩ (proxyHandle service url)).1

/-- **What a client may expect**: the forwarder of the service has the request, or its open breaker is answered with
503, or there is none and the answer is 404. -/
def Served (w : Weather) (service url : String) (out : Handled) : Prop :=
  (∃ forwarder, forwarderOf service url = some forwarder ∧ out.handed = [forwarder]) ∨
    (w.isOpen (service ++ "-service") = true ∧ out.handed = [] ∧
      out.response = some (503, unavailable (service ++ "-service"))) ∨
    (forwarderOf service url = none ∧ out.handed = [] ∧ out.response = some (404, "Service not found"))

/-! ### Names -/

theorem objectMember_eq_some {name : String} {member : ObjectMember} :
    objectMember name = some member ↔ name = member.name := by
  constructor
  · intro h
    unfold objectMember at h
    have hname := List.find?_some h
    exact (of_decide_eq_true hname).symm
  · rintro rfl
    cases member with
    | _ => rfl

/-- No service has a name of `Object.prototype`. -/
theorem forwarderOf_member (member : ObjectMember) (url : String) : forwarderOf member.name url = none := by
  unfold forwarderOf
  rw [if_neg, if_neg]
  · cases member with
    | _ => decide
  · cases member with
    | _ => decide

theorem proxyHandle_member (member : ObjectMember) (url : String) : (proxyHandle member.name url : ProxyProgram N Unit)
    = (proxied (.executeMember (member.name ++ "-service") member)).catchAll proxyCatch := by
  cases member with
  | _ => rfl

/-! ### The exact condition -/

section Service

variable (w : Weather) (url : String)

/-- The answer for an open breaker. -/
def turnedAway (service : String) : Handled :=
  ⟨[], [("Retry-After", "30")], some (503, unavailable (service ++ "-service"))⟩

/-- A service with a proxy has it, or its open breaker. -/
theorem handleService_proxy {service : String} (hservice : proxies.contains service = true) :
    (w.isOpen (service ++ "-service") = true ∧ handleService w service url = turnedAway service) ∨
      (handleService w service url).handed = [.proxy (service ++ "-service") (pathRewrite service url)] := by
  unfold handleService
  rw [proxyHandle_of_mem hservice, exec_catchAll, exec_command]
  simp only [answerHandle]
  by_cases hopen : w.isOpen (service ++ "-service") = true
  · rw [if_pos hopen]
    exact Or.inl ⟨hopen, rfl⟩
  · rw [if_neg hopen]
    refine Or.inr ?_
    cases w.failure with
    | none => rfl
    | some message => rfl

/-- A member of `Object.prototype` in the place of a proxy: with a closed breaker there is no answer if it returns,
and 500 if it throws. -/
theorem member_unserved (member : ObjectMember) : handleService w member.name url =
    if w.isOpen (member.name ++ "-service") then turnedAway member.name
    else ⟨[], [], if member.returns then none else some (500, "Internal server error")⟩ := by
  unfold handleService
  rw [proxyHandle_member, exec_catchAll, exec_command]
  simp only [answerHandle]
  by_cases hopen : w.isOpen (member.name ++ "-service") = true
  · rw [if_pos hopen, if_pos hopen]
    rfl
  · rw [if_neg hopen, if_neg hopen]
    cases member.returns with
    | true => rfl
    | false => rfl

/-- Neither is what a client may expect. -/
theorem not_served_member (member : ObjectMember) (hclosed : w.isOpen (member.name ++ "-service") = false) :
    ¬ Served w member.name url (handleService w member.name url) := by
  rw [member_unserved, hclosed, if_neg Bool.false_ne_true]
  rintro (⟨forwarder, hforwarder, -⟩ | ⟨hopen, -⟩ | ⟨-, -, hresponse⟩)
  · rw [forwarderOf_member] at hforwarder
    cases hforwarder
  · rw [hclosed] at hopen
    cases hopen
  · cases hreturns : member.returns with
    | true => rw [hreturns] at hresponse; cases hresponse
    | false => rw [hreturns] at hresponse; cases hresponse

/-- Any other name is answered 404. -/
theorem handleService_missing {service : String} (hcdn : service ≠ "cdn") (hproxies : ¬ proxies.contains service = true)
    (hmember : objectMember service = none) :
    handleService w service url = ⟨[], [], some (404, "Service not found")⟩ := by
  unfold handleService proxyHandle
  rw [if_neg hcdn, if_neg hproxies, hmember]
  rfl

/-- **The exact condition.**  For every service and every path, whatever breakers are open and however the forwarders
end: the request is served iff the name is none of `Object.prototype`, or its breaker is open. -/
theorem served_iff (service : String) : Served w service url (handleService w service url) ↔
    objectMember service = none ∨ w.isOpen (service ++ "-service") = true := by
  cases hmember : objectMember service with
  | some member =>
    obtain rfl := objectMember_eq_some.mp hmember
    by_cases hopen : w.isOpen (member.name ++ "-service") = true
    · rw [member_unserved, if_pos hopen]
      exact iff_of_true (Or.inr (Or.inl ⟨hopen, rfl, rfl⟩)) (Or.inr hopen)
    · refine iff_of_false (not_served_member w url member (eq_false_of_ne_true hopen)) ?_
      rintro (hnone | htrue)
      · cases hnone
      · exact hopen htrue
  | none =>
    refine iff_of_true ?_ (Or.inl rfl)
    by_cases hcdn : service = "cdn"
    · subst hcdn
      exact Or.inl ⟨.cdnRoute, rfl, rfl⟩
    · by_cases hproxies : proxies.contains service = true
      · rcases handleService_proxy w url hproxies with ⟨hopen, hout⟩ | hhanded
        · rw [hout]
          exact Or.inr (Or.inl ⟨hopen, rfl, rfl⟩)
        · refine Or.inl ⟨_, ?_, hhanded⟩
          unfold forwarderOf
          rw [if_neg hcdn, if_pos hproxies]
      · rw [handleService_missing w url hcdn hproxies hmember]
        refine Or.inr (Or.inr ⟨?_, rfl, rfl⟩)
        unfold forwarderOf
        rw [if_neg hcdn, if_neg hproxies]

end Service

/-! ### A member that returns -/

/-- One request for such a member is a success of its breaker, and is not answered. -/
theorem handleRequest_member {callbacks : Exchange → List CallbackCall} {window : ℕ} {member : ObjectMember}
    (hreturns : member.returns = true) {outcomes : List Outcome} (houtcomes : ∀ o ∈ outcomes, o.failed = false)
    (r : ProxiedRequest) :
    handleRequest callbacks window member.name outcomes r = ⟨⟨r.time, false⟩ :: outcomes, [], none⟩ := by
  unfold handleRequest
  rw [proxyHandle_member, exec_catchAll, exec_command]
  simp only [handleProxy, openAt_of_succeeded houtcomes, hreturns]
  rfl

/-- The answers of a run of requests for one service, with the breaker's count kept from one to the next. -/
def answers (callbacks : Exchange → List CallbackCall) (window : ℕ) (service : String) :
    List Outcome → List ProxiedRequest → List (Option (ℕ × String))
  | _, [] => []
  | outcomes, r :: requests =>
    let p := handleRequest callbacks window service outcomes r
    p.response :: answers callbacks window service p.outcomes requests

/-- **In every run** of requests for such a member, its breaker stays closed and no request is answered. -/
theorem member_never_answered (callbacks : Exchange → List CallbackCall) (window : ℕ) {member : ObjectMember}
    (hreturns : member.returns = true) (requests : List ProxiedRequest) {outcomes : List Outcome}
    (houtcomes : ∀ o ∈ outcomes, o.failed = false) :
    answers callbacks window member.name outcomes requests = requests.map fun _ => none := by
  induction requests generalizing outcomes with
  | nil => rfl
  | cons r requests ih =>
    unfold answers
    rw [handleRequest_member hreturns houtcomes]
    refine congrArg (none :: ·) (ih fun o ho => ?_)
    rcases List.mem_cons.mp ho with rfl | hold
    · rfl
    · exact houtcomes o hold

/-! ### Two names -/

/-- All breakers are closed, and every forwarder succeeds. -/
def fairWeather : Weather := ⟨fun _ => false, none⟩

/-- **A request for `constructor` is left without a response, one for `__proto__` is answered 500.** -/
theorem inherited_names_unserved :
    handleService fairWeather "constructor" "/v1/constructor/x" = ⟨[], [], none⟩ ∧
      handleService fairWeather "__proto__" "/v1/__proto__/x" = ⟨[], [], some (500, "Internal server error")⟩ ∧
      ¬ Served fairWeather "constructor" "/v1/constructor/x"
        (handleService fairWeather "constructor" "/v1/constructor/x") ∧
      ¬ Served fairWeather "__proto__" "/v1/__proto__/x"
        (handleService fairWeather "__proto__" "/v1/__proto__/x") := by
  refine ⟨?_, ?_, ?_, ?_⟩
  · exact member_unserved fairWeather "/v1/constructor/x" .objectConstructor
  · exact member_unserved fairWeather "/v1/__proto__/x" .proto
  · exact not_served_member fairWeather "/v1/constructor/x" .objectConstructor rfl
  · exact not_served_member fairWeather "/v1/__proto__/x" .proto rfl

end EdgeSphere.Gateway
