import EdgeSphere.Library.NumberText
import EdgeSphere.Gateway.Routes
import EdgeSphere.Gateway.SlidingWindow

/-!
# The configured request limit

A request of a user passes two sliding windows.  The middleware counts it under the user, with the limit that is
stored as `rateLimitPerIp`; the controller counts it under the address, with the default of 100.

* `gateway` — both layers for one request, against one Redis;
* `Counted` — the invariant of a run: the key of the user mirrors all requests, the key of the address mirrors those
  that the middleware has passed on;
* `refused_iff` — what the two windows decide together;
* `limit_enforced_iff` — **the configured limit is the law** exactly if it is at most 100 or no minute has more than
  100 requests.
-/

namespace EdgeSphere.Gateway

open EdgeSphere.Library
open EdgeSphere.Library.Program
open EdgeSphere.Library.Runs

/-! ### One request through both layers -/

/-- A request, with what it meets on its way; the clock stands still while it is handled. -/
structure UserRequest where
  req : GatewayRequest
  now : ℕ
  /-- The ids of its entries under the user and under the address. -/
  requestId : String
  ipRequestId : String
  /-- What the auth-service knows of the API key, or what the token says. -/
  payload : Json JsonNumber
  /-- What becomes of it once the controller has handed it to a proxy. -/
  outcome : Except ProxyError Unit

/-- Redis, and what has happened to the request. -/
structure Transit where
  redis : Redis ℚ
  /-- `req.user`, once `next()` has been called. -/
  passed : Option (Option (Json JsonNumber))
  /-- The answer that the gateway has written itself. -/
  answer : Option (ℕ × String)

/-- `${identifier}`; `none` where that throws. -/
def identifierText : Option (Json JsonNumber) → Option String
  | none => some "undefined"
  | some identifier => identifier.toText.map String.ofList

@[simp] theorem identifierText_str (text : String) : identifierText (some (.str text)) = some text := by
  simp [identifierText, Json.toText]

/-- What the middleware awaits and does, with `limit` as the setting. -/
def answerAuth (limit : ℕ) (r : UserRequest) (x : Transit) :
    (c : AuthCommand JsonNumber) → Transit × Except String (AuthAnswer c)
  | .validateKey _ => (x, .ok ⟨true, some r.payload⟩)
  | .rateLimitPerIp => (x, .ok (some (toString limit)))
  | .dateNow => (x, .ok r.now)
  | .slidingPipeline identifier now =>
    match identifierText identifier with
    | none => (x, .error "TypeError")
    | some identifier =>
      let key := slidingWindowKey identifier
      let out := slidingPipeline r.requestId 60000 now (x.redis.zsets key)
      ({ x with redis := { x.redis with zsets := Function.update x.redis.zsets key out.1 } }, .ok (some out.2))
  | .setHeader _ _ => (x, .ok ())
  | .respond status message => ({ x with answer := some (status, message) }, .ok ())
  | .next user _ => ({ x with passed := some user }, .ok ())

/-- What the controller awaits and does: both limits are the defaults. -/
def answerProxy (r : UserRequest) (x : Transit) :
    (c : ProxyCommand JsonNumber) → Transit × Except ProxyError (ProxyAnswer c)
  | .slidingWindow ip =>
    let out := slidingWindow ip r.ipRequestId 100 60000 r.now x.redis
    ({ x with redis := out.1 }, .ok out.2.allowed)
  | .tokenBucket identifier =>
    match identifierText (some identifier) with
    | none => (x, .error (.other "TypeError"))
    | some identifier =>
      let out := tokenBucket identifier 100 10 r.now x.redis
      ({ x with redis := out.1 }, .ok out.2.allowed)
  | .execute _ _ => (x, r.outcome)
  | .executeMember _ _ => (x, r.outcome)
  | .handleRequest => (x, .ok ())
  | .setHeader _ _ => (x, .ok ())
  | .respond status message => ({ x with answer := some (status, message) }, .ok ())

/-- The request goes through the middleware, unless its path is excluded, and then to the controller. -/
def gateway (jwt : JwtLibrary JsonNumber) (jwtSecret : Option String) (limit : ℕ) (redis : Redis ℚ) (r : UserRequest) :
    Redis ℚ × Option (ℕ × String) :=
  let x := if isRouteExcluded r.req.originalUrl then ⟨redis, some none, none⟩
    else (exec (answerAuth limit r) ⟨redis, none, none⟩ (use jwt jwtSecret r.req.auth)).1
  let y := match x.passed with
    | none => x
    | some user => (exec (answerProxy r) x (proxyAll r.req user)).1
  (y.redis, y.answer)

/-- The requests, one after another, and what the gateway has answered itself. -/
def gatewayRun (jwt : JwtLibrary JsonNumber) (jwtSecret : Option String) (limit : ℕ) :
    Redis ℚ → List UserRequest → Redis ℚ × List (Option (ℕ × String)) :=
  runCalls (gateway jwt jwtSecret limit)

/-- The 429 of one of the sliding windows. -/
def WindowRefusal (answer : Option (ℕ × String)) : Prop :=
  answer = some (429, "Too Many Requests") ∨ answer = some (429, "Too Many Requests (IP)")

/-- The middleware knows the request as one of this user, from this address. -/
structure UserRequest.Of (jwt : JwtLibrary JsonNumber) (jwtSecret : Option String) (userId ip : String)
    (r : UserRequest) : Prop where
  method : r.req.method ≠ "OPTIONS"
  route : isRouteExcluded r.req.originalUrl = false
  address : r.req.ip.getD "unknown" = ip
  credential :
    (∃ apiKey authorization, present r.req.xApiKey = some apiKey ∧
      injectedHeader jwt (present jwtSecret) r.payload r.req.authorization = .ok authorization ∧
      r.payload.prop "sub" = some (some (.str userId))) ∨
    present r.req.xApiKey = none ∧ ∃ authHeader key, r.req.authorization = some authHeader ∧
      isBearer authHeader = true ∧ present jwtSecret = some key ∧
      jwt.verify (bearerToken authHeader) key = .ok r.payload ∧ bearerIdentity r.payload = some (.str userId)

/-! ### What the middleware does -/

/-- The limit is read back as it was stored. -/
theorem readSetting_toString (fallback : ℤ) (limit : ℕ) :
    readSetting fallback (some (toString limit)) = .int limit := by
  have hdigits : toString limit = String.ofList (Nat.toDigits 10 limit) := rfl
  have hparse : parseInt (String.ofList (Nat.toDigits 10 limit)) = _ :=
    parseInt_digits Nat.toDigits_ne_nil fun c hc => Nat.isDigit_of_mem_toDigits (by omega) (by omega) hc
  rw [digitsValue_toDigits, ← hdigits] at hparse
  unfold readSetting
  split
  · rename_i heq
    cases heq
  · rename_i heq
    rw [Option.some.inj heq] at hparse
    cases hparse
  · rename_i heq
    rw [← Option.some.inj heq, hparse]

/-- The pipeline on the key of the user, for one request. -/
def countUser (userId : String) (r : UserRequest) (redis : Redis ℚ) : Redis ℚ × ℕ :=
  let out := slidingPipeline r.requestId 60000 r.now (redis.zsets (slidingWindowKey userId))
  ({ redis with zsets := Function.update redis.zsets (slidingWindowKey userId) out.1 }, out.2)

/-- What the middleware leaves of a request that it has counted. -/
def afterLimit (limit : ℕ) (userId : String) (r : UserRequest) (redis : Redis ℚ) : Transit :=
  if limit < (countUser userId r redis).2 then
    ⟨(countUser userId r redis).1, none, some (429, "Too Many Requests")⟩
  else ⟨(countUser userId r redis).1, some (some r.payload), none⟩

/-- The end of both paths: the request counts, and is passed on within the limit. -/
theorem exec_rateLimited (limit : ℕ) (userId : String) (r : UserRequest) (redis : Redis ℚ)
    (authorization : Option String) :
    exec (answerAuth limit r) ⟨redis, none, none⟩ (rateLimited (some (some (.str userId))) r.payload authorization)
      = (afterLimit limit userId r redis, .ok ()) := by
  have hpipeline : ∀ x : Transit, answerAuth limit r x (.slidingPipeline (some (.str userId)) r.now)
      = ({ x with redis := (countUser userId r x.redis).1 }, .ok (some (countUser userId r x.redis).2)) := by
    intro x
    simp only [answerAuth, identifierText_str]
    rfl
  have hsetting : exec (answerAuth limit r) ⟨redis, none, none⟩ (getRateLimitPerIp : AuthProgram JsonNumber IntNumber)
      = (⟨redis, none, none⟩, .ok (.int limit)) := by
    show ((⟨redis, none, none⟩ : Transit), Except.ok (readSetting 100 (some (toString limit)))) = _
    rw [readSetting_toString]
  have hwindow : exec (answerAuth limit r) ⟨redis, none, none⟩ (slidingWindowOf (some (.str userId)) (.int limit))
      = (⟨(countUser userId r redis).1, none, none⟩,
          .ok (windowReply (.int limit) r.now (some (countUser userId r redis).2))) := by
    unfold slidingWindowOf
    rw [bind_eq, exec_bind, exec_command]
    show exec (answerAuth limit r) ⟨redis, none, none⟩ ((ask (.slidingPipeline (some (.str userId)) r.now)).bind _) = _
    rw [exec_bind, exec_command, hpipeline]
    rfl
  unfold rateLimited afterLimit
  rw [bind_eq, exec_bind, hsetting]
  simp only []
  rw [bind_eq, exec_bind, hwindow]
  by_cases hover : limit < (countUser userId r redis).2
  · have hreply : (windowReply (.int limit) r.now (some (countUser userId r redis).2)).allowed = false := by
      simpa [windowReply] using hover
    simp only [hreply, if_pos hover]
    rfl
  · have hreply : (windowReply (.int limit) r.now (some (countUser userId r redis).2)).allowed = true := by
      simpa [windowReply] using hover
    simp only [hreply, if_neg hover]
    rfl

/-- The middleware, for a request of the user. -/
theorem exec_use {jwt : JwtLibrary JsonNumber} {jwtSecret : Option String} {userId ip : String} {r : UserRequest}
    (h : r.Of jwt jwtSecret userId ip) (limit : ℕ) (redis : Redis ℚ) :
    exec (answerAuth limit r) ⟨redis, none, none⟩ (use jwt jwtSecret r.req.auth)
      = (afterLimit limit userId r redis, .ok ()) := by
  unfold use
  rw [show (if r.req.auth.method = "OPTIONS" then _ else _ : AuthProgram JsonNumber Unit) = _ from if_neg h.method]
  rcases h.credential with ⟨apiKey, authorization, hkey, hinjected, hsub⟩ |
    ⟨hkey, authHeader, key, hheader, hbearer, hsecret, hverify, hidentity⟩
  · rw [show present r.req.auth.xApiKey = some apiKey from hkey]
    show exec (answerAuth limit r) ⟨redis, none, none⟩
      (apiKeyPath jwt (present jwtSecret) apiKey r.req.authorization) = _
    unfold apiKeyPath
    rw [exec_catchAll, bind_eq, exec_bind, exec_command]
    simp only [answerAuth, if_true, hinjected, hsub]
    rw [exec_rateLimited]
  · rw [show present r.req.auth.xApiKey = none from hkey, show r.req.auth.authorization = some authHeader from hheader]
    simp only [hbearer, if_true]
    unfold bearerPath
    rw [exec_catchAll, hsecret]
    simp only [hverify, hidentity]
    rw [exec_rateLimited]

/-! ### What the controller does -/

/-- What the controller may still do once its window has admitted the request. -/
def PastWindow : ProxyCommand JsonNumber → Prop
  | .slidingWindow _ => False
  | .respond status message => status = 429 → message = "Too Many Requests (User)"
  | _ => True

theorem proxyCatch_within (e : ProxyError) : (proxyCatch e : ProxyProgram JsonNumber Unit).Within PastWindow := by
  cases e with
  | serviceUnavailable message =>
    exact Within.bind (within_command trivial) fun _ => within_command (by intro h; cases h)
  | other message => exact within_command (by intro h; cases h)

theorem proxyHandle_within (service url : String) :
    (proxyHandle service url : ProxyProgram JsonNumber Unit).Within PastWindow := by
  unfold proxyHandle
  split
  · exact within_command trivial
  · split
    · exact Within.catchAll (within_command trivial) proxyCatch_within
    · cases objectMember service with
      | some member => exact Within.catchAll (within_command trivial) proxyCatch_within
      | none => exact within_command (by intro h; cases h)

/-- Past its window, the controller writes no refusal of a window and leaves the sorted sets alone. -/
theorem exec_pastWindow {p : ProxyProgram JsonNumber Unit} (hp : p.Within PastWindow) (r : UserRequest) (x : Transit)
    (hanswer : ¬ WindowRefusal x.answer) :
    (exec (answerProxy r) x p).1.redis.zsets = x.redis.zsets ∧
      ¬ WindowRefusal (exec (answerProxy r) x p).1.answer := by
  have hkeep : ∀ (y : Transit) (c : ProxyCommand JsonNumber),
      y.redis.zsets = x.redis.zsets ∧ ¬ WindowRefusal y.answer → PastWindow c →
      (answerProxy r y c).1.redis.zsets = x.redis.zsets ∧ ¬ WindowRefusal (answerProxy r y c).1.answer := by
    intro y c hy hc
    cases c with
    | slidingWindow ip => exact absurd hc id
    | tokenBucket identifier =>
      have htokens : (answerProxy r y (.tokenBucket identifier)).1.redis.zsets = y.redis.zsets ∧
          (answerProxy r y (.tokenBucket identifier)).1.answer = y.answer := by
        simp only [answerProxy]
        cases identifierText (some identifier) with
        | none => exact ⟨rfl, rfl⟩
        | some identifier => exact ⟨rfl, rfl⟩
      rw [htokens.1, htokens.2]
      exact hy
    | execute serviceName url => exact hy
    | executeMember serviceName member => exact hy
    | handleRequest => exact hy
    | setHeader name value => exact hy
    | respond status message =>
      refine ⟨hy.1, ?_⟩
      rintro (h | h)
      · have hboth := Prod.mk.inj (Option.some.inj h)
        have huser := hc hboth.1
        rw [hboth.2] at huser
        exact absurd huser (by decide)
      · have hboth := Prod.mk.inj (Option.some.inj h)
        have huser := hc hboth.1
        rw [hboth.2] at huser
        exact absurd huser (by decide)
  have hobeys : p.Obeys (fun _ _ => True) PastWindow := hp.obeys
  exact (hobeys.exec hkeep (fun _ _ _ => trivial) ⟨rfl, hanswer⟩).1

/-- The controller counts the request under the address, whatever the setting is. -/
theorem exec_proxyAll (r : UserRequest) (redis : Redis ℚ) (user : Option (Json JsonNumber)) :
    (exec (answerProxy r) ⟨redis, some user, none⟩ (proxyAll r.req user)).1.redis.zsets
        = (slidingWindow (r.req.ip.getD "unknown") r.ipRequestId 100 60000 r.now redis).1.zsets ∧
      (WindowRefusal (exec (answerProxy r) ⟨redis, some user, none⟩ (proxyAll r.req user)).1.answer ↔
        (slidingWindow (r.req.ip.getD "unknown") r.ipRequestId 100 60000 r.now redis).2.allowed = false) := by
  have hpast : ¬ WindowRefusal none := by
    rintro (h | h)
    · cases h
    · cases h
  unfold proxyAll
  rw [bind_eq, exec_bind, exec_command]
  simp only [answerProxy]
  cases hallowed : (slidingWindow (r.req.ip.getD "unknown") r.ipRequestId 100 60000 r.now redis).2.allowed with
  | false =>
    refine ⟨rfl, ?_⟩
    rw [if_neg Bool.false_ne_true]
    exact iff_of_true (.inr rfl) rfl
  | true =>
    rw [if_pos rfl]
    have hrest : ∀ p : ProxyProgram JsonNumber Unit, p.Within PastWindow →
        (exec (answerProxy r)
            ⟨(slidingWindow (r.req.ip.getD "unknown") r.ipRequestId 100 60000 r.now redis).1, some user, none⟩
            p).1.redis.zsets
          = (slidingWindow (r.req.ip.getD "unknown") r.ipRequestId 100 60000 r.now redis).1.zsets ∧
        (WindowRefusal (exec (answerProxy r)
            ⟨(slidingWindow (r.req.ip.getD "unknown") r.ipRequestId 100 60000 r.now redis).1, some user, none⟩
            p).1.answer ↔ true = false) := by
      intro p hp
      obtain ⟨hzsets, hanswer⟩ := exec_pastWindow hp r
        ⟨(slidingWindow (r.req.ip.getD "unknown") r.ipRequestId 100 60000 r.now redis).1, some user, none⟩ hpast
      exact ⟨hzsets, iff_of_false hanswer (by decide)⟩
    cases userSub user with
    | none => exact hrest _ (proxyHandle_within _ _)
    | some sub =>
      refine hrest _ (Within.bind (within_command trivial) fun allowed => ?_)
      split
      · exact proxyHandle_within _ _
      · exact within_command fun _ => rfl

/-! ### The two windows together -/

/-- The request as a call of the window of the user, and as one of the window of the address. -/
def UserRequest.userCall (r : UserRequest) : WindowCall := ⟨r.now, r.requestId⟩

def UserRequest.ipCall (r : UserRequest) : WindowCall := ⟨r.now, r.ipRequestId⟩

/-- How many of the requests have a time in the last minute. -/
def inLastMinute (t : ℕ) (requests : List UserRequest) : ℕ :=
  requests.countP fun r => decide ((t : ℚ) - 60000 < (r.now : ℚ)) && decide (r.now ≤ t)

theorem countIn_userCall (t : ℕ) (requests : List UserRequest) :
    countIn (60000 : ℚ) t (requests.map UserRequest.userCall) = inLastMinute t requests := by
  rw [countIn, List.countP_map]
  rfl

theorem countIn_ipCall (t : ℕ) (requests : List UserRequest) :
    countIn (60000 : ℚ) t (requests.map UserRequest.ipCall) = inLastMinute t requests := by
  rw [countIn, List.countP_map]
  rfl

/-- **The invariant of a run**: all requests count under the user, those passed on under the address. -/
structure Counted (userId ip : String) (all passed : List UserRequest) (redis : Redis ℚ) : Prop where
  user : Mirrors 60000 (all.map UserRequest.userCall) (redis.zsets (slidingWindowKey userId))
  address : Mirrors 60000 (passed.map UserRequest.ipCall) (redis.zsets (slidingWindowKey ip))
  passed_sub : passed.Sublist all

/-- Requests that can be counted: in the order of their times, each entry with an id of its own. -/
structure Countable (requests : List UserRequest) : Prop where
  sorted : (requests.map UserRequest.now).Pairwise (· ≤ ·)
  userIds : (requests.map UserRequest.requestId).Nodup
  ipIds : (requests.map UserRequest.ipRequestId).Nodup

theorem Countable.sublist {requests requests' : List UserRequest} (h : Countable requests)
    (hsub : requests'.Sublist requests) : Countable requests' :=
  ⟨h.sorted.sublist (hsub.map _), h.userIds.sublist (hsub.map _), h.ipIds.sublist (hsub.map _)⟩

theorem slidingWindowKey_inj {a b : String} (h : slidingWindowKey a = slidingWindowKey b) : a = b := by
  have hchars := congrArg String.toList h
  unfold slidingWindowKey at hchars
  rw [String.toList_append, String.toList_append] at hchars
  exact String.toList_inj.mp (List.append_cancel_left hchars)

section Step

variable {userId ip : String} {all passed : List UserRequest} {redis : Redis ℚ} {r : UserRequest}

/-- The window of the user counts the request among all. -/
theorem countUser_mirrors (h : Mirrors 60000 (all.map UserRequest.userCall) (redis.zsets (slidingWindowKey userId)))
    (hcountable : Countable (all ++ [r])) :
    Mirrors 60000 ((all ++ [r]).map UserRequest.userCall)
        ((countUser userId r redis).1.zsets (slidingWindowKey userId)) ∧
      (countUser userId r redis).2 = inLastMinute r.now (all ++ [r]) := by
  have hsorted := hcountable.sorted
  have hids := hcountable.userIds
  obtain ⟨hmirrors, hcount⟩ := slidingPipeline_mirrors (c := r.userCall) (by norm_num) h
    (by simpa [Function.comp_def, UserRequest.userCall] using hsorted)
    (by simpa [Function.comp_def, UserRequest.userCall] using hids)
  rw [← List.map_singleton, ← List.map_append] at hmirrors hcount
  refine ⟨?_, hcount.trans (countIn_userCall _ _)⟩
  simp only [countUser, Function.update_self]
  exact hmirrors

/-- The window of the address counts it among those passed on. -/
theorem countIp_mirrors (h : Mirrors 60000 (passed.map UserRequest.ipCall) (redis.zsets (slidingWindowKey ip)))
    (hcountable : Countable (passed ++ [r])) :
    Mirrors 60000 ((passed ++ [r]).map UserRequest.ipCall)
        ((slidingWindow ip r.ipRequestId 100 60000 r.now redis).1.zsets (slidingWindowKey ip)) ∧
      ((slidingWindow ip r.ipRequestId 100 60000 r.now redis).2.allowed = false ↔
        100 < inLastMinute r.now (passed ++ [r])) := by
  have hsorted := hcountable.sorted
  have hids := hcountable.ipIds
  obtain ⟨hmirrors, hcount⟩ := slidingPipeline_mirrors (c := r.ipCall) (by norm_num) h
    (by simpa [Function.comp_def, UserRequest.ipCall] using hsorted)
    (by simpa [Function.comp_def, UserRequest.ipCall] using hids)
  rw [← List.map_singleton, ← List.map_append] at hmirrors hcount
  have hsize : (slidingPipeline r.ipRequestId 60000 r.now (redis.zsets (slidingWindowKey ip))).2
      = inLastMinute r.now (passed ++ [r]) := hcount.trans (countIn_ipCall _ _)
  refine ⟨?_, ?_⟩
  · simp only [slidingWindow, Function.update_self]
    exact hmirrors
  · simp only [slidingWindow, slidingWindowReply, hsize, Bool.not_eq_false', decide_eq_true_eq]
    exact_mod_cast Iff.rfl

variable {jwt : JwtLibrary JsonNumber} {jwtSecret : Option String}

/-- Within the limit, the request comes to the controller. -/
theorem gateway_passes (limit : ℕ) (hof : r.Of jwt jwtSecret userId ip)
    (hwithin : ¬ limit < (countUser userId r redis).2) :
    (gateway jwt jwtSecret limit redis r).1.zsets
        = (slidingWindow ip r.ipRequestId 100 60000 r.now (countUser userId r redis).1).1.zsets ∧
      (WindowRefusal (gateway jwt jwtSecret limit redis r).2 ↔
        (slidingWindow ip r.ipRequestId 100 60000 r.now (countUser userId r redis).1).2.allowed = false) := by
  have hproxy := exec_proxyAll r (countUser userId r redis).1 (some r.payload)
  rw [hof.address] at hproxy
  unfold gateway
  rw [if_neg (by rw [hof.route]; exact Bool.false_ne_true), exec_use hof, afterLimit, if_neg hwithin]
  exact hproxy

/-- Over the limit, it does not. -/
theorem gateway_refuses {limit : ℕ} (hof : r.Of jwt jwtSecret userId ip)
    (hover : limit < (countUser userId r redis).2) :
    gateway jwt jwtSecret limit redis r = ((countUser userId r redis).1, some (429, "Too Many Requests")) := by
  unfold gateway
  rw [if_neg (by rw [hof.route]; exact Bool.false_ne_true), exec_use hof, afterLimit, if_pos hover]

/-- **One request**: what it is told, and what it leaves counted. -/
theorem Counted.step (limit : ℕ) (h : Counted userId ip all passed redis) (hne : userId ≠ ip)
    (hof : r.Of jwt jwtSecret userId ip) (hcountable : Countable (all ++ [r])) :
    (WindowRefusal (gateway jwt jwtSecret limit redis r).2 ↔
        limit < inLastMinute r.now (all ++ [r]) ∨ 100 < inLastMinute r.now (passed ++ [r])) ∧
      Counted userId ip (all ++ [r])
        (if limit < inLastMinute r.now (all ++ [r]) then passed else passed ++ [r])
        (gateway jwt jwtSecret limit redis r).1 := by
  have hkeys : slidingWindowKey ip ≠ slidingWindowKey userId := fun heq => hne (slidingWindowKey_inj heq).symm
  have hcountable' : Countable (passed ++ [r]) := hcountable.sublist (h.passed_sub.append (List.Sublist.refl _))
  obtain ⟨huser, hcount⟩ := countUser_mirrors h.user hcountable
  have haddress : (countUser userId r redis).1.zsets (slidingWindowKey ip) = redis.zsets (slidingWindowKey ip) :=
    Function.update_of_ne hkeys _ _
  by_cases hover : limit < inLastMinute r.now (all ++ [r])
  · rw [gateway_refuses hof (hcount ▸ hover), if_pos hover]
    refine ⟨iff_of_true (.inl rfl) (.inl hover), huser, ?_, h.passed_sub.trans (List.sublist_append_left _ _)⟩
    rw [haddress]
    exact h.address
  · obtain ⟨hip, hallowed⟩ := countIp_mirrors (haddress ▸ h.address : Mirrors 60000 _
      ((countUser userId r redis).1.zsets (slidingWindowKey ip))) hcountable'
    obtain ⟨hzsets, hrefusal⟩ := gateway_passes limit hof (hcount ▸ hover)
    rw [hrefusal, hallowed, if_neg hover]
    refine ⟨⟨.inr, fun h => h.resolve_left hover⟩, ?_, ?_, h.passed_sub.append (List.Sublist.refl _)⟩
    · rw [hzsets]
      simp only [slidingWindow]
      rw [Function.update_of_ne hkeys.symm]
      exact huser
    · rw [hzsets]
      exact hip

end Step

/-! ### Runs -/

/-- No request finds more than `bound` requests in its last minute, itself included. -/
def AtMost (bound : ℕ) (requests : List UserRequest) : Prop :=
  ∀ done r todo, requests = done ++ r :: todo → inLastMinute r.now (done ++ [r]) ≤ bound

theorem AtMost.of_append {bound : ℕ} {done todo : List UserRequest} (h : AtMost bound (done ++ todo)) :
    AtMost bound done := by
  intro before r after hsplit
  exact h before r (after ++ todo) (by rw [hsplit]; simp)

theorem inLastMinute_append (t : ℕ) (as bs : List UserRequest) :
    inLastMinute t (as ++ bs) = inLastMinute t as + inLastMinute t bs := List.countP_append

theorem inLastMinute_singleton (r : UserRequest) : inLastMinute r.now [r] = 1 := by
  simp [inLastMinute]

/-- The minute of a later request holds no more of what came before. -/
theorem inLastMinute_later {t later : ℕ} (h : t ≤ later) (requests : List UserRequest)
    (hle : ∀ r ∈ requests, r.now ≤ t) : inLastMinute later requests ≤ inLastMinute t requests := by
  apply List.countP_mono_left
  intro r hr hin
  have hcast : (t : ℚ) ≤ (later : ℚ) := by exact_mod_cast h
  simp only [Bool.and_eq_true, decide_eq_true_eq] at hin ⊢
  exact ⟨by linarith [hin.1], hle r hr⟩

/-- One more request adds at most one. -/
theorem inLastMinute_le_succ {bound : ℕ} {done : List UserRequest} {r : UserRequest} (h : AtMost bound done)
    (hsorted : ((done ++ [r]).map UserRequest.now).Pairwise (· ≤ ·)) :
    inLastMinute r.now (done ++ [r]) ≤ bound + 1 := by
  rw [inLastMinute_append, inLastMinute_singleton]
  rcases List.eq_nil_or_concat done with rfl | ⟨earlier, last, rfl⟩
  · exact Nat.succ_le_succ (Nat.zero_le _)
  · rw [List.concat_eq_append] at *
    have hlast := h earlier last [] rfl
    rw [List.map_append, List.pairwise_append] at hsorted
    have hlater : ∀ q ∈ earlier ++ [last], q.now ≤ r.now := fun q hq =>
      hsorted.2.2 q.now (List.mem_map_of_mem hq) r.now (by simp)
    have hle : ∀ q ∈ earlier ++ [last], q.now ≤ last.now := by
      intro q hq
      have hearlier := hsorted.1
      rw [List.map_append, List.pairwise_append] at hearlier
      rcases List.mem_append.mp hq with hq | hq
      · exact hearlier.2.2 q.now (List.mem_map_of_mem hq) last.now (by simp)
      · rw [List.mem_singleton.mp hq]
    have hmono := inLastMinute_later (hlater last (by simp)) (earlier ++ [last]) hle
    omega

section Runs

variable {jwt : JwtLibrary JsonNumber} {jwtSecret : Option String} {userId ip : String} (limit : ℕ) {redis : Redis ℚ}

/-- The invariant, after any requests of the user; while the limit is kept, all of them are passed on. -/
theorem counted_run (hne : userId ≠ ip) (huser : redis.zsets (slidingWindowKey userId) = none)
    (hip : redis.zsets (slidingWindowKey ip) = none) (requests : List UserRequest)
    (hof : ∀ r ∈ requests, r.Of jwt jwtSecret userId ip) (hcountable : Countable requests) :
    ∃ passed, Counted userId ip requests passed (gatewayRun jwt jwtSecret limit redis requests).1 ∧
      (AtMost limit requests → passed = requests) := by
  refine runCalls_induction (gateway jwt jwtSecret limit) redis
    (fun done s => ∃ passed, Counted userId ip done passed s ∧ (AtMost limit done → passed = done)) requests
    ⟨[], ⟨.inl ⟨rfl, huser⟩, .inl ⟨rfl, hip⟩, List.Sublist.refl _⟩, fun _ => rfl⟩ ?_
  rintro done r todo s hsplit - ⟨passed, hcounted, hall⟩
  have hsub : (done ++ [r]).Sublist requests := by
    rw [hsplit]
    exact (List.Sublist.refl done).append ((List.nil_sublist todo).cons_cons r)
  have hmem : r ∈ requests := hsub.subset (by simp)
  obtain ⟨-, hnext⟩ := hcounted.step limit hne (hof r hmem) (hcountable.sublist hsub)
  refine ⟨_, hnext, fun hmost => ?_⟩
  rw [if_neg (by simpa using hmost done r [] rfl), hall hmost.of_append]

/-- **The decision**: the window of the user counts all requests, and the window of the address those passed on, with
a limit of its own. -/
theorem refused_iff (hne : userId ≠ ip) (huser : redis.zsets (slidingWindowKey userId) = none)
    (hip : redis.zsets (slidingWindowKey ip) = none) (done todo : List UserRequest) (r : UserRequest)
    (hof : ∀ q ∈ done ++ r :: todo, q.Of jwt jwtSecret userId ip) (hcountable : Countable (done ++ r :: todo)) :
    ∃ passed answer, (gatewayRun jwt jwtSecret limit redis (done ++ r :: todo)).2[done.length]? = some answer ∧
      passed.Sublist done ∧ (AtMost limit done → passed = done) ∧
      (WindowRefusal answer ↔ limit < inLastMinute r.now (done ++ [r]) ∨ 100 < inLastMinute r.now (passed ++ [r])) := by
  have hsub : (done ++ [r]).Sublist (done ++ r :: todo) :=
    (List.Sublist.refl done).append ((List.nil_sublist todo).cons_cons r)
  obtain ⟨passed, hcounted, hall⟩ := counted_run limit hne huser hip done
    (fun q hq => hof q (List.mem_append_left _ hq)) (hcountable.sublist (List.sublist_append_left _ _))
  obtain ⟨hrefusal, -⟩ := hcounted.step limit hne (hof r (by simp)) (hcountable.sublist hsub)
  exact ⟨passed, _, runCalls_reply _ _ _ _ _, hcounted.passed_sub, hall, hrefusal⟩

end Runs

/-- The law of the setting: a request is refused by a window exactly if more than `limit` requests, this one included,
have times in its last minute. -/
def Enforced (limit : ℕ) (requests : List UserRequest) (answers : List (Option (ℕ × String))) : Prop :=
  ∀ done r todo, requests = done ++ r :: todo →
    ∃ answer, answers[done.length]? = some answer ∧
      (WindowRefusal answer ↔ limit < inLastMinute r.now (done ++ [r]))

section Law

variable {jwt : JwtLibrary JsonNumber} {jwtSecret : Option String} {userId ip : String} {limit : ℕ}
  {redis : Redis ℚ} {requests : List UserRequest}

/-- With more than the default allowed, nobody may come to more than the default. -/
theorem Enforced.atMost (hne : userId ≠ ip) (huser : redis.zsets (slidingWindowKey userId) = none)
    (hip : redis.zsets (slidingWindowKey ip) = none) (hof : ∀ r ∈ requests, r.Of jwt jwtSecret userId ip)
    (hcountable : Countable requests)
    (h : Enforced limit requests (gatewayRun jwt jwtSecret limit redis requests).2) (hlimit : 100 < limit) :
    AtMost 100 requests := by
  -- by induction on the requests so far: up to here, the two windows have counted the same
  have hbefore : ∀ done todo, requests = done ++ todo → AtMost 100 done := by
    intro done
    induction done using List.reverseRecOn with
    | nil =>
      intro todo _ before r after hnil
      exact absurd hnil (by simp)
    | append_singleton done r ih =>
      intro todo hsplit
      rw [List.append_assoc] at hsplit
      have hdone := ih _ hsplit
      have hsub : (done ++ [r]).Sublist requests := by
        rw [hsplit, ← List.append_assoc]
        exact List.sublist_append_left _ _
      have hsucc := inLastMinute_le_succ hdone (hcountable.sublist hsub).sorted
      have hlast : inLastMinute r.now (done ++ [r]) ≤ 100 := by
        obtain ⟨passed, answer, hanswer, -, hall, hrefused⟩ := refused_iff limit hne huser hip done todo r
          (hsplit ▸ hof) (hsplit ▸ hcountable)
        obtain ⟨answer', hanswer', hlaw⟩ := h done r todo hsplit
        rw [hsplit] at hanswer'
        have hsame : answer' = answer := Option.some.inj (hanswer'.symm.trans hanswer)
        have hpassed := hall fun before q after hq => (hdone before q after hq).trans (by omega)
        rw [hsame, hrefused, hpassed] at hlaw
        by_contra hmore
        have hover := hlaw.mp (.inr (not_le.mp hmore))
        omega
      intro before q after hq
      rcases List.eq_nil_or_concat after with rfl | ⟨rest, last, rfl⟩
      · obtain ⟨rfl, hsingle⟩ := List.append_inj' hq rfl
        cases hsingle
        exact hlast
      · rw [List.concat_eq_append, ← List.cons_append, ← List.append_assoc] at hq
        exact hdone before q rest (List.append_inj' hq rfl).1
  intro done r todo hsplit
  exact hbefore requests [] (List.append_nil _).symm done r todo hsplit

/-- **The configured limit.**  In every run of the requests of one user from one address, `rateLimitPerIp` is the law
that decides exactly if it is at most 100 or no minute has more than 100 requests. -/
theorem limit_enforced_iff (jwt : JwtLibrary JsonNumber) (jwtSecret : Option String) (userId ip : String)
    (hne : userId ≠ ip) (limit : ℕ) (redis : Redis ℚ) (huser : redis.zsets (slidingWindowKey userId) = none)
    (hip : redis.zsets (slidingWindowKey ip) = none) (requests : List UserRequest)
    (hof : ∀ r ∈ requests, r.Of jwt jwtSecret userId ip) (hcountable : Countable requests) :
    Enforced limit requests (gatewayRun jwt jwtSecret limit redis requests).2 ↔
      limit ≤ 100 ∨ AtMost 100 requests := by
  constructor
  · intro h
    by_cases hlimit : limit ≤ 100
    · exact .inl hlimit
    · exact .inr (h.atMost hne huser hip hof hcountable (not_le.mp hlimit))
  · intro hbound done r todo hsplit
    obtain ⟨passed, answer, hanswer, hsub, -, hrefused⟩ := refused_iff limit hne huser hip done todo r
      (hsplit ▸ hof) (hsplit ▸ hcountable)
    refine ⟨answer, hsplit ▸ hanswer, hrefused.trans ⟨fun h => ?_, .inl⟩⟩
    rcases h with hover | hip
    · exact hover
    · -- the window of the address holds no more than the window of the user
      have hle : inLastMinute r.now (passed ++ [r]) ≤ inLastMinute r.now (done ++ [r]) :=
        (hsub.append (List.Sublist.refl [r])).countP_le
      rcases hbound with hlimit | hmost
      · omega
      · have hhere := hmost done r todo hsplit
        omega

end Law

/-- A token library in which every token is the user's. -/
def trustingJwt : JwtLibrary JsonNumber := ⟨fun _ _ => .ok "token", fun _ _ => .ok (.obj [("sub", .str "user-1")])⟩

/-- The requests of one user, one every millisecond. -/
def burst (n : ℕ) : List UserRequest :=
  (List.range n).map fun i => ⟨⟨"GET", "/v1/storage/buckets", some "10.0.0.1", none, some "Bearer token"⟩, i,
    toString i, toString i, .obj [("sub", .str "user-1")], .ok ()⟩

theorem burst_of (n : ℕ) : ∀ r ∈ burst n, r.Of trustingJwt (some "secret") "user-1" "10.0.0.1" := by
  intro r hr
  have hmethod : "GET" ≠ "OPTIONS" := by decide
  have hroute : isRouteExcluded "/v1/storage/buckets" = false := by decide
  obtain ⟨i, -, rfl⟩ := List.mem_map.mp hr
  exact ⟨hmethod, hroute, rfl, .inr ⟨rfl, "Bearer token", "secret", rfl, by decide, rfl, rfl, rfl⟩⟩

theorem burst_countable (n : ℕ) : Countable (burst n) := by
  have hids : ((List.range n).map fun i => toString i).Nodup := by
    refine List.nodup_range.map fun i j hij => ?_
    have hdigits : Nat.toDigits 10 i = Nat.toDigits 10 j := String.ofList_injective hij
    rw [← digitsValue_toDigits i, hdigits, digitsValue_toDigits]
  refine ⟨?_, ?_, ?_⟩
  · rw [burst, List.map_map]
    exact (List.map_id (List.range n)).symm ▸ List.pairwise_le_range
  · rw [burst, List.map_map]
    exact hids
  · rw [burst, List.map_map]
    exact hids

/-- Two hundred are allowed, and the hundred and first is refused. -/
theorem configured_limit_ignored :
    (∀ r ∈ burst 101, r.Of trustingJwt (some "secret") "user-1" "10.0.0.1") ∧ Countable (burst 101) ∧
      ¬ Enforced 200 (burst 101) (gatewayRun trustingJwt (some "secret") 200 Redis.empty (burst 101)).2 := by
  refine ⟨burst_of 101, burst_countable 101, fun h => ?_⟩
  have hmost := h.atMost (by decide) rfl rfl (burst_of 101) (burst_countable 101) (by decide)
  have hlast := hmost (burst 100) _ [] (by rw [burst, List.range_succ, List.map_append]; rfl)
  exact absurd hlast (by decide +kernel)

/-- A limit of one decides about two requests. -/
theorem limit_enforced_iff_one :
    Enforced 1 (burst 2) (gatewayRun trustingJwt (some "secret") 1 Redis.empty (burst 2)).2 :=
  (limit_enforced_iff trustingJwt (some "secret") "user-1" "10.0.0.1" (by decide) 1 Redis.empty rfl rfl (burst 2)
    (burst_of 2) (burst_countable 2)).mpr (.inl (by decide))

end EdgeSphere.Gateway
