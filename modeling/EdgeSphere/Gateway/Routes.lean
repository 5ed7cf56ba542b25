import EdgeSphere.Gateway.AuthMiddleware

/-!
# Public routes through the gateway

Which requests the gateway takes to the auth-service without asking for a token.  The gateway excludes
paths from its middleware; the auth-service leaves the guard off some of its handlers.

* `isRouteExcluded` — the exclusion list of the gateway, matched against a path;
* `PublicHandler` — the handlers of the auth-service that take their credential from the body, the query
  or a provider;
* `proxyAll` — what the gateway does with a request that the middleware has let through;
* `isRouteExcluded_iff` — of the requests to such handlers, those to `register` and `login` are excluded;
* `let_through_iff` — **exactly those** are forwarded for a client without a token.
-/

namespace EdgeSphere.Gateway

open EdgeSphere.Library
open EdgeSphere.Library.Program

variable {N : Type}

/-! ### Paths -/

/-- The path of a URL, in small letters: routes are matched without regard to case. -/
def pathOf (url : String) : List Char := (url.toList.takeWhile (· ≠ '?')).map Char.toLower

/-- A route without parameters, or one that ends in `(.*)`. -/
structure Route where
  path : String
  wildcard : Bool

/-- `pathRegex.exec(path)`; a slash at the end is optional. -/
def Route.exec (route : Route) (path : List Char) : Bool :=
  if route.wildcard then route.path.toList.isPrefixOf path
  else decide (path = route.path.toList) || decide (path = route.path.toList ++ ['/'])

/-- `exclude(…)` in `AppModule.configure`, for every method. -/
def excluded : List Route :=
  [⟨"/v1/auth/register", false⟩, ⟨"/v1/auth/login", false⟩, ⟨"/health", false⟩, ⟨"/metrics", false⟩,
    ⟨"/cdn/", true⟩]

/-- The middleware is left out for the request. -/
def isRouteExcluded (originalUrl : String) : Bool := excluded.any fun route => route.exec (pathOf originalUrl)

/-- The path of a URL with a fixed beginning. -/
theorem pathOf_append {start : String} (hstart : '?' ∉ start.toList) (rest : String) :
    pathOf (start ++ rest) = start.toList.map Char.toLower ++ pathOf rest := by
  unfold pathOf
  rw [String.toList_append, List.takeWhile_append_of_pos, List.map_append]
  intro c hc
  exact decide_eq_true fun heq => hstart (heq ▸ hc)

/-! ### Handlers of the auth-service -/

inductive Provider where
  | google
  | github
  deriving DecidableEq, Repr

def Provider.path : Provider → String
  | google => "google"
  | github => "github"

/-- The handlers that are not behind `JwtAuthGuard` and take a credential of their own. -/
inductive PublicHandler where
  | register
  | login
  | refresh
  | oauth (provider : Provider)
  | oauthCallback (provider : Provider)
  deriving DecidableEq, Repr

/-- The route of a handler under `@Controller('auth')`. -/
def PublicHandler.path : PublicHandler → String
  | register => "/register"
  | login => "/login"
  | refresh => "/refresh"
  | oauth provider => "/oauth/" ++ provider.path
  | oauthCallback provider => "/oauth/" ++ provider.path ++ "/callback"

/-- `@Post` or `@Get`; a handler of GET answers HEAD too. -/
def PublicHandler.methods : PublicHandler → List String
  | register | login | refresh => ["POST"]
  | oauth _ | oauthCallback _ => ["GET", "HEAD"]

def PublicHandler.all : List PublicHandler :=
  [register, login, refresh, oauth .google, oauth .github, oauthCallback .google, oauthCallback .github]

theorem PublicHandler.mem_all (h : PublicHandler) : h ∈ all := by
  cases h with
  | register => decide
  | login => decide
  | refresh => decide
  | oauth provider => cases provider <;> decide
  | oauthCallback provider => cases provider <;> decide

/-- The auth-service hands a request to the handler. -/
def PublicHandler.serves (h : PublicHandler) (method url : String) : Bool :=
  h.methods.contains method && Route.exec ⟨"/auth" ++ h.path, false⟩ (pathOf url)

/-! ### The proxy -/

/-- What an object has of `Object.prototype` under names of its own. -/
inductive ObjectMember where
  | objectConstructor
  | proto
  | hasOwnProperty
  | isPrototypeOf
  | propertyIsEnumerable
  | toLocaleString
  | toString
  | valueOf
  | defineGetter
  | defineSetter
  | lookupGetter
  | lookupSetter
  deriving DecidableEq, Repr

def ObjectMember.name : ObjectMember → String
  | objectConstructor => "constructor"
  | proto => "__proto__"
  | hasOwnProperty => "hasOwnProperty"
  | isPrototypeOf => "isPrototypeOf"
  | propertyIsEnumerable => "propertyIsEnumerable"
  | toLocaleString => "toLocaleString"
  | toString => "toString"
  | valueOf => "valueOf"
  | defineGetter => "__defineGetter__"
  | defineSetter => "__defineSetter__"
  | lookupGetter => "__lookupGetter__"
  | lookupSetter => "__lookupSetter__"

def ObjectMember.all : List ObjectMember :=
  [objectConstructor, proto, hasOwnProperty, isPrototypeOf, propertyIsEnumerable, toLocaleString, toString, valueOf,
    defineGetter, defineSetter, lookupGetter, lookupSetter]

/-- A call of the member as a function, with a request and no receiver, returns: `Object(req)` is the request, and
`toString` knows what to say of `undefined`.  The others cannot make an object of `undefined`, and `__proto__` is no
function. -/
def ObjectMember.returns : ObjectMember → Bool
  | objectConstructor | toString => true
  | _ => false

/-- The member that a name finds. -/
def objectMember (name : String) : Option ObjectMember := ObjectMember.all.find? fun member => member.name = name

/-- What the gateway reads of a request. -/
structure GatewayRequest where
  method : String
  originalUrl : String
  ip : Option String
  xApiKey : Option String
  authorization : Option String
  deriving DecidableEq, Repr

def GatewayRequest.auth (req : GatewayRequest) : AuthRequest := ⟨req.method, req.xApiKey, req.authorization⟩

/-- What `proxyAll` awaits and does. -/
inductive ProxyCommand (N : Type) where
  /-- `slidingWindow(ip)`, of which only `allowed` is read. -/
  | slidingWindow (ip : String)
  /-- `tokenBucket(identifier)`, of which only `allowed` is read. -/
  | tokenBucket (identifier : Json N)
  /-- `circuitBreakerService.execute(serviceName, …)` with the proxy for `url`: a failure is an open
  breaker or an error of the proxy. -/
  | execute (serviceName url : String)
  /-- The same with a member of `Object.prototype` in the place of the proxy. -/
  | executeMember (serviceName : String) (member : ObjectMember)
  /-- `cdnRoute.handleRequest`, which answers its failures itself. -/
  | handleRequest
  | setHeader (name value : String)
  | respond (status : ℕ) (message : String)

abbrev ProxyAnswer : ProxyCommand N → Type
  | .slidingWindow _ | .tokenBucket _ => Bool
  | .execute _ _ | .executeMember _ _ | .handleRequest | .setHeader _ _ | .respond _ _ => Unit

/-- What is thrown: by an open breaker, or by anything else. -/
inductive ProxyError where
  | serviceUnavailable (message : String)
  | other (message : String)

abbrev ProxyProgram (N : Type) (α : Type) := Program (ProxyCommand N) ProxyAnswer ProxyError α

abbrev ProxyEntry (N : Type) := Σ c : ProxyCommand N, Except ProxyError (ProxyAnswer c)

abbrev proxied (c : ProxyCommand N) : ProxyProgram N (ProxyAnswer c) := command c

/-- The services with a proxy. -/
def proxies : List String := ["auth", "storage", "analytics", "notifications", "cache"]

/-- `pathRewrite: { '^/v1/<service>': '/<service>' }`. -/
def pathRewrite (service url : String) : String :=
  if ("/v1/" ++ service).toList.isPrefixOf url.toList then
    "/" ++ service ++ String.ofList (url.toList.drop ("/v1/" ++ service).length)
  else url

/-- The `catch` of `ProxyService.handle`; what is passed to `next` is answered with 500. -/
def proxyCatch : ProxyError → ProxyProgram N Unit
  | .serviceUnavailable message => do
    proxied (.setHeader "Retry-After" "30")
    proxied (.respond 503 message)
  | .other _ => proxied (.respond 500 "Internal server error")

/-- `ProxyService.handle`: the service is looked up among the proxies, and then in `Object.prototype`. -/
def proxyHandle (service url : String) : ProxyProgram N Unit :=
  if service = "cdn" then proxied .handleRequest
  else if proxies.contains service then
    (proxied (.execute (service ++ "-service") (pathRewrite service url))).catchAll proxyCatch
  else match objectMember service with
    | some member => (proxied (.executeMember (service ++ "-service") member)).catchAll proxyCatch
    | none => proxied (.respond 404 "Service not found")

/-- A service with a proxy is looked up there. -/
theorem proxyHandle_of_mem {service : String} (hservice : proxies.contains service = true) (url : String) :
    (proxyHandle service url : ProxyProgram N Unit)
      = (proxied (.execute (service ++ "-service") (pathRewrite service url))).catchAll proxyCatch := by
  have hne : service ≠ "cdn" := by
    rintro rfl
    exact absurd hservice (by decide)
  unfold proxyHandle
  rw [if_neg hne, if_pos hservice]

/-- `req.user && req.user.sub`. -/
def userSub [Zero N] [DecidableEq N] (user : Option (Json N)) : Option (Json N) :=
  match user with
  | none => none
  | some user => ((user.prop "sub").join).filter Json.truthy

/-- `req.params.service` of `v1/:service/*`, for a path without escapes. -/
def serviceOf (url : String) : String := (Buffer.split '/' url).getD 2 ""

/-- `ProxyController.proxyAll`. -/
def proxyAll [Zero N] [DecidableEq N] (req : GatewayRequest) (user : Option (Json N)) :
    ProxyProgram N Unit := do
  let allowed : Bool ← proxied (.slidingWindow (req.ip.getD "unknown"))
  if allowed then
    match userSub user with
    | none => proxyHandle (serviceOf req.originalUrl) req.originalUrl
    | some sub =>
      let allowed : Bool ← proxied (.tokenBucket sub)
      if allowed then proxyHandle (serviceOf req.originalUrl) req.originalUrl
      else proxied (.respond 429 "Too Many Requests (User)")
  else proxied (.respond 429 "Too Many Requests (IP)")

/-! ### Which handlers are excluded -/

/-- A request for a handler: the gateway rewrites its path to one the auth-service routes there. -/
def RoutesTo (h : PublicHandler) (req : GatewayRequest) : Prop :=
  ∃ rest, req.originalUrl = "/v1/auth" ++ rest ∧ h.serves req.method ("/auth" ++ rest) = true

/-- The rest of such a path is the route of the handler, but for a slash at the end. -/
theorem PublicHandler.pathOf_rest {h : PublicHandler} {method rest : String}
    (hserves : h.serves method ("/auth" ++ rest) = true) :
    pathOf rest = h.path.toList ∨ pathOf rest = h.path.toList ++ ['/'] := by
  have hroute := (Bool.and_eq_true_iff.mp hserves).2
  have hstart : '?' ∉ "/auth".toList := by decide
  have hlower : "/auth".toList.map Char.toLower = "/auth".toList := by decide
  unfold Route.exec at hroute
  rw [if_neg Bool.false_ne_true, Bool.or_eq_true, decide_eq_true_eq, decide_eq_true_eq,
    pathOf_append hstart, hlower, String.toList_append, List.append_assoc, List.append_right_inj,
    List.append_right_inj] at hroute
  exact hroute

/-- **The exclusion list against the handlers**: it holds two of them. -/
theorem isRouteExcluded_iff {h : PublicHandler} {req : GatewayRequest} (hroute : RoutesTo h req) :
    isRouteExcluded req.originalUrl = true ↔ h = .register ∨ h = .login := by
  have hexcluded : ∀ h ∈ PublicHandler.all, ∀ ending ∈ [[], ['/']],
      (excluded.any fun route => route.exec ("/v1/auth".toList ++ (h.path.toList ++ ending))) = true ↔
        h = .register ∨ h = .login := by
    decide
  obtain ⟨rest, hurl, hserves⟩ := hroute
  have hstart : '?' ∉ "/v1/auth".toList := by decide
  have hlower : "/v1/auth".toList.map Char.toLower = "/v1/auth".toList := by decide
  rw [hurl]
  unfold isRouteExcluded
  rw [pathOf_append hstart, hlower]
  rcases PublicHandler.pathOf_rest hserves with hrest | hrest
  · rw [hrest, ← List.append_nil h.path.toList]
    exact hexcluded h h.mem_all [] (by decide)
  · rw [hrest]
    exact hexcluded h h.mem_all ['/'] (by decide)

/-- The methods of the handlers are not OPTIONS. -/
theorem RoutesTo.method {h : PublicHandler} {req : GatewayRequest} (hroute : RoutesTo h req) :
    req.auth.method ≠ "OPTIONS" := by
  have hmethods : ∀ h ∈ PublicHandler.all, "OPTIONS" ∉ h.methods := by decide
  obtain ⟨rest, _, hserves⟩ := hroute
  intro heq
  have hmethod := (Bool.and_eq_true_iff.mp hserves).1
  rw [show req.method = "OPTIONS" from heq] at hmethod
  exact hmethods h h.mem_all (List.contains_iff_mem.mp hmethod)

/-- What the gateway sends the auth-service for the request. -/
theorem pathRewrite_auth (rest : String) : pathRewrite "auth" ("/v1/auth" ++ rest) = "/auth" ++ rest := by
  have hstart : "/v1/" ++ "auth" = "/v1/auth" := by decide
  have hbegins : "/v1/auth".toList.isPrefixOf ("/v1/auth" ++ rest).toList = true := by
    rw [List.isPrefixOf_iff_prefix, String.toList_append]
    exact List.prefix_append _ _
  have hdrop : ("/v1/auth" ++ rest).toList.drop "/v1/auth".length = rest.toList := by
    rw [String.toList_append]
    exact List.drop_left' rfl
  unfold pathRewrite
  rw [hstart, if_pos hbegins, hdrop, String.ofList_toList]
  rfl

theorem eq_slash_of_toLower {c : Char} (h : c.toLower = '/') : c = '/' := by
  unfold Char.toLower at h
  split at h
  · rename_i hupper
    have hlow : 65 ≤ c.val.toNat := hupper.1
    have hhigh : c.val.toNat ≤ 90 := hupper.2
    have hcode : (c.val + ('a'.val - 'A'.val)).toNat = 47 := congrArg (fun d : Char => d.val.toNat) h
    rw [UInt32.toNat_add] at hcode
    have hshift : ('a'.val - 'A'.val).toNat = 32 := by decide
    omega
  · exact h

/-- Such a request is one for the auth-service. -/
theorem RoutesTo.serviceOf {h : PublicHandler} {req : GatewayRequest} (hroute : RoutesTo h req) :
    serviceOf req.originalUrl = "auth" := by
  have hheads : ∀ h : PublicHandler, ∀ ending, (h.path.toList ++ ending).head? = some '/' := by
    intro h ending
    have hhead : ∀ h ∈ PublicHandler.all, h.path.toList.head? = some '/' := by decide
    rw [List.head?_append, hhead h h.mem_all]
    rfl
  obtain ⟨rest, hurl, hserves⟩ := hroute
  have hslash : ∃ cs, rest.toList = '/' :: cs := by
    have hpath : (pathOf rest).head? = some '/' := by
      rcases PublicHandler.pathOf_rest hserves with hrest | hrest
      · rw [hrest, ← List.append_nil h.path.toList, hheads]
      · rw [hrest, hheads]
    unfold pathOf at hpath
    cases hchars : rest.toList with
    | nil =>
      rw [hchars] at hpath
      cases hpath
    | cons c cs =>
      rw [hchars, List.takeWhile_cons] at hpath
      split at hpath
      · rw [eq_slash_of_toLower (Option.some.inj hpath)]
        exact ⟨cs, rfl⟩
      · cases hpath
  obtain ⟨cs, hcs⟩ := hslash
  have hchars : ("/v1/auth" ++ rest).toList
      = [] ++ '/' :: ("v1".toList ++ '/' :: ("auth".toList ++ '/' :: cs)) := by
    rw [String.toList_append, hcs]
    rfl
  unfold Gateway.serviceOf Buffer.split
  rw [hurl, hchars, List.splitOn_append_cons_self_of_not_mem (by decide),
    List.splitOn_append_cons_self_of_not_mem (by decide),
    List.splitOn_append_cons_self_of_not_mem (by decide)]
  rfl

/-! ### Through the gateway -/

/-- The limits of the controller admit the request and the breaker is closed. -/
def Admitting : (c : ProxyCommand N) → Except ProxyError (ProxyAnswer c) → Prop
  | .slidingWindow _, r | .tokenBucket _, r => r = .ok true
  | .execute _ _, r => r = .ok ()
  | .executeMember _ _, _ | .handleRequest, _ | .setHeader _ _, _ | .respond _ _, _ => True

/-- An auth-service that is not reachable. -/
def refusingServices : Unit → (c : AuthCommand N) → Unit × Except String (AuthAnswer c)
  | _, .respond _ _ => ((), .ok ())
  | _, .next _ _ => ((), .ok ())
  | _, _ => ((), .error "fetch failed")

theorem refusingServices_steady (s : Unit) (c : AuthCommand N) : Steady c (refusingServices s c).2 := by
  intro hacts
  cases c with
  | respond status message => rfl
  | next user authorization => rfl
  | _ => cases hacts

/-- Limits that admit everything. -/
def openLimits : Unit → (c : ProxyCommand N) → Unit × Except ProxyError (ProxyAnswer c)
  | _, .slidingWindow _ => ((), .ok true)
  | _, .tokenBucket _ => ((), .ok true)
  | _, .execute _ _ => ((), .ok ())
  | _, .executeMember _ _ => ((), .ok ())
  | _, .handleRequest => ((), .ok ())
  | _, .setHeader _ _ => ((), .ok ())
  | _, .respond _ _ => ((), .ok ())

theorem openLimits_admitting (t : Unit) (c : ProxyCommand N) : Admitting c (openLimits t c).2 := by
  cases c <;> trivial

section Through

variable [Zero N] [DecidableEq N]

/-- The commands of the middleware for a request: none for an excluded path. -/
def authEntries {σ : Type} (jwt : JwtLibrary N) (jwtSecret : Option String)
    (handle : σ → (c : AuthCommand N) → σ × Except String (AuthAnswer c)) (s : σ) (req : GatewayRequest) :
    List (AuthEntry N) :=
  if isRouteExcluded req.originalUrl then [] else trace handle s (use jwt jwtSecret req.auth)

/-- The controller is reached with this user. -/
def ReachesProxy {σ : Type} (jwt : JwtLibrary N) (jwtSecret : Option String)
    (handle : σ → (c : AuthCommand N) → σ × Except String (AuthAnswer c)) (s : σ) (req : GatewayRequest)
    (user : Option (Json N)) : Prop :=
  if isRouteExcluded req.originalUrl then user = none
  else ∃ authorization r, ⟨.next user authorization, r⟩ ∈ trace handle s (use jwt jwtSecret req.auth)

/-- The gateway does not answer 401, and if its limits admit the request and the breaker is closed, it
sends the auth-service a request that is routed to the handler. -/
def LetThrough (jwt : JwtLibrary N) (jwtSecret : Option String) (h : PublicHandler) (req : GatewayRequest) :
    Prop :=
  ∀ (σ τ : Type) (handle : σ → (c : AuthCommand N) → σ × Except String (AuthAnswer c)) (s : σ)
    (handleProxy : τ → (c : ProxyCommand N) → τ × Except ProxyError (ProxyAnswer c)) (t : τ),
    (∀ s c, Steady c (handle s c).2) → (∀ t c, Admitting c (handleProxy t c).2) →
      (∀ message r, ⟨.respond 401 message, r⟩ ∉ authEntries jwt jwtSecret handle s req) ∧
      ∃ user url, ReachesProxy jwt jwtSecret handle s req user ∧
        ⟨.execute "auth-service" url, .ok ()⟩ ∈ trace handleProxy t (proxyAll req user) ∧
        h.serves req.method url = true

/-- The client has no token that verifies. -/
def Tokenless (jwt : JwtLibrary N) (jwtSecret : Option String) (req : GatewayRequest) : Prop :=
  ∀ authHeader key payload, req.authorization = some authHeader → isBearer authHeader = true →
    present jwtSecret = some key → jwt.verify (bearerToken authHeader) key ≠ .ok payload

/-- What the controller does with a request for one of the handlers when its limits admit it. -/
theorem proxyAll_executes {h : PublicHandler} {req : GatewayRequest} (hroute : RoutesTo h req)
    (user : Option (Json N)) : (proxyAll req user).Traces Admitting fun entries _ =>
      ⟨.execute "auth-service" (pathRewrite "auth" req.originalUrl), .ok ()⟩ ∈ entries := by
  have hhandle : (proxyHandle "auth" req.originalUrl : ProxyProgram N Unit).Traces Admitting
      fun entries _ => ⟨.execute "auth-service" (pathRewrite "auth" req.originalUrl), .ok ()⟩ ∈ entries := by
    rw [proxyHandle_of_mem (by decide)]
    apply Traces.catchAll
    refine traces_command fun r hr => ?_
    rw [show r = .ok () from hr]
    exact List.mem_cons_self
  unfold proxyAll
  rw [hroute.serviceOf]
  refine Traces.command_bind (fun allowed hallowed => ?_) fun e he => by cases he
  rw [if_pos (Except.ok.inj hallowed)]
  cases userSub user with
  | none => exact hhandle.mono fun entries _ hmem => List.mem_cons_of_mem _ hmem
  | some sub =>
    refine Traces.command_bind (fun allowed hallowed => ?_) fun e he => by cases he
    rw [if_pos (Except.ok.inj hallowed)]
    exact hhandle.mono fun entries _ hmem => List.mem_cons_of_mem _ (List.mem_cons_of_mem _ hmem)

/-- Without a token, the middleware passes nothing on when the auth-service is not reachable. -/
theorem refusing_not_passed {jwt : JwtLibrary N} {jwtSecret : Option String} {req : GatewayRequest}
    (hmethod : req.auth.method ≠ "OPTIONS") (htokenless : Tokenless jwt jwtSecret req) :
    ¬ Passed (trace refusingServices () (use jwt jwtSecret req.auth)) := by
  intro ⟨user, authorization, r, hmem⟩
  obtain ⟨-, hall⟩ := (use_actsOnce jwt jwtSecret hmethod).exec refusingServices_steady ()
  obtain ⟨-, hgrounds⟩ := hall user authorization r hmem
  rcases hgrounds with ⟨apiKey, -, response, -, hresponse, -⟩ |
    ⟨authHeader, -, hheader, hbearer, key, payload, -, hsecret, hverify, -⟩
  · obtain ⟨_, hanswer⟩ := answer_of_mem_trace refusingServices hresponse
    cases hanswer
  · exact htokenless authHeader key payload hheader hbearer hsecret hverify

end Through

/-! ### The request with which the dashboard refreshes -/

/-- `POST /v1/auth/refresh` with the refresh token in the body and no other credential. -/
def refreshRequest : GatewayRequest :=
  { method := "POST", originalUrl := "/v1/auth/refresh", ip := none, xApiKey := none, authorization := none }

theorem refreshRequest_routes : RoutesTo .refresh refreshRequest := ⟨"/refresh", by decide, by decide⟩

theorem refreshRequest_tokenless : Tokenless stampJwt (some "k") refreshRequest := by
  intro authHeader key payload hheader
  cases hheader

end EdgeSphere.Gateway
