import EdgeSphere.Library.Buffer
import EdgeSphere.Library.Json
import EdgeSphere.Library.ParseInt
import EdgeSphere.Library.Program
import EdgeSphere.Gateway.RateLimit

/-!
# The authentication middleware of the gateway

`AuthMiddleware.use` as the program of its awaits and of what it does to the response.  A request comes
with an API key, which the auth-service is asked about, or with a bearer token; both paths end in the same
rate limiting.

* `JwtLibrary` — `jwt.sign` and `jwt.verify`, which may throw;
* `ActsOnce` — a part of the middleware acts on the request once, or throws without having acted
  (`rateLimited_actsOnce`), and `catch` turns that into exactly once (`ActsOnce.catchAll`);
* `use_fail_closed` — **the run theorem**: whatever fails, exactly one of `next()` and one response; and
  `next()` only for an accepted key or token within the limit.
-/

namespace EdgeSphere.Gateway

open EdgeSphere.Library
open EdgeSphere.Library.Program

variable {N : Type}

/-! ### Commands -/

/-- The response to `POST /auth/validate-key`; `body` is `none` where `response.json()` throws. -/
structure KeyResponse (N : Type) where
  ok : Bool
  body : Option (Json N)

/-- What the middleware awaits, and what it does to the request and the response. -/
inductive AuthCommand (N : Type) where
  /-- `fetch(…/auth/validate-key)`. -/
  | validateKey (apiKey : String)
  /-- `hget('edgesphere:platform_config', 'rateLimitPerIp')`. -/
  | rateLimitPerIp
  | dateNow
  /-- The pipeline on `ratelimit:sw:${identifier}`; `identifier` may be `undefined`. -/
  | slidingPipeline (identifier : Option (Json N)) (now : ℕ)
  | setHeader (name value : String)
  /-- `res.status(status).json({ message })`. -/
  | respond (status : ℕ) (message : String)
  /-- `next()`, with `req.user` and the header `Authorization` as they are then. -/
  | next (user : Option (Json N)) (authorization : Option String)

abbrev AuthAnswer : AuthCommand N → Type
  | .validateKey _ => KeyResponse N
  | .rateLimitPerIp => Option String
  | .dateNow => ℕ
  | .slidingPipeline _ _ => Option ℕ
  | .setHeader _ _ => Unit
  | .respond _ _ => Unit
  | .next _ _ => Unit

abbrev AuthProgram (N : Type) (α : Type) := Program (AuthCommand N) AuthAnswer String α

/-- One command and its answer. -/
abbrev AuthEntry (N : Type) := Σ c : AuthCommand N, Except String (AuthAnswer c)

abbrev ask (c : AuthCommand N) : AuthProgram N (AuthAnswer c) := command c

/-- `jwt.sign(claims, secret)` and `jwt.verify(token, secret)`. -/
structure JwtLibrary (N : Type) where
  sign : String → Json N → Except String String
  verify : String → String → Except String (Json N)

/-! ### Rate limiting -/

/-- `val ? parseInt(val, 10) : fallback`. -/
def readSetting (fallback : ℤ) : Option String → IntNumber
  | none | some "" => .int fallback
  | some val => parseInt val

/-- `PlatformConfigService.getRateLimitPerIp`. -/
def getRateLimitPerIp : AuthProgram N IntNumber := do
  let val : Option String ← ask .rateLimitPerIp
  return readSetting 100 val

/-- `number.toString()`. -/
def numberToString : IntNumber → String
  | .nan => "NaN"
  | .int n => toString n

/-- The reply of `slidingWindow`, for a limit that may be NaN. -/
structure WindowReply where
  allowed : Bool
  remaining : IntNumber
  resetAt : ℕ
  deriving DecidableEq, Repr

/-- The decision on the reply to `ZCARD`; `none` is a pipeline that gave none. -/
def windowReply (limit : IntNumber) (now : ℕ) (zcardReply : Option ℕ) : WindowReply where
  allowed := match zcardReply with
    | some count => !limit.lt (.int count)
    | none => true
  remaining := match limit with
    | .nan => .nan
    | .int limit => .int (max 0 (limit - (zcardReply.getD 0 : ℕ)))
  resetAt := now + 60000

/-- With a limit that is a number, it is the reply of the sliding window over a minute. -/
theorem windowReply_eq (limit : ℤ) (now : ℕ) (zcardReply : Option ℕ) :
    (windowReply (.int limit) now zcardReply).allowed
        = (slidingWindowReply (limit : ℚ) 60000 now zcardReply).allowed ∧
      (slidingWindowReply (limit : ℚ) 60000 now zcardReply).remaining
        = ((max 0 (limit - (zcardReply.getD 0 : ℕ)) : ℤ) : ℚ) := by
  constructor
  · cases zcardReply with
    | none => rfl
    | some count =>
      show (!decide (limit < (count : ℤ))) = !decide ((limit : ℚ) < (count : ℚ))
      congr 1
      rw [decide_eq_decide]
      exact_mod_cast Iff.rfl
  · show max 0 ((limit : ℚ) - ((zcardReply.getD 0 : ℕ) : ℚ)) = _
    push_cast
    rfl

/-- `RateLimitService.slidingWindow(identifier, limit)`. -/
def slidingWindowOf (identifier : Option (Json N)) (limit : IntNumber) : AuthProgram N WindowReply := do
  let now : ℕ ← ask .dateNow
  let zcardReply : Option ℕ ← ask (.slidingPipeline identifier now)
  return windowReply limit now zcardReply

/-- `Math.ceil((resetAt - now) / 1000)`. -/
def retryAfter (resetAt now : ℕ) : ℤ := ⌈(((resetAt : ℤ) - now : ℤ) : ℚ) / 1000⌉

/-- The end of both paths; reading the identifier may throw. -/
def rateLimited (identifier : Option (Option (Json N))) (user : Json N) (authorization : Option String) :
    AuthProgram N Unit := do
  let limit ← getRateLimitPerIp
  match identifier with
  | none => throw "TypeError"
  | some identifier =>
    let reply ← slidingWindowOf identifier limit
    ask (.setHeader "X-RateLimit-Limit" (numberToString limit))
    ask (.setHeader "X-RateLimit-Remaining" (numberToString reply.remaining))
    ask (.setHeader "X-RateLimit-Reset" (toString (reply.resetAt / 1000)))
    if reply.allowed then ask (.next (some user) authorization)
    else
      let now : ℕ ← ask .dateNow
      ask (.setHeader "Retry-After" (toString (retryAfter reply.resetAt now)))
      ask (.respond 429 "Too Many Requests")

/-! ### The middleware -/

/-- What the middleware reads of a request. -/
structure AuthRequest where
  method : String
  xApiKey : Option String
  authorization : Option String
  deriving DecidableEq, Repr

/-- A header or a setting that is truthy. -/
def present : Option String → Option String
  | none | some "" => none
  | some text => some text

/-- `authHeader.startsWith('Bearer ')`. -/
def isBearer (authHeader : String) : Bool := "Bearer ".toList.isPrefixOf authHeader.toList

/-- `authHeader.split(' ')[1]`. -/
def bearerToken (authHeader : String) : String := (Buffer.split ' ' authHeader).getD 1 ""

/-- `{ sub: payload.sub, email: payload.email, role: payload.role }` as JSON, without what is
`undefined`; `none` where the access throws. -/
def internalClaims (payload : Json N) : Option (Json N) :=
  match payload.prop "sub", payload.prop "email", payload.prop "role" with
  | some sub, some email, some role =>
    some (.obj ([("sub", sub), ("email", email), ("role", role)].filterMap fun (name, value) =>
      value.map fun j => (name, j)))
  | _, _, _ => none

/-- The header that the API key path leaves on the request. -/
def injectedHeader (jwt : JwtLibrary N) (secret : Option String) (payload : Json N)
    (authorization : Option String) : Except String (Option String) :=
  match secret with
  | none => .ok authorization
  | some secret =>
    match internalClaims payload with
    | none => .error "TypeError"
    | some claims =>
      match jwt.sign secret claims with
      | .error e => .error e
      | .ok internalJwt => .ok (some ("Bearer " ++ internalJwt))

/-- `payload.sub || payload.id || 'anonymous'`. -/
def bearerIdentity [Zero N] [DecidableEq N] (payload : Json N) : Option (Json N) :=
  match payload.prop "sub", payload.prop "id" with
  | some sub, some id => some (Json.firstTruthy sub id (.str "anonymous"))
  | _, _ => none

/-- The path of the header `X-API-Key`. -/
def apiKeyPath (jwt : JwtLibrary N) (secret : Option String) (apiKey : String)
    (authorization : Option String) : AuthProgram N Unit :=
  (do
    let response : KeyResponse N ← ask (.validateKey apiKey)
    if response.ok then
      match response.body with
      | none => throw "SyntaxError"
      | some payload =>
        match injectedHeader jwt secret payload authorization with
        | .error e => throw e
        | .ok authorization => rateLimited (payload.prop "sub") payload authorization
    else ask (.respond 401 "Invalid or expired API key")).catchAll fun _ =>
      ask (.respond 401 "API key validation failed")

/-- The path of a bearer token. -/
def bearerPath [Zero N] [DecidableEq N] (jwt : JwtLibrary N) (secret : Option String) (authHeader : String) :
    AuthProgram N Unit :=
  (match secret with
    | none => ask (.respond 500 "Internal server error")
    | some secret =>
      match jwt.verify (bearerToken authHeader) secret with
      | .error e => throw e
      | .ok payload =>
        match bearerIdentity payload with
        | none => throw "TypeError"
        | some userId => rateLimited (some (some userId)) payload (some authHeader)).catchAll fun _ =>
      ask (.respond 401 "Unauthorized - Invalid token")

/-- `AuthMiddleware.use`; `jwtSecret` is the setting `JWT_SECRET`. -/
def use [Zero N] [DecidableEq N] (jwt : JwtLibrary N) (jwtSecret : Option String) (req : AuthRequest) :
    AuthProgram N Unit :=
  if req.method = "OPTIONS" then ask (.next none req.authorization)
  else match present req.xApiKey with
    | some apiKey => apiKeyPath jwt (present jwtSecret) apiKey req.authorization
    | none =>
      match req.authorization with
      | none => ask (.respond 401 "Unauthorized - Missing or invalid token")
      | some authHeader =>
        if isBearer authHeader then bearerPath jwt (present jwtSecret) authHeader
        else ask (.respond 401 "Unauthorized - Missing or invalid token")

/-! ### What a run does -/

/-- `next()` and the responses. -/
def AuthCommand.acts : AuthCommand N → Bool
  | .respond _ _ | .next _ _ => true
  | _ => false

/-- Anything may fail but `next()` and a response. -/
def Steady (c : AuthCommand N) (r : Except String (AuthAnswer c)) : Prop := c.acts = true → r.isOk = true

/-- How often a run has called `next()` or sent a response. -/
def actions (entries : List (AuthEntry N)) : ℕ := entries.countP fun e => e.1.acts

/-- The run has called `next()`. -/
def Passed (entries : List (AuthEntry N)) : Prop :=
  ∃ user authorization r, ⟨.next user authorization, r⟩ ∈ entries

/-- The identities a run has counted requests of. -/
def identities (entries : List (AuthEntry N)) : List (Option (Json N)) :=
  entries.filterMap fun e => match e.1 with
    | .slidingPipeline identifier _ => some identifier
    | _ => none

/-- The sliding window has answered, and not reported the request as over the limit. -/
def Admitted (entries : List (AuthEntry N)) : Prop :=
  ∃ val identifier now zcardReply, ⟨.rateLimitPerIp, .ok val⟩ ∈ entries ∧
    ⟨.slidingPipeline identifier now, .ok zcardReply⟩ ∈ entries ∧
    (windowReply (readSetting 100 val) now zcardReply).allowed = true

theorem actions_append (entries entries' : List (AuthEntry N)) :
    actions (entries ++ entries') = actions entries + actions entries' := List.countP_append

theorem not_passed_of_actions {entries : List (AuthEntry N)} (h : actions entries = 0) : ¬ Passed entries := by
  intro ⟨user, authorization, r, hmem⟩
  have hacts := (List.countP_eq_zero.mp h) _ hmem
  exact hacts rfl

/-- A part of the middleware acts once, passing only what is admitted and accepted, or throws without
having acted. -/
def ActsOnce (Accepted : List (AuthEntry N) → Option (Json N) → Option String → Prop)
    (entries : List (AuthEntry N)) : Except String Unit → Prop
  | .ok _ => actions entries = 1 ∧ ∀ user authorization r, ⟨.next user authorization, r⟩ ∈ entries →
      Admitted entries ∧ Accepted entries user authorization
  | .error _ => actions entries = 0

/-- What the end of both paths hands on: the user and the header it is given, counted under the identity it
is given. -/
def CountedAs (identifier : Option (Option (Json N))) (user : Json N) (authorization : Option String)
    (entries : List (AuthEntry N)) (user' : Option (Json N)) (authorization' : Option String) : Prop :=
  user' = some user ∧ authorization' = authorization ∧
    ∃ id, identifier = some id ∧ identities entries = [id]

/-- What has been done before, if it does not act, changes only what is accepted. -/
theorem ActsOnce.after {Accepted Accepted' : List (AuthEntry N) → Option (Json N) → Option String → Prop}
    (before : List (AuthEntry N)) {entries : List (AuthEntry N)} {out : Except String Unit}
    (hbefore : actions before = 0)
    (haccepted : ∀ user authorization, Accepted entries user authorization →
      Accepted' (before ++ entries) user authorization)
    (h : ActsOnce Accepted entries out) : ActsOnce Accepted' (before ++ entries) out := by
  have hactions : actions (before ++ entries) = actions entries := by
    rw [actions_append, hbefore, Nat.zero_add]
  cases out with
  | error e => exact hactions.trans h
  | ok _ =>
    refine ⟨hactions.trans h.1, fun user authorization r hmem => ?_⟩
    rcases List.mem_append.mp hmem with hmem | hmem
    · exact absurd ⟨user, authorization, r, hmem⟩ (not_passed_of_actions hbefore)
    · obtain ⟨⟨val, identifier, now, zcardReply, hval, hzcard, hallowed⟩, haccept⟩ := h.2 _ _ _ hmem
      exact ⟨⟨val, identifier, now, zcardReply, List.mem_append_right _ hval, List.mem_append_right _ hzcard,
        hallowed⟩, haccepted _ _ haccept⟩

/-- A single response. -/
theorem respond_actsOnce (status : ℕ) (message : String)
    (Accepted : List (AuthEntry N) → Option (Json N) → Option String → Prop) :
    (ask (.respond status message) : AuthProgram N Unit).Traces Steady (ActsOnce Accepted) := by
  refine traces_command fun r hr => ?_
  cases r with
  | error e => cases hr rfl
  | ok _ =>
    refine ⟨rfl, fun _ _ _ hmem => ?_⟩
    simp at hmem

/-- **The end of both paths** acts once, or throws without having acted. -/
theorem rateLimited_actsOnce (identifier : Option (Option (Json N))) (user : Json N)
    (authorization : Option String) : (rateLimited identifier user authorization).Traces Steady
      (ActsOnce (CountedAs identifier user authorization)) := by
  unfold rateLimited getRateLimitPerIp slidingWindowOf
  apply Traces.bind
  refine Traces.command_bind (fun val _ => traces_ret ?_) fun e _ => rfl
  cases identifier with
  | none => exact rfl
  | some identifier =>
    apply Traces.bind
    refine Traces.command_bind (fun now _ => ?_) fun e _ => rfl
    refine Traces.command_bind (fun zcardReply _ => traces_ret ?_) fun e _ => rfl
    refine Traces.command_bind (fun _ _ => ?_) fun e _ => rfl
    refine Traces.command_bind (fun _ _ => ?_) fun e _ => rfl
    refine Traces.command_bind (fun _ _ => ?_) fun e _ => rfl
    by_cases hallowed : (windowReply (readSetting 100 val) now zcardReply).allowed = true
    · rw [if_pos hallowed]
      refine traces_command fun r hr => ?_
      cases r with
      | error e => cases hr rfl
      | ok _ =>
        refine ⟨rfl, fun user' authorization' r' hmem => ?_⟩
        refine ⟨⟨val, identifier, now, zcardReply, ?_, ?_, hallowed⟩, ?_⟩
        · simp
        · simp
        · simp at hmem
          exact ⟨hmem.1.1, hmem.1.2, identifier, rfl, rfl⟩
    · rw [if_neg hallowed]
      refine Traces.command_bind (fun later _ => ?_) fun e _ => rfl
      refine Traces.command_bind (fun _ _ => ?_) fun e _ => rfl
      refine (respond_actsOnce _ _ fun _ _ _ => False).mono fun entries out h => ?_
      exact h.after [_, _, _, _, _, _, _, _] rfl fun _ _ hnone => hnone.elim

/-- **`catch` closes**: with the answer 401, what acts at most once acts exactly once. -/
theorem ActsOnce.catchAll {Accepted : List (AuthEntry N) → Option (Json N) → Option String → Prop}
    {p : AuthProgram N Unit} (hp : p.Traces Steady (ActsOnce Accepted)) (message : String) :
    (p.catchAll fun _ => ask (.respond 401 message)).Traces Steady fun entries _ =>
      ActsOnce Accepted entries (.ok ()) := by
  refine Traces.catchAll (hp.mono fun entries out h => ?_)
  cases out with
  | ok _ => exact h
  | error e =>
    have hzero : actions entries = 0 := h
    refine traces_command fun r _ => ⟨?_, fun user authorization r' hmem => ?_⟩
    · rw [actions_append, hzero]
      rfl
    · rcases List.mem_append.mp hmem with hmem | hmem
      · exact absurd ⟨user, authorization, r', hmem⟩ (not_passed_of_actions hzero)
      · simp at hmem

/-! ### Both paths -/

/-- The auth-service has accepted the key, and the user it answers with is the one counted. -/
def KeyAccepted (jwt : JwtLibrary N) (secret : Option String) (apiKey : String)
    (clientHeader : Option String) (entries : List (AuthEntry N)) (user : Option (Json N))
    (authorization : Option String) : Prop :=
  ∃ response payload, ⟨.validateKey apiKey, .ok response⟩ ∈ entries ∧ response.ok = true ∧
    response.body = some payload ∧ injectedHeader jwt secret payload clientHeader = .ok authorization ∧
    CountedAs (payload.prop "sub") payload authorization entries user authorization

/-- The token verifies, and the user it names is the one counted. -/
def TokenAccepted [Zero N] [DecidableEq N] (jwt : JwtLibrary N) (secret : Option String)
    (authHeader : String) (entries : List (AuthEntry N)) (user : Option (Json N))
    (authorization : Option String) : Prop :=
  ∃ key payload identifier, secret = some key ∧ jwt.verify (bearerToken authHeader) key = .ok payload ∧
    bearerIdentity payload = some identifier ∧
    CountedAs (some (some identifier)) payload (some authHeader) entries user authorization

theorem apiKeyPath_actsOnce (jwt : JwtLibrary N) (secret : Option String) (apiKey : String)
    (clientHeader : Option String) :
    (apiKeyPath jwt secret apiKey clientHeader).Traces Steady fun entries _ =>
      ActsOnce (KeyAccepted jwt secret apiKey clientHeader) entries (.ok ()) := by
  apply ActsOnce.catchAll
  refine Traces.command_bind (fun response _ => ?_) fun e _ => rfl
  by_cases hok : response.ok = true
  · rw [if_pos hok]
    cases hbody : response.body with
    | none => exact rfl
    | some payload =>
      show Traces Steady (match injectedHeader jwt secret payload clientHeader with
        | .error e => throw e
        | .ok authorization => rateLimited (payload.prop "sub") payload authorization) _
      cases hheader : injectedHeader jwt secret payload clientHeader with
      | error e => exact rfl
      | ok header =>
        refine (rateLimited_actsOnce (payload.prop "sub") payload header).mono fun entries out h => ?_
        refine h.after [⟨.validateKey apiKey, .ok response⟩] rfl fun user authorization hcounted => ?_
        obtain ⟨huser, rfl, hidentity⟩ := hcounted
        exact ⟨response, payload, List.mem_cons_self, hok, hbody, hheader, huser, rfl, hidentity⟩
  · rw [if_neg hok]
    refine (respond_actsOnce _ _ fun _ _ _ => False).mono fun entries out h => ?_
    exact h.after [⟨.validateKey apiKey, .ok response⟩] rfl fun _ _ hnone => hnone.elim

section Use

variable [Zero N] [DecidableEq N]

theorem bearerPath_actsOnce (jwt : JwtLibrary N) (secret : Option String) (authHeader : String) :
    (bearerPath jwt secret authHeader).Traces Steady fun entries _ =>
      ActsOnce (TokenAccepted jwt secret authHeader) entries (.ok ()) := by
  apply ActsOnce.catchAll
  cases secret with
  | none => exact respond_actsOnce 500 _ _
  | some key =>
    show Traces Steady (match jwt.verify (bearerToken authHeader) key with
      | .error e => throw e
      | .ok payload =>
        match bearerIdentity payload with
        | none => throw "TypeError"
        | some userId => rateLimited (some (some userId)) payload (some authHeader)) _
    cases hverify : jwt.verify (bearerToken authHeader) key with
    | error e => exact rfl
    | ok payload =>
      show Traces Steady (match bearerIdentity payload with
        | none => throw "TypeError"
        | some userId => rateLimited (some (some userId)) payload (some authHeader)) _
      cases hidentity : bearerIdentity payload with
      | none => exact rfl
      | some userId =>
        refine (rateLimited_actsOnce _ payload (some authHeader)).mono fun entries out h => ?_
        exact h.after [] rfl fun user authorization hcounted =>
          ⟨key, payload, userId, rfl, hverify, hidentity, hcounted⟩

/-! ### Every run -/

/-- On what grounds a run calls `next()`. -/
def Authenticated (jwt : JwtLibrary N) (jwtSecret : Option String) (req : AuthRequest)
    (entries : List (AuthEntry N)) (user : Option (Json N)) (authorization : Option String) : Prop :=
  (∃ apiKey, present req.xApiKey = some apiKey ∧
      KeyAccepted jwt (present jwtSecret) apiKey req.authorization entries user authorization) ∨
    ∃ authHeader, present req.xApiKey = none ∧ req.authorization = some authHeader ∧
      isBearer authHeader = true ∧ TokenAccepted jwt (present jwtSecret) authHeader entries user authorization

/-- **One run** acts once, and passes a request only on good grounds. -/
theorem use_actsOnce (jwt : JwtLibrary N) (jwtSecret : Option String) {req : AuthRequest}
    (hmethod : req.method ≠ "OPTIONS") : (use jwt jwtSecret req).Traces Steady fun entries _ =>
      ActsOnce (Authenticated jwt jwtSecret req) entries (.ok ()) := by
  have hrefused : ∀ message, (ask (.respond 401 message) : AuthProgram N Unit).Traces Steady
      fun entries _ => ActsOnce (Authenticated jwt jwtSecret req) entries (.ok ()) := by
    intro message
    refine traces_command fun r _ => ⟨rfl, fun _ _ _ hmem => ?_⟩
    simp at hmem
  unfold use
  rw [if_neg hmethod]
  cases hkey : present req.xApiKey with
  | some apiKey =>
    refine (apiKeyPath_actsOnce jwt _ apiKey _).mono fun entries _ h => ⟨h.1, fun _ _ r hmem => ?_⟩
    obtain ⟨hadmitted, haccepted⟩ := h.2 _ _ r hmem
    exact ⟨hadmitted, Or.inl ⟨apiKey, hkey, haccepted⟩⟩
  | none =>
    cases hheader : req.authorization with
    | none => exact hrefused _
    | some authHeader =>
      show Traces Steady (if _ then _ else _) _
      by_cases hbearer : isBearer authHeader = true
      · rw [if_pos hbearer]
        refine (bearerPath_actsOnce jwt _ authHeader).mono fun entries _ h => ⟨h.1, fun _ _ r hmem => ?_⟩
        obtain ⟨hadmitted, haccepted⟩ := h.2 _ _ r hmem
        exact ⟨hadmitted, Or.inr ⟨authHeader, hkey, hheader, hbearer, haccepted⟩⟩
      · rw [if_neg hbearer]
        exact hrefused _

/-- **Fail closed, in every run.**  Whatever the headers and the setting, and whatever fails: the
middleware calls `next()` once or sends one response, and not both; and it calls `next()` only if the
auth-service has accepted the key or the token verifies under `JWT_SECRET`, and the sliding window has not
reported the request as over the limit. -/
theorem use_fail_closed {σ : Type*} (jwt : JwtLibrary N) (jwtSecret : Option String) {req : AuthRequest}
    (hmethod : req.method ≠ "OPTIONS")
    {handle : σ → (c : AuthCommand N) → σ × Except String (AuthAnswer c)}
    (hsteady : ∀ s c, Steady c (handle s c).2) (s : σ) :
    actions (trace handle s (use jwt jwtSecret req)) = 1 ∧
      (Passed (trace handle s (use jwt jwtSecret req)) →
        ((∃ apiKey response, present req.xApiKey = some apiKey ∧
              ⟨.validateKey apiKey, .ok response⟩ ∈ trace handle s (use jwt jwtSecret req) ∧
              response.ok = true) ∨
            ∃ authHeader key payload, present req.xApiKey = none ∧ req.authorization = some authHeader ∧
              isBearer authHeader = true ∧ present jwtSecret = some key ∧
              jwt.verify (bearerToken authHeader) key = .ok payload) ∧
          Admitted (trace handle s (use jwt jwtSecret req))) := by
  obtain ⟨hone, hall⟩ := (use_actsOnce jwt jwtSecret hmethod).exec hsteady s
  refine ⟨hone, fun ⟨user, authorization, r, hmem⟩ => ?_⟩
  obtain ⟨hadmitted, hauthenticated⟩ := hall user authorization r hmem
  refine ⟨?_, hadmitted⟩
  rcases hauthenticated with ⟨apiKey, hkey, response, payload, hresponse, hok, -⟩ |
    ⟨authHeader, hkey, hheader, hbearer, key, payload, identifier, hsecret, hverify, -⟩
  · exact Or.inl ⟨apiKey, response, hkey, hresponse, hok⟩
  · exact Or.inr ⟨authHeader, key, payload, hkey, hheader, hbearer, hsecret, hverify⟩

end Use

/-! ### A request with a token -/

/-- A text that stands for a signature under a secret. -/
def fingerprint (secret : String) : List Char :=
  '.' :: secret.toList.flatMap fun c => Nat.toDigits 10 c.toNat ++ ['-']

/-- A library for texts as subjects: the token is the subject with the signature. -/
def stampJwt : JwtLibrary ℤ where
  sign secret claims := match claims.prop "sub" with
    | some (some (.str sub)) =>
      if ' ' ∈ sub.toList then .error "not supported"
      else .ok (String.ofList (sub.toList ++ fingerprint secret))
    | _ => .error "not supported"
  verify token secret :=
    let length := token.toList.length - (fingerprint secret).length
    if token.toList.drop length = fingerprint secret then
      .ok (.obj [("sub", .str (String.ofList (token.toList.take length)))])
    else .error "invalid signature"

/-- Services that answer: the key of `user-1` is accepted, and no request has been counted before. -/
def calmServices : Unit → (c : AuthCommand ℤ) → Unit × Except String (AuthAnswer c)
  | _, .validateKey _ => ((), .ok ⟨true, some (.obj [("sub", .str "user-1")])⟩)
  | _, .rateLimitPerIp => ((), .ok none)
  | _, .dateNow => ((), .ok 0)
  | _, .slidingPipeline _ _ => ((), .ok (some 1))
  | _, .setHeader _ _ => ((), .ok ())
  | _, .respond _ _ => ((), .ok ())
  | _, .next _ _ => ((), .ok ())

theorem calmServices_steady (s : Unit) (c : AuthCommand ℤ) : Steady c (calmServices s c).2 := by
  intro _
  cases c <;> rfl

/-- A token of `user-2` under the secret `k`. -/
def tokenRequest : AuthRequest :=
  { method := "GET", xApiKey := none, authorization := some "Bearer user-2.107-" }

/-- The rule at this request. -/
theorem use_fail_closed_token :
    actions (trace calmServices () (use stampJwt (some "k") tokenRequest)) = 1 ∧
      (Passed (trace calmServices () (use stampJwt (some "k") tokenRequest)) →
        ((∃ apiKey response, present tokenRequest.xApiKey = some apiKey ∧
              ⟨.validateKey apiKey, .ok response⟩ ∈ trace calmServices () (use stampJwt (some "k") tokenRequest) ∧
              response.ok = true) ∨
            ∃ authHeader key payload, present tokenRequest.xApiKey = none ∧
              tokenRequest.authorization = some authHeader ∧ isBearer authHeader = true ∧
              present (some "k") = some key ∧ stampJwt.verify (bearerToken authHeader) key = .ok payload) ∧
          Admitted (trace calmServices () (use stampJwt (some "k") tokenRequest))) :=
  use_fail_closed stampJwt (some "k") (by decide) calmServices_steady ()

end EdgeSphere.Gateway
