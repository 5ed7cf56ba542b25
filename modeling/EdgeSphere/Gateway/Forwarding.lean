import EdgeSphere.Gateway.AuthMiddleware

/-!
# The header that is proxied downstream

A request that the middleware passes is proxied with its header `Authorization`, from which the services
behind the gateway take the identity.

* `canActivate` — the guard of such a service, `downstreamIdentity` what it makes of a header;
* `JwtLibrary.Ideal` — what is signed verifies under the same secret and names the same subject;
* `use_ignores_authorization` — with a secret, the path of an API key does not depend on the client's own
  header;
* `forwarded_identity_iff` — **exactly when** the header carries the identity that the gateway has checked:
  the secret must be configured, and a bearer token must name a subject.
-/

namespace EdgeSphere.Gateway

open EdgeSphere.Library
open EdgeSphere.Library.Program

variable {N : Type}

/-! ### Downstream -/

/-- `JwtAuthGuard.canActivate` of the storage-service: the token a request is let through with. -/
def canActivate (jwt : JwtLibrary N) (jwtSecret : Option String) (authorization : Option String) :
    Except String (Json N) :=
  match authorization with
  | none => .error "Missing or invalid token"
  | some authHeader =>
    if isBearer authHeader then
      match jwt.verify (bearerToken authHeader) ((present jwtSecret).getD "fallback_secret") with
      | .error _ => .error "Invalid token"
      | .ok decoded => .ok decoded
    else .error "Missing or invalid token"

/-- The `sub` of the token; `none` where the guard refuses. -/
def downstreamIdentity (jwt : JwtLibrary N) (jwtSecret : Option String) (authorization : Option String) :
    Option (Option (Json N)) :=
  match canActivate jwt jwtSecret authorization with
  | .error _ => none
  | .ok decoded => decoded.prop "sub"

/-! ### Ideal signatures -/

/-- What the middleware relies on: a token holds no space, verifies under the secret it was signed with and
names the subject it was signed for; and every secret can sign for somebody. -/
structure JwtLibrary.Ideal (jwt : JwtLibrary N) : Prop where
  compact : ∀ {secret claims token}, jwt.sign secret claims = .ok token → ' ' ∉ token.toList
  verifies : ∀ {secret claims token}, jwt.sign secret claims = .ok token →
    ∃ payload, jwt.verify token secret = .ok payload ∧ payload.prop "sub" = claims.prop "sub"
  signs : ∀ secret, secret ≠ "" →
    ∃ claims sub token, claims.prop "sub" = some (some sub) ∧ jwt.sign secret claims = .ok token

/-- The header made of a token is a bearer header. -/
theorem isBearer_append (token : String) : isBearer ("Bearer " ++ token) = true := by
  show List.isPrefixOf "Bearer ".toList ("Bearer " ++ token).toList = true
  rw [List.isPrefixOf_iff_prefix, String.toList_append]
  exact List.prefix_append _ _

/-- Its token is read back. -/
theorem bearerToken_append {token : String} (h : ' ' ∉ token.toList) :
    bearerToken ("Bearer " ++ token) = token := by
  have hchars : ("Bearer " ++ token).toList = "Bearer".toList ++ ' ' :: token.toList := by
    rw [String.toList_append]
    rfl
  have hbearer : ' ' ∉ "Bearer".toList := by decide
  unfold bearerToken Buffer.split
  rw [hchars, List.splitOn_append_cons_self_of_not_mem hbearer, List.splitOn_eq_singleton h]
  exact String.ofList_toList

/-- A service with the secret of a token takes the identity from it. -/
theorem downstreamIdentity_token {jwt : JwtLibrary N} {jwtSecret : Option String} {key token : String}
    {decoded : Json N} (hkey : present jwtSecret = some key) (h : ' ' ∉ token.toList)
    (hverify : jwt.verify token key = .ok decoded) :
    downstreamIdentity jwt jwtSecret (some ("Bearer " ++ token)) = decoded.prop "sub" := by
  have hguard : canActivate jwt jwtSecret (some ("Bearer " ++ token)) = .ok decoded := by
    unfold canActivate
    simp only [isBearer_append, if_true, bearerToken_append h, hkey, Option.getD_some, hverify]
  unfold downstreamIdentity
  rw [hguard]

/-- The claims name the subject of the payload. -/
theorem internalClaims_sub {payload claims : Json N} (h : internalClaims payload = some claims) :
    claims.prop "sub" = payload.prop "sub" := by
  unfold internalClaims at h
  split at h
  · rename_i sub email role hsub _ _
    cases h
    rw [hsub]
    cases sub with
    | some sub => rfl
    | none =>
      cases email with
      | none =>
        cases role with
        | none => rfl
        | some role => rfl
      | some email =>
        cases role with
        | none => rfl
        | some role => rfl
  · cases h

/-! ### One run -/

/-- The header is a bearer token that verifies under the secret of the gateway, and its `sub` is the
identity the run has counted the request of. -/
def ForwardsIdentity (jwt : JwtLibrary N) (jwtSecret : Option String) (entries : List (AuthEntry N))
    (authorization : Option String) : Prop :=
  ∃ key authHeader payload identifier, present jwtSecret = some key ∧ authorization = some authHeader ∧
    isBearer authHeader = true ∧ jwt.verify (bearerToken authHeader) key = .ok payload ∧
    payload.prop "sub" = some identifier ∧ identities entries = [identifier]

/-- The secret is configured, and without an API key the token names a subject. -/
def SubjectNamed [Zero N] [DecidableEq N] (jwt : JwtLibrary N) (jwtSecret : Option String)
    (req : AuthRequest) : Prop :=
  ∃ key, present jwtSecret = some key ∧
    (present req.xApiKey = none → ∀ authHeader payload, req.authorization = some authHeader →
      jwt.verify (bearerToken authHeader) key = .ok payload →
        ∃ sub, payload.prop "sub" = some (some sub) ∧ sub.truthy = true)

/-- With a secret, the header is a token that is signed for the payload. -/
theorem injectedHeader_eq_ok {jwt : JwtLibrary N} {key : String} {payload : Json N}
    {clientHeader authorization : Option String}
    (h : injectedHeader jwt (some key) payload clientHeader = .ok authorization) :
    ∃ claims token, internalClaims payload = some claims ∧ jwt.sign key claims = .ok token ∧
      authorization = some ("Bearer " ++ token) := by
  unfold injectedHeader at h
  simp only at h
  split at h
  · cases h
  · rename_i claims hclaims
    split at h
    · cases h
    · rename_i token hsign
      cases h
      exact ⟨claims, token, hclaims, hsign, rfl⟩

/-- With a secret, the header of an accepted key is a token for the subject of the key. -/
theorem KeyAccepted.forwards {jwt : JwtLibrary N} (hjwt : jwt.Ideal) {jwtSecret : Option String}
    {apiKey key : String} {clientHeader authorization : Option String} {entries : List (AuthEntry N)}
    {user : Option (Json N)} (hkey : present jwtSecret = some key)
    (h : KeyAccepted jwt (present jwtSecret) apiKey clientHeader entries user authorization) :
    ForwardsIdentity jwt jwtSecret entries authorization := by
  obtain ⟨response, payload, -, -, -, hheader, -, -, identifier, hsub, hcounted⟩ := h
  rw [hkey] at hheader
  obtain ⟨claims, token, hclaims, hsign, rfl⟩ := injectedHeader_eq_ok hheader
  obtain ⟨decoded, hverify, hdecoded⟩ := hjwt.verifies hsign
  refine ⟨key, _, decoded, identifier, hkey, rfl, isBearer_append token, ?_, ?_, hcounted⟩
  · rw [bearerToken_append (hjwt.compact hsign)]
    exact hverify
  · rw [hdecoded, internalClaims_sub hclaims, hsub]

/-- The header of an accepted token names whom it is counted under exactly if its `sub` is truthy. -/
theorem TokenAccepted.forwards_iff [Zero N] [DecidableEq N] {jwt : JwtLibrary N}
    {jwtSecret : Option String} {authHeader : String} {entries : List (AuthEntry N)}
    {user : Option (Json N)} {authorization : Option String} (hbearer : isBearer authHeader = true)
    (h : TokenAccepted jwt (present jwtSecret) authHeader entries user authorization) :
    ForwardsIdentity jwt jwtSecret entries authorization ↔
      ∃ key payload sub, present jwtSecret = some key ∧
        jwt.verify (bearerToken authHeader) key = .ok payload ∧
        payload.prop "sub" = some (some sub) ∧ sub.truthy = true := by
  obtain ⟨key, payload, identifier, hkey, hverify, hidentity, -, rfl, counted, hcounted, hids⟩ := h
  cases hcounted
  have hchoice : ∃ sub id, payload.prop "sub" = some sub ∧
      identifier = Json.firstTruthy sub id (.str "anonymous") := by
    unfold bearerIdentity at hidentity
    split at hidentity
    · rename_i sub id hsub _
      exact ⟨sub, id, hsub, (Option.some.inj hidentity).symm⟩
    · cases hidentity
  obtain ⟨sub, id, hsub, rfl⟩ := hchoice
  have hanonymous : (Json.str "anonymous" : Json N).truthy = true := rfl
  constructor
  · intro ⟨key', header', payload', identifier', hkey', hheader', _, hverify', hsub', hids'⟩
    cases hheader'
    cases hkey.symm.trans hkey'
    cases hverify.symm.trans hverify'
    cases hsub.symm.trans hsub'
    have hsame : sub = some (Json.firstTruthy sub id (.str "anonymous")) :=
      (List.singleton_inj.mp (hids.symm.trans hids')).symm
    obtain ⟨j, rfl, hj⟩ := (Json.firstTruthy_eq_iff hanonymous).mp hsame
    exact ⟨key, payload, j, hkey, hverify, hsub, hj⟩
  · intro ⟨key', payload', j, hkey', hverify', hsub', hj⟩
    cases hkey.symm.trans hkey'
    cases hverify.symm.trans hverify'
    cases hsub.symm.trans hsub'
    refine ⟨key, authHeader, payload, _, hkey, rfl, hbearer, hverify, hsub, ?_⟩
    rw [(Json.firstTruthy_eq_iff hanonymous).mpr ⟨j, rfl, hj⟩]
    exact hids

/-! ### Two runs -/

/-- Two requests with an API key that differ only in the client's own header, sent to the same services in
the same state, are forwarded with the same identity, whatever secret the service downstream has. -/
def SameDownstream [Zero N] [DecidableEq N] (jwt : JwtLibrary N) (jwtSecret : Option String) : Prop :=
  ∀ (σ : Type) (handle : σ → (c : AuthCommand N) → σ × Except String (AuthAnswer c)) (s : σ)
    (req : AuthRequest) (clientHeader downstreamSecret : Option String)
    (user user' : Option (Json N)) (authorization authorization' : Option String)
    (r r' : Except String Unit),
    (∀ s c, Steady c (handle s c).2) → req.method ≠ "OPTIONS" → present req.xApiKey ≠ none →
    ⟨.next user authorization, r⟩ ∈ trace handle s (use jwt jwtSecret req) →
    ⟨.next user' authorization', r'⟩ ∈
      trace handle s (use jwt jwtSecret { req with authorization := clientHeader }) →
    downstreamIdentity jwt downstreamSecret authorization
      = downstreamIdentity jwt downstreamSecret authorization'

/-- What acts once passes one request. -/
theorem next_unique {entries : List (AuthEntry N)} (hone : actions entries = 1)
    {user user' : Option (Json N)} {authorization authorization' : Option String}
    {r r' : Except String Unit} (h : ⟨.next user authorization, r⟩ ∈ entries)
    (h' : ⟨.next user' authorization', r'⟩ ∈ entries) : authorization = authorization' := by
  unfold actions at hone
  rw [List.countP_eq_length_filter, List.length_eq_one_iff] at hone
  obtain ⟨entry, hentry⟩ := hone
  have hmem : ∀ {user : Option (Json N)} {authorization : Option String} {r : Except String Unit},
      ⟨.next user authorization, r⟩ ∈ entries → (⟨.next user authorization, r⟩ : AuthEntry N) = entry := by
    intro user authorization r hmem
    have hfilter : (⟨.next user authorization, r⟩ : AuthEntry N) ∈ entries.filter fun e => e.1.acts :=
      List.mem_filter.mpr ⟨hmem, rfl⟩
    rw [hentry] at hfilter
    exact List.mem_singleton.mp hfilter
  cases (hmem h).trans (hmem h').symm
  rfl

/-- Services that answer: every key is accepted with this payload, and no request has been counted
before. -/
def lenientServices (payload : Json N) : Unit → (c : AuthCommand N) → Unit × Except String (AuthAnswer c)
  | _, .validateKey _ => ((), .ok ⟨true, some payload⟩)
  | _, .rateLimitPerIp => ((), .ok none)
  | _, .dateNow => ((), .ok 0)
  | _, .slidingPipeline _ _ => ((), .ok (some 1))
  | _, .setHeader _ _ => ((), .ok ())
  | _, .respond _ _ => ((), .ok ())
  | _, .next _ _ => ((), .ok ())

theorem lenientServices_steady (payload : Json N) (s : Unit) (c : AuthCommand N) :
    Steady c (lenientServices payload s c).2 := by
  intro _
  cases c <;> rfl

section Use

variable [Zero N] [DecidableEq N]

/-- **The key decides.**  With a secret, the middleware does the same whatever the client's own header is. -/
theorem use_ignores_authorization (jwt : JwtLibrary N) {jwtSecret : Option String} {key : String}
    (hkey : present jwtSecret = some key) {req : AuthRequest} (hmethod : req.method ≠ "OPTIONS")
    (hapi : present req.xApiKey ≠ none) (clientHeader : Option String) :
    use jwt jwtSecret { req with authorization := clientHeader } = use jwt jwtSecret req := by
  unfold use
  rw [if_neg hmethod, if_neg hmethod]
  cases hpresent : present req.xApiKey with
  | none => exact absurd hpresent hapi
  | some apiKey =>
    rw [hkey]
    rfl

/-- A run that passes a request forwards the identity it has counted exactly if the secret is configured
and a bearer token names a subject. -/
theorem use_forwards_iff {jwt : JwtLibrary N} (hjwt : jwt.Ideal) (jwtSecret : Option String)
    {req : AuthRequest} {entries : List (AuthEntry N)} {user : Option (Json N)}
    {authorization : Option String} (h : Authenticated jwt jwtSecret req entries user authorization) :
    ForwardsIdentity jwt jwtSecret entries authorization ↔ SubjectNamed jwt jwtSecret req := by
  rcases h with ⟨apiKey, hapi, haccepted⟩ | ⟨authHeader, hapi, hheader, hbearer, haccepted⟩
  · constructor
    · intro ⟨key, _, _, _, hkey, _⟩
      refine ⟨key, hkey, fun hnone => ?_⟩
      cases hapi.symm.trans hnone
    · intro ⟨key, hkey, _⟩
      exact haccepted.forwards hjwt hkey
  · have hverified : ∃ key payload, present jwtSecret = some key ∧
        jwt.verify (bearerToken authHeader) key = .ok payload := by
      obtain ⟨key, payload, _, hkey, hverify, _⟩ := haccepted
      exact ⟨key, payload, hkey, hverify⟩
    rw [haccepted.forwards_iff hbearer]
    constructor
    · intro ⟨key, payload, sub, hkey, hverify, hsub, htrue⟩
      refine ⟨key, hkey, fun _ authHeader' payload' hheader' hverify' => ?_⟩
      cases hheader.symm.trans hheader'
      cases hverify.symm.trans hverify'
      exact ⟨sub, hsub, htrue⟩
    · intro ⟨key, hkey, hnamed⟩
      obtain ⟨key', payload, hkey', hverify⟩ := hverified
      cases hkey.symm.trans hkey'
      obtain ⟨sub, hsub, htrue⟩ := hnamed hapi authHeader payload hheader hverify
      exact ⟨key, payload, sub, hkey, hverify, hsub, htrue⟩

/-- Without a secret, an accepted key passes the request on with the client's own header. -/
theorem use_keeps_authorization (jwt : JwtLibrary N) {jwtSecret : Option String}
    (hsecret : present jwtSecret = none) (clientHeader : Option String) :
    ⟨.next (some (.obj [])) clientHeader, .ok ()⟩ ∈
      trace (lenientServices (.obj [])) () (use jwt jwtSecret ⟨"GET", some "key", clientHeader⟩) := by
  have hpath : use jwt jwtSecret ⟨"GET", some "key", clientHeader⟩
      = apiKeyPath jwt none "key" clientHeader := by
    rw [← hsecret]
    rfl
  rw [hpath]
  exact List.mem_of_getElem? (i := 7) rfl

/-- Two requests are forwarded alike exactly if the secret is configured. -/
theorem sameDownstream_iff {jwt : JwtLibrary N} (hjwt : jwt.Ideal) (jwtSecret : Option String) :
    SameDownstream jwt jwtSecret ↔ present jwtSecret ≠ none := by
  constructor
  · intro hsame hnone
    obtain ⟨claims, sub, token, hsub, hsign⟩ := hjwt.signs "k" (by decide)
    obtain ⟨decoded, hverify, hdecoded⟩ := hjwt.verifies hsign
    have hequal := hsame Unit (lenientServices (.obj [])) () ⟨"GET", some "key", none⟩
      (some ("Bearer " ++ token)) (some "k") _ _ _ _ _ _ (lenientServices_steady _)
      (by decide) (by decide) (use_keeps_authorization jwt hnone none)
      (use_keeps_authorization jwt hnone _)
    rw [downstreamIdentity_token rfl (hjwt.compact hsign) hverify, hdecoded, hsub] at hequal
    cases hequal
  · intro hne
    obtain ⟨key, hkey⟩ := Option.ne_none_iff_exists'.mp hne
    intro σ handle s req clientHeader downstreamSecret user user' authorization authorization' r r'
      hsteady hmethod hapi hmem hmem'
    rw [use_ignores_authorization jwt hkey hmethod hapi clientHeader] at hmem'
    obtain ⟨hone, -⟩ := (use_actsOnce jwt jwtSecret hmethod).exec hsteady s
    rw [next_unique hone hmem hmem']

/-- **The forwarded identity.**  In every run that passes a request, the header proxied downstream is a
token under the secret of the gateway for the identity the request is counted under exactly if the secret
is configured and a bearer token names a subject; and requests with an API key that differ only in the
client's own header are forwarded with one identity exactly if the secret is configured. -/
theorem forwarded_identity_iff {σ : Type*} {jwt : JwtLibrary N} (hjwt : jwt.Ideal)
    (jwtSecret : Option String) {req : AuthRequest} (hmethod : req.method ≠ "OPTIONS")
    {handle : σ → (c : AuthCommand N) → σ × Except String (AuthAnswer c)}
    (hsteady : ∀ s c, Steady c (handle s c).2) {s : σ} {user : Option (Json N)}
    {authorization : Option String} {r : Except String Unit}
    (hnext : ⟨.next user authorization, r⟩ ∈ trace handle s (use jwt jwtSecret req)) :
    (ForwardsIdentity jwt jwtSecret (trace handle s (use jwt jwtSecret req)) authorization ↔
        SubjectNamed jwt jwtSecret req) ∧
      (SameDownstream jwt jwtSecret ↔ present jwtSecret ≠ none) := by
  obtain ⟨-, hall⟩ := (use_actsOnce jwt jwtSecret hmethod).exec hsteady s
  obtain ⟨-, hauthenticated⟩ := hall user authorization r hnext
  exact ⟨use_forwards_iff hjwt jwtSecret hauthenticated, sameDownstream_iff hjwt jwtSecret⟩

end Use

/-! ### A gateway without the secret -/

theorem space_not_mem_fingerprint (secret : String) : ' ' ∉ fingerprint secret := by
  unfold fingerprint
  rw [List.mem_cons, List.mem_flatMap]
  rintro (h | ⟨c, -, hc⟩)
  · exact absurd h (by decide)
  · rcases List.mem_append.mp hc with hc | hc
    · exact absurd (Nat.isDigit_of_mem_toDigits (by omega) (by omega) hc) (by decide)
    · exact absurd hc (by decide)

/-- The library of stamps is ideal. -/
theorem stampJwt_ideal : stampJwt.Ideal := by
  have hsigned : ∀ {secret : String} {claims : Json ℤ} {token : String},
      stampJwt.sign secret claims = .ok token → ∃ sub : String, claims.prop "sub" = some (some (.str sub)) ∧
        ' ' ∉ sub.toList ∧ token = String.ofList (sub.toList ++ fingerprint secret) := by
    intro secret claims token h
    unfold stampJwt at h
    simp only at h
    split at h
    · rename_i sub hsub
      split at h
      · cases h
      · rename_i hspace
        cases h
        exact ⟨sub, hsub, hspace, rfl⟩
    · cases h
  refine ⟨fun {secret claims token} h => ?_, fun {secret claims token} h => ?_, fun secret _ => ?_⟩
  · obtain ⟨sub, -, hspace, rfl⟩ := hsigned h
    rw [String.toList_ofList, List.mem_append]
    rintro (hmem | hmem)
    · exact hspace hmem
    · exact space_not_mem_fingerprint secret hmem
  · obtain ⟨sub, hsub, -, rfl⟩ := hsigned h
    refine ⟨.obj [("sub", .str sub)], ?_, hsub.symm⟩
    unfold stampJwt
    simp
  · exact ⟨.obj [("sub", .str "user-1")], .str "user-1", _, rfl, rfl⟩

/-- The rule at the request of `user-2`. -/
theorem forwarded_identity_token :
    (ForwardsIdentity stampJwt (some "k") (trace calmServices () (use stampJwt (some "k") tokenRequest))
        (some "Bearer user-2.107-") ↔ SubjectNamed stampJwt (some "k") tokenRequest) ∧
      (SameDownstream stampJwt (some "k") ↔ present (some "k") ≠ none) :=
  have hnext : ⟨.next (some (.obj [("sub", .str "user-2")])) (some "Bearer user-2.107-"), .ok ()⟩ ∈
      trace calmServices () (use stampJwt (some "k") tokenRequest) := List.mem_of_getElem? (i := 6) rfl
  forwarded_identity_iff stampJwt_ideal (some "k") (by decide) calmServices_steady hnext

/-- A request with a key of `user-1` that also carries a token of `user-2`. -/
def deputyRequest : AuthRequest :=
  { method := "GET", xApiKey := some "key", authorization := some "Bearer user-2.107-" }

/-- The gateway has no secret and the services behind it have: the request is authenticated and counted as
`user-1`, forwarded with the header of `user-2`, and taken for one of `user-2` there. -/
theorem forwards_foreign_identity :
    ⟨.next (some (.obj [("sub", .str "user-1")])) (some "Bearer user-2.107-"), .ok ()⟩ ∈
        trace calmServices () (use stampJwt none deputyRequest) ∧
      ¬ ForwardsIdentity stampJwt none (trace calmServices () (use stampJwt none deputyRequest))
        (some "Bearer user-2.107-") ∧
      downstreamIdentity stampJwt (some "k") (some "Bearer user-2.107-") = some (some (.str "user-2")) ∧
      ¬ SameDownstream stampJwt none := by
  have hother : ⟨.next (some (.obj [("sub", .str "user-1")])) none, .ok ()⟩ ∈
      trace calmServices () (use stampJwt none { deputyRequest with authorization := none }) :=
    List.mem_of_getElem? (i := 7) rfl
  have hmem : ⟨.next (some (.obj [("sub", .str "user-1")])) (some "Bearer user-2.107-"), .ok ()⟩ ∈
      trace calmServices () (use stampJwt none deputyRequest) := List.mem_of_getElem? (i := 7) rfl
  have hthere : downstreamIdentity stampJwt (some "k") (some "Bearer user-2.107-")
      = some (some (.str "user-2")) := by
    have htext : "Bearer user-2.107-" = "Bearer " ++ "user-2.107-" := by decide
    have hverify : stampJwt.verify "user-2.107-" "k" = .ok (.obj [("sub", .str "user-2")]) := rfl
    rw [htext, downstreamIdentity_token rfl (by decide) hverify]
    rfl
  refine ⟨hmem, ?_, hthere, fun hsame => ?_⟩
  · intro ⟨key, _, _, _, hkey, _⟩
    cases hkey
  · have hequal := hsame Unit calmServices () deputyRequest none (some "k") _ _ _ _ _ _
      calmServices_steady (by decide) (by decide) hmem hother
    rw [hthere] at hequal
    cases hequal

end EdgeSphere.Gateway
