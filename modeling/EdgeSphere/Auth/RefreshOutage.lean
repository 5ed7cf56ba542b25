import EdgeSphere.Auth.RefreshRace
import EdgeSphere.Library.Faults

/-!
# A refresh during an outage

`refreshTokens` awaits, in this order: `get` and `del` of the presented token, the user, the signature, the clock,
`zadd`, `zcard`, for a user with too many devices `zrange`, `del` and `zrem`, and last the `set` of the new token.  A
token is for one use: it is deleted before the rest is tried.

* `refresh_left_early`, `refresh_left_late` — what a call leaves of the token when a command fails without effect;
* `refresh_outage_iff` — **what a call that rejects has done to the token**: it is accepted later iff the failing
  command is `get` or the `del` of the token itself;
* `outage_spends_token` — a query that Postgres does not answer uses the token up.
-/

namespace EdgeSphere.Auth

open EdgeSphere.Library
open EdgeSphere.Library.Expiry
open EdgeSphere.Library.Program

/-! ### The commands after the deletion -/

/-- The commands of a refresh stand before its `set`. -/
def Command.precedesSet : Command → Prop
  | .set _ _ _ | .saveUser _ => False
  | _ => True

section Outage

variable {env : Environment} {now : ℕ} {cause : Exception} {key : String}

/-- Such a command does not bring a deleted token back. -/
theorem handle_keeps_deleted {s : SessionStore} {c : Command} (hc : c.precedesSet) (hs : s.strings key = none) :
    (handle env now s c).1.strings key = none := by
  cases c with
  | set key' value seconds => exact hc.elim
  | del key' =>
    show Function.update s.strings key' none key = none
    by_cases heq : key = key'
    · rw [heq, Function.update_self]
    · rw [Function.update_of_ne heq, hs]
  | saveUser row => exact hc.elim
  | _ => exact hs

/-- **A token pair that is not issued** has not been stored: the `set` comes last. -/
theorem rejectsIn_generateTokenPair (user : UserEntity) (userAgent : String) (existing : Option String) (uuid : Ident) :
    RejectsIn (handle env now) cause (fun s => s.strings key = none)
      (generateTokenPair env user userAgent existing uuid) := by
  have hkeep : ∀ (s : SessionStore) (c : Command), c.precedesSet → s.strings key = none →
      (handle env now s c).1.strings key = none := fun s c hc hs => handle_keeps_deleted hc hs
  unfold generateTokenPair
  refine RejectsIn.bind (within_command trivial) hkeep fun accessToken => ?_
  refine RejectsIn.bind (within_command trivial) hkeep fun clock => ?_
  refine RejectsIn.bind (within_command trivial) hkeep fun _ => ?_
  refine RejectsIn.bind (within_command trivial) hkeep fun sessionCount => ?_
  have hlimit : (limitSessions user.id.text sessionCount).Within Command.precedesSet :=
    within_limitSessions trivial (fun _ => trivial) (fun _ => trivial) sessionCount
  refine RejectsIn.bind hlimit hkeep fun _ => ?_
  exact RejectsIn.last fun s => ⟨(), rfl⟩

/-! ### A call that rejects -/

variable {s s' : SessionStore} {token u d : String}

/-- What `spend` does after the deletion. -/
def loadUser (userId deviceId : String) : AuthProgram (UserEntity × String) := do
  let user : Option UserEntity ← await (.findById userId)
  match user with
  | some user =>
    if user.isActive then pure (user, deviceId)
    else throw (.unauthorized "User not found or disabled")
  | none => throw (.unauthorized "User not found or disabled")

/-- What a refresh does after the deletion. -/
def afterDel (env : Environment) (u d userAgent : String) (uuid : Ident) : AuthProgram TokenPair :=
  ((loadUser u d).catchAll fun _ => throw (.unauthorized "Invalid or expired refresh token")).bind
    fun (user, deviceId) => generateTokenPair env user userAgent (some deviceId) uuid

/-- A refresh is its `get` and the rest; the failure of `get` rejects. -/
theorem refreshTokens_get (env : Environment) (howner : owner token = some (u, d)) (userAgent : String) (uuid : Ident) :
    ∃ next, refreshTokens env token userAgent uuid = .call (.get (refreshKey u d)) next ∧
      (∀ x, next (.error x) = .throw (.unauthorized "Invalid or expired refresh token")) ∧
      next (.ok (some token)) = afterGet env u d userAgent uuid := by
  refine ⟨_, by unfold refreshTokens redeem; rw [howner]; rfl, fun _ => rfl, ?_⟩
  show (((if some token = some token then spend u d
    else throw (.unauthorized "Invalid or expired refresh token") : AuthProgram _).catchAll _).bind _) = _
  rw [if_pos rfl]
  rfl

/-- The rest is its `del` and what follows; the failure of `del` rejects. -/
theorem afterGet_del (env : Environment) (u d userAgent : String) (uuid : Ident) :
    ∃ next, afterGet env u d userAgent uuid = .call (.del (refreshKey u d)) next ∧
      (∀ x, next (.error x) = .throw (.unauthorized "Invalid or expired refresh token")) ∧
      next (.ok ()) = afterDel env u d userAgent uuid :=
  ⟨_, rfl, fun _ => rfl, rfl⟩

theorem rejectsIn_afterDel (userAgent : String) (uuid : Ident) :
    RejectsIn (handle env now) cause (fun s => s.strings key = none) (afterDel env u d userAgent uuid) := by
  have hload : (loadUser u d).Within Command.precedesSet := by
    refine Within.bind (within_command trivial) fun found => ?_
    cases found with
    | none => trivial
    | some user =>
      show Within _ (if _ then _ else _)
      split
      · trivial
      · trivial
  refine RejectsIn.bind (hload.catchAll fun _ => trivial) (fun s c hc hs => handle_keeps_deleted hc hs) fun found => ?_
  exact rejectsIn_generateTokenPair found.1 userAgent (some found.2) uuid

/-- The failure of `get` rejects. -/
theorem refresh_fails_get (hstored : Stored s now token u d) (userAgent : String) (uuid : Ident) :
    execOutage (handle env now) cause (some 0) s (refreshTokens env token userAgent uuid)
      = (s, .error (.unauthorized "Invalid or expired refresh token")) := by
  obtain ⟨next, hget, hgetfails, -⟩ := refreshTokens_get env hstored.1 userAgent uuid
  rw [hget, execOutage_call_zero, hgetfails]
  rfl

/-- Past `get`, a call with a stored token runs the rest. -/
theorem refresh_past_get (hstored : Stored s now token u d) (n : ℕ) (userAgent : String) (uuid : Ident) :
    execOutage (handle env now) cause (some (n + 1)) s (refreshTokens env token userAgent uuid)
      = execOutage (handle env now) cause (some n) s (afterGet env u d userAgent uuid) := by
  obtain ⟨next, hget, -, hfound⟩ := refreshTokens_get env hstored.1 userAgent uuid
  have hread : handle env now s (.get (refreshKey u d)) = (s, .ok (some token)) :=
    congrArg (fun stored => (s, Except.ok stored)) hstored.2
  rw [hget, execOutage_call_succ, hread]
  dsimp only
  rw [hfound]

/-- The failure of the deletion rejects. -/
theorem refresh_fails_del (hstored : Stored s now token u d) (userAgent : String) (uuid : Ident) :
    execOutage (handle env now) cause (some 1) s (refreshTokens env token userAgent uuid)
      = (s, .error (.unauthorized "Invalid or expired refresh token")) := by
  obtain ⟨next, hdel, hdelfails, -⟩ := afterGet_del env u d userAgent uuid
  rw [refresh_past_get hstored, hdel, execOutage_call_zero, hdelfails]
  rfl

/-- Past the deletion, the token is gone. -/
theorem refresh_past_del (hstored : Stored s now token u d) (n : ℕ) (userAgent : String) (uuid : Ident) :
    execOutage (handle env now) cause (some (n + 2)) s (refreshTokens env token userAgent uuid)
      = execOutage (handle env now) cause (some n) (s.setString (refreshKey u d) none)
          (afterDel env u d userAgent uuid) := by
  obtain ⟨next, hdel, -, hrest⟩ := afterGet_del env u d userAgent uuid
  have hdeleted : handle env now s (.del (refreshKey u d)) = (s.setString (refreshKey u d) none, .ok ()) := rfl
  rw [refresh_past_get hstored, hdel, execOutage_call_succ, hdeleted]
  dsimp only
  rw [hrest]

/-- The failure of the query for the user rejects a token that is deleted by then. -/
theorem refresh_fails_findById (hstored : Stored s now token u d) (userAgent : String) (uuid : Ident) :
    execOutage (handle env now) cause (some 2) s (refreshTokens env token userAgent uuid)
      = (s.setString (refreshKey u d) none, .error (.unauthorized "Invalid or expired refresh token")) :=
  (refresh_past_del hstored 0 userAgent uuid).trans rfl

/-- The failure of `get`, or of the deletion, leaves everything as it is. -/
theorem refresh_left_early (hstored : Stored s now token u d) {n : ℕ} (hn : n < 2) {userAgent : String} {uuid : Ident}
    {e : Exception}
    (hrejects : execOutage (handle env now) cause (some n) s (refreshTokens env token userAgent uuid)
      = (s', .error e)) : s' = s := by
  have hcases : n = 0 ∨ n = 1 := by omega
  rcases hcases with rfl | rfl
  · rw [refresh_fails_get hstored] at hrejects
    cases hrejects
    rfl
  · rw [refresh_fails_del hstored] at hrejects
    cases hrejects
    rfl

/-- After the deletion, the token is gone. -/
theorem refresh_left_late (hstored : Stored s now token u d) {n : ℕ} (hn : 2 ≤ n) {userAgent : String} {uuid : Ident}
    {e : Exception}
    (hrejects : execOutage (handle env now) cause (some n) s (refreshTokens env token userAgent uuid)
      = (s', .error e)) : s'.strings (refreshKey u d) = none := by
  obtain ⟨m, rfl⟩ := Nat.exists_eq_add_of_le' hn
  rw [refresh_past_del hstored] at hrejects
  exact rejectsIn_afterDel userAgent uuid _ _ _ _ (Function.update_self _ _ _) hrejects

/-- A token whose key is empty is not accepted. -/
theorem not_accepts_of_none (howner : owner token = some (u, d)) (hgone : s.strings (refreshKey u d) = none)
    (userAgent : String) (uuid : Ident) : ¬ Accepts env s now token userAgent uuid := by
  rw [accepts_iff_stored]
  rintro ⟨u', d', hstored, -⟩
  cases howner.symm.trans hstored.1
  have hread := hstored.2
  rw [hgone] at hread
  cases hread

end Outage

/-- **What an outage does to a token.**  For every active user, every live token of his and every command that fails
without effect: when the call rejects, the token is accepted by a later call, while it would still be live, iff the
failing command is `get` (0) or the token's own `del` (1). -/
theorem refresh_outage_iff {env : Environment} {s s' : SessionStore} {now later : ℕ} {token u d : String}
    {user : UserEntity} (hactive : activeUser s u = some user) (hstored : Stored s now token u d)
    (hlive : Stored s later token u d) {n : ℕ} {cause e : Exception} {userAgent : String} {uuid : Ident}
    (hrejects : execOutage (handle env now) cause (some n) s (refreshTokens env token userAgent uuid) = (s', .error e))
    (userAgent' : String) (uuid' : Ident) : Accepts env s' later token userAgent' uuid' ↔ n < 2 := by
  constructor
  · intro haccepts
    by_contra hlate
    have hgone := refresh_left_late hstored (Nat.not_lt.mp hlate) hrejects
    exact not_accepts_of_none hstored.1 hgone userAgent' uuid' haccepts
  · intro hearly
    rw [accepts_iff_stored]
    cases refresh_left_early hstored hearly hrejects
    exact ⟨u, d, hlive, by rw [hactive]; rfl⟩

/-! ### A database that is away -/

/-- The call during the outage. -/
def refreshDuring (n : ℕ) : SessionStore × Except Exception TokenPair :=
  execOutage (handle sampleEnvironment 2000) (.thrown "ECONNREFUSED") (some n) racedStore
    (refreshTokens sampleEnvironment sampleToken "" (racedUuid false))

/-- The live token of the sample user. -/
theorem stored_racedStore {now : ℕ} (hnow : now ≤ 1000 + 1000 * REFRESH_TOKEN_TTL) : Stored racedStore now sampleToken
    "user-1" "b23a6a8439c0dde5515893e7c90c1e3233b8616e634470f20dc4928bcf3609bc" := by
  have huser : Plain "user-1" := sampleUser.id.isPlain
  have hdevice : Plain "b23a6a8439c0dde5515893e7c90c1e3233b8616e634470f20dc4928bcf3609bc" :=
    (sampleEnvironment.sha256Hex "").isPlain
  have huuid : Plain "0f8fad5b-d9cb-469f-a165-70867728950e" :=
    Ident.isPlain ⟨"0f8fad5b-d9cb-469f-a165-70867728950e", by decide⟩
  refine ⟨owner_refreshTokenOf huser hdevice huuid, ?_⟩
  unfold racedStore SessionStore.setString put
  dsimp only
  rw [Function.update_self, read_some_deadline, if_pos hnow]

theorem activeUser_racedStore : activeUser racedStore "user-1" = some sampleUser := rfl

/-- The rule when Redis does not answer the deletion. -/
theorem refresh_outage_before_del : ∃ s',
    refreshDuring 1 = (s', .error (.unauthorized "Invalid or expired refresh token")) ∧
      Accepts sampleEnvironment s' 3000 sampleToken "" (racedUuid true) := by
  have hstored := stored_racedStore (show (2000 : ℕ) ≤ 1000 + 1000 * REFRESH_TOKEN_TTL by decide)
  have hlive := stored_racedStore (show (3000 : ℕ) ≤ 1000 + 1000 * REFRESH_TOKEN_TTL by decide)
  have hrejects : refreshDuring 1 = _ := refresh_fails_del hstored "" (racedUuid false)
  refine ⟨racedStore, hrejects, ?_⟩
  unfold refreshDuring at hrejects
  exact (refresh_outage_iff activeUser_racedStore hstored hlive hrejects "" (racedUuid true)).mpr (by decide)

/-- **A query that Postgres does not answer** uses the token up. -/
theorem outage_spends_token :
    activeUser racedStore "user-1" = some sampleUser ∧
      (∀ now, now = 2000 ∨ now = 3000 → Stored racedStore now sampleToken "user-1"
        "b23a6a8439c0dde5515893e7c90c1e3233b8616e634470f20dc4928bcf3609bc") ∧
      (refreshDuring 2).2 = .error (.unauthorized "Invalid or expired refresh token") ∧
      ¬ Accepts sampleEnvironment (refreshDuring 2).1 3000 sampleToken "" (racedUuid true) := by
  have hstored : ∀ now, now = 2000 ∨ now = 3000 → Stored racedStore now sampleToken "user-1"
      "b23a6a8439c0dde5515893e7c90c1e3233b8616e634470f20dc4928bcf3609bc" := by
    intro now hnow
    refine stored_racedStore ?_
    rcases hnow with rfl | rfl
    · decide
    · decide
  have hrun : refreshDuring 2 = _ := refresh_fails_findById (hstored 2000 (.inl rfl)) "" (racedUuid false)
  refine ⟨activeUser_racedStore, hstored, ?_, ?_⟩
  · rw [hrun]
  · rw [hrun]
    refine not_accepts_of_none (hstored 2000 (.inl rfl)).1 ?_ "" (racedUuid true)
    unfold refreshDuring at hrun
    exact refresh_left_late (hstored 2000 (.inl rfl)) (Nat.le_refl 2) hrun

end EdgeSphere.Auth
