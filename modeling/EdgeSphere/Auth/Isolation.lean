import EdgeSphere.Auth.RefreshRace
import EdgeSphere.Library.Interference

/-!
# Users do not touch each other's sessions

Calls of `register`, `login`, `loginOAuth`, `refreshTokens` and `logout`, interleaved command by command over one
Redis.  The keys are put together from what an arbitrary text decodes to.

* `Command.writes` — the key that a command writes or deletes; it changes no other (`handle_frame`);
* `Spares` — the command leaves the keys of a user alone; `spares_generateTokenPair`;
* `others_spare` — **the calls of other users, and those with tokens that are not the user's, write none of the
  user's keys**.
-/

namespace EdgeSphere.Auth

open EdgeSphere.Library
open EdgeSphere.Library.Expiry
open EdgeSphere.Library.Program
open EdgeSphere.Library.Runs

/-! ### What a command writes -/

/-- The key that a command writes or deletes. -/
def Command.writes : Command → Option String
  | set key _ _ => some key
  | del key => some key
  | zadd key _ _ => some key
  | zrem key _ => some key
  | _ => none

/-- Nothing else is changed. -/
theorem handle_frame (env : Environment) (now : ℕ) (s : SessionStore) {c : Command} {key : String}
    (h : c.writes ≠ some key) : (handle env now s c).1.strings key = s.strings key ∧
      (handle env now s c).1.zsets key = s.zsets key := by
  have hne : ∀ key', c.writes = some key' → key ≠ key' := by
    intro key' hkey' heq
    rw [heq] at h
    exact h hkey'
  cases c with
  | saveUser row =>
    simp only [handle]
    split
    · exact ⟨rfl, rfl⟩
    · exact ⟨rfl, rfl⟩
  | set key' value seconds => exact ⟨Function.update_of_ne (hne key' rfl) _ _, rfl⟩
  | del key' => exact ⟨Function.update_of_ne (hne key' rfl) _ _, rfl⟩
  | zadd key' score member => exact ⟨rfl, Function.update_of_ne (hne key' rfl) _ _⟩
  | zrem key' member => exact ⟨rfl, Function.update_of_ne (hne key' rfl) _ _⟩
  | _ => exact ⟨rfl, rfl⟩

/-- `refresh:B:*` and `user_sessions:B`. -/
def KeyOf (B : String) (key : String) : Prop := (∃ deviceId, key = refreshKey B deviceId) ∨ key = sessionKey B

/-- The command writes and deletes no key of `B`. -/
def Spares (B : String) (c : Command) : Prop := ∀ key, c.writes = some key → ¬ KeyOf B key

theorem refreshKey_ne_sessionKey (u d u' : String) : refreshKey u d ≠ sessionKey u' := by
  intro h
  have hlist := congrArg (fun key : String => key.toList.head?) h
  simp [refreshKey, sessionKey, String.toList_append] at hlist

section Keys

variable {B u : String}

theorem not_keyOf_refreshKey (hB : ':' ∉ B.toList) (hu : ':' ∉ u.toList) (hne : u ≠ B) (d : String) :
    ¬ KeyOf B (refreshKey u d) := by
  rintro (⟨d', h⟩ | h)
  · exact hne ((refreshKey_inj hu hB).mp h).1
  · exact refreshKey_ne_sessionKey u d B h

theorem not_keyOf_sessionKey (hne : u ≠ B) : ¬ KeyOf B (sessionKey u) := by
  rintro (⟨d', h⟩ | h)
  · exact refreshKey_ne_sessionKey B d' u h.symm
  · exact hne (sessionKey_inj.mp h)

theorem spares_of_writes {c : Command} {key : String} (hwrites : c.writes = some key) (h : ¬ KeyOf B key) :
    Spares B c := by
  intro key' hkey'
  cases hwrites.symm.trans hkey'
  exact h

theorem spares_of_none {c : Command} (hwrites : c.writes = none) : Spares B c := by
  intro key hkey
  rw [hwrites] at hkey
  cases hkey

/-- What spares the keys of `B` leaves them as they are. -/
theorem Spares.frame {c : Command} (h : Spares B c) (env : Environment) (now : ℕ) (s : SessionStore) :
    (∀ d, (handle env now s c).1.strings (refreshKey B d) = s.strings (refreshKey B d)) ∧
      (handle env now s c).1.zsets (sessionKey B) = s.zsets (sessionKey B) :=
  ⟨fun d => (handle_frame env now s fun hkey => h _ hkey (.inl ⟨d, rfl⟩)).1,
    (handle_frame env now s fun hkey => h _ hkey (.inr rfl)).2⟩

end Keys

/-! ### Programs -/

section Programs

variable (env : Environment) {B : Ident}

theorem spares_limitSessions {u : String} (hu : ':' ∉ u.toList) (hne : u ≠ B.text) (sessionCount : ℕ) :
    (limitSessions u sessionCount).Within (Spares B.text) := by
  refine within_limitSessions (spares_of_none rfl) (fun device => ?_) (fun device => ?_) sessionCount
  · exact spares_of_writes rfl (not_keyOf_refreshKey B.isPlain.no_colon hu hne device)
  · exact spares_of_writes rfl (not_keyOf_sessionKey hne)

/-- Issuing to another user. -/
theorem spares_generateTokenPair {user : UserEntity} (hne : user.id ≠ B) (userAgent : String)
    (existing : Option String) (uuid : Ident) :
    (generateTokenPair env user userAgent existing uuid).Within (Spares B.text) := by
  have htext : user.id.text ≠ B.text := fun h => hne (Ident.ext h)
  have hcolon := user.id.isPlain.no_colon
  unfold generateTokenPair
  refine (within_command (spares_of_none rfl)).bind fun accessToken => ?_
  refine (within_command (spares_of_none rfl)).bind fun now => ?_
  refine (within_command (spares_of_writes rfl (not_keyOf_sessionKey htext))).bind fun _ => ?_
  refine (within_command (spares_of_none rfl)).bind fun sessionCount => ?_
  refine (spares_limitSessions hcolon htext sessionCount).bind fun _ => ?_
  refine (within_command (spares_of_writes rfl ?_)).bind fun _ => trivial
  exact not_keyOf_refreshKey B.isPlain.no_colon hcolon htext _

theorem spares_register (email password : String) {id : Ident} (hne : id ≠ B) (uuid : Ident) :
    (register env email password id uuid).Within (Spares B.text) := by
  unfold register
  refine (within_command (spares_of_none rfl)).bind fun existing => ?_
  cases existing with
  | some user => trivial
  | none =>
    refine (within_command (spares_of_none rfl)).bind fun passwordHash => ?_
    refine (within_command (spares_of_none rfl)).bind fun _ => ?_
    exact spares_generateTokenPair env hne "" none uuid

theorem spares_loginOAuth {user : UserEntity} (hne : user.id ≠ B) (ip userAgent : String) (uuid : Ident) :
    (loginOAuth env user ip userAgent uuid).Within (Spares B.text) := by
  unfold loginOAuth
  split
  · refine (within_command (spares_of_none rfl)).bind fun _ => ?_
    exact spares_generateTokenPair env hne userAgent none uuid
  · trivial

/-- Logging another user out, whatever the token. -/
theorem spares_logout {sub : Ident} (hne : sub ≠ B) {refreshToken : String} {p : AuthProgram Unit}
    (hp : p = logout sub.text refreshToken) : p.Within (Spares B.text) := by
  have htext : sub.text ≠ B.text := fun h => hne (Ident.ext h)
  rw [hp]
  unfold logout
  cases owner refreshToken with
  | none => trivial
  | some names =>
    refine Within.catchAll ?_ fun _ => trivial
    refine (within_command (spares_of_writes rfl ?_)).bind fun _ => ?_
    · exact not_keyOf_refreshKey B.isPlain.no_colon sub.isPlain.no_colon htext _
    · exact within_command (spares_of_writes rfl (not_keyOf_sessionKey htext))

end Programs

/-! ### Calls -/

/-- A call of the service, with the fresh values that it draws. -/
inductive SessionCall where
  | register (email password : String) (id uuid : Ident)
  | login (email password ip userAgent : String) (uuid : Ident)
  | loginOAuth (user : UserEntity) (ip userAgent : String) (uuid : Ident)
  | refreshTokens (token userAgent : String) (uuid : Ident)
  | logout (sub : Ident) (token : String)

/-- Its program; `logout` returns no token pair. -/
def SessionCall.program (env : Environment) : SessionCall → AuthProgram (Option TokenPair)
  | register email password id uuid => do
    let pair ← Auth.register env email password id uuid
    return some pair
  | login email password ip userAgent uuid => do
    let pair ← Auth.login env email password ip userAgent uuid
    return some pair
  | loginOAuth user ip userAgent uuid => do
    let pair ← Auth.loginOAuth env user ip userAgent uuid
    return some pair
  | refreshTokens token userAgent uuid => do
    let pair ← Auth.refreshTokens env token userAgent uuid
    return some pair
  | logout sub token => do
    Auth.logout sub.text token
    return none

/-- It is not the call of `B`, as far as this can be seen from its arguments. -/
def SessionCall.Foreign (B : Ident) : SessionCall → Prop
  | register _ _ id _ => id ≠ B
  | login _ _ _ _ _ => True
  | loginOAuth user _ _ _ => user.id ≠ B
  | refreshTokens _ _ _ => True
  | logout sub _ => sub ≠ B

/-- Nor when a command is executed: the email of a login is that of another user, and the token of a refresh is not
the value of a key `refresh:B:*`. -/
def SessionCall.Admits (B : Ident) (now : ℕ) (s : SessionStore) : SessionCall → Command → Prop
  | login _ _ _ _ _, .findByEmail email =>
    ∀ user, s.users.find? (fun u => decide (u.email = email)) = some user → user.id ≠ B
  | refreshTokens token _ _, .get _ => ∀ deviceId, read now (s.strings (refreshKey B.text deviceId)) ≠ some token
  | _, _ => True

/-- The answers that such a call can be given. -/
def SessionCall.Possible (B : Ident) : SessionCall → (c : Command) → Except Exception (Answer c) → Prop
  | login _ _ _ _ _, .findByEmail _, r => ∀ user, r = .ok (some user) → user.id ≠ B
  | refreshTokens token _ _, .get key, r =>
    ∀ deviceId, key = refreshKey B.text deviceId → r ≠ .ok (some token)
  | refreshTokens _ _ _, .findById id, r => ∀ user, r = .ok (some user) → user.id.text = id
  | _, _, _ => True

section Calls

variable {env : Environment} {B : Ident}

theorem possible_of_admits {call : SessionCall} {now : ℕ} {s : SessionStore} {c : Command}
    (h : call.Admits B now s c) : call.Possible B c (handle env now s c).2 := by
  cases call with
  | login email password ip userAgent uuid =>
    cases c with
    | findByEmail email' =>
      intro user huser
      exact h user (Except.ok.inj huser)
    | _ => trivial
  | refreshTokens token userAgent uuid =>
    cases c with
    | get key =>
      rintro deviceId rfl hstored
      exact h deviceId (Except.ok.inj hstored)
    | findById id =>
      intro user huser
      have hfound : s.users.find? (fun u => decide (u.id.text = id)) = some user := Except.ok.inj huser
      have hid := List.find?_some hfound
      exact of_decide_eq_true hid
    | _ => trivial
  | _ => trivial

theorem obeys_login (email password ip userAgent : String) (uuid : Ident) :
    (login env email password ip userAgent uuid).Obeys
      (SessionCall.Possible B (.login email password ip userAgent uuid)) (Spares B.text) := by
  unfold login
  refine ⟨spares_of_none rfl, fun r hr => ?_⟩
  cases r with
  | error e => trivial
  | ok found =>
    cases found with
    | none => trivial
    | some user =>
      have hne : user.id ≠ B := hr user rfl
      have hlogin : (loginOAuth env user ip userAgent uuid).Within (Spares B.text) := spares_loginOAuth env hne _ _ _
      have hcheck : ∀ (f : UserEntity → AuthProgram TokenPair), (f user).Within (Spares B.text) →
          ((checkPassword (some user) password).bind f).Within (Spares B.text) := by
        intro f hf
        unfold checkPassword
        simp only
        split
        · trivial
        · trivial
        · refine ⟨spares_of_none rfl, fun r => ?_⟩
          cases r with
          | error e => trivial
          | ok passwordValid =>
            cases passwordValid with
            | true => exact hf
            | false => trivial
      exact (hcheck _ hlogin).obeys

/-- The rest of a refresh by another user. -/
theorem obeys_afterGet {token userAgent : String} {uuid : Ident} {u d : String} (hu : ':' ∉ u.toList)
    (hne : u ≠ B.text) : (afterGet env u d userAgent uuid).Obeys
      (SessionCall.Possible B (.refreshTokens token userAgent uuid)) (Spares B.text) := by
  refine ⟨spares_of_writes rfl (not_keyOf_refreshKey B.isPlain.no_colon hu hne d), fun r _ => ?_⟩
  cases r with
  | error e => trivial
  | ok deleted =>
    refine ⟨spares_of_none rfl, fun r hr => ?_⟩
    cases r with
    | error e => trivial
    | ok found =>
      cases found with
      | none => trivial
      | some user =>
        have hid : user.id.text = u := hr user rfl
        have hforeign : user.id ≠ B := fun h => hne (by rw [← hid, h])
        have hgenerate : (generateTokenPair env user userAgent (some d) uuid).Within (Spares B.text) :=
          spares_generateTokenPair env hforeign _ _ _
        show Obeys _ _ (((if user.isActive = true then (ret (user, d) : AuthProgram (UserEntity × String))
          else throw (.unauthorized "User not found or disabled")).catchAll _).bind _)
        split
        · exact hgenerate.obeys
        · trivial

theorem obeys_refreshTokens {token userAgent : String} {uuid : Ident} {p : AuthProgram TokenPair}
    (hp : p = refreshTokens env token userAgent uuid) :
    p.Obeys (SessionCall.Possible B (.refreshTokens token userAgent uuid)) (Spares B.text) := by
  cases howner : owner token with
  | none =>
    rw [hp, refreshTokens_eq_throw env token howner]
    exact True.intro
  | some names =>
    obtain ⟨u, d⟩ := names
    rw [hp]
    unfold refreshTokens redeem
    rw [howner]
    refine ⟨spares_of_none rfl, fun r hr => ?_⟩
    cases r with
    | error e => exact True.intro
    | ok stored =>
      by_cases hstored : stored = some token
      · have hne : u ≠ B.text := by
          rintro rfl
          exact hr d rfl (by rw [hstored])
        have hrest : (afterGet env u d userAgent uuid).Obeys
            (SessionCall.Possible B (.refreshTokens token userAgent uuid)) (Spares B.text) :=
          obeys_afterGet (owner_no_colon howner) hne
        show Obeys _ _ (((if stored = some token then spend u d
          else throw (.unauthorized "Invalid or expired refresh token") : AuthProgram _).catchAll _).bind _)
        rw [if_pos hstored]
        exact hrest
      · show Obeys _ _ (((if stored = some token then spend u d
          else throw (.unauthorized "Invalid or expired refresh token") : AuthProgram _).catchAll _).bind _)
        rw [if_neg hstored]
        exact True.intro

theorem obeys_program {call : SessionCall} (h : call.Foreign B) :
    (call.program env).Obeys (call.Possible B) (Spares B.text) := by
  cases call with
  | register email password id uuid =>
    have hne : id ≠ B := h
    have hcall : (register env email password id uuid).Within (Spares B.text) :=
      spares_register env email password hne uuid
    rw [SessionCall.program, bind_eq]
    exact Obeys.map hcall.obeys some
  | login email password ip userAgent uuid =>
    rw [SessionCall.program, bind_eq]
    exact Obeys.map (obeys_login email password ip userAgent uuid) some
  | loginOAuth user ip userAgent uuid =>
    have hne : user.id ≠ B := h
    have hcall : (loginOAuth env user ip userAgent uuid).Within (Spares B.text) :=
      spares_loginOAuth env hne ip userAgent uuid
    rw [SessionCall.program, bind_eq]
    exact Obeys.map hcall.obeys some
  | refreshTokens token userAgent uuid =>
    rw [SessionCall.program, bind_eq]
    generalize hp : refreshTokens env token userAgent uuid = p
    exact Obeys.map (obeys_refreshTokens hp.symm) some
  | logout sub token =>
    have hne : sub ≠ B := h
    rw [SessionCall.program, bind_eq]
    generalize hp : logout sub.text token = p
    exact Obeys.map (spares_logout hne hp.symm).obeys fun _ => none

end Calls

/-! ### Interleavings -/

section Interleavings

variable {ι : Type*} [DecidableEq ι]

/-- All calls, before their first commands. -/
def sessionPool (env : Environment) (calls : ι → SessionCall) (s : SessionStore) :
    Pool SessionStore ι Command Answer Exception (Option TokenPair) :=
  ⟨s, fun i => (calls i).program env⟩

/-- Where call `i` goes on, it goes on as not being the call of `B`. -/
def AdmitsAt (B : Ident) (calls : ι → SessionCall) (i : ι)
    (pool : Pool SessionStore ι Command Answer Exception (Option TokenPair)) (e : ι × ℕ) : Prop :=
  e.1 = i → ∀ c next, pool.procs i = call c next → (calls i).Admits B e.2 pool.state c

/-- **Whoever is not `B`, and has no token of `B`, writes no key of `B`**, in any interleaving. -/
theorem others_spare (env : Environment) (B : Ident) (calls : ι → SessionCall) (s : SessionStore)
    (es : List (ι × ℕ)) (i : ι) (now : ℕ)
    (pool pool' : Pool SessionStore ι Command Answer Exception (Option TokenPair))
    (hrun : run (Pool.step (handle env)) (sessionPool env calls s) es = some pool)
    (hstep : Pool.step (handle env) pool (i, now) = some pool') (hforeign : (calls i).Foreign B)
    (hadmits : Throughout (Pool.step (handle env)) (AdmitsAt B calls i) (sessionPool env calls s) es) :
    (∀ c next, pool.procs i = call c next → Spares B.text c) ∧
      (∀ deviceId, pool'.state.strings (refreshKey B.text deviceId) = pool.state.strings (refreshKey B.text deviceId)) ∧
        pool'.state.zsets (sessionKey B.text) = pool.state.zsets (sessionKey B.text) := by
  have hobeys : (pool.procs i).Obeys ((calls i).Possible B) (Spares B.text) := by
    refine run_of_throughout (motive := fun pool => (pool.procs i).Obeys ((calls i).Possible B) (Spares B.text))
      (fun pool e pool' h hcond hmove => Pool.obeys_step h hmove fun hi c next hnext => ?_) hadmits hrun
      (obeys_program hforeign)
    exact possible_of_admits (hcond hi c next hnext)
  obtain ⟨c, next, hi, hstate, -, -⟩ := Pool.step_cases hstep
  have hspares : Spares B.text c := by
    rw [hi] at hobeys
    exact hobeys.1
  refine ⟨fun c' next' hc' => ?_, ?_⟩
  · cases hi.symm.trans hc'
    exact hspares
  · rw [hstate]
    exact hspares.frame env now pool.state

end Interleavings

/-- Another user logs out with a token that names the sample user. -/
def intruder : Unit → SessionCall := fun _ => .logout ⟨"user-2", rfl⟩ (refreshTokenOf "user-1" "laptop" "0")

theorem others_spare_intruder : ∃ pool, Pool.step (handle sampleEnvironment)
      (sessionPool sampleEnvironment intruder racedStore) ((), 2000) = some pool ∧
    ∀ deviceId, pool.state.strings (refreshKey "user-1" deviceId) = racedStore.strings (refreshKey "user-1" deviceId) := by
  obtain ⟨pool, hstep⟩ : ∃ pool, Pool.step (handle sampleEnvironment)
      (sessionPool sampleEnvironment intruder racedStore) ((), 2000) = some pool :=
    Option.isSome_iff_exists.mp (by decide +kernel)
  have hforeign : (intruder ()).Foreign sampleUser.id := by
    show (⟨"user-2", rfl⟩ : Ident) ≠ ⟨"user-1", rfl⟩
    decide
  have hspare := others_spare sampleEnvironment sampleUser.id intruder racedStore [] () 2000 _ pool rfl hstep hforeign
    trivial
  exact ⟨pool, hstep, hspare.2.1⟩

end EdgeSphere.Auth
