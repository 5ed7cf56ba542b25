import EdgeSphere.Auth.Isolation

/-!
# A logout that races with refreshes

One `logout` and any number of `refreshTokens` calls that present the same token, interleaved command by command.
A refresh that has passed its `GET` is not stopped by the `DEL` of the logout: it goes on to its `SET`, and that
brings the key back.

* `Tidy`, `SetsToken` — what the calls write under the key of the user and device, and that they are bound to;
* `SetsBeforeLogout` — the condition on a step: no such `SET` is executed once the logout has begun;
* `logged_out_iff` — **no token is left exactly if all steps meet it**.
-/

namespace EdgeSphere.Auth

open EdgeSphere.Library
open EdgeSphere.Library.Expiry
open EdgeSphere.Library.Buffer
open EdgeSphere.Library.Program
open EdgeSphere.Library.Runs

/-! ### Tokens without colons -/

/-- The device that a token names holds no `:` either. -/
theorem owner_device_no_colon {token u d : String} (h : owner token = some (u, d)) : ':' ∉ d.toList := by
  unfold owner at h
  split at h
  · rename_i hsplit
    cases h
    have hmem : d ∈ split ':' (fromBase64 token) := by
      rw [hsplit]
      exact List.mem_cons_of_mem _ List.mem_cons_self
    exact not_mem_of_mem_split hmem
  · cases h

theorem owner_of_no_colon {u d : String} (hu : ':' ∉ u.toList) (hd : ':' ∉ d.toList) (uuid : Ident) :
    owner (refreshTokenOf u d uuid.text) = some (u, d) := by
  have hsplit : split ':' (fromBase64 (refreshTokenOf u d uuid.text)) = [u, d, uuid.text] := by
    rw [refreshTokenOf, fromBase64_toBase64]
    exact split_join_three hu hd uuid.isPlain.no_colon
  rw [owner, hsplit]

/-! ### One refresh -/

section Program

variable (env : Environment) (sub u d : String) (s : SessionStore)

/-- The refreshes can write under the key of `sub` and the device. -/
def Grants : Prop := sub = u ∧ d ≠ "" ∧ Active u s

/-- The command brings the key to life. -/
def SetsToken (c : Command) : Prop :=
  ∃ value, c = .set (refreshKey sub d) value REFRESH_TOKEN_TTL ∧ owner value = some (sub, d)

/-- It leaves the key alone. -/
def Spared (c : Command) : Prop := c.writes ≠ some (refreshKey sub d)

/-- The command changes no user, and writes nothing else under the key. -/
def Tidy (c : Command) : Prop :=
  (∀ row, c ≠ .saveUser row) ∧
    ∀ value seconds, c = .set (refreshKey sub d) value seconds → Grants sub u d s ∧ SetsToken sub d c

variable {env sub u d s}

theorem tidy_of_not_set {c : Command} (hsave : ∀ row, c ≠ .saveUser row)
    (hset : ∀ key value seconds, c ≠ .set key value seconds) : Tidy sub u d s c :=
  ⟨hsave, fun value seconds h => absurd h (hset _ value seconds)⟩

theorem deviceOf_some (userAgent : String) (hd : d ≠ "") : deviceOf env userAgent (some d) = d := by
  unfold deviceOf
  exact if_neg hd

/-- A device that is named by a token is not replaced by itself. -/
theorem ne_empty_of_deviceOf (hdigest : ∀ text, (env.sha256Hex text).text ≠ "") {userAgent : String}
    (h : deviceOf env userAgent (some d) = d) : d ≠ "" := by
  rintro rfl
  exact hdigest _ h

theorem tidy_generateTokenPair (hdigest : ∀ text, (env.sha256Hex text).text ≠ "") (hsub : ':' ∉ sub.toList)
    (hd : ':' ∉ d.toList) (hactive : Active u s) {user : UserEntity} (huser : user.id.text = u) (userAgent : String)
    (uuid : Ident) : (generateTokenPair env user userAgent (some d) uuid).Within (Tidy sub u d s) := by
  have hlimit : ∀ n, (limitSessions user.id.text n).Within (Tidy sub u d s) :=
    within_limitSessions (tidy_of_not_set (by simp) (by simp)) (fun _ => tidy_of_not_set (by simp) (by simp))
      fun _ => tidy_of_not_set (by simp) (by simp)
  unfold generateTokenPair
  refine (within_command (tidy_of_not_set (by simp) (by simp))).bind fun accessToken => ?_
  refine (within_command (tidy_of_not_set (by simp) (by simp))).bind fun now => ?_
  refine (within_command (tidy_of_not_set (by simp) (by simp))).bind fun _ => ?_
  refine (within_command (tidy_of_not_set (by simp) (by simp))).bind fun sessionCount => ?_
  refine (hlimit sessionCount).bind fun _ => ?_
  refine (within_command ⟨by simp, fun value seconds heq => ?_⟩).bind fun _ => trivial
  obtain ⟨hkey, -, -⟩ := Command.set.inj heq
  have hcolon : ':' ∉ u.toList := by
    rw [← huser]
    exact user.id.isPlain.no_colon
  rw [huser] at hkey ⊢
  obtain ⟨rfl, hdevice⟩ := (refreshKey_inj hcolon hsub).mp hkey
  rw [hdevice]
  exact ⟨⟨rfl, ne_empty_of_deviceOf hdigest hdevice, hactive⟩, _, rfl, owner_of_no_colon hcolon hd uuid⟩

/-- It is bound to write. -/
theorem reaches_generateTokenPair (users : List UserEntity) (hd : ':' ∉ d.toList) (hne : d ≠ "") {user : UserEntity}
    (huser : user.id.text = sub) (userAgent : String) (uuid : Ident) :
    (generateTokenPair env user userAgent (some d) uuid).Reaches (Healthy env users) (SetsToken sub d)
      (Spared sub d) := by
  unfold generateTokenPair
  refine (ensures_await env users (by simp) _).reaches_bind fun accessToken _ => ?_
  refine (ensures_await env users (by simp) _).reaches_bind fun now _ => ?_
  refine (ensures_await env users (by simp) _).reaches_bind fun _ _ => ?_
  refine (ensures_await env users (by simp) _).reaches_bind fun sessionCount _ => ?_
  refine (ensures_limitSessions env users _ sessionCount _).reaches_bind fun _ _ => ?_
  refine Reaches.bind (reaches_command ⟨refreshTokenOf sub d uuid.text, ?_, ?_⟩) fun _ => trivial
  · rw [deviceOf_some userAgent hne, huser]
  · refine owner_of_no_colon ?_ hd uuid
    rw [← huser]
    exact user.id.isPlain.no_colon

theorem tidy_afterGet (hdigest : ∀ text, (env.sha256Hex text).text ≠ "") (hsub : ':' ∉ sub.toList)
    (hd : ':' ∉ d.toList) (userAgent : String) (uuid : Ident) :
    (afterGet env u d userAgent uuid).Obeys (Healthy env s.users) (Tidy sub u d s) := by
  have hspend : (spend u d).Within (Tidy sub u d s) := by
    unfold spend
    refine (within_command (tidy_of_not_set (by simp) (by simp))).bind fun _ => ?_
    refine (within_command (tidy_of_not_set (by simp) (by simp))).bind fun user => ?_
    cases user with
    | none => trivial
    | some user =>
      simp only
      split
      · trivial
      · trivial
  unfold afterGet
  refine Obeys.bind (hspend.obeys.catchAll fun _ => True.intro)
    ((ensures_spend env u d s).catchAll fun e _ => True.intro) fun p hp => ?_
  obtain ⟨user, deviceId⟩ := p
  obtain ⟨hactive, huser, rfl⟩ := hp
  exact (tidy_generateTokenPair hdigest hsub hd hactive huser userAgent uuid).obeys

theorem reaches_afterGet (hgrants : Grants sub u d s) (hd : ':' ∉ d.toList) (userAgent : String) (uuid : Ident) :
    (afterGet env u d userAgent uuid).Reaches (Healthy env s.users) (SetsToken sub d) (Spared sub d) := by
  obtain ⟨hsub, hne, hactive⟩ := hgrants
  unfold afterGet
  refine Ensures.reaches_bind ((ensures_spend env u d s).catchAll fun e he => absurd hactive he) fun p hp => ?_
  obtain ⟨user, deviceId⟩ := p
  obtain ⟨-, huser, rfl⟩ := hp
  exact reaches_generateTokenPair s.users hd hne (huser.trans hsub.symm) userAgent uuid

end Program

/-! ### The race -/

section Race

variable {κ : Type*} [DecidableEq κ] (env : Environment) (sub : Ident) (token u d : String)
  (userAgent : κ → String) (uuid : κ → Ident) (s : SessionStore)

abbrev RacePool (κ : Type*) := Pool SessionStore (Option κ) Command Answer Exception (Option TokenPair)

/-- One logout, and refreshes that present the same token. -/
def logoutRace : Option κ → SessionCall
  | none => .logout sub token
  | some k => .refreshTokens token (userAgent k) (uuid k)

/-- The logout has not begun: its `DEL` is to come. -/
def LogoutPending (pool : RacePool κ) : Prop :=
  ∃ next, pool.procs none = .call (.del (refreshKey sub.text d)) next

/-- **The condition on a step.**  If it writes a token of the user and device, the logout has not begun. -/
def SetsBeforeLogout (pool : RacePool κ) (e : Option κ × ℕ) : Prop :=
  ∀ value seconds next, pool.procs e.1 = .call (.set (refreshKey sub.text d) value seconds) next →
    LogoutPending sub d pool

/-- The next command of a program passes a test. -/
def nextIs {α : Type} (test : Command → Bool) : AuthProgram α → Bool
  | .call c _ => test c
  | _ => false

omit [DecidableEq κ] in
theorem logoutPending_iff (pool : RacePool κ) : LogoutPending sub d pool ↔
    nextIs (fun c => match c with
      | .del key => decide (key = refreshKey sub.text d)
      | _ => false) (pool.procs none) = true := by
  unfold LogoutPending
  cases pool.procs none with
  | ret a => simp [nextIs]
  | throw e => simp [nextIs]
  | call c next => cases c <;> simp [nextIs]

instance (pool : RacePool κ) : Decidable (LogoutPending sub d pool) := decidable_of_iff _ (logoutPending_iff sub d pool).symm

omit [DecidableEq κ] in
theorem setsBeforeLogout_iff (pool : RacePool κ) (e : Option κ × ℕ) : SetsBeforeLogout sub d pool e ↔
    (nextIs (fun c => match c with
      | .set key _ _ => decide (key = refreshKey sub.text d)
      | _ => false) (pool.procs e.1) = true → LogoutPending sub d pool) := by
  unfold SetsBeforeLogout
  cases pool.procs e.1 with
  | ret a => simp [nextIs]
  | throw e => simp [nextIs]
  | call c next =>
    cases c with
    | set key value seconds =>
      simp only [nextIs, decide_eq_true_eq]
      constructor
      · rintro h rfl
        exact h value seconds next rfl
      · intro h value' seconds' next' heq
        cases heq
        exact h rfl
    | _ => simp [nextIs]

instance (pool : RacePool κ) (e : Option κ × ℕ) : Decidable (SetsBeforeLogout sub d pool e) :=
  decidable_of_iff _ (setsBeforeLogout_iff sub d pool e).symm

/-- No token of the user and device is accepted, at any time. -/
def LoggedOut (s : SessionStore) : Prop :=
  ∀ now token' userAgent uuid, owner token' = some (sub.text, d) → ¬ Accepts env s now token' userAgent uuid

omit [DecidableEq κ] in
theorem logout_program (howner : owner token = some (u, d)) :
    ∃ next, (SessionCall.logout sub token).program env = .call (.del (refreshKey sub.text d)) next ∧
      ∀ r, (next r).Within fun c => c = .zrem (sessionKey sub.text) d := by
  rw [SessionCall.program, bind_eq]
  unfold Auth.logout
  rw [howner]
  refine ⟨_, rfl, fun r => ?_⟩
  cases r with
  | error e => exact True.intro
  | ok deleted => exact ⟨rfl, fun r => by cases r <;> exact True.intro⟩

/-- A refresh is its `GET`, and what comes after it. -/
theorem refresh_program (howner : owner token = some (u, d)) (agent : String) (x : Ident) :
    ∃ next, (SessionCall.refreshTokens token agent x).program env = .call (.get (refreshKey u d)) next ∧
      ∀ stored, next (.ok stored) = if stored = some token then
          (afterGet env u d agent x).bind fun pair => .ret (some pair)
        else .throw (.unauthorized "Invalid or expired refresh token") := by
  obtain ⟨next, hprogram, hnext⟩ := refreshTokens_eq env token u d howner agent x
  rw [SessionCall.program, bind_eq, hprogram]
  refine ⟨_, rfl, fun stored => ?_⟩
  show (next (.ok stored)).bind _ = _
  rw [hnext]
  split
  · rfl
  · rfl

/-- **The invariant.**  The users stay; the logout is at its start or past its `DEL`; the refreshes write only what
they may, and those that are past their `GET` are bound to. -/
structure Orderly (pool : RacePool κ) : Prop where
  users : pool.state.users = s.users
  logout : pool.procs none = (SessionCall.logout sub token).program env ∨
    (pool.procs none).Within fun c => c = .zrem (sessionKey sub.text) d
  tidy : ∀ k, (pool.procs (some k)).Obeys (Healthy env s.users) (Tidy sub.text u d s)
  bound : Grants sub.text u d s → ∀ k,
    pool.procs (some k) = (SessionCall.refreshTokens token (userAgent k) (uuid k)).program env ∨
      (pool.procs (some k)).Reaches (Healthy env s.users) (SetsToken sub.text d) (Spared sub.text d) ∨
      (pool.procs (some k)).Within (Spared sub.text d)

variable {env sub token u d userAgent uuid s} {pool pool' : RacePool κ}

omit [DecidableEq κ] in
theorem sessionPool_some (k : κ) : (sessionPool env (logoutRace sub token userAgent uuid) s).procs (some k)
    = (SessionCall.refreshTokens token (userAgent k) (uuid k)).program env := rfl

omit [DecidableEq κ] in
/-- A refresh at its start. -/
theorem tidy_refresh (hdigest : ∀ text, (env.sha256Hex text).text ≠ "") (howner : owner token = some (u, d))
    {agent : String} {x : Ident} {p : AuthProgram (Option TokenPair)}
    (hp : p = (SessionCall.refreshTokens token agent x).program env) :
    p.Obeys (Healthy env s.users) (Tidy sub.text u d s) := by
  obtain ⟨next, hprogram, hnext⟩ := refresh_program env token u d howner agent x
  rw [hp, hprogram]
  refine ⟨tidy_of_not_set (by simp) (by simp), fun r hr => ?_⟩
  obtain ⟨now, s', -, rfl⟩ := hr
  show (next (.ok _)).Obeys _ _
  rw [hnext]
  split
  · exact Obeys.map (tidy_afterGet hdigest sub.isPlain.no_colon (owner_device_no_colon howner) _ _) some
  · exact True.intro

omit [DecidableEq κ] in
theorem orderly_start (hdigest : ∀ text, (env.sha256Hex text).text ≠ "") (howner : owner token = some (u, d)) :
    Orderly env sub token u d userAgent uuid s (sessionPool env (logoutRace sub token userAgent uuid) s) := by
  refine ⟨rfl, .inl rfl, fun k => ?_, fun _ k => .inl (sessionPool_some k)⟩
  have hprogram : (sessionPool env (logoutRace sub token userAgent uuid) s).procs (some k) = _ := sessionPool_some k
  generalize (sessionPool env (logoutRace sub token userAgent uuid) s).procs (some k) = p at hprogram
  exact tidy_refresh hdigest howner hprogram

/-- No command but `saveUser` changes the users. -/
theorem handle_users (now : ℕ) (s : SessionStore) {c : Command} (hc : ∀ row, c ≠ .saveUser row) :
    (handle env now s c).1.users = s.users := by
  cases c with
  | saveUser row => exact absurd rfl (hc row)
  | _ => rfl

omit [DecidableEq κ] in
/-- What the logout does next. -/
theorem Orderly.logout_next (howner : owner token = some (u, d))
    (h : Orderly env sub token u d userAgent uuid s pool) {c : Command} {next}
    (hnone : pool.procs none = .call c next) :
    (c = .del (refreshKey sub.text d) ∨ c = .zrem (sessionKey sub.text) d) ∧
      ∀ r, (next r).Within fun c => c = .zrem (sessionKey sub.text) d := by
  rcases h.logout with hstart | hlater
  · obtain ⟨next', hprogram, hwithin⟩ := logout_program env sub token u d howner
    cases hnone.symm.trans (hstart.trans hprogram)
    exact ⟨.inl rfl, hwithin⟩
  · rw [hnone] at hlater
    exact ⟨.inr hlater.1, hlater.2⟩

omit [DecidableEq κ] in
/-- What a refresh does next. -/
theorem Orderly.tidy_next (h : Orderly env sub token u d userAgent uuid s pool) {c : Command} {next} {k : κ}
    (hk : pool.procs (some k) = .call c next) : Tidy sub.text u d s c := by
  have hobeys := h.tidy k
  rw [hk] at hobeys
  exact hobeys.1

theorem Orderly.step (howner : owner token = some (u, d)) {i : Option κ} {now : ℕ}
    (h : Orderly env sub token u d userAgent uuid s pool)
    (hstep : Pool.step (handle env) pool (i, now) = some pool') :
    Orderly env sub token u d userAgent uuid s pool' := by
  obtain ⟨c, next, hi, hstate, hself, hothers⟩ := Pool.step_cases hstep
  have hsave : ∀ row, c ≠ .saveUser row := by
    cases i with
    | none =>
      rintro row rfl
      rcases (h.logout_next howner hi).1 with heq | heq
      · cases heq
      · cases heq
    | some k => exact (h.tidy_next hi).1
  refine ⟨?_, ?_, fun k => ?_, fun hgrants k => ?_⟩
  · rw [hstate, handle_users now pool.state hsave]
    exact h.users
  · cases i with
    | none =>
      rw [hself]
      exact .inr ((h.logout_next howner hi).2 _)
    | some k =>
      rw [hothers none (by simp)]
      exact h.logout
  · exact Pool.obeys_step (h.tidy k) hstep fun _ c next _ => ⟨now, pool.state, h.users, rfl⟩
  · by_cases hk : some k = i
    · subst hk
      rw [hself]
      rcases h.bound hgrants k with hstart | hreaches | hspared
      · -- its `GET`
        obtain ⟨next', hprogram, hnext⟩ := refresh_program env token u d howner (userAgent k) (uuid k)
        cases hi.symm.trans (hstart.trans hprogram)
        have hanswer : (handle env now pool.state (.get (refreshKey u d))).2
            = .ok (read now (pool.state.strings (refreshKey u d))) := rfl
        rw [hanswer, hnext]
        by_cases hstored : read now (pool.state.strings (refreshKey u d)) = some token
        · rw [if_pos hstored]
          have hafter := @reaches_afterGet env _ _ _ _ hgrants (owner_device_no_colon howner) (userAgent k) (uuid k)
          exact .inr (.inl (hafter.bind fun _ => True.intro))
        · rw [if_neg hstored]
          exact .inr (.inr True.intro)
      · rw [hi] at hreaches
        rcases hreaches with ⟨-, htail⟩ | hlater
        · exact .inr (.inr (htail _))
        · exact .inr (.inl (hlater _ ⟨now, pool.state, h.users, rfl⟩))
      · rw [hi] at hspared
        exact .inr (.inr (hspared.2 _))
    · rw [hothers (some k) hk]
      exact h.bound hgrants k

/-! ### What is left of the sessions -/

/-- What the key of the user and device holds, by whether the condition has been met: nothing since the logout, or a
live token, or else there will be one. -/
def Aftermath (env : Environment) (sub : Ident) (u d : String) (s : SessionStore) (pool : RacePool κ) (met : Prop) :
    Prop :=
  (LogoutPending sub d pool ∧ met) ∨
  (¬ LogoutPending sub d pool ∧ met ∧ pool.state.strings (refreshKey sub.text d) = none) ∨
  (¬ LogoutPending sub d pool ∧ ¬ met ∧ Grants sub.text u d s ∧
    ((∃ now value, pool.state.strings (refreshKey sub.text d) = put now REFRESH_TOKEN_TTL value ∧
        owner value = some (sub.text, d)) ∨
      ∃ k, (pool.procs (some k)).Reaches (Healthy env s.users) (SetsToken sub.text d) (Spared sub.text d)))

/-- What a command leaves of a key that it does not set. -/
theorem handle_key {env : Environment} {now : ℕ} {s : SessionStore} {c : Command} {key : String}
    (hset : ∀ value seconds, c ≠ .set key value seconds) : (handle env now s c).1.strings key = s.strings key ∨
      c.writes = some key ∧ (handle env now s c).1.strings key = none := by
  by_cases hwrites : c.writes = some key
  · cases c with
    | del key' =>
      cases hwrites
      exact .inr ⟨rfl, Function.update_self _ _ _⟩
    | set key' value seconds =>
      cases hwrites
      exact absurd rfl (hset value seconds)
    | zadd key' score member => exact .inl rfl
    | zrem key' member => exact .inl rfl
    | _ => cases hwrites
  · exact .inl (handle_frame env now s hwrites).1

/-- The logout goes on. -/
theorem Aftermath.step_logout (howner : owner token = some (u, d)) {now : ℕ} {met : Prop}
    (horderly : Orderly env sub token u d userAgent uuid s pool) (h : Aftermath env sub u d s pool met)
    (hstep : Pool.step (handle env) pool (none, now) = some pool') :
    Aftermath env sub u d s pool' (met ∧ SetsBeforeLogout sub d pool (none, now)) := by
  obtain ⟨c, next, hnone, hstate, hself, hothers⟩ := Pool.step_cases hstep
  obtain ⟨hc, htail⟩ := horderly.logout_next howner hnone
  have hcond : SetsBeforeLogout sub d pool (none, now) := by
    intro value seconds next' hnext'
    cases hnone.symm.trans hnext'
    rcases hc with hc | hc
    · cases hc
    · cases hc
  have hpast : ¬ LogoutPending sub d pool' := by
    intro ⟨next', hpending⟩
    have hwithin := htail (handle env now pool.state c).2
    rw [← hself, hpending] at hwithin
    cases hwithin.1
  -- once it is past its `DEL` it leaves the key alone
  have hkeep : ¬ LogoutPending sub d pool →
      pool'.state.strings (refreshKey sub.text d) = pool.state.strings (refreshKey sub.text d) := by
    intro hnot
    rcases hc with rfl | rfl
    · exact absurd ⟨next, hnone⟩ hnot
    · rw [hstate]
      rfl
  rw [and_iff_left hcond]
  rcases h with ⟨⟨next', hpending⟩, hmet⟩ | ⟨hnot, hmet, hkey⟩ | ⟨hnot, hmet, hgrants, hagain⟩
  · cases hnone.symm.trans hpending
    refine .inr (.inl ⟨hpast, hmet, ?_⟩)
    rw [hstate]
    exact Function.update_self _ _ _
  · exact .inr (.inl ⟨hpast, hmet, (hkeep hnot).trans hkey⟩)
  · refine .inr (.inr ⟨hpast, hmet, hgrants, ?_⟩)
    rw [hkeep hnot]
    refine hagain.imp_right fun ⟨k, hk⟩ => ⟨k, ?_⟩
    rw [hothers (some k) (by simp)]
    exact hk

/-- A refresh goes on. -/
theorem Aftermath.step_refresh {k : κ} {now : ℕ} {met : Prop} (howner : owner token = some (u, d))
    (horderly : Orderly env sub token u d userAgent uuid s pool) (h : Aftermath env sub u d s pool met)
    (hstep : Pool.step (handle env) pool (some k, now) = some pool') :
    Aftermath env sub u d s pool' (met ∧ SetsBeforeLogout sub d pool (some k, now)) := by
  obtain ⟨c, next, hk, hstate, hself, hothers⟩ := Pool.step_cases hstep
  have hpending : LogoutPending sub d pool' ↔ LogoutPending sub d pool := by
    unfold LogoutPending
    rw [hothers none (by simp)]
  by_cases hset : ∃ value seconds, c = .set (refreshKey sub.text d) value seconds
  · -- its `SET`
    obtain ⟨value, seconds, rfl⟩ := hset
    obtain ⟨hgrants, value', hc, howns⟩ := (horderly.tidy_next hk).2 value seconds rfl
    obtain ⟨-, rfl, rfl⟩ := Command.set.inj hc
    have hlive : ∃ now value, pool'.state.strings (refreshKey sub.text d) = put now REFRESH_TOKEN_TTL value ∧
        owner value = some (sub.text, d) := by
      refine ⟨now, value, ?_, howns⟩
      rw [hstate]
      exact Function.update_self _ _ _
    have hcond : SetsBeforeLogout sub d pool (some k, now) ↔ LogoutPending sub d pool := by
      constructor
      · intro hcond
        exact hcond value REFRESH_TOKEN_TTL next hk
      · intro hlogout value seconds next' _
        exact hlogout
    rcases h with ⟨hlogout, hmet⟩ | ⟨hnot, hmet, hkey⟩ | ⟨hnot, hmet, -, -⟩
    · exact .inl ⟨hpending.mpr hlogout, hmet, hcond.mpr hlogout⟩
    · exact .inr (.inr ⟨mt hpending.mp hnot, fun hboth => hnot (hcond.mp hboth.2), hgrants, .inl hlive⟩)
    · exact .inr (.inr ⟨mt hpending.mp hnot, fun hboth => hmet hboth.1, hgrants, .inl hlive⟩)
  · -- any other command
    have hset' : ∀ value seconds, c ≠ .set (refreshKey sub.text d) value seconds :=
      fun value seconds heq => hset ⟨value, seconds, heq⟩
    have hcond : SetsBeforeLogout sub d pool (some k, now) := by
      intro value seconds next' hnext'
      cases hk.symm.trans hnext'
      exact absurd rfl (hset' value seconds)
    -- what is bound to write still is
    have hstill : (pool.procs (some k)).Reaches (Healthy env s.users) (SetsToken sub.text d) (Spared sub.text d) →
        (pool'.procs (some k)).Reaches (Healthy env s.users) (SetsToken sub.text d) (Spared sub.text d) := by
      intro hreaches
      rw [hk] at hreaches
      rw [hself]
      rcases hreaches with ⟨⟨value, hc, -⟩, -⟩ | hlater
      · exact absurd hc (hset' value _)
      · exact hlater _ ⟨now, pool.state, horderly.users, rfl⟩
    have hkey' : (handle env now pool.state c).1.strings _ = _ ∨ _ := handle_key hset'
    rw [← hstate] at hkey'
    rw [and_iff_left hcond]
    rcases h with ⟨hlogout, hmet⟩ | ⟨hnot, hmet, hkey⟩ | ⟨hnot, hmet, hgrants, hagain⟩
    · exact .inl ⟨hpending.mpr hlogout, hmet⟩
    · refine .inr (.inl ⟨mt hpending.mp hnot, hmet, ?_⟩)
      rcases hkey' with hsame | ⟨-, hgone⟩
      · exact hsame.trans hkey
      · exact hgone
    · refine .inr (.inr ⟨mt hpending.mp hnot, hmet, hgrants, ?_⟩)
      rcases hagain with hlive | ⟨k', hk'⟩
      · rcases hkey' with hsame | ⟨hwrites, -⟩
        · rw [hsame]
          exact .inl hlive
        · -- a `DEL`: it is past its `GET`
          refine .inr ⟨k, ?_⟩
          rcases horderly.bound hgrants k with hstart | hreaches | hspared
          · obtain ⟨next', hprogram, -⟩ := refresh_program env token u d howner (userAgent k) (uuid k)
            cases hk.symm.trans (hstart.trans hprogram)
            cases hwrites
          · exact hstill hreaches
          · rw [hk] at hspared
            exact absurd hwrites hspared.1
      · refine .inr ⟨k', ?_⟩
        by_cases hsame : k' = k
        · rw [hsame] at hk' ⊢
          exact hstill hk'
        · rw [hothers (some k') (by simpa using hsame)]
          exact hk'

/-- The invariant along a schedule. -/
theorem aftermath_run (hdigest : ∀ text, (env.sha256Hex text).text ≠ "") (howner : owner token = some (u, d))
    {es : List (Option κ × ℕ)}
    (hrun : run (Pool.step (handle env)) (sessionPool env (logoutRace sub token userAgent uuid) s) es = some pool) :
    Orderly env sub token u d userAgent uuid s pool ∧ Aftermath env sub u d s pool
      (Throughout (Pool.step (handle env)) (SetsBeforeLogout sub d)
        (sessionPool env (logoutRace sub token userAgent uuid) s) es) := by
  refine run_induction (Pool.step (handle env)) _ (fun es pool => Orderly env sub token u d userAgent uuid s pool ∧
    Aftermath env sub u d s pool (Throughout (Pool.step (handle env)) (SetsBeforeLogout sub d)
      (sessionPool env (logoutRace sub token userAgent uuid) s) es)) ?_ (fun es pool e pool' hrun h hstep => ?_) es pool
    hrun
  · obtain ⟨next, hprogram, -⟩ := logout_program env sub token u d howner
    exact ⟨orderly_start hdigest howner, .inl ⟨⟨next, hprogram⟩, trivial⟩⟩
  · obtain ⟨horderly, hafter⟩ := h
    refine ⟨horderly.step howner hstep, ?_⟩
    rw [throughout_snoc hrun]
    obtain ⟨i, now⟩ := e
    cases i with
    | none => exact hafter.step_logout howner horderly hstep
    | some k => exact hafter.step_refresh howner horderly hstep

/-- **Who is logged out stays so exactly if no refresh writes a token once the logout has begun.** -/
theorem logged_out_iff (env : Environment) (hdigest : ∀ text, (env.sha256Hex text).text ≠ "") (sub : Ident)
    (token u d : String) (howner : owner token = some (u, d)) (userAgent : κ → String) (uuid : κ → Ident)
    (s : SessionStore) (es : List (Option κ × ℕ)) (pool : RacePool κ)
    (hrun : run (Pool.step (handle env)) (sessionPool env (logoutRace sub token userAgent uuid) s) es = some pool)
    (hended : ∀ i, Ended (pool.procs i)) :
    LoggedOut env sub d pool.state ↔ Throughout (Pool.step (handle env)) (SetsBeforeLogout sub d)
      (sessionPool env (logoutRace sub token userAgent uuid) s) es := by
  obtain ⟨horderly, hafter⟩ := aftermath_run hdigest howner hrun
  rcases hafter with ⟨⟨next, hpending⟩, -⟩ | ⟨-, hmet, hkey⟩ | ⟨-, hmet, hgrants, hagain⟩
  · exact absurd hpending (hended none _ _)
  · refine iff_of_true (fun now token' agent x htoken haccepts => ?_) hmet
    obtain ⟨u', d', ⟨hnames, hread⟩, -⟩ := (accepts_iff_stored env _ now token' agent x).mp haccepts
    cases htoken.symm.trans hnames
    rw [hkey] at hread
    cases hread
  · refine iff_of_false (fun hout => ?_) hmet
    obtain ⟨rfl, -, hactive⟩ := hgrants
    rcases hagain with ⟨now, value, hlive, howns⟩ | ⟨k, hreaches⟩
    · refine hout now value "" sub howns ((accepts_iff_stored env _ now value "" sub).mpr ⟨_, _, ⟨howns, ?_⟩, ?_⟩)
      · rw [hlive, read_put_self]
      · unfold Active activeUser at hactive
        unfold activeUser
        rw [horderly.users]
        exact hactive
    · cases hp : pool.procs (some k) with
      | ret a =>
        rw [hp] at hreaches
        exact absurd hreaches id
      | throw e =>
        rw [hp] at hreaches
        exact absurd hreaches id
      | call c next => exact absurd hp (hended (some k) c next)

end Race

/-! ### One refresh -/

def laptopToken : String := refreshTokenOf "user-1" "laptop" "0"

/-- The sample user, with one live token. -/
def laptopStore : SessionStore :=
  (SessionStore.initial [sampleUser]).setString (refreshKey "user-1" "laptop") (put 1000 REFRESH_TOKEN_TTL laptopToken)

def laptopPool : RacePool Unit :=
  sessionPool sampleEnvironment (logoutRace sampleUser.id laptopToken (fun _ => "") fun _ => ⟨"1", rfl⟩) laptopStore

/-- The refresh ends before the logout begins. -/
def refreshThenLogout : List (Option Unit × ℕ) := List.replicate 8 (some (), 2000) ++ List.replicate 2 (none, 2001)

/-- The logout comes before the `SET` of the refresh. -/
def logoutBeforeSet : List (Option Unit × ℕ) :=
  List.replicate 7 (some (), 2000) ++ List.replicate 2 (none, 2001) ++ [(some (), 2002)]

theorem owner_laptopToken : owner laptopToken = some ("user-1", "laptop") :=
  @owner_of_no_colon "user-1" "laptop" (by decide) (by decide) ⟨"0", rfl⟩

theorem sampleEnvironment_digest (text : String) : (sampleEnvironment.sha256Hex text).text ≠ "" := by
  show "b23a6a8439c0dde5515893e7c90c1e3233b8616e634470f20dc4928bcf3609bc" ≠ ""
  decide

/-- Programs that have returned have ended. -/
theorem ended_of_results {pool : RacePool Unit}
    (h : ((pool.procs none).result.isSome && (pool.procs (some ())).result.isSome) = true) :
    ∀ i, Ended (pool.procs i) := by
  rw [Bool.and_eq_true, Option.isSome_iff_exists, Option.isSome_iff_exists] at h
  obtain ⟨⟨out, hlogout⟩, ⟨pair, hrefresh⟩⟩ := h
  intro i c next heq
  match i with
  | none =>
    rw [result_eq_some.mp hlogout] at heq
    cases heq
  | some () =>
    rw [result_eq_some.mp hrefresh] at heq
    cases heq

theorem logged_out_iff_in_turn :
    ∃ pool, run (Pool.step (handle sampleEnvironment)) laptopPool refreshThenLogout = some pool ∧
      LoggedOut sampleEnvironment sampleUser.id "laptop" pool.state := by
  obtain ⟨pool, hrun, hended⟩ := (Option.any_eq_true _ _).mp (show
    ((run (Pool.step (handle sampleEnvironment)) laptopPool refreshThenLogout).any fun pool =>
      (pool.procs none).result.isSome && (pool.procs (some ())).result.isSome) = true by decide +kernel)
  exact ⟨pool, hrun, (logged_out_iff sampleEnvironment sampleEnvironment_digest sampleUser.id laptopToken "user-1" "laptop"
    owner_laptopToken _ _ laptopStore refreshThenLogout pool hrun (ended_of_results hended)).mpr (by decide +kernel)⟩

/-- **The refresh that was under way brings the session back.** -/
theorem logout_undone : ∃ pool, run (Pool.step (handle sampleEnvironment)) laptopPool logoutBeforeSet = some pool ∧
    (∀ i, Ended (pool.procs i)) ∧ ¬ LoggedOut sampleEnvironment sampleUser.id "laptop" pool.state := by
  obtain ⟨pool, hrun, hseen⟩ := (Option.any_eq_true _ _).mp (show
    ((run (Pool.step (handle sampleEnvironment)) laptopPool logoutBeforeSet).any fun pool =>
      ((pool.procs none).result.isSome && (pool.procs (some ())).result.isSome) &&
      (decide (read 2002 (pool.state.strings (refreshKey "user-1" "laptop")) = some (refreshTokenOf "user-1" "laptop" "1"))
        && (activeUser pool.state "user-1").isSome)) = true by decide +kernel)
  rw [Bool.and_eq_true, Bool.and_eq_true (decide _), decide_eq_true_eq] at hseen
  obtain ⟨hended, hread, hactive⟩ := hseen
  have howns : owner (refreshTokenOf "user-1" "laptop" "1") = some ("user-1", "laptop") :=
    @owner_of_no_colon "user-1" "laptop" (by decide) (by decide) ⟨"1", rfl⟩
  refine ⟨pool, hrun, ended_of_results hended, fun hout => ?_⟩
  exact hout 2002 _ "" sampleUser.id howns ((accepts_iff_stored _ _ 2002 _ "" sampleUser.id).mpr
    ⟨_, _, ⟨howns, hread⟩, hactive⟩)

end EdgeSphere.Auth
