import EdgeSphere.Dashboard.Api
import EdgeSphere.Auth.LogoutRace
import EdgeSphere.Library.Exclusion

/-!
# Requests that meet an expired access token

Calls of `request` in one window, interleaved command by command, each of them answered 401 at first.  A call that
reads the store while another is on its way from reading it to storing a new pair reads a refresh token that only
one of the two can trade, and the other signs the user out.

* `Live`, `Dead` — what the auth-service makes of a refresh token;
* `Free`, `Busy` — how far a call has come, by what it has seen and done;
* `turns`, `Broken` — the invariants of the runs that meet the condition, and of those that do not;
* `undisturbed_iff` — **nobody is signed out exactly if the calls take turns and their retries are served**.
-/

namespace EdgeSphere.Dashboard

open EdgeSphere.Library
open EdgeSphere.Library.Program
open EdgeSphere.Library.Runs
open EdgeSphere.Library.Buffer
open EdgeSphere.Library.Expiry (read Cell put read_put_self)
open EdgeSphere.Auth (TokenPair SessionStore Environment Ident owner refreshKey activeUser Stored Fresh Tail
  REFRESH_TOKEN_TTL)

/-! ### Refresh tokens at the auth-service -/

section Tokens

variable (env : Environment) (userAgent : String) (c : Circumstance) {r : String} {s s' : SessionStore}
  {pair : TokenPair}

/-- The token is held under the key that it names, and its user is active. -/
def Live (r : String) (s : SessionStore) : Prop :=
  ∃ u d cell, owner r = some (u, d) ∧ s.strings (refreshKey u d) = some cell ∧ cell.value = r ∧
    (activeUser s u).isSome = true

/-- The token is not held under the key that it names. -/
def Dead (r : String) (s : SessionStore) : Prop :=
  ∀ u d, owner r = some (u, d) → ∀ now, read now (s.strings (refreshKey u d)) ≠ some r

/-- The key that the token names has not timed out. -/
def unexpired (now : ℕ) (r : String) (s : SessionStore) : Bool :=
  (owner r).all fun p => (s.strings (refreshKey p.1 p.2)).all fun cell => cell.alive now

/-- The token was made with the value drawn. -/
def endsIn (uuid : Ident) (r : String) : Bool := decide ((':' :: uuid.text.toList) <:+ (fromBase64 r).toList)

theorem fresh_of_endsIn {uuid : Ident} (h : endsIn uuid r = false) : Fresh r uuid := by
  rintro u d rfl
  refine absurd (of_decide_eq_false h) (not_not.mpr ?_)
  rw [Auth.refreshTokenOf, fromBase64_toBase64]
  exact ⟨u.toList ++ ':' :: d.toList, by simp [String.toList_append]⟩

theorem Live.ne_empty (h : Live r s) : r ≠ "" := by
  rintro rfl
  obtain ⟨u, d, cell, howner, -⟩ := h
  have hnone : owner "" = none := by decide
  rw [hnone] at howner
  cases howner

theorem Live.truthy (h : Live r s) : truthy (some r) = some r := by
  unfold Dashboard.truthy
  rw [Option.filter_some, if_pos (decide_eq_true h.ne_empty)]

/-- A live token that has not timed out is the stored one. -/
theorem Live.stored {now : ℕ} (h : Live r s) (htime : unexpired now r s = true) :
    ∃ u d user, Stored s now r u d ∧ activeUser s u = some user := by
  obtain ⟨u, d, cell, howner, hcell, rfl, hactive⟩ := h
  obtain ⟨user, huser⟩ := Option.isSome_iff_exists.mp hactive
  refine ⟨u, d, user, ⟨howner, ?_⟩, huser⟩
  unfold unexpired at htime
  rw [howner, Option.all_some, hcell, Option.all_some] at htime
  rw [hcell]
  exact if_pos htime

theorem live_issue {u d : String} (hu : ':' ∉ u.toList) (hd : ':' ∉ d.toList) (uuid : Ident) (now : ℕ)
    (hactive : (activeUser s u).isSome = true) :
    Live (Auth.refreshTokenOf u d uuid.text) (Auth.issue u d (Auth.refreshTokenOf u d uuid.text) now s) := by
  refine ⟨u, d, _, Auth.owner_of_no_colon hu hd uuid, Function.update_self _ _ _, rfl, ?_⟩
  unfold activeUser at hactive ⊢
  rw [Auth.issue_users]
  exact hactive

theorem activeUser_setString (s : SessionStore) (key : String) (cell : Option (Cell String)) (u : String) :
    activeUser (s.setString key cell) u = activeUser s u := rfl

/-- What a refresh does with the stored token of an active user. -/
theorem exec_refreshTokens_of_stored {now : ℕ} {u d : String} {user : Auth.UserEntity} (hstored : Stored s now r u d)
    (hactive : activeUser s u = some user) (uuid : Ident) : ∃ d' pair, ':' ∉ d'.toList ∧
      pair.refreshToken = Auth.refreshTokenOf u d' uuid.text ∧
      exec (Auth.handle env now) s (Auth.refreshTokens env r userAgent uuid)
        = (Auth.issue u d' (Auth.refreshTokenOf u d' uuid.text) now (s.setString (refreshKey u d) none), .ok pair) := by
  have hexec := Auth.exec_refreshTokens_of_active env hstored hactive userAgent uuid
  rw [Auth.exec_generateTokenPair, Auth.activeUser_id hactive] at hexec
  refine ⟨Auth.deviceOf env userAgent (some d), ⟨_, _, _⟩, ?_, rfl, hexec⟩
  unfold Auth.deviceOf
  simp only
  split
  · exact (Ident.isPlain _).no_colon
  · exact Auth.owner_device_no_colon hstored.1

/-- What a refresh answers to a live token, and what it leaves. -/
theorem Live.refreshTokens (h : Live r s) (htime : unexpired c.now r s = true) :
    ∃ s' pair, refreshTokens env userAgent c s r = (s', some pair) ∧ Live pair.refreshToken s' := by
  obtain ⟨u, d, user, hstored, hactive⟩ := h.stored htime
  obtain ⟨d', pair, hd', hpair, hexec⟩ := exec_refreshTokens_of_stored env userAgent hstored hactive c.uuid
  have hout : Dashboard.refreshTokens env userAgent c s r
      = (Auth.issue u d' (Auth.refreshTokenOf u d' c.uuid.text) c.now (s.setString (refreshKey u d) none), some pair) := by
    rw [Dashboard.refreshTokens, hexec]
  have hactive' : (activeUser (s.setString (refreshKey u d) none) u).isSome = true := by
    rw [activeUser_setString, hactive]
    rfl
  refine ⟨_, pair, hout, ?_⟩
  rw [hpair]
  exact live_issue (Auth.owner_no_colon hstored.1) hd' c.uuid c.now hactive'

/-- A dead token is refused, and nothing changes. -/
theorem Dead.refreshTokens (h : Dead r s) : refreshTokens env userAgent c s r = (s, none) := by
  rw [Dashboard.refreshTokens,
    Auth.exec_refreshTokens_of_not_stored env (fun u d hstored => h u d hstored.1 c.now hstored.2)]

/-- Commands that do not put the token back leave it dead. -/
theorem Dead.exec {α : Type} {p : Auth.AuthProgram α} {now : ℕ} (h : Dead r s)
    (hp : ∀ u d, p.Within (Tail r u d)) : Dead r (exec (Auth.handle env now) s p).1 := by
  intro u d howner
  have hobeys : p.Obeys (fun _ _ => True) (Tail r u d) := (hp u d).obeys
  have hkeep : ∀ s' c', (∀ t, read t (s'.strings (refreshKey u d)) ≠ some r) → Tail r u d c' →
      ∀ t, read t ((Auth.handle env now s' c').1.strings (refreshKey u d)) ≠ some r :=
    fun s' c' hs' hc' => (Auth.handle_of_tail hc' now s').2 hs'
  exact (hobeys.exec hkeep (fun _ _ _ => True.intro) (h u d howner)).1

theorem tail_spend (r u d u' d' : String) : (Auth.spend u' d').Within (Tail r u d) := by
  unfold Auth.spend
  refine (within_command ⟨by simp, by simp⟩).bind fun _ => ?_
  refine (within_command ⟨by simp, by simp⟩).bind fun user => ?_
  split
  · split
    · exact True.intro
    · exact True.intro
  · exact True.intro

theorem tail_redeem {token : String} {p : Auth.AuthProgram (Auth.UserEntity × String)} (hp : p = Auth.redeem token)
    (r u d : String) : p.Within (Tail r u d) := by
  rw [hp]
  unfold Auth.redeem
  generalize owner token = o
  cases o with
  | none => exact True.intro
  | some p =>
    refine (within_command ⟨by simp, by simp⟩).bind fun stored => ?_
    split
    · exact tail_spend r u d _ _
    · exact True.intro

theorem tail_refreshTokens {uuid : Ident} (hfresh : Fresh r uuid) {token : String} {p : Auth.AuthProgram TokenPair}
    (hp : p = Auth.refreshTokens env token userAgent uuid) (u d : String) : p.Within (Tail r u d) := by
  rw [hp]
  unfold Auth.refreshTokens
  generalize hq : Auth.redeem token = q
  refine Within.bind (Within.catchAll (tail_redeem hq.symm r u d) fun e => ?_) fun found => ?_
  · exact True.intro
  · exact Auth.tail_generateTokenPair env u d hfresh found.1 userAgent (some found.2)

theorem refreshTokens_fst (token : String) : (refreshTokens env userAgent c s token).1
    = (exec (Auth.handle env c.now) s (Auth.refreshTokens env token userAgent c.uuid)).1 := by
  unfold refreshTokens
  cases exec (Auth.handle env c.now) s (Auth.refreshTokens env token userAgent c.uuid) with
  | mk s' out =>
    cases out with
    | ok pair => rfl
    | error e => rfl

/-- A token that is not drawn again stays dead. -/
theorem Dead.kept (h : Dead r s) (hfresh : Fresh r c.uuid) (token : String) :
    Dead r (Dashboard.refreshTokens env userAgent c s token).1 := by
  rw [Dashboard.refreshTokens_fst]
  generalize hp : Auth.refreshTokens env token userAgent c.uuid = p
  exact h.exec env (tail_refreshTokens env userAgent hfresh hp.symm)

/-- A token that has been traded is dead. -/
theorem dead_of_refreshTokens (hfresh : Fresh r c.uuid)
    (h : refreshTokens env userAgent c s r = (s', some pair)) : Dead r s' := by
  have hfst := Dashboard.refreshTokens_fst env userAgent c (s := s) r
  replace hfst : s' = _ := (congrArg Prod.fst h).symm.trans hfst
  by_cases hstored : ∃ u d, Stored s c.now r u d
  · obtain ⟨u, d, hstored⟩ := hstored
    cases hactive : activeUser s u with
    | none =>
      rw [refreshTokens, Auth.exec_refreshTokens_of_inactive env hstored hactive] at h
      cases h
    | some user =>
      rw [Auth.exec_refreshTokens_of_active env hstored hactive] at hfst
      rw [hfst]
      refine Dead.exec env (fun u' d' howner now => ?_) fun u' d' =>
        Auth.tail_generateTokenPair env u' d' hfresh user userAgent (some d)
      cases hstored.1.symm.trans howner
      show read now (Function.update s.strings (refreshKey u d) none (refreshKey u d)) ≠ some r
      rw [Function.update_self]
      simp
  · rw [refreshTokens, Auth.exec_refreshTokens_of_not_stored env fun u d hud => hstored ⟨u, d, hud⟩] at h
    cases h

end Tokens

/-! ### The program, command by command -/

section Program

variable (req : Request) (headers : Headers)

/-- A call that is about to sign the user out. -/
def Lost (p : ApiProgram (Option Body)) : Prop := ∃ next, p = .call (.dispatch .logout) next

theorem lost_none : Lost (conclude (pure none)) := ⟨_, rfl⟩

theorem lost_throw (e : Exception) : Lost (conclude (.throw e)) := ⟨_, rfl⟩

/-- A command within the `try`. -/
theorem conclude_await (c : Command) (f : Answer c → ApiProgram (Option Response)) :
    ∃ next, conclude ((await c).bind f) = .call c next ∧ (∀ a, next (.ok a) = conclude (f a)) ∧
      ∀ e, Lost (next (.error e)) :=
  ⟨_, rfl, fun _ => rfl, fun e => lost_throw e⟩

theorem await_bind (c : Command) (f : Answer c → ApiProgram (Option Body)) :
    ∃ next, (await c).bind f = .call c next ∧ ∀ a, next (.ok a) = f a := ⟨_, rfl, fun _ => rfl⟩

/-- A call that has read the store, and has its request to send. -/
def asking (auth : AuthState) : ApiProgram (Option Body) :=
  (await (.fetch req (req.headers auth.accessToken))).bind (answered true req auth)

theorem request_eq : ∃ next, request true req = .call .getState next ∧ ∀ auth, next (.ok auth) = asking req auth :=
  ⟨_, rfl, fun _ => rfl⟩

/-- A call that is about to store its new pair. -/
def dispatching (user : User) (pair : TokenPair) : ApiProgram (Option Body) :=
  conclude ((await (.dispatch (.setCredentials user pair.accessToken pair.refreshToken))).bind fun _ =>
    retry req headers pair.accessToken)

theorem conclude_renew (refreshToken : String) : ∃ next, conclude (renew req headers refreshToken)
      = .call (.refresh refreshToken) next ∧
      (∀ pair, next (.ok (some pair)) = conclude (keep req headers pair)) ∧ Lost (next (.ok none)) :=
  ⟨_, rfl, fun _ => rfl, lost_none⟩

theorem conclude_keep (pair : TokenPair) : ∃ next, conclude (keep req headers pair) = .call .getState next ∧
    ∀ auth user, auth.user = some user → next (.ok auth) = dispatching req headers user pair := by
  refine ⟨_, rfl, fun auth user huser => ?_⟩
  obtain ⟨user', accessToken, refreshToken, isAuthenticated⟩ := auth
  cases huser
  rfl

theorem conclude_retry (accessToken : String) : ∃ next, conclude (retry req headers accessToken)
      = .call (.fetch req { headers with authorization := some (bearer accessToken) }) next ∧
      (∀ res, res.ok = true → next (.ok res) = value res) ∧
      (∀ res, res.ok = false → Lost (next (.ok res))) ∧ ∀ e, Lost (next (.error e)) := by
  refine ⟨_, rfl, fun res hok => ?_, fun res hok => ?_, fun e => lost_throw e⟩
  · show conclude (if res.ok = true then pure (some res) else pure none) = value res
    rw [if_pos hok]
    rfl
  · show Lost (conclude (if res.ok = true then pure (some res) else pure none))
    rw [hok]
    exact lost_none

theorem value_ended (res : Response) : (value res).Ended := by
  unfold value
  intro c next heq
  split at heq
  · cases heq
  · split at heq
    · cases heq
    · cases heq

theorem answered_refused {auth : AuthState} {res : Response} {r : String} (hrefused : res.status = 401)
    (hr : truthy auth.refreshToken = some r) :
    answered true req auth res = conclude (renew req (req.headers auth.accessToken) r) := by
  unfold answered
  rw [if_pos ⟨hrefused, rfl⟩, hr]

end Program

/-! ### Conditions on a step -/

section Conditions

variable {ι : Type*} [DecidableEq ι]

/-- The request has been answered once. -/
def hasFetched (events : List Event) : Bool :=
  events.any fun
    | .fetched _ _ => true
    | _ => false

/-- The new pair has been stored. -/
def hasStored (events : List Event) : Bool :=
  events.any fun
    | .dispatched (.setCredentials _ _ _) => true
    | _ => false

/-- The refresh tokens that calls have read from the store. -/
def tokensRead (log : List (ι × Event)) : List String :=
  log.filterMap fun x =>
    match x.2 with
    | .read auth => truthy auth.refreshToken
    | _ => none

def answers (test : Response → Bool) : Except Exception Response → Bool
  | .ok res => test res
  | .error _ => false

/-- What is taken for granted of a command: the first answer to a request is a 401; a refresh finds a key that has
not timed out, and draws a value that has made none of the tokens read so far. -/
def expected (page : Page ι) (e : ι × Circumstance) : Command → Bool
  | .fetch _ _ => hasFetched (select e.1 page.log) || answers (fun res => decide (res.status = 401)) e.2.response
  | .refresh refreshToken => unexpired e.2.now refreshToken page.sessions &&
      (tokensRead page.log).all fun r => !endsIn e.2.uuid r
  | _ => true

/-- **The condition on a command.**  A call reads the store first when the calls that have begun have stored their
new pairs, and a request that is sent again is answered with an `ok` status. -/
def inTurn (page : Page ι) (e : ι × Circumstance) : Command → Bool
  | .getState => !(select e.1 page.log).isEmpty || page.log.all fun x => hasStored (select x.1 page.log)
  | .fetch _ _ => !hasFetched (select e.1 page.log) || answers Response.ok e.2.response
  | _ => true

/-- The command that a step executes passes a test. -/
def Meets (test : Page ι → ι × Circumstance → Command → Bool) (pool : PagePool ι) (e : ι × Circumstance) : Prop :=
  (pool.procs e.1).nextCommand.all (test pool.state e) = true

instance (test : Page ι → ι × Circumstance → Command → Bool) (pool : PagePool ι) (e : ι × Circumstance) :
    Decidable (Meets test pool e) := inferInstanceAs (Decidable (_ = true))

/-- A call that has not signed the user out, and whose request has been sent again with an access token issued after
the 401. -/
def Undisturbed (events : List Event) : Prop :=
  (∀ event ∈ events, event ≠ .dispatched .logout ∧ ∀ href, event ≠ .redirected href) ∧
    ∃ headers res refreshToken pair headers' answer, res.status = 401 ∧
      headers'.authorization = some (bearer pair.accessToken) ∧
      [.fetched headers (.ok res), .refreshed refreshToken (some pair), .fetched headers' answer].Sublist events

omit [DecidableEq ι] in
theorem meets_iff {test : Page ι → ι × Circumstance → Command → Bool} {pool : PagePool ι} {e : ι × Circumstance}
    {c : Command} {next} (h : pool.procs e.1 = .call c next) : Meets test pool e ↔ test pool.state e c = true := by
  unfold Meets
  rw [h]
  exact Iff.rfl

theorem mem_tokensRead {log : List (ι × Event)} {i : ι} {auth : AuthState} {r : String}
    (hmem : Event.read auth ∈ select i log) (hr : truthy auth.refreshToken = some r) : r ∈ tokensRead log :=
  List.mem_filterMap.mpr ⟨(i, .read auth), mem_select.mp hmem, hr⟩

theorem refused_of_expected {page : Page ι} {e : ι × Circumstance} {req : Request} {headers : Headers}
    (h : expected page e (.fetch req headers) = true) (hfirst : hasFetched (select e.1 page.log) = false) :
    ∃ res, e.2.response = .ok res ∧ res.status = 401 := by
  unfold expected at h
  rw [hfirst, Bool.false_or] at h
  cases hresponse : e.2.response with
  | ok res =>
    rw [hresponse] at h
    exact ⟨res, rfl, of_decide_eq_true h⟩
  | error err =>
    rw [hresponse] at h
    cases h

theorem served_of_inTurn {page : Page ι} {e : ι × Circumstance} {req : Request} {headers : Headers}
    (h : inTurn page e (.fetch req headers) = true) (hagain : hasFetched (select e.1 page.log) = true) :
    ∃ res, e.2.response = .ok res ∧ res.ok = true := by
  unfold inTurn at h
  rw [hagain, Bool.not_true, Bool.false_or] at h
  cases hresponse : e.2.response with
  | ok res =>
    rw [hresponse] at h
    exact ⟨res, rfl, h⟩
  | error err =>
    rw [hresponse] at h
    cases h

theorem expected_refresh (page : Page ι) (e : ι × Circumstance) (token : String) :
    expected page e (.refresh token)
      = (unexpired e.2.now token page.sessions && (tokensRead page.log).all fun r => !endsIn e.2.uuid r) := rfl

/-- A refresh that is expected finds a key that has not timed out. -/
theorem unexpired_of_expected {page : Page ι} {e : ι × Circumstance} {token : String}
    (h : expected page e (.refresh token) = true) : unexpired e.2.now token page.sessions = true := by
  rw [expected_refresh, Bool.and_eq_true_iff] at h
  exact h.1

/-- A refresh that is expected draws a fresh value. -/
theorem fresh_of_expected {page : Page ι} {e : ι × Circumstance} {token r : String}
    (h : expected page e (.refresh token) = true) (hr : r ∈ tokensRead page.log) : Fresh r e.2.uuid := by
  rw [expected_refresh, Bool.and_eq_true_iff] at h
  refine fresh_of_endsIn ?_
  rw [← Bool.not_eq_true']
  exact List.all_eq_true.mp h.2 r hr

omit [DecidableEq ι] in
/-- Every command leaves one event of its call. -/
theorem handle_log (env : Environment) (userAgent : String) (e : ι × Circumstance) (page : Page ι) (c : Command) :
    ∃ event, (handle env userAgent e page c).1.log = page.log ++ [(e.1, event)] := by
  cases c with
  | getState => exact ⟨_, rfl⟩
  | fetch req headers => exact ⟨_, rfl⟩
  | refresh token => exact ⟨_, rfl⟩
  | dispatch action => exact ⟨_, rfl⟩
  | redirect href => exact ⟨_, rfl⟩

omit [DecidableEq ι] in
theorem handle_refresh (env : Environment) (userAgent : String) (i : ι) (e : Circumstance) (page : Page ι) (r : String) :
    handle env userAgent (i, e) page (.refresh r)
      = ({ page with sessions := (refreshTokens env userAgent e page.sessions r).1 }.record i
          (.refreshed r (refreshTokens env userAgent e page.sessions r).2),
        .ok (refreshTokens env userAgent e page.sessions r).2) := rfl

theorem select_snoc_self (i : ι) (log : List (ι × Event)) (event : Event) :
    select i (log ++ [(i, event)]) = select i log ++ [event] := by
  rw [select_append, select_cons_self, select_nil]

theorem select_snoc_of_ne {i j : ι} (h : j ≠ i) (log : List (ι × Event)) (event : Event) :
    select i (log ++ [(j, event)]) = select i log := by
  rw [select_append, select_cons_of_ne h, select_nil, List.append_nil]

end Conditions

/-! ### How far a call has come -/

section Stages

variable {ι : Type*} [DecidableEq ι] (req : Request)

/-- What a call has seen that has stored its new pair. -/
def storedEvents (headers : Headers) (auth auth' : AuthState) (res : Response) (r : String) (user : User)
    (pair : TokenPair) : List Event :=
  [.read auth, .fetched headers (.ok res), .refreshed r (some pair), .read auth',
    .dispatched (.setCredentials user pair.accessToken pair.refreshToken)]

/-- A call that has not begun, or has stored its new pair. -/
inductive Free : List Event → ApiProgram (Option Body) → Prop
  | idle : Free [] (request true req)
  | retrying {auth auth' : AuthState} {res : Response} {r : String} {user : User} {pair : TokenPair}
      (hrefused : res.status = 401) :
      Free (storedEvents (req.headers auth.accessToken) auth auth' res r user pair)
        (conclude (retry req (req.headers auth.accessToken) pair.accessToken))
  | served {auth auth' : AuthState} {res res' : Response} {r : String} {user : User} {pair : TokenPair}
      (hrefused : res.status = 401) :
      Free (storedEvents (req.headers auth.accessToken) auth auth' res r user pair ++
          [.fetched { req.headers auth.accessToken with authorization := some (bearer pair.accessToken) } (.ok res')])
        (value res')

/-- A call that is on its way from reading the store to storing a new pair, by what the page holds meanwhile. -/
inductive Busy (page : Page ι) : List Event → ApiProgram (Option Body) → Prop
  | asking {user : User} {r : String} (huser : page.store.user = some user)
      (hr : truthy page.store.refreshToken = some r) (hlive : Live r page.sessions) :
      Busy page [.read page.store] (asking req page.store)
  | refused {user : User} {r : String} {res : Response} (huser : page.store.user = some user)
      (hr : truthy page.store.refreshToken = some r) (hlive : Live r page.sessions) (hrefused : res.status = 401) :
      Busy page [.read page.store, .fetched (req.headers page.store.accessToken) (.ok res)]
        (conclude (renew req (req.headers page.store.accessToken) r))
  | refreshed {user : User} {r : String} {res : Response} {pair : TokenPair} (huser : page.store.user = some user)
      (hr : truthy page.store.refreshToken = some r) (hdead : Dead r page.sessions)
      (hlive : Live pair.refreshToken page.sessions) (hrefused : res.status = 401) :
      Busy page [.read page.store, .fetched (req.headers page.store.accessToken) (.ok res), .refreshed r (some pair)]
        (conclude (keep req (req.headers page.store.accessToken) pair))
  | dispatching {user : User} {r : String} {res : Response} {pair : TokenPair} (huser : page.store.user = some user)
      (hr : truthy page.store.refreshToken = some r) (hdead : Dead r page.sessions)
      (hlive : Live pair.refreshToken page.sessions) (hrefused : res.status = 401) :
      Busy page [.read page.store, .fetched (req.headers page.store.accessToken) (.ok res), .refreshed r (some pair),
          .read page.store] (dispatching req (req.headers page.store.accessToken) user pair)

/-- The user is signed in, with a live refresh token. -/
def SignedIn (page : Page ι) : Prop :=
  (∃ user, page.store.user = some user) ∧ ∃ r, truthy page.store.refreshToken = some r ∧ Live r page.sessions

variable {req}

omit [DecidableEq ι] in
/-- Only the store and the sessions matter. -/
theorem Busy.congr {page page' : Page ι} {events : List Event} {p : ApiProgram (Option Body)}
    (h : Busy req page events p) (hstore : page'.store = page.store) (hsessions : page'.sessions = page.sessions) :
    Busy req page' events p := by
  obtain ⟨store, sessions, log⟩ := page
  obtain ⟨store', sessions', log'⟩ := page'
  cases hstore
  cases hsessions
  cases h with
  | asking huser hr hlive => exact .asking huser hr hlive
  | refused huser hr hlive hrefused => exact .refused huser hr hlive hrefused
  | refreshed huser hr hdead hlive hrefused => exact .refreshed huser hr hdead hlive hrefused
  | dispatching huser hr hdead hlive hrefused => exact .dispatching huser hr hdead hlive hrefused

omit [DecidableEq ι] in
/-- A call that is on its way has begun, and has not stored its pair. -/
theorem Busy.events {page : Page ι} {events : List Event} {p : ApiProgram (Option Body)}
    (h : Busy req page events p) : events ≠ [] ∧ hasStored events = false := by
  cases h with
  | asking huser hr hlive => exact ⟨List.cons_ne_nil _ _, rfl⟩
  | refused huser hr hlive hrefused => exact ⟨List.cons_ne_nil _ _, rfl⟩
  | refreshed huser hr hdead hlive hrefused => exact ⟨List.cons_ne_nil _ _, rfl⟩
  | dispatching huser hr hdead hlive hrefused => exact ⟨List.cons_ne_nil _ _, rfl⟩

omit [DecidableEq ι] in
theorem Busy.waits {page : Page ι} {events : List Event} {p : ApiProgram (Option Body)}
    (h : Busy req page events p) : ∃ c next, p = .call c next := by
  cases h with
  | asking huser hr hlive => exact ⟨_, _, rfl⟩
  | refused huser hr hlive hrefused => exact ⟨_, _, rfl⟩
  | refreshed huser hr hdead hlive hrefused => exact ⟨_, _, rfl⟩
  | dispatching huser hr hdead hlive hrefused => exact ⟨_, _, rfl⟩

omit [DecidableEq ι] in
theorem Busy.first_fetch {page : Page ι} {events : List Event} {c : Command} {next} {req' : Request} {headers : Headers}
    (h : Busy req page events (.call c next)) (hc : c = .fetch req' headers) : hasFetched events = false := by
  generalize hp : Program.call c next = p at h
  cases h with
  | asking huser hr hlive => rfl
  | @refused user r res huser hr hlive hrefused =>
    obtain ⟨next', hnext, -⟩ := conclude_renew req (req.headers page.store.accessToken) r
    cases hp.trans hnext
    cases hc
  | @refreshed user r res pair huser hr hdead hlive hrefused =>
    obtain ⟨next', hnext, -⟩ := conclude_keep req (req.headers page.store.accessToken) pair
    cases hp.trans hnext
    cases hc
  | @dispatching user r res pair huser hr hdead hlive hrefused =>
    obtain ⟨next', hnext, -⟩ := conclude_await
      (.dispatch (.setCredentials user pair.accessToken pair.refreshToken)) fun _ =>
        retry req (req.headers page.store.accessToken) pair.accessToken
    cases hp.trans hnext
    cases hc

/-- A free call that has begun has stored its pair. -/
theorem Free.events {events : List Event} {p : ApiProgram (Option Body)} (h : Free req events p) :
    events = [] ∨ hasStored events = true := by
  cases h with
  | idle => exact .inl rfl
  | retrying hrefused => exact .inr rfl
  | served hrefused => exact .inr rfl

/-- A call that is on its way goes on, or stores its pair. -/
theorem Busy.next (env : Environment) (userAgent : String) {page : Page ι} {i : ι} {e : Circumstance} {c : Command}
    {next} (h : Busy req page (select i page.log) (.call c next)) (hexpected : expected page (i, e) c = true) :
    Busy req (handle env userAgent (i, e) page c).1 (select i (handle env userAgent (i, e) page c).1.log)
        (next (handle env userAgent (i, e) page c).2) ∨
      Free req (select i (handle env userAgent (i, e) page c).1.log) (next (handle env userAgent (i, e) page c).2) ∧
        SignedIn (handle env userAgent (i, e) page c).1 := by
  generalize hevents : select i page.log = events at h
  generalize hp : Program.call c next = p at h
  cases h with
  | asking huser hr hlive =>
    obtain ⟨next', hnext, hanswer⟩ :=
      await_bind (.fetch req (req.headers page.store.accessToken)) (answered true req page.store)
    cases hp.trans hnext
    obtain ⟨res, hresponse, hrefused⟩ := refused_of_expected hexpected (by rw [hevents]; rfl)
    left
    show Busy req (page.record i _) (select i (page.log ++ _)) (next' e.response)
    rw [select_snoc_self, hevents, hresponse, hanswer, answered_refused req hrefused hr]
    exact Busy.congr (.refused huser hr hlive hrefused) rfl rfl
  | refused huser hr hlive hrefused =>
    obtain ⟨next', hnext, hpair, -⟩ := conclude_renew req (req.headers page.store.accessToken) _
    cases hp.trans hnext
    have hfresh := fresh_of_expected hexpected (mem_tokensRead (i := i) (by rw [hevents]; exact List.mem_cons_self) hr)
    have htime := unexpired_of_expected hexpected
    obtain ⟨s', pair, hout, hlive'⟩ := hlive.refreshTokens env userAgent e htime
    have hdead := dead_of_refreshTokens env userAgent e hfresh hout
    left
    show Busy req ({ page with sessions := (refreshTokens env userAgent e page.sessions _).1 }.record i _)
      (select i (page.log ++ _)) (next' (.ok (refreshTokens env userAgent e page.sessions _).2))
    rw [select_snoc_self, hevents, hout, hpair]
    have hbusy : Busy req { page with sessions := s' } _ _ := .refreshed huser hr hdead hlive' hrefused
    exact hbusy.congr rfl rfl
  | refreshed huser hr hdead hlive hrefused =>
    obtain ⟨next', hnext, hanswer⟩ := conclude_keep req (req.headers page.store.accessToken) _
    cases hp.trans hnext
    left
    show Busy req (page.record i _) (select i (page.log ++ _)) (next' (.ok page.store))
    rw [select_snoc_self, hevents, hanswer _ _ huser]
    exact Busy.congr (.dispatching huser hr hdead hlive hrefused) rfl rfl
  | @dispatching user r res pair huser hr hdead hlive hrefused =>
    obtain ⟨next', hnext, hanswer, -⟩ := conclude_await
      (.dispatch (.setCredentials user pair.accessToken pair.refreshToken)) fun _ =>
        retry req (req.headers page.store.accessToken) pair.accessToken
    cases hp.trans hnext
    right
    refine ⟨?_, ⟨user, rfl⟩, pair.refreshToken, hlive.truthy, hlive⟩
    show Free req (select i (page.log ++ _)) (next' (.ok ()))
    rw [select_snoc_self, hevents, hanswer]
    exact .retrying hrefused

/-- What comes after a first read, or after an answer to the request sent again. -/
theorem Free.next (env : Environment) (userAgent : String) {page : Page ι} {i : ι} {e : Circumstance} {c : Command}
    {next} (h : Free req (select i page.log) (.call c next)) (hturn : inTurn page (i, e) c = true) :
    c = .getState ∧ select i page.log = [] ∧
        (SignedIn page → Busy req (handle env userAgent (i, e) page c).1
          (select i (handle env userAgent (i, e) page c).1.log) (next (handle env userAgent (i, e) page c).2)) ∨
      (handle env userAgent (i, e) page c).1.store = page.store ∧
        (handle env userAgent (i, e) page c).1.sessions = page.sessions ∧
        Free req (select i (handle env userAgent (i, e) page c).1.log) (next (handle env userAgent (i, e) page c).2) := by
  generalize hevents : select i page.log = events at h
  generalize hp : Program.call c next = p at h
  cases h with
  | idle =>
    obtain ⟨next', hnext, hanswer⟩ := request_eq req
    cases hp.trans hnext
    left
    refine ⟨rfl, rfl, fun ⟨⟨user, huser⟩, r, hr, hlive⟩ => ?_⟩
    show Busy req (page.record i _) (select i (page.log ++ _)) (next' (.ok page.store))
    rw [select_snoc_self, hevents, hanswer]
    exact Busy.congr (.asking huser hr hlive) rfl rfl
  | @retrying auth auth' res r user pair hrefused =>
    obtain ⟨next', hnext, hok, -⟩ := conclude_retry req (req.headers auth.accessToken) pair.accessToken
    cases hp.trans hnext
    obtain ⟨res', hresponse, hres'⟩ := served_of_inTurn hturn (by rw [hevents]; rfl)
    right
    refine ⟨rfl, rfl, ?_⟩
    show Free req (select i (page.log ++ _)) (next' e.response)
    rw [select_snoc_self, hevents, hresponse, hok res' hres']
    exact .served hrefused
  | @served auth auth' res res' r user pair hrefused => exact absurd hp.symm (value_ended res' c next)

omit [DecidableEq ι] in
theorem Free.not_busy {page : Page ι} {events : List Event} {p : ApiProgram (Option Body)} (h : Free req events p) :
    ¬ Busy req page events p := by
  intro hbusy
  obtain ⟨hbegun, hstored⟩ := hbusy.events
  rcases h.events with hnil | hstored'
  · exact hbegun hnil
  · rw [hstored'] at hstored
    cases hstored

end Stages

/-! ### Runs that meet the condition -/

section Orderly

variable {ι : Type*} [DecidableEq ι] (req : ι → Request)

/-- **The invariant** is that these are exclusive: at most one call is on its way, and when there is none, the user is
signed in. -/
def turns : Stages (Page ι) ι Command Answer Exception (Option Body) where
  free i page p := Free (req i) (select i page.log) p
  busy i page p := Busy (req i) page (select i page.log) p
  calm := SignedIn
  disjoint := Free.not_busy

variable {req} {env : Environment} {userAgent : String} {pool pool' : PagePool ι} {i : ι} {e : Circumstance}

/-- A step leaves what the other calls have seen, and where they are. -/
theorem step_cases (hstep : step env userAgent pool (i, e) = some pool') :
    ∃ c next, pool.procs i = .call c next ∧ pool'.state = (handle env userAgent (i, e) pool.state c).1 ∧
      pool'.procs i = next (handle env userAgent (i, e) pool.state c).2 ∧
        ∀ j, j ≠ i → pool'.procs j = pool.procs j ∧ select j pool'.state.log = select j pool.state.log := by
  obtain ⟨c, next, hi, hstate, hself, hothers⟩ := Pool.step_cases hstep
  refine ⟨c, next, hi, hstate, hself, fun j hj => ⟨hothers j hj, ?_⟩⟩
  obtain ⟨event, hlog⟩ := handle_log env userAgent (i, e) pool.state c
  rw [hstate, hlog, select_snoc_of_ne hj.symm]

/-- Calls that have begun are listed in the log. -/
theorem exists_mem_log {j : ι} (h : select j pool.state.log ≠ []) : ∃ x ∈ pool.state.log, x.1 = j := by
  obtain ⟨event, hmem⟩ := List.exists_mem_of_ne_nil _ h
  exact ⟨_, mem_select.mp hmem, rfl⟩

/-- A step that meets the condition. -/
theorem turns_step (h : pool.Exclusive (turns req)) (hexpected : Meets expected pool (i, e))
    (hturn : Meets inTurn pool (i, e)) (hstep : step env userAgent pool (i, e) = some pool') :
    pool'.Exclusive (turns req) := by
  obtain ⟨c, next, hi, hstate, hself, hothers⟩ := step_cases hstep
  have hexpected := (meets_iff (e := (i, e)) hi).mp hexpected
  have hturn := (meets_iff (e := (i, e)) hi).mp hturn
  have hstands : Free (req i) (select i pool.state.log) (pool.procs i) ∨
      Busy (req i) pool.state (select i pool.state.log) (pool.procs i) := h.stands i
  refine h.step hstep (fun j hj p hfree => ?_) ?_
  · show Free (req j) (select j pool'.state.log) p
    rw [(hothers j hj).2]
    exact hfree
  rcases hstands with hfree | hbusy
  · have hnext := hfree
    rw [hi] at hnext
    rcases hnext.next env userAgent hturn with ⟨rfl, hnil, hbegins⟩ | ⟨hstore, hsessions, hserved⟩
    · -- a first read, which finds no call on its way
      have hnone : ∀ j, ¬ Busy (req j) pool.state (select j pool.state.log) (pool.procs j) := by
        intro j hj
        obtain ⟨hbegun, hstored⟩ := hj.events
        obtain ⟨x, hx, rfl⟩ := exists_mem_log hbegun
        have hall : pool.state.log.all (fun x => hasStored (select x.1 pool.state.log)) = true := by
          unfold inTurn at hturn
          rw [hnil] at hturn
          exact hturn
        rw [List.all_eq_true.mp hall x hx] at hstored
        cases hstored
      refine .inr ⟨fun j _ => hnone j, .inl ?_⟩
      show Busy (req i) pool'.state (select i pool'.state.log) (pool'.procs i)
      rw [hself, hstate]
      exact hbegins (h.calm hnone)
    · -- the request that was sent again
      rw [← hstate] at hstore hsessions hserved
      rw [← hself] at hserved
      refine .inl ⟨hfree, hserved, fun j hj p => ?_, fun ⟨huser, r, hr, hlive⟩ => ?_⟩
      · show Busy (req j) pool.state (select j pool.state.log) p ↔ Busy (req j) pool'.state (select j pool'.state.log) p
        rw [(hothers j hj).2]
        exact ⟨fun hj => hj.congr hstore hsessions, fun hj => hj.congr hstore.symm hsessions.symm⟩
      · show SignedIn pool'.state
        unfold SignedIn
        rw [hstore, hsessions]
        exact ⟨huser, r, hr, hlive⟩
  · refine .inr ⟨fun j hj hbusy' => hj (h.alone j i hbusy' hbusy), ?_⟩
    rw [hi] at hbusy
    show Busy (req i) pool'.state (select i pool'.state.log) (pool'.procs i) ∨
      Free (req i) (select i pool'.state.log) (pool'.procs i) ∧ SignedIn pool'.state
    rw [hself, hstate]
    exact hbusy.next env userAgent hexpected

/-- When all have ended, nobody has been signed out. -/
theorem undisturbed_of_turns (h : pool.Exclusive (turns req)) (hended : ∀ i, (pool.procs i).Ended) (i : ι) :
    Undisturbed (select i pool.state.log) := by
  have hend := hended i
  have hstands : Free (req i) (select i pool.state.log) (pool.procs i) ∨
      Busy (req i) pool.state (select i pool.state.log) (pool.procs i) := h.stands i
  rcases hstands with hstands | hstands
  · generalize select i pool.state.log = events at hstands
    generalize pool.procs i = p at hstands hend
    cases hstands with
    | idle =>
      obtain ⟨next, hnext, -⟩ := request_eq (req i)
      exact absurd hnext (hend _ _)
    | @retrying auth auth' res r user pair hrefused =>
      obtain ⟨next, hnext, -⟩ := conclude_retry (req i) ((req i).headers auth.accessToken) pair.accessToken
      exact absurd hnext (hend _ _)
    | @served auth auth' res res' r user pair hrefused =>
      refine ⟨fun event hmem => ?_, (req i).headers auth.accessToken, res, r, pair,
        { (req i).headers auth.accessToken with authorization := some (bearer pair.accessToken) }, .ok res', hrefused,
        rfl, ?_⟩
      · simp only [storedEvents, List.cons_append, List.nil_append, List.mem_cons, List.not_mem_nil, or_false] at hmem
        rcases hmem with rfl | rfl | rfl | rfl | rfl | rfl
        · exact ⟨by simp, by simp⟩
        · exact ⟨by simp, by simp⟩
        · exact ⟨by simp, by simp⟩
        · exact ⟨by simp, by simp⟩
        · exact ⟨by simp, by simp⟩
        · exact ⟨by simp, by simp⟩
      · refine List.Sublist.cons _ (List.Sublist.cons_cons _ (List.Sublist.cons_cons _ ?_))
        exact List.Sublist.cons _ (List.Sublist.cons _ (List.Sublist.refl _))
  · obtain ⟨c, next, hnext⟩ := hstands.waits
    exact absurd hnext (hend _ _)

end Orderly

/-! ### Runs that do not -/

section Broken

variable {ι : Type*} [DecidableEq ι] (req : ι → Request)

/-- A call that is going to present the token. -/
inductive Holding (req : Request) (r : String) : List Event → ApiProgram (Option Body) → Prop
  | asking {auth : AuthState} (hr : truthy auth.refreshToken = some r) : Holding req r [.read auth] (asking req auth)
  | refused {auth : AuthState} {headers : Headers} {events : List Event} (hread : .read auth ∈ events)
      (hr : truthy auth.refreshToken = some r) : Holding req r events (conclude (renew req headers r))

def HoldingAt (pool : PagePool ι) (r : String) (i : ι) : Prop :=
  Holding (req i) r (select i pool.state.log) (pool.procs i)

/-- Somebody is going to be signed out: two calls that are going to present one token, or one that is going to
present a dead one. -/
inductive Broken (pool : PagePool ι) : Prop
  | contested {i j : ι} {r : String} (hne : i ≠ j) (hi : HoldingAt req pool r i) (hj : HoldingAt req pool r j)
  | stale {i : ι} {r : String} (hi : HoldingAt req pool r i) (hdead : Dead r pool.state.sessions)
  | lost {i : ι} (h : Lost (pool.procs i))
  | signedOut {i : ι} (h : .dispatched .logout ∈ select i pool.state.log)

variable {req} {env : Environment} {userAgent : String} {pool pool' : PagePool ι} {i : ι} {e : Circumstance}
  {r : String}

omit [DecidableEq ι] in
theorem Holding.read {req : Request} {events : List Event} {p : ApiProgram (Option Body)} (h : Holding req r events p) :
    ∃ auth, Event.read auth ∈ events ∧ truthy auth.refreshToken = some r := by
  cases h with
  | asking hr => exact ⟨_, List.mem_cons_self, hr⟩
  | refused hread hr => exact ⟨_, hread, hr⟩

omit [DecidableEq ι] in
theorem Holding.waits {req : Request} {events : List Event} {p : ApiProgram (Option Body)} (h : Holding req r events p) :
    ∃ c next, p = .call c next := by
  cases h with
  | asking hr => exact ⟨_, _, rfl⟩
  | refused hread hr => exact ⟨_, _, rfl⟩

theorem HoldingAt.mem_tokensRead (h : HoldingAt req pool r i) : r ∈ tokensRead pool.state.log := by
  obtain ⟨auth, hmem, hr⟩ := h.read
  exact Dashboard.mem_tokensRead hmem hr

/-- Either the call goes on to present the token, or it presents it: then the token is dead, and if it has been so
before, the call is lost. -/
theorem Holding.next (env : Environment) (userAgent : String) {req : Request} {page : Page ι} {c : Command} {next}
    (h : Holding req r (select i page.log) (.call c next)) (hexpected : expected page (i, e) c = true) :
    (handle env userAgent (i, e) page c).1.sessions = page.sessions ∧
        Holding req r (select i (handle env userAgent (i, e) page c).1.log)
          (next (handle env userAgent (i, e) page c).2) ∨
      (Lost (next (handle env userAgent (i, e) page c).2) ∨ Dead r (handle env userAgent (i, e) page c).1.sessions) ∧
        (Dead r page.sessions → Lost (next (handle env userAgent (i, e) page c).2)) := by
  generalize hevents : select i page.log = events at h
  generalize hp : Program.call c next = p at h
  cases h with
  | @asking auth hr =>
    obtain ⟨next', hnext, hanswer⟩ := await_bind (.fetch req (req.headers auth.accessToken)) (answered true req auth)
    cases hp.trans hnext
    obtain ⟨res, hresponse, hrefused⟩ := refused_of_expected hexpected (by rw [hevents]; rfl)
    refine .inl ⟨rfl, ?_⟩
    show Holding req r (select i (page.log ++ _)) (next' e.response)
    rw [select_snoc_self, hevents, hresponse, hanswer, answered_refused req hrefused hr]
    exact .refused List.mem_cons_self hr
  | @refused auth headers events hread hr =>
    obtain ⟨next', hnext, hpair, hnone⟩ := conclude_renew req headers r
    cases hp.trans hnext
    have hfresh := fresh_of_expected hexpected (mem_tokensRead (i := i) (by rw [hevents]; exact hread) hr)
    right
    cases hout : refreshTokens env userAgent e page.sessions r with
    | mk s' answer =>
      rw [handle_refresh, hout]
      refine ⟨?_, fun hdead => ?_⟩
      · cases answer with
        | some pair => exact .inr (dead_of_refreshTokens env userAgent e hfresh hout)
        | none => exact .inl hnone
      · rw [hdead.refreshTokens] at hout
        cases hout
        exact hnone

/-- A dead token stays dead. -/
theorem Dead.step {page : Page ι} {c : Command} (h : Dead r page.sessions) (hread : r ∈ tokensRead page.log)
    (hexpected : expected page (i, e) c = true) : Dead r (handle env userAgent (i, e) page c).1.sessions := by
  cases c with
  | refresh token =>
    have hfresh := fresh_of_expected hexpected hread
    have hkept := h.kept env userAgent e hfresh token
    rw [handle_refresh]
    generalize Dashboard.refreshTokens env userAgent e page.sessions token = out at hkept ⊢
    exact hkept
  | getState => exact h
  | fetch req headers => exact h
  | dispatch action => exact h
  | redirect href => exact h

/-- What has been seen stays seen. -/
theorem mem_select_step (hstep : Dashboard.step env userAgent pool (i, e) = some pool') {j : ι} {event : Event}
    (hmem : event ∈ select j pool.state.log) : event ∈ select j pool'.state.log := by
  obtain ⟨c, next, -, hstate, -, -⟩ := Pool.step_cases hstep
  obtain ⟨event', hlog⟩ := handle_log env userAgent (i, e) pool.state c
  rw [hstate, hlog, select_append]
  exact List.mem_append_left _ hmem

theorem Broken.step (h : Broken req pool) (hexpected : Meets expected pool (i, e))
    (hstep : Dashboard.step env userAgent pool (i, e) = some pool') : Broken req pool' := by
  obtain ⟨c, next, hi, hstate, hself, hothers⟩ := step_cases hstep
  have hexpected := (meets_iff (e := (i, e)) hi).mp hexpected
  have hkeep : ∀ j r, j ≠ i → HoldingAt req pool r j → HoldingAt req pool' r j := by
    intro j r hj hhold
    unfold HoldingAt
    rw [(hothers j hj).1, (hothers j hj).2]
    exact hhold
  have hdies : ∀ r, r ∈ tokensRead pool.state.log → Dead r pool.state.sessions → Dead r pool'.state.sessions := by
    intro r hread hdead
    rw [hstate]
    exact hdead.step hread hexpected
  have hmove : ∀ r, HoldingAt req pool r i →
      HoldingAt req pool' r i ∨ (Lost (pool'.procs i) ∨ Dead r pool'.state.sessions) ∧
        (Dead r pool.state.sessions → Lost (pool'.procs i)) := by
    intro r hhold
    unfold HoldingAt at hhold ⊢
    rw [hi] at hhold
    rw [hself, hstate]
    exact (hhold.next env userAgent hexpected).imp_left And.right
  cases h with
  | @contested j k r hne hj hk =>
    by_cases hji : j = i
    · subst hji
      have hk' := hkeep k r hne.symm hk
      rcases hmove r hj with hj' | ⟨hlost | hdead, -⟩
      · exact .contested hne hj' hk'
      · exact .lost hlost
      · exact .stale hk' hdead
    · have hj' := hkeep j r hji hj
      by_cases hki : k = i
      · subst hki
        rcases hmove r hk with hk' | ⟨hlost | hdead, -⟩
        · exact .contested hne hj' hk'
        · exact .lost hlost
        · exact .stale hj' hdead
      · exact .contested hne hj' (hkeep k r hki hk)
  | @stale j r hj hdead =>
    by_cases hji : j = i
    · subst hji
      rcases hmove r hj with hj' | ⟨-, hlost⟩
      · exact .stale hj' (hdies r hj.mem_tokensRead hdead)
      · exact .lost (hlost hdead)
    · exact .stale (hkeep j r hji hj) (hdies r hj.mem_tokensRead hdead)
  | @lost j hlost =>
    by_cases hji : j = i
    · subst hji
      obtain ⟨next', hlost⟩ := hlost
      cases hi.symm.trans hlost
      refine .signedOut (i := j) ?_
      rw [hstate]
      show Event.dispatched .logout ∈ select j (pool.state.log ++ [(j, .dispatched .logout)])
      rw [select_snoc_self]
      exact List.mem_append_right _ List.mem_cons_self
    · refine .lost (i := j) ?_
      rw [(hothers j hji).1]
      exact hlost
  | signedOut hout => exact .signedOut (mem_select_step hstep hout)

/-- When all have ended, somebody has been signed out. -/
theorem Broken.not_undisturbed (h : Broken req pool) (hended : ∀ i, (pool.procs i).Ended) :
    ¬ ∀ i, Undisturbed (select i pool.state.log) := by
  intro hall
  cases h with
  | contested hne hi hj =>
    obtain ⟨c, next, hnext⟩ := hi.waits
    exact hended _ c next hnext
  | stale hi hdead =>
    obtain ⟨c, next, hnext⟩ := hi.waits
    exact hended _ c next hnext
  | lost hlost =>
    obtain ⟨next, hnext⟩ := hlost
    exact hended _ _ next hnext
  | @signedOut i hout => exact ((hall i).1 _ hout).1 rfl

omit [DecidableEq ι] in
/-- A call on its way is going to present the token of the store, or that token is dead. -/
theorem Busy.holding {req : Request} {page : Page ι} {events : List Event} {p : ApiProgram (Option Body)}
    (h : Busy req page events p) :
    ∃ r, truthy page.store.refreshToken = some r ∧ (Holding req r events p ∨ Dead r page.sessions) := by
  cases h with
  | asking huser hr hlive => exact ⟨_, hr, .inl (.asking hr)⟩
  | refused huser hr hlive hrefused => exact ⟨_, hr, .inl (.refused List.mem_cons_self hr)⟩
  | refreshed huser hr hdead hlive hrefused => exact ⟨_, hr, .inr hdead⟩
  | dispatching huser hr hdead hlive hrefused => exact ⟨_, hr, .inr hdead⟩

/-- A request that is sent again, and not served. -/
theorem Free.lost (env : Environment) (userAgent : String) {req : Request} {page : Page ι} {request' : Request}
    {headers : Headers} {c : Command} {next} (hc : c = .fetch request' headers)
    (h : Free req (select i page.log) (.call c next))
    (hunserved : answers Response.ok e.response = false) :
    Lost (next (handle env userAgent (i, e) page c).2) := by
  generalize select i page.log = events at h
  generalize hp : Program.call c next = p at h
  cases h with
  | idle =>
    obtain ⟨next', hnext, -⟩ := request_eq req
    cases hp.trans hnext
    cases hc
  | @retrying auth auth' res r user pair hrefused =>
    obtain ⟨next', hnext, -, hlost, herror⟩ := conclude_retry req (req.headers auth.accessToken) pair.accessToken
    cases hp.trans hnext
    show Lost (next' e.response)
    cases hresponse : e.response with
    | ok res' =>
      rw [hresponse] at hunserved
      exact hlost res' hunserved
    | error err => exact herror err
  | @served auth auth' res res' r user pair hrefused => exact absurd hp.symm (value_ended res' _ next)

/-- A call that reads the store first is going to present the token that it finds. -/
theorem Free.holding (env : Environment) (userAgent : String) {req : Request} {page : Page ι} {c : Command} {next}
    (h : Free req (select i page.log) (.call c next)) (hnil : select i page.log = [])
    (hr : truthy page.store.refreshToken = some r) :
    (handle env userAgent (i, e) page c).1.sessions = page.sessions ∧
      Holding req r (select i (handle env userAgent (i, e) page c).1.log)
        (next (handle env userAgent (i, e) page c).2) := by
  generalize hevents : select i page.log = events at h
  generalize hp : Program.call c next = p at h
  cases h with
  | idle =>
    obtain ⟨next', hnext, hanswer⟩ := request_eq req
    cases hp.trans hnext
    refine ⟨rfl, ?_⟩
    show Holding req r (select i (page.log ++ _)) (next' (.ok page.store))
    rw [select_snoc_self, hevents, hanswer]
    exact .asking hr
  | retrying hrefused => cases hevents.symm.trans hnil
  | served hrefused => cases hevents.symm.trans hnil

/-- The step that does not meet the condition. -/
theorem broken_of_turns (h : pool.Exclusive (turns req)) (hturn : ¬ Meets inTurn pool (i, e))
    (hstep : Dashboard.step env userAgent pool (i, e) = some pool') : Broken req pool' := by
  obtain ⟨c, next, hi, hstate, hself, hothers⟩ := step_cases hstep
  rw [meets_iff (e := (i, e)) hi, Bool.not_eq_true] at hturn
  have hstands : Free (req i) (select i pool.state.log) (pool.procs i) ∨
      Busy (req i) pool.state (select i pool.state.log) (pool.procs i) := h.stands i
  rw [hi] at hstands
  cases c with
  | getState =>
    obtain ⟨hnil, hall⟩ := Bool.or_eq_false_iff.mp hturn
    have hnil : select i pool.state.log = [] := by
      rw [Bool.not_eq_false', List.isEmpty_iff] at hnil
      exact hnil
    obtain ⟨⟨j, event⟩, hx, hstored⟩ := List.all_eq_false.mp hall
    have hbegun : select j pool.state.log ≠ [] := List.ne_nil_of_mem (mem_select.mpr hx)
    have hne : j ≠ i := by
      rintro rfl
      exact hbegun hnil
    have hfree := hstands.resolve_right fun hbusy => hbusy.events.1 hnil
    have hbusy : Busy (req j) pool.state (select j pool.state.log) (pool.procs j) :=
      (h.stands j).resolve_left fun hfree => (Free.events hfree).elim hbegun hstored
    obtain ⟨r, hr, hheld⟩ := hbusy.holding
    obtain ⟨hsessions, hi'⟩ := hfree.holding (e := e) env userAgent hnil hr
    rw [← hstate] at hsessions hi'
    rw [← hself] at hi'
    rcases hheld with hheld | hdead
    · refine .contested hne ?_ hi'
      unfold HoldingAt
      rw [(hothers j hne).1, (hothers j hne).2]
      exact hheld
    · refine .stale hi' ?_
      rw [hsessions]
      exact hdead
  | fetch request' headers =>
    obtain ⟨hagain, hunserved⟩ := Bool.or_eq_false_iff.mp hturn
    rw [Bool.not_eq_false'] at hagain
    refine .lost (i := i) ?_
    rw [hself]
    refine Free.lost env userAgent rfl (hstands.resolve_right fun hbusy => ?_) hunserved
    rw [hbusy.first_fetch rfl] at hagain
    cases hagain
  | refresh token => cases hturn
  | dispatch action => cases hturn
  | redirect href => cases hturn

end Broken

/-! ### All runs -/

section Runs

variable {ι : Type*} [DecidableEq ι] (env : Environment) (userAgent : String) (req : ι → Request) (page : Page ι)

/-- Calls that are about to begin. -/
def requestPool : PagePool ι := ⟨page, fun i => request true (req i)⟩

variable {env userAgent req page} {pool : PagePool ι} {es : List (ι × Circumstance)}

theorem turns_start (hlog : page.log = []) (hsigned : SignedIn page) :
    (requestPool req page).Exclusive (turns req) := by
  refine Pool.exclusive_of_free (fun i => ?_) hsigned
  show Free (req i) (select i page.log) (request true (req i))
  rw [hlog]
  exact .idle

/-- The invariant of a run, by whether it has met the condition. -/
theorem turns_or_broken (hlog : page.log = []) (hsigned : SignedIn page)
    (hrun : run (step env userAgent) (requestPool req page) es = some pool)
    (hexpected : Throughout (step env userAgent) (Meets expected) (requestPool req page) es) :
    Throughout (step env userAgent) (Meets inTurn) (requestPool req page) es ∧ pool.Exclusive (turns req) ∨
      ¬ Throughout (step env userAgent) (Meets inTurn) (requestPool req page) es ∧ Broken req pool := by
  revert hexpected
  refine run_induction (step env userAgent) (requestPool req page)
    (fun es t => Throughout (step env userAgent) (Meets expected) (requestPool req page) es →
      Throughout (step env userAgent) (Meets inTurn) (requestPool req page) es ∧ t.Exclusive (turns req) ∨
        ¬ Throughout (step env userAgent) (Meets inTurn) (requestPool req page) es ∧ Broken req t)
    (fun _ => .inl ⟨trivial, turns_start hlog hsigned⟩) (fun es s e t hs ih hstep hexpected => ?_) es pool hrun
  obtain ⟨hexpected, hlast⟩ := (throughout_snoc hs).mp hexpected
  rw [throughout_snoc hs]
  rcases ih hexpected with ⟨hmet, hturns⟩ | ⟨hnot, hbroken⟩
  · by_cases hturn : Meets inTurn s e
    · exact .inl ⟨⟨hmet, hturn⟩, turns_step hturns hlast hturn hstep⟩
    · exact .inr ⟨fun h => hturn h.2, broken_of_turns hturns hturn hstep⟩
  · exact .inr ⟨fun h => hnot h.1, hbroken.step hlast hstep⟩

end Runs

/-- **Nobody is signed out, and every request is sent again with a new access token, exactly if the calls take turns
and their retries are served.** -/
theorem undisturbed_iff {ι : Type*} [DecidableEq ι] (env : Environment) (userAgent : String) (req : ι → Request)
    (page : Page ι) (hlog : page.log = []) (hsigned : SignedIn page) (es : List (ι × Circumstance)) (pool : PagePool ι)
    (hrun : run (step env userAgent) (requestPool req page) es = some pool)
    (hexpected : Throughout (step env userAgent) (Meets expected) (requestPool req page) es)
    (hended : ∀ i, (pool.procs i).Ended) :
    (∀ i, Undisturbed (select i pool.state.log)) ↔
      Throughout (step env userAgent) (Meets inTurn) (requestPool req page) es := by
  rcases turns_or_broken hlog hsigned hrun hexpected with ⟨hmet, hturns⟩ | ⟨hnot, hbroken⟩
  · exact iff_of_true (fun i => undisturbed_of_turns hturns hended i) hmet
  · exact iff_of_false (hbroken.not_undisturbed hended) hnot

/-! ### Two calls -/

/-- The window of the sample user, on the laptop. -/
def laptopPage : Page Bool where
  store := ⟨some ⟨"a@example.com", "user"⟩, some "eyJhbGciOiJIUzI1NiJ9.e30.c2ln", some Auth.laptopToken, true⟩
  sessions := Auth.laptopStore
  log := []

/-- Two of the requests that the first page of the dashboard sends at once. -/
def laptopRequests : Bool → Request
  | false => ⟨"GET", "/v1/analytics/summary", none, false⟩
  | true => ⟨"GET", "/v1/analytics/events/recent?limit=10", none, false⟩

def refusedAt (now : ℕ) (uuid : Ident) : Circumstance := ⟨now, uuid, .ok ⟨401, none⟩⟩

def servedAt (now : ℕ) (uuid : Ident) : Circumstance := ⟨now, uuid, .ok ⟨200, some ⟨"[]", none, none⟩⟩⟩

theorem plain_one : "1".toList.all Auth.plainChar = true := rfl

theorem plain_two : "2".toList.all Auth.plainChar = true := rfl

def firstUuid : Auth.Ident := ⟨"1", plain_one⟩

def secondUuid : Auth.Ident := ⟨"2", plain_two⟩

/-- The second call begins when the first has ended. -/
def callsInTurn : List (Bool × Circumstance) :=
  List.replicate 5 (false, refusedAt 2000 firstUuid) ++ [(false, servedAt 2001 firstUuid)] ++
    List.replicate 5 (true, refusedAt 902000 secondUuid) ++ [(true, servedAt 902001 secondUuid)]

/-- Both calls are sent before either is answered. -/
def callsAtOnce : List (Bool × Circumstance) :=
  [(false, refusedAt 2000 firstUuid), (true, refusedAt 2000 firstUuid)] ++
    List.replicate 4 (false, refusedAt 2001 firstUuid) ++ [(false, servedAt 2002 firstUuid)] ++
    List.replicate 4 (true, refusedAt 2003 secondUuid)

theorem live_laptopToken : Live Auth.laptopToken Auth.laptopStore := by
  have hcell : Auth.laptopStore.strings (refreshKey "user-1" "laptop")
      = some ⟨Auth.laptopToken, some (1000 + 1000 * REFRESH_TOKEN_TTL)⟩ := by
    unfold Auth.laptopStore SessionStore.setString
    simp only [Function.update_self]
    rfl
  exact ⟨"user-1", "laptop", _, Auth.owner_laptopToken, hcell, rfl, by decide⟩

theorem signedIn_laptopPage : SignedIn laptopPage :=
  ⟨⟨_, rfl⟩, Auth.laptopToken, live_laptopToken.truthy, live_laptopToken⟩

theorem undisturbed_iff_in_turn : ∃ pool,
    run (step Auth.sampleEnvironment "") (requestPool laptopRequests laptopPage) callsInTurn = some pool ∧
      ∀ i, Undisturbed (select i pool.state.log) := by
  obtain ⟨pool, hrun, hended⟩ := (Option.any_eq_true _ _).mp (show
    ((run (step Auth.sampleEnvironment "") (requestPool laptopRequests laptopPage) callsInTurn).any fun pool =>
      decide (∀ i, (pool.procs i).nextCommand = none)) = true by decide +kernel)
  rw [decide_eq_true_eq] at hended
  exact ⟨pool, hrun, (undisturbed_iff Auth.sampleEnvironment "" laptopRequests laptopPage rfl signedIn_laptopPage
    callsInTurn pool hrun (by decide +kernel) fun i => ended_iff.mpr (hended i)).mpr (by decide +kernel)⟩

/-- **Two requests at once sign the user out.** -/
theorem signed_out_at_once : ∃ pool,
    run (step Auth.sampleEnvironment "") (requestPool laptopRequests laptopPage) callsAtOnce = some pool ∧
      Throughout (step Auth.sampleEnvironment "") (Meets expected) (requestPool laptopRequests laptopPage) callsAtOnce ∧
      (∀ i, (pool.procs i).Ended) ∧ .dispatched .logout ∈ select true pool.state.log ∧
      ¬ ∀ i, Undisturbed (select i pool.state.log) := by
  obtain ⟨pool, hrun, hseen⟩ := (Option.any_eq_true _ _).mp (show
    ((run (step Auth.sampleEnvironment "") (requestPool laptopRequests laptopPage) callsAtOnce).any fun pool =>
      decide (∀ i, (pool.procs i).nextCommand = none) && (select true pool.state.log).any fun
        | .dispatched .logout => true
        | _ => false) = true by decide +kernel)
  rw [Bool.and_eq_true, decide_eq_true_eq, List.any_eq_true] at hseen
  obtain ⟨hended, event, hmem, hevent⟩ := hseen
  have hout : Event.dispatched .logout ∈ select true pool.state.log := by
    split at hevent
    · exact hmem
    · cases hevent
  exact ⟨pool, hrun, by decide +kernel, fun i => ended_iff.mpr (hended i), hout, fun hall => ((hall true).1 _ hout).1 rfl⟩

end EdgeSphere.Dashboard
