import EdgeSphere.Auth.SessionRuns

/-!
# Racing refreshes

Any number of `refreshTokens` calls that present the same token, interleaved command by command.  The
`GET` that compares the token and the `DEL` that spends it are separate commands, and the answer to
`DEL` is not looked at, so the calls that read the token before the first `DEL` all go on.

* `readsBeforeDel` — the `GET`s of a schedule that are executed before any call takes a second step;
* `Racing` — the invariant: which calls may still return a pair, and that nothing writes the token back;
* `refreshTokens_once_iff` — **the exact condition**: at most one call returns a pair iff at most one
  of those `GET`s found the token;
* `refreshTokens_twice` — a schedule on which two calls return.
-/

namespace EdgeSphere.Auth

open EdgeSphere.Library
open EdgeSphere.Library.Expiry
open EdgeSphere.Library.Buffer
open EdgeSphere.Library.Program
open EdgeSphere.Library.Runs

/-! ### One call -/

section Program

variable (env : Environment) (token u d : String)

/-- What a call does once its `GET` has answered with the token. -/
def afterGet (userAgent : String) (uuid : Ident) : AuthProgram TokenPair := do
  let (user, deviceId) ← (spend u d).catchAll fun _ =>
    throw (.unauthorized "Invalid or expired refresh token")
  generateTokenPair env user userAgent (some deviceId) uuid

/-- A call is its `GET`, and then `afterGet` or a refusal. -/
theorem refreshTokens_eq (howner : owner token = some (u, d)) (userAgent : String) (uuid : Ident) :
    ∃ next, refreshTokens env token userAgent uuid = .call (.get (refreshKey u d)) next ∧
      ∀ stored, next (.ok stored) = if stored = some token then afterGet env u d userAgent uuid
        else .throw (.unauthorized "Invalid or expired refresh token") := by
  refine ⟨_, by unfold refreshTokens redeem; rw [howner]; rfl, ?_⟩
  intro stored
  show (((if stored = some token then spend u d
    else throw (.unauthorized "Invalid or expired refresh token") : AuthProgram _).catchAll _).bind _) = _
  split
  · rfl
  · rfl

/-- A token that is not of three parts is refused before the first command. -/
theorem refreshTokens_eq_throw (howner : owner token = none) (userAgent : String) (uuid : Ident) :
    refreshTokens env token userAgent uuid
      = .throw (.unauthorized "Invalid or expired refresh token") := by
  unfold refreshTokens redeem
  rw [howner]
  rfl

/-- A command that cannot put the token back under its key, nor change the users table. -/
def Tail (c : Command) : Prop :=
  (∀ seconds, c ≠ .set (refreshKey u d) token seconds) ∧ ∀ row, c ≠ .saveUser row

/-- The value drawn is fresh: no refresh token made with it is the presented one. -/
def Fresh (uuid : Ident) : Prop := ∀ userId deviceId, refreshTokenOf userId deviceId uuid.text ≠ token

variable {token}

theorem tail_generateTokenPair {uuid : Ident} (hfresh : Fresh token uuid) (user : UserEntity)
    (userAgent : String) (existing : Option String) :
    (generateTokenPair env user userAgent existing uuid).Within (Tail token u d) := by
  have hlimit : ∀ n, (limitSessions user.id.text n).Within (Tail token u d) :=
    within_limitSessions ⟨by simp, by simp⟩ (fun _ => ⟨by simp, by simp⟩) fun _ => ⟨by simp, by simp⟩
  unfold generateTokenPair
  refine (within_command ⟨by simp, by simp⟩).bind fun accessToken => ?_
  refine (within_command ⟨by simp, by simp⟩).bind fun now => ?_
  refine (within_command ⟨by simp, by simp⟩).bind fun _ => ?_
  refine (within_command ⟨by simp, by simp⟩).bind fun sessionCount => ?_
  refine (hlimit sessionCount).bind fun _ => ?_
  refine (within_command ⟨?_, by simp⟩).bind fun _ => trivial
  intro seconds heq
  rw [Command.set.injEq] at heq
  exact hfresh _ _ heq.2.1

theorem tail_afterGet {uuid : Ident} (hfresh : Fresh token uuid) (userAgent : String) :
    (afterGet env u d userAgent uuid).Within (Tail token u d) := by
  have hspend : ∀ (f : UserEntity × String → AuthProgram TokenPair),
      (∀ user, (f (user, d)).Within (Tail token u d)) →
      (((spend u d).catchAll fun _ =>
        throw (.unauthorized "Invalid or expired refresh token")).bind f).Within (Tail token u d) := by
    intro f hf
    refine ⟨⟨by simp, by simp⟩, fun deleted => ?_⟩
    cases deleted with
    | error e => trivial
    | ok _ =>
      refine ⟨⟨by simp, by simp⟩, fun found => ?_⟩
      cases found with
      | error e => trivial
      | ok found =>
        cases found with
        | none => trivial
        | some user =>
          show ((((if user.isActive then pure (user, d) else _) :
            AuthProgram (UserEntity × String)).catchAll _).bind f).Within _
          split
          · exact hf user
          · trivial
  exact hspend _ fun user => tail_generateTokenPair env u d hfresh user userAgent _

/-- The answers of services that do not fail, with the given users table. -/
def Healthy (users : List UserEntity) (c : Command) (r : Except Exception (Answer c)) : Prop :=
  ∃ now s, s.users = users ∧ r = (handle env now s c).2

/-- A healthy command that adds no user succeeds. -/
theorem ensures_await (users : List UserEntity) {c : Command} (hc : ∀ row, c ≠ .saveUser row)
    (fail : Exception → Prop) : (await c).Ensures (Healthy env users) (fun _ => True) fail := by
  refine ensures_command (fun _ _ => trivial) fun e he => ?_
  obtain ⟨now, s, _, hr⟩ := he
  cases c with
  | saveUser row => exact absurd rfl (hc row)
  | _ => cases hr

theorem ensures_limitSessions (users : List UserEntity) (userId : String) (sessionCount : ℕ)
    (fail : Exception → Prop) :
    (limitSessions userId sessionCount).Ensures (Healthy env users) (fun _ => True) fail := by
  unfold limitSessions
  split
  · refine (ensures_await env users (by simp) _).bind fun oldest _ => ?_
    cases oldest with
    | none => trivial
    | some oldest =>
      refine (ensures_await env users (by simp) _).bind fun _ _ => ?_
      exact ensures_await env users (by simp) _
  · trivial

theorem ensures_generateTokenPair (users : List UserEntity) (user : UserEntity) (userAgent : String)
    (existing : Option String) (uuid : Ident) {post : TokenPair → Prop} (hpost : ∀ pair, post pair)
    (fail : Exception → Prop) :
    (generateTokenPair env user userAgent existing uuid).Ensures (Healthy env users) post fail := by
  unfold generateTokenPair
  refine (ensures_await env users (by simp) _).bind fun accessToken _ => ?_
  refine (ensures_await env users (by simp) _).bind fun now _ => ?_
  refine (ensures_await env users (by simp) _).bind fun _ _ => ?_
  refine (ensures_await env users (by simp) _).bind fun sessionCount _ => ?_
  refine (ensures_limitSessions env users _ sessionCount _).bind fun _ _ => ?_
  exact (ensures_await env users (by simp) _).bind fun _ _ => hpost _

/-- The user of the token is active. -/
def Active (s : SessionStore) : Prop := (activeUser s u).isSome = true

/-- The stored token is traded for its user and device if the user is active. -/
theorem ensures_spend (s : SessionStore) : (spend u d).Ensures (Healthy env s.users)
    (fun p => Active u s ∧ p.1.id.text = u ∧ p.2 = d) (fun _ => ¬ Active u s) := by
  unfold spend
  refine (ensures_await env s.users (by simp) _).bind fun _ _ => ?_
  intro r hr
  obtain ⟨now, s', husers, rfl⟩ := hr
  unfold Active activeUser
  rw [← husers]
  simp only [handle]
  cases hfind : s'.users.find? fun v => decide (v.id.text = u) with
  | none => exact Bool.false_ne_true
  | some user =>
    have hid := List.find?_some hfind
    show Ensures _ _ _ (if user.isActive = true then _ else _)
    by_cases hon : user.isActive = true
    · simp only [if_pos hon]
      exact ⟨rfl, of_decide_eq_true hid, rfl⟩
    · simp only [if_neg hon]
      exact Bool.false_ne_true

/-- Past its `GET` a call ends with a token pair if the user is active, and with a refusal if not. -/
theorem ensures_afterGet (s : SessionStore) (userAgent : String) (uuid : Ident) :
    (afterGet env u d userAgent uuid).Ensures (Healthy env s.users) (fun _ => Active u s)
      (fun _ => ¬ Active u s) := by
  unfold afterGet
  refine Ensures.bind ((ensures_spend env u d s).catchAll fun e he => he) fun p hp => ?_
  exact ensures_generateTokenPair env s.users p.1 userAgent (some p.2) uuid (fun _ => hp.1) _

end Program

variable {ι : Type*} [DecidableEq ι]

/-! ### Schedules -/

/-- The longest part of a schedule in which no call takes a second step.  A call's first step is its
`GET`, its second its `DEL`. -/
def readsBeforeDel : List ι → List (ι × ℕ) → List (ι × ℕ)
  | _, [] => []
  | seen, e :: es => if e.1 ∈ seen then [] else e :: readsBeforeDel (e.1 :: seen) es

theorem readsBeforeDel_append_of_eq {es : List (ι × ℕ)} :
    ∀ {seen : List ι}, readsBeforeDel seen es = es → ∀ fs,
      readsBeforeDel seen (es ++ fs) = es ++ readsBeforeDel ((es.map Prod.fst).reverse ++ seen) fs := by
  induction es with
  | nil => intro seen _ fs; rfl
  | cons e es ih =>
    intro seen h fs
    simp only [readsBeforeDel] at h
    split at h
    · cases h
    · rename_i hfresh
      rw [List.cons.injEq] at h
      rw [List.cons_append, readsBeforeDel, if_neg hfresh, ih h.2 fs]
      simp

theorem readsBeforeDel_append_of_ne {es : List (ι × ℕ)} :
    ∀ {seen : List ι}, readsBeforeDel seen es ≠ es → ∀ fs,
      readsBeforeDel seen (es ++ fs) = readsBeforeDel seen es := by
  induction es with
  | nil => intro seen h; exact absurd rfl h
  | cons e es ih =>
    intro seen h fs
    rw [List.cons_append, readsBeforeDel, readsBeforeDel]
    split
    · rfl
    · rename_i hfresh
      rw [readsBeforeDel, if_neg hfresh] at h
      rw [ih (fun heq => h (by rw [heq])) fs]

theorem readsBeforeDel_nodup (es : List (ι × ℕ)) :
    ∀ seen : List ι, ((readsBeforeDel seen es).map Prod.fst).Nodup ∧
      ∀ i ∈ (readsBeforeDel seen es).map Prod.fst, i ∉ seen := by
  induction es with
  | nil => intro seen; exact ⟨List.nodup_nil, fun i hi => by cases hi⟩
  | cons e es ih =>
    intro seen
    rw [readsBeforeDel]
    split
    · exact ⟨List.nodup_nil, fun i hi => by cases hi⟩
    · rename_i hfresh
      obtain ⟨hnodup, hnot⟩ := ih (e.1 :: seen)
      rw [List.map_cons]
      refine ⟨List.nodup_cons.mpr ⟨fun hmem => hnot e.1 hmem List.mem_cons_self, hnodup⟩, ?_⟩
      intro i hi
      rcases List.mem_cons.mp hi with rfl | hi
      · exact hfresh
      · exact fun hseen => hnot i hi (List.mem_cons_of_mem _ hseen)

theorem readsBeforeDel_sublist (es : List (ι × ℕ)) : ∀ seen, (readsBeforeDel seen es).Sublist es := by
  induction es with
  | nil => intro seen; exact List.Sublist.refl _
  | cons e es ih =>
    intro seen
    rw [readsBeforeDel]
    split
    · exact List.nil_sublist _
    · exact (ih _).cons_cons e

theorem readsBeforeDel_snoc_read {es : List (ι × ℕ)} {e : ι × ℕ} (h : readsBeforeDel [] es = es)
    (he : e.1 ∉ es.map Prod.fst) : readsBeforeDel [] (es ++ [e]) = es ++ [e] := by
  rw [readsBeforeDel_append_of_eq h, readsBeforeDel, if_neg (by simpa using he), readsBeforeDel]

theorem readsBeforeDel_snoc_del {es : List (ι × ℕ)} {e : ι × ℕ} (h : readsBeforeDel [] es = es)
    (he : e.1 ∈ es.map Prod.fst) : readsBeforeDel [] (es ++ [e]) = es := by
  rw [readsBeforeDel_append_of_eq h, readsBeforeDel, if_pos (by simpa using he), List.append_nil]

/-! ### The race -/

section Race

variable (env : Environment) (token u d : String) (userAgent : ι → String) (uuid : ι → Ident)
  (s : SessionStore)

/-- Calls that all present the same token. -/
def racePool : Pool SessionStore ι Command Answer Exception TokenPair :=
  ⟨s, fun i => refreshTokens env token (userAgent i) (uuid i)⟩

/-- The calls whose `GET` is executed before the first `DEL` and finds the token. -/
def hits (es : List (ι × ℕ)) : List ι :=
  ((readsBeforeDel [] es).filter fun e =>
    decide (read e.2 (s.strings (refreshKey u d)) = some token)).map Prod.fst

theorem hits_nodup (es : List (ι × ℕ)) : (hits token u d s es).Nodup :=
  (readsBeforeDel_nodup es []).1.sublist (List.filter_sublist.map _)

theorem hits_subset {es : List (ι × ℕ)} {i : ι} (h : i ∈ hits token u d s es) : i ∈ es.map Prod.fst :=
  ((List.filter_sublist.trans (readsBeforeDel_sublist es [])).map Prod.fst).subset h

/-- A first step before the first `DEL` is a hit if it finds the token. -/
theorem hits_snoc_read {es : List (ι × ℕ)} {i : ι} (now : ℕ) (hopen : readsBeforeDel [] es = es)
    (hi : i ∉ es.map Prod.fst) :
    hits token u d s (es ++ [(i, now)]) = hits token u d s es
      ++ if read now (s.strings (refreshKey u d)) = some token then [i] else [] := by
  have hold : hits token u d s es = (es.filter fun e =>
      decide (read e.2 (s.strings (refreshKey u d)) = some token)).map Prod.fst := by
    rw [hits, hopen]
  rw [hold, hits, readsBeforeDel_snoc_read (e := (i, now)) hopen hi, List.filter_append,
    List.map_append]
  by_cases hlive : read now (s.strings (refreshKey u d)) = some token
  · simp only [hlive, List.filter_cons, List.filter_nil, decide_true, if_true, List.map_cons,
      List.map_nil]
  · simp only [hlive, List.filter_cons, List.filter_nil, decide_false, if_false, List.map_nil,
      Bool.false_eq_true]

/-- No step after the first `DEL` is a hit. -/
theorem hits_snoc_closed {es : List (ι × ℕ)} {e : ι × ℕ} (hclosed : readsBeforeDel [] es ≠ es) :
    hits token u d s (es ++ [e]) = hits token u d s es := by
  rw [hits, readsBeforeDel_append_of_ne hclosed, hits]

/-- **The invariant.**  Calls that have not moved are at their start; of those that have, the hits are
past their `GET` and the others have been refused; until the first `DEL` nothing has changed, and from
then on nobody reads the token. -/
structure Racing (es : List (ι × ℕ))
    (pool : Pool SessionStore ι Command Answer Exception TokenPair) : Prop where
  users : pool.state.users = s.users
  unmoved : ∀ i, i ∉ es.map Prod.fst → pool.procs i = (racePool env token userAgent uuid s).procs i
  missed : ∀ i ∈ es.map Prod.fst, i ∉ hits token u d s es → ∃ e, pool.procs i = .throw e
  tail : ∀ i ∈ hits token u d s es, (pool.procs i).Within (Tail token u d)
  ends : ∀ i ∈ hits token u d s es,
    (pool.procs i).Ensures (Healthy env s.users) (fun _ => Active u s) (fun _ => ¬ Active u s)
  before : readsBeforeDel [] es = es → pool.state = s ∧
    ∀ i ∈ hits token u d s es, pool.procs i = afterGet env u d (userAgent i) (uuid i)
  after : readsBeforeDel [] es ≠ es → ∀ now,
    read now (pool.state.strings (refreshKey u d)) ≠ some token

variable {env token u d userAgent uuid s}

theorem racing_start : Racing env token u d userAgent uuid s [] (racePool env token userAgent uuid s) where
  users := rfl
  unmoved _ _ := rfl
  missed i hi := by cases hi
  tail i hi := by cases hi
  ends i hi := by cases hi
  before _ := ⟨rfl, fun i hi => by cases hi⟩
  after h := absurd rfl h

/-- A tail command keeps the users, and keeps the token away. -/
theorem handle_of_tail {c : Command} (hc : Tail token u d c) (now : ℕ) (s' : SessionStore) :
    (handle env now s' c).1.users = s'.users ∧
      ((∀ t, read t (s'.strings (refreshKey u d)) ≠ some token) →
        ∀ t, read t ((handle env now s' c).1.strings (refreshKey u d))
          ≠ some token) := by
  cases c with
  | saveUser row => exact absurd rfl (hc.2 row)
  | set key value seconds =>
    refine ⟨rfl, fun h t => ?_⟩
    show read t (Function.update s'.strings key (put now seconds value) (refreshKey u d)) ≠ _
    by_cases hkey : refreshKey u d = key
    · rw [← hkey, Function.update_self, read_put]
      split
      · intro heq
        cases heq
        exact hc.1 seconds (by rw [hkey])
      · simp
    · rw [Function.update_of_ne hkey]
      exact h t
  | del key =>
    refine ⟨rfl, fun h t => ?_⟩
    show read t (Function.update s'.strings key none (refreshKey u d)) ≠ _
    by_cases hkey : refreshKey u d = key
    · rw [← hkey, Function.update_self]
      simp
    · rw [Function.update_of_ne hkey]
      exact h t
  | _ => exact ⟨rfl, fun h => h⟩

variable {es : List (ι × ℕ)} {pool : Pool SessionStore ι Command Answer Exception TokenPair} {i : ι}
  {now : ℕ} {c : Command} {next : Except Exception (Answer c) → AuthProgram TokenPair}

/-- What is still to be said about a step of call `i` once the others are seen to be where they
were. -/
theorem racing_step {s' : SessionStore} {p : AuthProgram TokenPair}
    (h : Racing env token u d userAgent uuid s es pool)
    (hothers : ∀ j, j ≠ i → (j ∈ hits token u d s (es ++ [(i, now)]) ↔ j ∈ hits token u d s es))
    (husers : s'.users = s.users)
    (hmissed : i ∉ hits token u d s (es ++ [(i, now)]) → ∃ e, p = .throw e)
    (htail : i ∈ hits token u d s (es ++ [(i, now)]) → p.Within (Tail token u d))
    (hends : i ∈ hits token u d s (es ++ [(i, now)]) →
      p.Ensures (Healthy env s.users) (fun _ => Active u s) (fun _ => ¬ Active u s))
    (hbefore : readsBeforeDel [] (es ++ [(i, now)]) = es ++ [(i, now)] →
      readsBeforeDel [] es = es ∧ s' = s ∧
        (i ∈ hits token u d s (es ++ [(i, now)]) → p = afterGet env u d (userAgent i) (uuid i)))
    (hafter : readsBeforeDel [] (es ++ [(i, now)]) ≠ es ++ [(i, now)] → ∀ t,
      read t (s'.strings (refreshKey u d)) ≠ some token) :
    Racing env token u d userAgent uuid s (es ++ [(i, now)]) ⟨s', Function.update pool.procs i p⟩ where
  users := husers
  unmoved j hj := by
    rw [List.map_append, List.mem_append, not_or] at hj
    have hji : j ≠ i := fun heq => hj.2 (List.mem_singleton.mpr heq)
    exact (Function.update_of_ne hji _ _).trans (h.unmoved j hj.1)
  missed j hj hmiss := by
    by_cases hji : j = i
    · subst hji
      obtain ⟨e, he⟩ := hmissed hmiss
      exact ⟨e, (Function.update_self _ _ _).trans he⟩
    · rw [List.map_append, List.mem_append] at hj
      have hj' := hj.resolve_right fun hmem => hji (List.mem_singleton.mp hmem)
      obtain ⟨e, he⟩ := h.missed j hj' fun hmem => hmiss ((hothers j hji).mpr hmem)
      exact ⟨e, (Function.update_of_ne hji _ _).trans he⟩
  tail j hj := by
    show (Function.update pool.procs i p j).Within _
    by_cases hji : j = i
    · subst hji
      rw [Function.update_self]
      exact htail hj
    · rw [Function.update_of_ne hji]
      exact h.tail j ((hothers j hji).mp hj)
  ends j hj := by
    show (Function.update pool.procs i p j).Ensures _ _ _
    by_cases hji : j = i
    · subst hji
      rw [Function.update_self]
      exact hends hj
    · rw [Function.update_of_ne hji]
      exact h.ends j ((hothers j hji).mp hj)
  before hopen := by
    obtain ⟨hopen', hs, hself⟩ := hbefore hopen
    refine ⟨hs, fun j hj => ?_⟩
    show Function.update pool.procs i p j = _
    by_cases hji : j = i
    · subst hji
      rw [Function.update_self]
      exact hself hj
    · rw [Function.update_of_ne hji]
      exact (h.before hopen').2 j ((hothers j hji).mp hj)
  after := hafter

/-- A call that moves again is a hit. -/
theorem Racing.hit_of_moved (h : Racing env token u d userAgent uuid s es pool)
    (hi : i ∈ es.map Prod.fst) (hproc : pool.procs i = .call c next) : i ∈ hits token u d s es := by
  by_contra hmiss
  obtain ⟨e, he⟩ := h.missed i hi hmiss
  rw [he] at hproc
  cases hproc

/-- What a hit does next. -/
theorem Racing.hit_step (h : Racing env token u d userAgent uuid s es pool) (now : ℕ)
    (hhit : i ∈ hits token u d s es) (hproc : pool.procs i = .call c next) :
    Tail token u d c ∧ (next (handle env now pool.state c).2).Within (Tail token u d) ∧
      (next (handle env now pool.state c).2).Ensures (Healthy env s.users) (fun _ => Active u s)
        (fun _ => ¬ Active u s) := by
  have htail := h.tail i hhit
  rw [hproc] at htail
  have hends := h.ends i hhit
  rw [hproc] at hends
  exact ⟨htail.1, htail.2 _, hends _ ⟨now, pool.state, h.users, rfl⟩⟩

/-- What a call's first step does: it changes nothing, and goes on if the token is there. -/
theorem Racing.first_step (h : Racing env token u d userAgent uuid s es pool) (now : ℕ)
    (howner : owner token = some (u, d)) (hi : i ∉ es.map Prod.fst) (hproc : pool.procs i = .call c next) :
    (handle env now pool.state c).1 = pool.state ∧
      next (handle env now pool.state c).2
        = if read now (pool.state.strings (refreshKey u d)) = some token
          then afterGet env u d (userAgent i) (uuid i)
          else .throw (.unauthorized "Invalid or expired refresh token") := by
  obtain ⟨next', heq, hnext⟩ := refreshTokens_eq env token u d howner (userAgent i) (uuid i)
  have hcall := heq.symm.trans ((h.unmoved i hi).symm.trans hproc)
  cases hcall
  exact ⟨rfl, hnext _⟩

/-- A first step before the first `DEL`: the `GET` sees the key as it was at the start. -/
theorem racing_read_open (howner : owner token = some (u, d)) (hfresh : ∀ i, Fresh token (uuid i))
    (h : Racing env token u d userAgent uuid s es pool)
    (hopen : readsBeforeDel [] es = es) (hi : i ∉ es.map Prod.fst)
    (hproc : pool.procs i = .call c next) :
    Racing env token u d userAgent uuid s (es ++ [(i, now)])
      ⟨(handle env now pool.state c).1,
        Function.update pool.procs i (next (handle env now pool.state c).2)⟩ := by
  obtain ⟨hsame, hnext⟩ := h.first_step now howner hi hproc
  obtain ⟨hs, _⟩ := h.before hopen
  have hreads := readsBeforeDel_snoc_read (e := (i, now)) hopen hi
  have hhits := hits_snoc_read token u d s now hopen hi
  have hnot : i ∉ hits token u d s es := fun hmem => hi (hits_subset token u d s hmem)
  have hself : i ∈ hits token u d s (es ++ [(i, now)]) ↔
      read now (s.strings (refreshKey u d)) = some token := by
    rw [hhits, List.mem_append]
    split
    · rename_i hlive
      exact ⟨fun _ => hlive, fun _ => Or.inr (List.mem_singleton_self i)⟩
    · rename_i hdead
      exact ⟨fun hmem => absurd (hmem.resolve_right (by simp)) hnot, fun hlive => absurd hlive hdead⟩
  have hprog : next (handle env now pool.state c).2
      = if i ∈ hits token u d s (es ++ [(i, now)]) then afterGet env u d (userAgent i) (uuid i)
        else .throw (.unauthorized "Invalid or expired refresh token") := by
    rw [hnext, hs]
    simp only [hself]
  rw [hsame, hprog]
  refine racing_step h ?_ h.users ?_ ?_ ?_ ?_ ?_
  · intro j hji
    rw [hhits, List.mem_append]
    refine ⟨fun hmem => hmem.resolve_right fun hj => hji ?_, Or.inl⟩
    split at hj
    · exact List.mem_singleton.mp hj
    · cases hj
  · intro hmiss
    exact ⟨_, if_neg hmiss⟩
  · intro hhit
    rw [if_pos hhit]
    exact tail_afterGet env u d (hfresh i) (userAgent i)
  · intro hhit
    rw [if_pos hhit]
    exact ensures_afterGet env u d s (userAgent i) (uuid i)
  · intro _
    exact ⟨hopen, hs, fun hhit => if_pos hhit⟩
  · intro hclosed
    exact absurd hreads hclosed

/-- A second step before the first `DEL` is that `DEL`. -/
theorem racing_del (h : Racing env token u d userAgent uuid s es pool)
    (hopen : readsBeforeDel [] es = es) (hi : i ∈ es.map Prod.fst)
    (hproc : pool.procs i = .call c next) :
    Racing env token u d userAgent uuid s (es ++ [(i, now)])
      ⟨(handle env now pool.state c).1,
        Function.update pool.procs i (next (handle env now pool.state c).2)⟩ := by
  have hhit := h.hit_of_moved hi hproc
  have hdel : c = .del (refreshKey u d) := by
    have hcall := ((h.before hopen).2 i hhit).symm.trans hproc
    cases hcall
    rfl
  obtain ⟨-, hwithin, hends⟩ := h.hit_step now hhit hproc
  have hreads := readsBeforeDel_snoc_del (e := (i, now)) hopen hi
  have hhits : hits token u d s (es ++ [(i, now)]) = hits token u d s es := by rw [hits, hreads, hits, hopen]
  refine racing_step h (fun j _ => by rw [hhits]) ?_ (fun hmiss => absurd (hhits ▸ hhit) hmiss)
    (fun _ => hwithin) (fun _ => hends) ?_ ?_
  · rw [hdel]
    exact h.users
  · intro heq
    rw [hreads] at heq
    exact absurd heq (by simp)
  · intro _ t
    rw [hdel]
    show read t (Function.update pool.state.strings (refreshKey u d) none (refreshKey u d)) ≠ _
    rw [Function.update_self]
    simp

/-- Once the first `DEL` is past, a schedule stays so. -/
theorem snoc_closed {e : ι × ℕ} (hclosed : readsBeforeDel [] es ≠ es) :
    readsBeforeDel [] (es ++ [e]) ≠ es ++ [e] := by
  rw [readsBeforeDel_append_of_ne hclosed]
  intro heq
  have hlen := congrArg List.length heq
  have hle := (readsBeforeDel_sublist es []).length_le
  rw [List.length_append, List.length_singleton] at hlen
  omega

/-- A first step after the first `DEL` finds no token. -/
theorem racing_read_closed (howner : owner token = some (u, d))
    (h : Racing env token u d userAgent uuid s es pool)
    (hclosed : readsBeforeDel [] es ≠ es) (hi : i ∉ es.map Prod.fst)
    (hproc : pool.procs i = .call c next) :
    Racing env token u d userAgent uuid s (es ++ [(i, now)])
      ⟨(handle env now pool.state c).1,
        Function.update pool.procs i (next (handle env now pool.state c).2)⟩ := by
  obtain ⟨hsame, hnext⟩ := h.first_step now howner hi hproc
  have hhits := hits_snoc_closed token u d s (e := (i, now)) hclosed
  have hnot : i ∉ hits token u d s (es ++ [(i, now)]) := fun hmem => hi (hits_subset token u d s (hhits ▸ hmem))
  rw [hsame, hnext, if_neg (h.after hclosed now)]
  exact racing_step h (fun j _ => by rw [hhits]) h.users (fun _ => ⟨_, rfl⟩)
    (fun hhit => absurd hhit hnot) (fun hhit => absurd hhit hnot)
    (fun hopen => absurd hopen (snoc_closed hclosed)) (fun _ => h.after hclosed)

/-- A later step after the first `DEL`. -/
theorem racing_tail (h : Racing env token u d userAgent uuid s es pool)
    (hclosed : readsBeforeDel [] es ≠ es) (hi : i ∈ es.map Prod.fst)
    (hproc : pool.procs i = .call c next) :
    Racing env token u d userAgent uuid s (es ++ [(i, now)])
      ⟨(handle env now pool.state c).1,
        Function.update pool.procs i (next (handle env now pool.state c).2)⟩ := by
  have hhit := h.hit_of_moved hi hproc
  have hhits := hits_snoc_closed token u d s (e := (i, now)) hclosed
  obtain ⟨hc, hwithin, hends⟩ := h.hit_step now hhit hproc
  have hkeep := @handle_of_tail env token u d c hc now pool.state
  exact racing_step h (fun j _ => by rw [hhits]) (hkeep.1.trans h.users)
    (fun hmiss => absurd (hhits ▸ hhit) hmiss) (fun _ => hwithin) (fun _ => hends)
    (fun hopen => absurd hopen (snoc_closed hclosed)) (fun _ => hkeep.2 (h.after hclosed))

/-- **The invariant along a schedule.** -/
theorem racing_run (howner : owner token = some (u, d)) (hfresh : ∀ i, Fresh token (uuid i))
    (hrun : run (Pool.step (handle env)) (racePool env token userAgent uuid s) es = some pool) :
    Racing env token u d userAgent uuid s es pool := by
  refine run_induction _ _ (fun es pool => Racing env token u d userAgent uuid s es pool) racing_start
    ?_ es pool hrun
  intro es m e t _ hm hstep
  obtain ⟨c, next, hproc, rfl⟩ := Pool.step_eq_some.mp hstep
  by_cases hopen : readsBeforeDel [] es = es
  · by_cases hi : e.1 ∈ es.map Prod.fst
    · exact racing_del hm hopen hi hproc
    · exact racing_read_open howner hfresh hm hopen hi hproc
  · by_cases hi : e.1 ∈ es.map Prod.fst
    · exact racing_tail hm hopen hi hproc
    · exact racing_read_closed howner hm hopen hi hproc

/-- Without an owner no call ever moves. -/
theorem ownerless_run (howner : owner token = none)
    (hrun : run (Pool.step (handle env)) (racePool env token userAgent uuid s) es = some pool) :
    ∀ i, pool.procs i = .throw (.unauthorized "Invalid or expired refresh token") := by
  refine run_induction _ _
    (fun _ pool => ∀ i, pool.procs i = .throw (.unauthorized "Invalid or expired refresh token"))
    (fun i => refreshTokens_eq_throw env token howner (userAgent i) (uuid i)) ?_ es pool hrun
  intro es m e t _ hm hstep
  obtain ⟨c, next, hproc, _⟩ := Pool.step_eq_some.mp hstep
  rw [hm e.1] at hproc
  cases hproc

/-! ### One-time use -/

/-- The calls whose `GET` is executed before any call has executed its `DEL`, at a time at which the
token would be accepted: it is the stored one and its user is active. -/
def acceptedReads (token : String) (s : SessionStore) (es : List (ι × ℕ)) : List ι :=
  match owner token with
  | none => []
  | some (u, d) => if (activeUser s u).isSome then hits token u d s es else []

/-- No two calls have returned a token pair. -/
def AtMostOne (pool : Pool SessionStore ι Command Answer Exception TokenPair) : Prop :=
  ∀ i j pair pair', pool.procs i = .ret pair → pool.procs j = .ret pair' → i = j

/-- Every call that has moved has ended. -/
def Complete (es : List (ι × ℕ)) (pool : Pool SessionStore ι Command Answer Exception TokenPair) :
    Prop :=
  ∀ i ∈ es.map Prod.fst, ∀ c next, pool.procs i ≠ .call c next

/-- A call that has returned a pair is a hit, and the user is active. -/
theorem Racing.hit_of_ret (h : Racing env token u d userAgent uuid s es pool)
    (howner : owner token = some (u, d)) {pair : TokenPair} (hret : pool.procs i = .ret pair) :
    i ∈ hits token u d s es ∧ Active u s := by
  have hhit : i ∈ hits token u d s es := by
    by_contra hmiss
    by_cases hi : i ∈ es.map Prod.fst
    · obtain ⟨e, he⟩ := h.missed i hi hmiss
      rw [he] at hret
      cases hret
    · obtain ⟨next, heq, -⟩ := refreshTokens_eq env token u d howner (userAgent i) (uuid i)
      have hcall := heq.symm.trans ((h.unmoved i hi).symm.trans hret)
      cases hcall
  have hends := h.ends i hhit
  rw [hret] at hends
  exact ⟨hhit, hends⟩

/-- A hit that has ended has returned a pair, if the user is active. -/
theorem Racing.ret_of_hit (h : Racing env token u d userAgent uuid s es pool)
    (hactive : Active u s) (hcomplete : Complete es pool) (hhit : i ∈ hits token u d s es) :
    ∃ pair, pool.procs i = .ret pair := by
  have hends := h.ends i hhit
  cases hproc : pool.procs i with
  | ret pair => exact ⟨pair, rfl⟩
  | throw e =>
    rw [hproc] at hends
    exact absurd hactive hends
  | call c next =>
    exact absurd hproc (hcomplete i (hits_subset token u d s hhit) c next)

/-- **The exact condition for one-time use.**  Whatever the calls and the schedule, as long as at most
one `GET` is accepted before the first `DEL`, at most one call returns a token pair; and where every
call has come to its end, this is the only way for the token to be used at most once. -/
theorem refreshTokens_once_iff (hfresh : ∀ i, Fresh token (uuid i))
    (hrun : run (Pool.step (handle env)) (racePool env token userAgent uuid s) es = some pool) :
    ((acceptedReads token s es).length ≤ 1 → AtMostOne pool) ∧
      (Complete es pool → (AtMostOne pool ↔ (acceptedReads token s es).length ≤ 1)) := by
  have honce : (acceptedReads token s es).length ≤ 1 → AtMostOne pool := by
    intro hlen i j pair pair' hi hj
    cases howner : owner token with
    | none =>
      rw [ownerless_run howner hrun i] at hi
      cases hi
    | some p =>
      have h := racing_run (u := p.1) (d := p.2) howner hfresh hrun
      obtain ⟨hi, hactive⟩ := h.hit_of_ret howner hi
      obtain ⟨hj, -⟩ := h.hit_of_ret howner hj
      simp only [acceptedReads, howner, if_pos (show (activeUser s p.1).isSome = true from hactive)]
        at hlen
      match hits token p.1 p.2 s es, hlen, hi, hj with
      | [a], _, hi, hj => exact (List.mem_singleton.mp hi).trans (List.mem_singleton.mp hj).symm
  refine ⟨honce, fun hcomplete => ⟨fun hone => ?_, honce⟩⟩
  by_contra hlen
  cases howner : owner token with
  | none =>
    simp only [acceptedReads, howner, List.length_nil] at hlen
    omega
  | some p =>
    have h := racing_run (u := p.1) (d := p.2) howner hfresh hrun
    simp only [acceptedReads, howner] at hlen
    by_cases hactive : (activeUser s p.1).isSome = true
    · rw [if_pos hactive] at hlen
      have hnodup := hits_nodup token p.1 p.2 s es
      have hret := fun i => h.ret_of_hit (i := i) hactive hcomplete
      match hits token p.1 p.2 s es, hlen, hnodup, hret with
      | [], hlen, _, _ => exact hlen (Nat.zero_le 1)
      | [_], hlen, _, _ => exact hlen (le_refl 1)
      | a :: b :: rest, _, hnodup, hret =>
        obtain ⟨pair, ha⟩ := hret a List.mem_cons_self
        obtain ⟨pair', hb⟩ := hret b (List.mem_cons_of_mem _ List.mem_cons_self)
        rw [hone a b pair pair' ha hb] at hnodup
        exact (List.nodup_cons.mp hnodup).1 List.mem_cons_self
    · rw [if_neg hactive] at hlen
      exact hlen (Nat.zero_le 1)

end Race

/-! ### Two calls -/

/-- A value of the length of the token's own, and not that one, is fresh. -/
theorem fresh_refreshTokenOf {u d : String} {x uuid : Ident}
    (hlen : uuid.text.toList.length = x.text.toList.length) (hne : uuid ≠ x) :
    Fresh (refreshTokenOf u d x.text) uuid := by
  intro userId deviceId heq
  exact hne (Ident.ext (toBase64_append_inj uuid.isPlain.ascii x.isPlain.ascii hlen heq))

/-- The sample user, with one live token. -/
def racedStore : SessionStore :=
  (SessionStore.initial [sampleUser]).setString
    (refreshKey "user-1" "b23a6a8439c0dde5515893e7c90c1e3233b8616e634470f20dc4928bcf3609bc")
    (put 1000 REFRESH_TOKEN_TTL sampleToken)

theorem plain_raced (i : Bool) : (if i then "e02fd0e4-00fd-090a-ca30-0d00a0038ba0"
    else "7c9e6679-7425-40de-944b-e07fc1f90ae7").toList.all plainChar = true := by
  cases i <;> decide

def racedUuid : Bool → Ident
  | false => ⟨"7c9e6679-7425-40de-944b-e07fc1f90ae7", plain_raced false⟩
  | true => ⟨"e02fd0e4-00fd-090a-ca30-0d00a0038ba0", plain_raced true⟩

def racedPool : Pool SessionStore Bool Command Answer Exception TokenPair :=
  racePool sampleEnvironment sampleToken (fun _ => "") racedUuid racedStore

/-- Both calls read the token before either deletes it. -/
def bothRead : List (Bool × ℕ) :=
  [(false, 2000), (true, 2000)] ++ List.replicate 7 (false, 2001) ++ List.replicate 7 (true, 2002)

/-- The second call reads after the first has ended. -/
def oneThenOther : List (Bool × ℕ) := List.replicate 8 (false, 2000) ++ [(true, 2001)]

theorem fresh_racedUuid (i : Bool) : Fresh sampleToken (racedUuid i) := by
  cases i with
  | false =>
    exact @fresh_refreshTokenOf "user-1" _ ⟨"0f8fad5b-d9cb-469f-a165-70867728950e", by decide⟩
      (racedUuid false) (by decide) (by decide)
  | true =>
    exact @fresh_refreshTokenOf "user-1" _ ⟨"0f8fad5b-d9cb-469f-a165-70867728950e", by decide⟩
      (racedUuid true) (by decide) (by decide)

theorem refreshTokens_once_in_turn :
    ∃ pool, run (Pool.step (handle sampleEnvironment)) racedPool oneThenOther = some pool ∧
      AtMostOne pool := by
  have hruns : (run (Pool.step (handle sampleEnvironment)) racedPool oneThenOther).isSome = true := by
    decide +kernel
  have hreads : (acceptedReads sampleToken racedStore oneThenOther).length ≤ 1 := by decide +kernel
  obtain ⟨pool, hrun⟩ := Option.isSome_iff_exists.mp hruns
  exact ⟨pool, hrun, (refreshTokens_once_iff fresh_racedUuid hrun).1 hreads⟩

/-- **One token, two token pairs.** -/
theorem refreshTokens_twice :
    ∃ pool, run (Pool.step (handle sampleEnvironment)) racedPool bothRead = some pool ∧
      ¬ AtMostOne pool := by
  have hboth : ((run (Pool.step (handle sampleEnvironment)) racedPool bothRead).any fun pool =>
      (pool.procs false).result.isSome && (pool.procs true).result.isSome) = true := by
    decide +kernel
  obtain ⟨pool, hrun, hboth⟩ := (Option.any_eq_true _ _).mp hboth
  refine ⟨pool, hrun, fun hone => ?_⟩
  rw [Bool.and_eq_true, Option.isSome_iff_exists, Option.isSome_iff_exists] at hboth
  obtain ⟨⟨pair, hfirst⟩, ⟨pair', hsecond⟩⟩ := hboth
  exact Bool.false_ne_true
    (hone false true pair pair' (result_eq_some.mp hfirst) (result_eq_some.mp hsecond))

end EdgeSphere.Auth
