import EdgeSphere.Library.Glob
import EdgeSphere.Cdn.Freshness
import EdgeSphere.Cdn.Provenance

/-!
# Purges

The cdn-service and the cache-service purge Redis in the same way: they scan it for a pattern that begins with
`cdn:`, delete what is found, and publish an event.  The keys in Redis begin with the prefix of the client of
the cdn-service, which `SCAN` does not add.

* `scanLoop` — the loop of both services, `CacheController.purge` — the purge of the cdn-service;
* `exec_scanLoop` — **a scan for such a pattern finds nothing**;
* `CacheController.purge_iff` — exactly when a purge of the cdn-service does what it is for.
-/

namespace EdgeSphere.Cdn

open EdgeSphere.Library
open EdgeSphere.Library.Buffer
open EdgeSphere.Library.Expiry
open EdgeSphere.Library.Glob
open EdgeSphere.Library.Program
open EdgeSphere.Library.Runs

/-! ### Commands -/

/-- What is published on `cache:invalidate`, as far as a subscriber or a record looks at it. -/
structure InvalidationEvent where
  bucket : Option String
  key : Option String
  keyPrefix : Option String
  deriving DecidableEq, Repr

structure PurgeRecord where
  purgeId : String
  type : String
  details : InvalidationEvent
  timestamp : String
  keysDeleted : ℕ
  deriving DecidableEq, Repr

/-- The commands carry physical keys. -/
inductive PurgeCommand where
  | scan (cursor pattern : String)
  | del (physical : List String)
  | publish (event : InvalidationEvent)
  /-- `LPUSH` and `LTRIM` to the last hundred. -/
  | pushHistory (record : PurgeRecord)

abbrev PurgeAnswer : PurgeCommand → Type
  | .scan _ _ => String × List String
  | .del _ => Unit
  | .publish _ => Unit
  | .pushHistory _ => Unit

abbrev PurgeProgram (α : Type) := Program PurgeCommand PurgeAnswer String α

abbrev send (c : PurgeCommand) : PurgeProgram (PurgeAnswer c) := command c

/-! ### Programs -/

/-- `if (keys.length > 0)`. -/
def deleteFound (keys : List String) : PurgeProgram Unit :=
  if keys.length > 0 then send (.del keys) else pure ()

/-- `do { … } while (cursor !== '0')`, for a server that needs at most so many rounds; `address` is the key that
is deleted for a key in a reply. -/
def scanLoop (pattern : String) (address : String → String) : ℕ → String → ℕ → PurgeProgram ℕ
  | 0, _, _ => throw "unfinished"
  | rounds + 1, cursor, count => do
    let result : String × List String ← send (.scan cursor pattern)
    deleteFound (result.2.map address)
    if result.1 = "0" then return count + result.2.length
    else scanLoop pattern address rounds result.1 (count + result.2.length)

/-- `text.replace(part, "")`: the first occurrence. -/
def removeFirst (part : List Char) : List Char → List Char
  | [] => []
  | c :: cs => if part.isPrefixOf (c :: cs) then (c :: cs).drop part.length else c :: removeFirst part cs

/-- What the cdn-service makes of a key in a reply; its client adds the prefix again. -/
def unprefixed (key : String) : String :=
  physicalKey (String.ofList (removeFirst "edgesphere:".toList key.toList))

/-- A key that the cdn-service has written is addressed as itself. -/
theorem unprefixed_physicalKey (key : String) : unprefixed (physicalKey key) = physicalKey key := by
  unfold unprefixed physicalKey
  rw [String.toList_append]
  show "edgesphere:" ++ String.ofList (("edgesphere:".toList ++ key.toList).drop 11) = _
  rw [show (11 : ℕ) = "edgesphere:".toList.length from rfl, List.drop_left, String.ofList_toList]

namespace CacheController

structure PurgeBody where
  bucket : String
  key : Option String
  deriving DecidableEq, Repr

structure PurgeReply where
  success : Bool
  count : ℕ
  message : String
  deriving DecidableEq, Repr

def PurgeBody.pattern (body : PurgeBody) : String :=
  match body.key with
  | none | some "" => "cdn:*:" ++ body.bucket ++ ":*"
  | some key => "cdn:*:" ++ body.bucket ++ ":" ++ key ++ ":*"

/-- `CacheController.purge`; the header is compared with `INTERNAL_API_KEY`, which may be missing. -/
def purge (rounds : ℕ) (internalApiKey header : Option String) (body : PurgeBody) : PurgeProgram PurgeReply :=
  if header ≠ internalApiKey then throw "Invalid API Key"
  else do
    let count ← scanLoop body.pattern unprefixed rounds "0" 0
    send (.publish ⟨some body.bucket, body.key, none⟩)
    return ⟨true, count, "Purged " ++ toString count ++ " items"⟩

end CacheController

/-! ### The server -/

/-- What is decided outside of the service: the cursor and the candidates of a `SCAN`, of which Redis returns
those that exist and match. -/
structure PurgeTurn where
  fault : Fault
  cursor : String
  page : List String

/-- The caches, what has been published and recorded, and the turns to come; the clock stands still. -/
structure Server (ε : Type) where
  caches : Caches ε
  published : List InvalidationEvent
  history : List PurgeRecord
  turns : ℕ → PurgeTurn

section Handle

variable {ε : Type}

def Server.perform (turn : PurgeTurn) (s : Server ε) : (c : PurgeCommand) → Server ε × Except String (PurgeAnswer c)
  | .scan _ pattern =>
    let keys := turn.page.filter fun physical =>
      (read s.caches.now (s.caches.redis physical)).isSome && globMatch pattern physical
    (s, .ok (turn.cursor, keys))
  | .del physical => ({ s with caches := physical.foldl Caches.delRedis s.caches }, .ok ())
  | .publish event => ({ s with published := s.published ++ [event] }, .ok ())
  | .pushHistory record => ({ s with history := (record :: s.history).take 100 }, .ok ())

/-- Execute one command at its turn. -/
def Server.handle (s : Server ε) (c : PurgeCommand) : Server ε × Except String (PurgeAnswer c) :=
  let turn := s.turns 0
  let s := { s with turns := fun n => s.turns (n + 1) }
  match turn.fault with
  | .none => s.perform turn c
  | .refused => (s, .error "ECONNREFUSED")
  | .lost => ((s.perform turn c).1, .error "ETIMEDOUT")

end Handle

/-! ### Scans find nothing -/

/-- Redis holds keys of the cdn-service only. -/
def Written {ε : Type} (s : Caches ε) : Prop :=
  ∀ physical cell, s.redis physical = some cell → ∃ key, physical = physicalKey key

/-- A pattern that begins with `cdn:` matches no key of the cdn-service. -/
theorem not_globMatch_physicalKey (rest key : String) : globMatch ("cdn:" ++ rest) (physicalKey key) = false := by
  have hpattern : encodeUtf8 ("cdn:" ++ rest).toList = 99 :: encodeUtf8 ("dn:".toList ++ rest.toList) := by
    rw [String.toList_append]
    rfl
  have hkey : encodeUtf8 (physicalKey key).toList = 101 :: encodeUtf8 ("dgesphere:".toList ++ key.toList) := by
    rw [physicalKey, String.toList_append]
    rfl
  exact not_globMatch_of_ne hpattern hkey (by decide) (by decide) (by decide) (by decide) (by decide)

section Scan

variable {ε : Type}

/-- The scans that a loop makes. -/
def Scans (pattern : String) (c : PurgeCommand) : Prop := ∃ cursor, c = .scan cursor pattern

/-- A scan for the pattern is answered without keys. -/
def NoKeys (pattern : String) : (c : PurgeCommand) → Except String (PurgeAnswer c) → Prop
  | .scan _ scanned, .ok result => scanned = pattern → result.2 = []
  | _, _ => True

/-- Whatever the cursors, a loop that gets no keys deletes nothing. -/
theorem obeys_scanLoop (pattern : String) (address : String → String) (rounds : ℕ) (cursor : String) (count : ℕ) :
    (scanLoop pattern address rounds cursor count).Obeys (NoKeys pattern) (Scans pattern) := by
  induction rounds generalizing cursor count with
  | zero => trivial
  | succ rounds ih =>
    refine ⟨⟨cursor, rfl⟩, fun r hr => ?_⟩
    cases r with
    | error e => trivial
    | ok result =>
      obtain ⟨next, keys⟩ := result
      have hnone : keys = [] := hr rfl
      subst hnone
      show (if next = "0" then _ else _ : PurgeProgram ℕ).Obeys (NoKeys pattern) (Scans pattern)
      split
      · trivial
      · exact ih _ _

/-- Of the candidates of a scan for `cdn:` none matches. -/
theorem scan_eq_nil {rest : String} {s : Server ε} (hwritten : Written s.caches) (turn : PurgeTurn)
    (cursor : String) : s.perform turn (.scan cursor ("cdn:" ++ rest)) = (s, .ok (turn.cursor, [])) := by
  have hnone : (turn.page.filter fun physical =>
      (read s.caches.now (s.caches.redis physical)).isSome && globMatch ("cdn:" ++ rest) physical) = [] := by
    refine List.filter_eq_nil_iff.mpr fun physical _ hfound => ?_
    rw [Bool.and_eq_true] at hfound
    cases hcell : s.caches.redis physical with
    | none =>
      rw [hcell] at hfound
      cases hfound.1
    | some cell =>
      obtain ⟨key, rfl⟩ := hwritten physical cell hcell
      rw [not_globMatch_physicalKey] at hfound
      cases hfound.2
  simp only [Server.perform, hnone]

/-- **A scan for `cdn:` leaves the caches as they are**, and publishes nothing. -/
theorem exec_scanLoop {rest : String} {s : Server ε} (hwritten : Written s.caches) (address : String → String)
    (rounds : ℕ) (cursor : String) (count : ℕ) :
    (exec Server.handle s (scanLoop ("cdn:" ++ rest) address rounds cursor count)).1.caches = s.caches ∧
      (exec Server.handle s (scanLoop ("cdn:" ++ rest) address rounds cursor count)).1.published = s.published := by
  have hkeep : ∀ (m : Server ε) c, (m.caches = s.caches ∧ m.published = s.published) → Scans ("cdn:" ++ rest) c →
      (m.handle c).1.caches = s.caches ∧ (m.handle c).1.published = s.published := by
    rintro m c hm ⟨cursor, rfl⟩
    unfold Server.handle
    simp only
    split <;> exact hm
  have hpossible : ∀ (m : Server ε) c, (m.caches = s.caches ∧ m.published = s.published) →
      NoKeys ("cdn:" ++ rest) c (m.handle c).2 := by
    intro m c hm
    cases c with
    | scan cursor scanned =>
      unfold Server.handle
      simp only
      split
      · intro heq
        rw [heq]
        let after : Server ε := { m with turns := fun n => m.turns (n + 1) }
        have hafter : Written after.caches := hm.1 ▸ hwritten
        have hreply : (after.perform (m.turns 0) (.scan cursor ("cdn:" ++ rest))).2
            = .ok ((m.turns 0).cursor, []) := congrArg Prod.snd (scan_eq_nil hafter (m.turns 0) cursor)
        exact congrArg Prod.snd (Except.ok.inj hreply)
      · trivial
      · trivial
    | _ => trivial
  exact (Obeys.exec hkeep hpossible (obeys_scanLoop _ address rounds cursor count) ⟨rfl, rfl⟩).1

/-- The loop returns, if nothing fails and the cursor is 0 again within the rounds. -/
theorem exec_scanLoop_returns {rest : String} {s : Server ε} (hwritten : Written s.caches)
    (hfault : ∀ n, (s.turns n).fault = .none) (address : String → String) {rounds last : ℕ} (hlast : last < rounds)
    (hend : (s.turns last).cursor = "0") (cursor : String) (count : ℕ) :
    ∃ s' n, exec Server.handle s (scanLoop ("cdn:" ++ rest) address rounds cursor count) = (s', .ok n) ∧
      ∀ n, (s'.turns n).fault = .none := by
  induction rounds generalizing s last cursor count with
  | zero => exact absurd hlast (Nat.not_lt_zero _)
  | succ rounds ih =>
    let after : Server ε := { s with turns := fun n => s.turns (n + 1) }
    have hscan : s.handle (.scan cursor ("cdn:" ++ rest)) = (after, .ok ((s.turns 0).cursor, [])) := by
      unfold Server.handle
      simp only [hfault 0]
      exact scan_eq_nil (s := after) hwritten (s.turns 0) cursor
    have hround : exec Server.handle s (scanLoop ("cdn:" ++ rest) address (rounds + 1) cursor count)
        = exec Server.handle after (if (s.turns 0).cursor = "0" then pure (count + 0)
          else scanLoop ("cdn:" ++ rest) address rounds (s.turns 0).cursor (count + 0)) := by
      rw [scanLoop, bind_eq, exec_bind, exec_command, hscan]
      rfl
    rw [hround]
    split
    · exact ⟨after, _, rfl, fun n => hfault (n + 1)⟩
    · rename_i hmore
      cases last with
      | zero => exact absurd hend hmore
      | succ last => exact ih (s := after) hwritten (fun n => hfault (n + 1)) (Nat.lt_of_succ_lt_succ hlast) hend _ _

/-- A command that is answered has been executed at its turn. -/
theorem exec_send_ok {s s' : Server ε} {c : PurgeCommand} {r : PurgeAnswer c}
    (h : exec Server.handle s (send c) = (s', .ok r)) :
    ({ s with turns := fun n => s.turns (n + 1) } : Server ε).perform (s.turns 0) c = (s', .ok r) := by
  rw [exec_command] at h
  unfold Server.handle at h
  simp only at h
  split at h
  · exact h
  · cases h
  · cases h

theorem exec_send {s : Server ε} (hfault : (s.turns 0).fault = .none) (c : PurgeCommand) :
    exec Server.handle s (send c)
      = ({ s with turns := fun n => s.turns (n + 1) } : Server ε).perform (s.turns 0) c := by
  rw [exec_command]
  unfold Server.handle
  simp only [hfault]

end Scan

/-! ### The purge of the cdn-service -/

/-- What calls leave in Redis stands under keys of the cdn-service. -/
theorem Provenance.written {ε : Type} {edges : ε → Edge} {valid : Request ε → Prop} {s : Caches ε}
    (h : Provenance edges valid s) : Written s := by
  intro physical cell hcell
  obtain ⟨_, _, _, hkey⟩ := h.redis physical cell hcell
  exact ⟨_, hkey⟩

/-- A bucket and a key that the tests purge. -/
def photo : Request Unit := ⟨(), "img", "photo.jpg", none⟩

namespace CacheController

variable {ι ε : Type}

/-- What a request names. -/
def PurgeBody.covers (body : PurgeBody) (request : Request ε) : Prop :=
  request.bucket = body.bucket ∧ ∀ key, body.key = some key → request.key = key

/-- No entry that the request names is left, and no other one is gone. -/
def Purged (body : PurgeBody) (s s' : Caches ε) : Prop :=
  (∀ physical v, read s'.now (s'.redis physical) = some v → ¬ body.covers v.source.request) ∧
    ∀ physical cell, s.redis physical = some cell → ¬ body.covers cell.value.source.request →
      s'.redis physical = some cell

theorem PurgeBody.pattern_eq (body : PurgeBody) : ∃ rest, body.pattern = "cdn:" ++ rest := by
  have hhead : ∀ rest, "cdn:*:" ++ rest = "cdn:" ++ ("*:" ++ rest) := by
    intro rest
    rw [← String.append_assoc]
    rfl
  unfold PurgeBody.pattern
  split
  · exact ⟨_, by rw [String.append_assoc, hhead]⟩
  · exact ⟨_, by rw [String.append_assoc, hhead]⟩
  · exact ⟨_, by rw [String.append_assoc, String.append_assoc, String.append_assoc, hhead]⟩

/-- A purge that returns has left the caches as they were. -/
theorem exec_purge {s s' : Server ε} (hwritten : Written s.caches) {rounds : ℕ}
    {internalApiKey header : Option String} {body : PurgeBody} {reply : PurgeReply}
    (h : exec Server.handle s (purge rounds internalApiKey header body) = (s', .ok reply)) :
    s'.caches = s.caches := by
  obtain ⟨rest, hpattern⟩ := body.pattern_eq
  unfold purge at h
  split at h
  · cases h
  · rw [hpattern] at h
    obtain ⟨m, count, hscan, h⟩ := exec_bind_ok _ h
    obtain ⟨m', _, hpublish, h⟩ := exec_bind_ok _ h
    cases h
    cases exec_send_ok hpublish
    have hcaches : (exec Server.handle s (scanLoop ("cdn:" ++ rest) unprefixed rounds "0" 0)).1.caches
        = s.caches := (exec_scanLoop hwritten unprefixed rounds "0" 0).1
    rw [hscan] at hcaches
    exact hcaches

/-- It returns, if nothing fails and the scan comes to its end. -/
theorem exec_purge_returns {s : Server ε} (hwritten : Written s.caches) (hfault : ∀ n, (s.turns n).fault = .none)
    {rounds last : ℕ} (hlast : last < rounds) (hend : (s.turns last).cursor = "0") (internalApiKey : Option String)
    (body : PurgeBody) :
    ∃ s' reply, exec Server.handle s (purge rounds internalApiKey internalApiKey body) = (s', .ok reply) := by
  obtain ⟨rest, hpattern⟩ := body.pattern_eq
  have hreturns : ∃ m n, exec Server.handle s (scanLoop ("cdn:" ++ rest) unprefixed rounds "0" 0) = (m, .ok n) ∧
      ∀ k, (m.turns k).fault = .none := exec_scanLoop_returns hwritten hfault unprefixed hlast hend "0" 0
  obtain ⟨m, count, hscan, hm⟩ := hreturns
  refine ⟨{ m with
      published := m.published ++ [⟨some body.bucket, body.key, none⟩]
      turns := fun k => m.turns (k + 1) },
    ⟨true, count, "Purged " ++ toString count ++ " items"⟩, ?_⟩
  unfold purge
  rw [if_neg (not_not_intro rfl), hpattern, bind_eq, exec_bind, hscan]
  show exec Server.handle m (Program.bind _ _) = _
  rw [exec_bind, exec_send (hm 0)]
  rfl

/-- **A purge does what it is for exactly when there is nothing to do**: no live entry that it names. -/
theorem purge_iff [DecidableEq ι] [DecidableEq ε] (edges : ε → Edge) (requests : ι → Request ε)
    (es : List (Event ι ε)) (pool : Calls ι ε)
    (hrun : run (Calls.step edges) (Calls.start edges .empty requests) es = some pool) (rounds : ℕ)
    (internalApiKey header : Option String) (body : PurgeBody) (turns : ℕ → PurgeTurn) (s' : Server ε)
    (reply : PurgeReply)
    (hexec : exec Server.handle ⟨pool.state, [], [], turns⟩ (purge rounds internalApiKey header body)
      = (s', .ok reply)) :
    Purged body pool.state s'.caches ↔
      ∀ physical v, read pool.state.now (pool.state.redis physical) = some v → ¬ body.covers v.source.request := by
  have hprovenance := provenance_any hrun
  have hsame : s'.caches = pool.state := exec_purge hprovenance.written hexec
  unfold Purged
  rw [hsame]
  exact ⟨fun h => h.1, fun h => ⟨h, fun _ _ hcell _ => hcell⟩⟩

/-- Redis when a file has been served once. -/
theorem run_photo : ∃ pool : Calls Unit Unit,
    run (Calls.step fun _ => defaultEdge) (Calls.start (fun _ => defaultEdge) .empty fun _ => photo)
      (List.replicate 7 (.call () (.smooth 0))) = some pool ∧
    (∃ v, read pool.state.now (pool.state.redis (physicalKey (photo.cacheKey fun _ => defaultEdge))) = some v ∧
      v.source.request = photo) ∧ ∀ f ∈ pool.state.fetches, f.request = photo := by
  have houtcome : (run (Calls.step fun _ => defaultEdge) (Calls.start (fun _ => defaultEdge) .empty fun _ => photo)
      (List.replicate 7 (.call () (.smooth 0)))).map (fun pool =>
        ((read pool.state.now (pool.state.redis (physicalKey (photo.cacheKey fun _ => defaultEdge)))).map
          fun v => v.source.request, pool.state.fetches.map Fetch.request)) = some (some photo, [photo]) := rfl
  obtain ⟨pool, hrun, hvalues⟩ := Option.map_eq_some_iff.mp houtcome
  obtain ⟨hread, hfetches⟩ := Prod.mk.inj hvalues
  obtain ⟨v, hv, hrequest⟩ := Option.map_eq_some_iff.mp hread
  refine ⟨pool, hrun, ⟨v, hv, hrequest⟩, fun f hf => ?_⟩
  exact List.mem_singleton.mp (hfetches ▸ List.mem_map_of_mem hf)

/-- A server that has one page of candidates. -/
def onePage (page : List String) : ℕ → PurgeTurn := fun _ => ⟨.none, "0", page⟩

/-- A purge of another bucket has nothing to do. -/
theorem purge_iff_photo : ∃ (pool : Calls Unit Unit) (s' : Server Unit) (reply : PurgeReply),
    exec Server.handle ⟨pool.state, [], [], onePage []⟩ (purge 1 none none ⟨"other", none⟩) = (s', .ok reply) ∧
      (∃ physical, (read pool.state.now (pool.state.redis physical)).isSome = true) ∧
      Purged ⟨"other", none⟩ pool.state s'.caches := by
  obtain ⟨pool, hrun, ⟨v, hv, -⟩, hfetches⟩ := run_photo
  have hprovenance := provenance_any hrun
  obtain ⟨s', reply, hexec⟩ := exec_purge_returns (s := ⟨pool.state, [], [], onePage []⟩) hprovenance.written
    (fun _ => rfl) Nat.one_pos rfl none ⟨"other", none⟩
  refine ⟨pool, s', reply, hexec, ⟨_, by rw [hv]; rfl⟩, (purge_iff _ _ _ pool hrun _ _ _ _ _ s' reply hexec).mpr ?_⟩
  intro physical w hw hcovers
  cases hcell : pool.state.redis physical with
  | none =>
    rw [hcell] at hw
    cases hw
  | some cell =>
    obtain ⟨object, -, hbacked, -⟩ := hprovenance.redis physical cell hcell
    have hvalue := value_of_read (hcell ▸ hw)
    rw [hvalue] at hbacked
    have hrequest := hfetches _ hbacked.2
    have hbucket : w.source.request.bucket = "img" := by rw [hrequest]; rfl
    exact absurd (hbucket.symm.trans hcovers.1) (by decide)

/-- **A purge of the file that has been served leaves it**, with its key among the candidates of the scan. -/
theorem purge_leaves_file : ∃ (es : List (Event Unit Unit)) (pool : Calls Unit Unit) (s' : Server Unit)
    (reply : PurgeReply),
    run (Calls.step fun _ => defaultEdge) (Calls.start (fun _ => defaultEdge) .empty fun _ => photo) es = some pool ∧
      exec Server.handle ⟨pool.state, [], [], onePage [physicalKey (photo.cacheKey fun _ => defaultEdge)]⟩
        (purge 1 none none ⟨photo.bucket, some photo.key⟩) = (s', .ok reply) ∧
      ¬ Purged ⟨photo.bucket, some photo.key⟩ pool.state s'.caches := by
  obtain ⟨pool, hrun, ⟨v, hv, hrequest⟩, -⟩ := run_photo
  have hwritten := (provenance_any hrun).written
  obtain ⟨s', reply, hexec⟩ := exec_purge_returns
    (s := ⟨pool.state, [], [], onePage [physicalKey (photo.cacheKey fun _ => defaultEdge)]⟩) hwritten
    (fun _ => rfl) Nat.one_pos rfl none ⟨photo.bucket, some photo.key⟩
  refine ⟨_, pool, s', reply, hrun, hexec, fun hpurged => ?_⟩
  have hsame : s'.caches = pool.state := exec_purge hwritten hexec
  rw [← hsame] at hv
  refine hpurged.1 _ v hv ?_
  rw [hrequest]
  exact ⟨rfl, fun key hkey => Option.some.inj hkey⟩

end CacheController

end EdgeSphere.Cdn
