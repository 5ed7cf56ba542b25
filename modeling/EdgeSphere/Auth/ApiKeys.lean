import EdgeSphere.Library.Json
import EdgeSphere.Library.Runs
import EdgeSphere.Auth.Entities
import Mathlib.Data.List.TakeWhile
import Mathlib.Logic.Function.Basic
import Mathlib.Logic.Relation

/-!
# API keys: creation, validation, revocation

`createApiKey` leaves a fast-lookup entry `apikey:lookup:{sha256}` in Redis, `validateApiKey` trusts
that entry alone, and `revokeApiKey` has to find it again by scanning.  The scan is a stream: each
batch starts an asynchronous listener that reads its keys one by one, and the stream's `end` does not
wait for the listeners.  `RevokeEvent` lists what can happen next and `step` what it does, so a run
along a schedule is one interleaving of batches, replies and the end of the stream.

* `Progress` — the invariant: what the listeners have read and collected after a schedule;
* `resolved_redis` — what is left in Redis once the revocation has resolved;
* `revokeApiKey_purges_iff` — **the exact condition**: the entries of the key are gone, and its raw
  key is refused ever after, iff each of them was read before the stream ended (or expired);
* `revokeApiKey_leaves_entry` — a schedule on which the revoked key stays usable.
-/

namespace EdgeSphere.Auth

open EdgeSphere.Library
open EdgeSphere.Library.Runs

variable {N : Type*}

/-- What the API-key methods share: the texts under the `apikey:` keys of Redis, and two tables.  A
key expires at an instant of the environment's choosing, as an event of its own. -/
structure ApiKeyStore (N : Type*) where
  redis : String → Option (StoredText N)
  apiKeys : List ApiKeyEntity
  users : List UserEntity

namespace ApiKeyStore

/-- `DEL key …`. -/
def del (keys : List String) (store : ApiKeyStore N) : ApiKeyStore N :=
  { store with redis := fun k => if k ∈ keys then none else store.redis k }

/-- `SET key text`. -/
def set (key : String) (text : StoredText N) (store : ApiKeyStore N) : ApiKeyStore N :=
  { store with redis := Function.update store.redis key (some text) }

theorem del_redis (keys : List String) (store : ApiKeyStore N) (k : String) :
    (store.del keys).redis k = if k ∈ keys then none else store.redis k := rfl

end ApiKeyStore

def lookupPrefix : String := "apikey:lookup:"

def lookupKey (sha256 : String) : String := lookupPrefix ++ sha256

/-- The glob `apikey:lookup:*`. -/
def IsLookupKey (k : String) : Prop := ∃ rest, k = lookupPrefix ++ rest

/-- `parsed.keyId === keyId`, a text that does not parse being skipped. -/
def carries (keyId : String) : Option (StoredText N) → Bool
  | some (.document j) => j.propIs "keyId" keyId
  | _ => false

/-! ### Creation and validation -/

/-- `esk_` and a UUID without its dashes. -/
def rawKeyOf (uuid : String) : String := "esk_" ++ String.ofList (uuid.toList.filter (· ≠ '-'))

/-- `AuthService.createApiKey`, returning the raw key; `uuid`, `id` and `keyHash` are the fresh UUID,
the id the database assigns and the salted bcrypt hash. -/
def createApiKey (sha256 : String → String) (uuid id keyHash userId name : String)
    (store : ApiKeyStore N) : ApiKeyStore N × String :=
  let rawKey := rawKeyOf uuid
  let row : ApiKeyEntity :=
    { id, userId, name, keyHash, keyPrefix := String.ofList (rawKey.toList.take 12) }
  let saved := { store with apiKeys := store.apiKeys ++ [row] }
  (saved.set (lookupKey (sha256 rawKey))
    (.document (.obj [("userId", .str userId), ("keyId", .str id)])), rawKey)

structure Identity (N : Type*) where
  sub : String
  email : String
  role : UserRole
  keyId : Option (Json N)

/-- `findOne({ where: { id: userId, isActive: true } })`: a missing or `null` id is no condition at
all, and an id that is no text is refused by the column's type. -/
def findActiveUser (users : List UserEntity) : Option (Json N) → Except Exception (Option UserEntity)
  | none | some .null => .ok (users.find? fun u => u.isActive)
  | some (.str userId) => .ok (users.find? fun u => decide (u.id.text = userId) && u.isActive)
  | some _ => .error (.thrown "QueryFailedError")

/-- `AuthService.validateApiKey`; the empty key is refused with those of another format. -/
def validateApiKey (sha256 : String → String) (rawKey : String) (store : ApiKeyStore N) :
    Except Exception (Identity N) :=
  if "esk_".toList.isPrefixOf rawKey.toList then
    match store.redis (lookupKey (sha256 rawKey)) with
    | none => .error (.unauthorized "API key not found or expired")
    | some .garbage => .error (.thrown "SyntaxError")
    | some (.document j) =>
      match j.prop "userId", j.prop "keyId" with
      | some userId, some keyId =>
        match findActiveUser store.users userId with
        | .error e => .error e
        | .ok none => .error (.unauthorized "User account is inactive or deleted")
        | .ok (some user) => .ok { sub := user.id.text, email := user.email, role := user.role, keyId }
      | _, _ => .error (.thrown "TypeError")
  else .error (.unauthorized "Invalid API key format")

/-- Without its lookup entry a raw key is refused. -/
theorem validateApiKey_of_missing {sha256 : String → String} {rawKey : String}
    {store : ApiKeyStore N} (h : store.redis (lookupKey (sha256 rawKey)) = none) :
    ∃ e, validateApiKey sha256 rawKey store = .error e := by
  unfold validateApiKey
  rw [h]
  split
  · exact ⟨_, rfl⟩
  · exact ⟨_, rfl⟩

/-! ### Revocation -/

/-- Where `revokeApiKey` stands: the stream is still open; it has ended and `DEL` is on its way; the
row is about to be removed; the promise has resolved. -/
inductive Phase where
  | scanning
  | deleting
  | removing
  | resolved
  deriving DecidableEq, Repr

/-- A call of `revokeApiKey` after its first `DEL`.  `pending` are the batches the stream has not
emitted yet, `listeners` the keys each started listener has still to read, `doomed` the arguments of
the last `DEL`, spread from `toDelete` when the stream ended. -/
structure Revocation (N : Type*) where
  store : ApiKeyStore N
  key : ApiKeyEntity
  pending : List (List String)
  listeners : List (List String)
  toDelete : List String
  doomed : List String
  phase : Phase

/-- `AuthService.revokeApiKey` up to the opened stream, which will emit `batches`. -/
def revokeApiKey (userId keyId : String) (batches : List (List String)) (store : ApiKeyStore N) :
    Except Exception (Revocation N) :=
  match store.apiKeys.find? fun k => decide (k.id = keyId) && decide (k.userId = userId) with
  | none => .error (.notFound "API key not found")
  | some key => .ok
    { store := store.del ["apikey:" ++ key.keyHash], key, pending := batches, listeners := [],
      toDelete := [], doomed := [], phase := .scanning }

inductive RevokeEvent where
  /-- The stream emits its next batch and a listener starts on it. -/
  | data
  /-- The reply to the pending `GET` of listener `j` is delivered; it then asks for its next key. -/
  | reply (j : ℕ)
  /-- The stream ends; the promise resolves and `toDelete` is spread into `DEL`. -/
  | ended
  | del
  | remove
  /-- Redis drops a key whose time to live has passed. -/
  | expire (k : String)
  deriving DecidableEq, Repr

/-- One event of a revocation; `none` if it cannot happen now. -/
def Revocation.step (keyId : String) (s : Revocation N) : RevokeEvent → Option (Revocation N)
  | .data =>
    match s.phase, s.pending with
    | .scanning, batch :: rest =>
      some { s with pending := rest, listeners := s.listeners ++ [batch] }
    | _, _ => none
  | .reply j =>
    match s.listeners[j]? with
    | some (k :: ks) => some
      { s with
        listeners := s.listeners.set j ks
        toDelete := if carries keyId (s.store.redis k) then s.toDelete ++ [k] else s.toDelete }
    | _ => none
  | .ended =>
    match s.phase, s.pending with
    | .scanning, [] => some { s with doomed := s.toDelete, phase := .deleting }
    | _, _ => none
  | .del =>
    if s.phase = .deleting then some { s with store := s.store.del s.doomed, phase := .removing }
    else none
  | .remove =>
    if s.phase = .removing then
      some
        { s with
          store :=
            { s.store with apiKeys := s.store.apiKeys.filter fun k => decide (k.id ≠ s.key.id) }
          phase := .resolved }
    else none
  | .expire k => some { s with store := s.store.del [k] }

/-! ### What has been read when the stream ends -/

/-- How many replies listener `j` has had before the stream ended. -/
def readsBeforeEnd (es : List RevokeEvent) (j : ℕ) : ℕ := (es.takeWhile (· ≠ .ended)).count (.reply j)

/-- Some listener has been told the value of `k` before the stream ended. -/
def ReadBeforeEnd (batches : List (List String)) (es : List RevokeEvent) (k : String) : Prop :=
  ∃ j batch r, batches[j]? = some batch ∧ r < readsBeforeEnd es j ∧ batch[r]? = some k

theorem readsBeforeEnd_of_open {es : List RevokeEvent} (h : RevokeEvent.ended ∉ es) (j : ℕ) :
    readsBeforeEnd es j = es.count (.reply j) := by
  have hall : es.takeWhile (· ≠ .ended) = es := by
    refine List.takeWhile_eq_self_iff.mpr fun e he => ?_
    exact decide_eq_true fun heq => h (heq ▸ he)
  rw [readsBeforeEnd, hall]

theorem readsBeforeEnd_snoc_of_ended {es : List RevokeEvent} (h : RevokeEvent.ended ∈ es)
    (e : RevokeEvent) (j : ℕ) : readsBeforeEnd (es ++ [e]) j = readsBeforeEnd es j := by
  have hshort : ¬ (es.takeWhile (· ≠ .ended)).length = es.length := by
    intro hlen
    have hall := (List.takeWhile_prefix _).eq_of_length hlen
    simpa using List.takeWhile_eq_self_iff.mp hall _ h
  rw [readsBeforeEnd, readsBeforeEnd, List.takeWhile_append, if_neg hshort]

/-- Only a reply delivered before the end adds to what has been read. -/
theorem readBeforeEnd_snoc_of_ne {batches : List (List String)} {es : List RevokeEvent}
    {e : RevokeEvent} (h : RevokeEvent.ended ∈ es ∨ ∀ j, e ≠ .reply j) (k : String) :
    ReadBeforeEnd batches (es ++ [e]) k ↔ ReadBeforeEnd batches es k := by
  have hcount : ∀ j, readsBeforeEnd (es ++ [e]) j = readsBeforeEnd es j := by
    intro j
    by_cases hend : RevokeEvent.ended ∈ es
    · exact readsBeforeEnd_snoc_of_ended hend e j
    · have hne : e ≠ .reply j := (h.resolve_left hend) j
      rw [readsBeforeEnd_of_open hend, readsBeforeEnd, List.takeWhile_append_of_pos]
      · rw [List.count_append]
        have hzero : ([e].takeWhile (· ≠ .ended)).count (.reply j) = 0 := by
          rw [List.count_eq_zero]
          intro hmem
          exact hne (List.mem_singleton.mp (List.takeWhile_sublist _ |>.subset hmem)).symm
        omega
      · intro x hx
        exact decide_eq_true fun heq => hend (heq ▸ hx)
  simp only [ReadBeforeEnd, hcount]

theorem readBeforeEnd_snoc_reply {batches : List (List String)} {es : List RevokeEvent} {j : ℕ}
    (h : RevokeEvent.ended ∉ es) (k : String) :
    ReadBeforeEnd batches (es ++ [.reply j]) k ↔ ReadBeforeEnd batches es k ∨
      ∃ batch, batches[j]? = some batch ∧ batch[es.count (.reply j)]? = some k := by
  have hopen : RevokeEvent.ended ∉ es ++ [.reply j] := by simp [h]
  have hcount : ∀ i, (es ++ [RevokeEvent.reply j]).count (.reply i)
      = es.count (.reply i) + if i = j then 1 else 0 := by
    intro i
    rw [List.count_append, List.count_singleton]
    simp only [beq_iff_eq, RevokeEvent.reply.injEq, @eq_comm _ j]
  simp only [ReadBeforeEnd, readsBeforeEnd_of_open h, readsBeforeEnd_of_open hopen, hcount]
  constructor
  · intro ⟨i, batch, r, hb, hr, hk⟩
    by_cases hij : i = j
    · subst hij
      rw [if_pos rfl] at hr
      rcases Nat.lt_succ_iff_lt_or_eq.mp hr with hlt | heq
      · exact Or.inl ⟨i, batch, r, hb, hlt, hk⟩
      · exact Or.inr ⟨batch, hb, heq ▸ hk⟩
    · rw [if_neg hij] at hr
      exact Or.inl ⟨i, batch, r, hb, hr, hk⟩
  · intro hread
    rcases hread with ⟨i, batch, r, hb, hr, hk⟩ | ⟨batch, hb, hk⟩
    · exact ⟨i, batch, r, hb, by omega, hk⟩
    · exact ⟨j, batch, _, hb, by rw [if_pos rfl]; omega, hk⟩

/-! ### The invariant of a revocation -/

/-- What the stream has collected for deletion: `toDelete` while it is open, and what was spread into
`DEL` once it has ended. -/
def Revocation.collected (s : Revocation N) : List String :=
  if s.phase = .scanning then s.toDelete else s.doomed

/-- `DEL` has been executed. -/
def Revocation.purged (s : Revocation N) : Bool :=
  decide (s.phase = .removing) || decide (s.phase = .resolved)

/-- Everything collected has been read, and everything read that carried the id at the start has been
collected or has expired. -/
def Collects (keyId : String) (batches : List (List String))
    (start : String → Option (StoredText N)) (es : List RevokeEvent) (s : Revocation N) : Prop :=
  (∀ k ∈ s.collected, ReadBeforeEnd batches es k) ∧
    ∀ k, carries keyId (start k) = true → ReadBeforeEnd batches es k →
      RevokeEvent.expire k ∈ es ∨ k ∈ s.collected

/-- **The invariant.**  After the events `es`, starting from the Redis content `start`. -/
structure Progress (keyId : String) (batches : List (List String))
    (start : String → Option (StoredText N)) (es : List RevokeEvent) (s : Revocation N) : Prop where
  pending : s.pending = batches.drop s.listeners.length
  listener : ∀ j rest, s.listeners[j]? = some rest →
    ∃ batch : List String, batches[j]? = some batch ∧ rest = batch.drop (es.count (.reply j))
  idle : ∀ j, s.listeners.length ≤ j → es.count (.reply j) = 0
  ended : RevokeEvent.ended ∈ es ↔ s.phase ≠ .scanning
  collects : Collects keyId batches start es s
  redis : ∀ k, s.store.redis k
    = if RevokeEvent.expire k ∈ es ∨ s.purged = true ∧ k ∈ s.doomed then none else start k

theorem progress_start (keyId : String) {userId : String} {batches : List (List String)}
    {store : ApiKeyStore N} {s : Revocation N}
    (h : revokeApiKey userId keyId batches store = .ok s) :
    Progress keyId batches s.store.redis [] s := by
  unfold revokeApiKey at h
  split at h
  · cases h
  · cases h
    exact
      { pending := rfl
        listener := by simp
        idle := by simp
        ended := by simp
        collects := by
          refine ⟨by simp [Revocation.collected], fun k _ hread => ?_⟩
          obtain ⟨j, batch, r, _, hr, _⟩ := hread
          simp [readsBeforeEnd] at hr
        redis := by simp [Revocation.purged] }

section Steps

variable {keyId : String} {batches : List (List String)} {start : String → Option (StoredText N)}
  {es : List RevokeEvent} {s t : Revocation N}

/-- A reply delivered while the stream is open adds its key to what has been read, and to what is
collected if it carries the id. -/
theorem collected_open_reply {j : ℕ} {k : String} {batch : List String}
    (h : Progress keyId batches start es s) (hbatch : batches[j]? = some batch)
    (hk : batch[es.count (.reply j)]? = some k) (hphase : s.phase = .scanning)
    (ht : t.phase = s.phase)
    (htoDelete : t.toDelete
      = if carries keyId (s.store.redis k) then s.toDelete ++ [k] else s.toDelete) :
    Collects keyId batches start (es ++ [.reply j]) t := by
  have hopen : RevokeEvent.ended ∉ es := fun hend => h.ended.mp hend hphase
  have hs : s.collected = s.toDelete := if_pos hphase
  have htc : t.collected
      = if carries keyId (s.store.redis k) then s.toDelete ++ [k] else s.toDelete :=
    (if_pos (ht.trans hphase)).trans htoDelete
  unfold Collects
  rw [htc]
  constructor
  · intro x hx
    rw [readBeforeEnd_snoc_reply hopen]
    have hmem : x ∈ s.toDelete ∨ x = k := by
      split at hx
      · simpa using hx
      · exact Or.inl hx
    rcases hmem with hmem | rfl
    · exact Or.inl (h.collects.1 x (hs ▸ hmem))
    · exact Or.inr ⟨batch, hbatch, hk⟩
  · intro x hc hx
    rcases (readBeforeEnd_snoc_reply hopen x).mp hx with hold | ⟨batch', hbatch', hx'⟩
    · rcases h.collects.2 x hc hold with hexp | hmem
      · exact Or.inl (List.mem_append_left _ hexp)
      · refine Or.inr ?_
        rw [hs] at hmem
        split
        · exact List.mem_append_left _ hmem
        · exact hmem
    · have hxk : x = k := by
        rw [hbatch, Option.some.injEq] at hbatch'
        rw [← hbatch', hk, Option.some.injEq] at hx'
        exact hx'.symm
      subst hxk
      by_cases hexp : RevokeEvent.expire x ∈ es
      · exact Or.inl (List.mem_append_left _ hexp)
      · -- not expired and `DEL` not executed: the listener saw the value it had at the start
        have hpurged : s.purged = false := by simp [Revocation.purged, hphase]
        have hsame : s.store.redis x = start x := by simpa [hexp, hpurged] using h.redis x
        refine Or.inr ?_
        rw [hsame, if_pos hc]
        exact List.mem_append_right _ (List.mem_singleton_self x)

/-- An event that reads nothing before the end leaves the collection as it is. -/
theorem collected_other {e : RevokeEvent} (h : Progress keyId batches start es s)
    (he : RevokeEvent.ended ∈ es ∨ ∀ j, e ≠ .reply j) (ht : t.collected = s.collected) :
    Collects keyId batches start (es ++ [e]) t := by
  unfold Collects
  rw [ht]
  constructor
  · intro x hx
    exact (readBeforeEnd_snoc_of_ne he x).mpr (h.collects.1 x hx)
  · intro x hc hx
    rcases h.collects.2 x hc ((readBeforeEnd_snoc_of_ne he x).mp hx) with hexp | hmem
    · exact Or.inl (List.mem_append_left _ hexp)
    · exact Or.inr hmem

/-- An event that is neither an expiry nor `DEL` leaves Redis as it is. -/
theorem redis_other {e : RevokeEvent} (h : Progress keyId batches start es s)
    (he : ∀ k, e ≠ .expire k) (hpurged : t.purged = s.purged)
    (hdoomed : s.purged = true → t.doomed = s.doomed) (hredis : t.store.redis = s.store.redis)
    (k : String) :
    t.store.redis k = if RevokeEvent.expire k ∈ es ++ [e] ∨ t.purged = true ∧ k ∈ t.doomed
      then none else start k := by
  have hmem : RevokeEvent.expire k ∈ es ++ [e] ↔ RevokeEvent.expire k ∈ es := by
    simp [(he k).symm]
  have hdel : (t.purged = true ∧ k ∈ t.doomed) ↔ (s.purged = true ∧ k ∈ s.doomed) := by
    rw [hpurged]
    exact and_congr_right fun hp => by rw [hdoomed hp]
  rw [hredis, h.redis k]
  simp only [hmem, hdel]

/-- Listeners and batches not touched by the event. -/
theorem listener_other {e : RevokeEvent} (h : Progress keyId batches start es s)
    (he : ∀ j, e ≠ .reply j) (j : ℕ) (rest : List String) (hj : s.listeners[j]? = some rest) :
    ∃ batch : List String, batches[j]? = some batch ∧ rest = batch.drop ((es ++ [e]).count (.reply j)) := by
  rw [List.count_append, List.count_singleton, beq_eq_false_iff_ne.mpr (he j)]
  exact h.listener j rest hj

theorem idle_other {e : RevokeEvent} (h : Progress keyId batches start es s)
    (he : ∀ j, e ≠ .reply j) (j : ℕ) (hj : s.listeners.length ≤ j) :
    (es ++ [e]).count (.reply j) = 0 := by
  rw [List.count_append, List.count_singleton, beq_eq_false_iff_ne.mpr (he j)]
  exact h.idle j hj

theorem progress_data (h : Progress keyId batches start es s) (hstep : s.step keyId .data = some t) :
    Progress keyId batches start (es ++ [.data]) t := by
  simp only [Revocation.step] at hstep
  split at hstep
  · rename_i batch rest hphase hpending
    cases hstep
    have hdrop : batches.drop s.listeners.length = batch :: rest := h.pending ▸ hpending
    have hbatch : batches[s.listeners.length]? = some batch := by
      rw [← List.head?_drop, hdrop]
      rfl
    have hne : ∀ j, RevokeEvent.data ≠ .reply j := fun j => by simp
    exact
      { pending := by
          rw [List.length_append, List.length_singleton, ← List.drop_drop, hdrop]
          rfl
        listener := by
          intro j rest' hj
          rcases Nat.lt_or_ge j s.listeners.length with hlt | hge
          · rw [List.getElem?_append_left hlt] at hj
            exact listener_other h hne j rest' hj
          · rw [List.getElem?_append_right hge, List.getElem?_singleton] at hj
            split at hj
            · cases hj
              have hj' : j = s.listeners.length := by omega
              refine ⟨batch, hj' ▸ hbatch, ?_⟩
              rw [idle_other h hne j hge]
              rfl
            · cases hj
        idle := by
          intro j hj
          rw [List.length_append] at hj
          exact idle_other h hne j (by omega)
        ended := by simpa using h.ended
        collects := collected_other h (Or.inr hne) rfl
        redis := redis_other h (fun k => by simp) rfl (fun _ => rfl) rfl }
  · cases hstep

theorem progress_reply {j : ℕ} (h : Progress keyId batches start es s)
    (hstep : s.step keyId (.reply j) = some t) :
    Progress keyId batches start (es ++ [.reply j]) t := by
  simp only [Revocation.step] at hstep
  split at hstep
  · rename_i k ks hj
    obtain ⟨batch, hbatch, hrest⟩ := h.listener j _ hj
    have hk : batch[es.count (.reply j)]? = some k := by
      rw [← List.head?_drop, ← hrest]
      rfl
    have hjlt : j < s.listeners.length := (List.getElem?_eq_some_iff.mp hj).1
    cases hstep
    exact
      { pending := by simpa using h.pending
        listener := by
          intro i rest' hi
          rw [List.count_append, List.count_singleton]
          by_cases hij : i = j
          · subst hij
            rw [List.getElem?_set_self hjlt] at hi
            cases hi
            refine ⟨batch, hbatch, ?_⟩
            rw [if_pos (by simp), ← List.drop_drop, ← hrest]
            rfl
          · rw [List.getElem?_set_ne (Ne.symm hij)] at hi
            simpa [Ne.symm hij] using h.listener i rest' hi
        idle := by
          intro i hi
          rw [List.length_set] at hi
          have hij : ¬ j = i := by omega
          simpa [List.count_singleton, hij] using h.idle i hi
        ended := by simpa using h.ended
        collects := by
          by_cases hphase : s.phase = .scanning
          · exact collected_open_reply h hbatch hk hphase rfl rfl
          · exact collected_other h (Or.inl (h.ended.mpr hphase)) (by simp [Revocation.collected, hphase])
        redis := redis_other h (fun k => by simp) rfl (fun _ => rfl) rfl }
  · cases hstep

theorem progress_ended (h : Progress keyId batches start es s)
    (hstep : s.step keyId .ended = some t) :
    Progress keyId batches start (es ++ [.ended]) t := by
  simp only [Revocation.step] at hstep
  split at hstep
  · rename_i hphase hpending
    cases hstep
    have hne : ∀ j, RevokeEvent.ended ≠ .reply j := fun j => by simp
    have hopen : s.purged = false := by simp [Revocation.purged, hphase]
    exact
      { pending := h.pending
        listener := fun j rest hj => listener_other h hne j rest hj
        idle := fun j hj => idle_other h hne j hj
        ended := by simp
        collects := collected_other h (Or.inr hne) (by simp [Revocation.collected, hphase])
        redis := redis_other h (fun k => by simp) hopen.symm (fun hp => by simp [hopen] at hp) rfl }
  · cases hstep

theorem progress_del (h : Progress keyId batches start es s) (hstep : s.step keyId .del = some t) :
    Progress keyId batches start (es ++ [.del]) t := by
  simp only [Revocation.step] at hstep
  split at hstep
  · rename_i hphase
    cases hstep
    have hne : ∀ j, RevokeEvent.del ≠ .reply j := fun j => by simp
    exact
      { pending := h.pending
        listener := fun j rest hj => listener_other h hne j rest hj
        idle := fun j hj => idle_other h hne j hj
        ended := by simpa [hphase] using h.ended
        collects := collected_other h (Or.inr hne) (by simp [Revocation.collected, hphase])
        redis := by
          intro k
          have hk := h.redis k
          simp only [Revocation.purged, hphase] at hk
          show (s.store.del s.doomed).redis k = _
          rw [ApiKeyStore.del_redis, hk]
          by_cases hd : k ∈ s.doomed <;> simp [hd, Revocation.purged] }
  · cases hstep

theorem progress_remove (h : Progress keyId batches start es s)
    (hstep : s.step keyId .remove = some t) :
    Progress keyId batches start (es ++ [.remove]) t := by
  simp only [Revocation.step] at hstep
  split at hstep
  · rename_i hphase
    cases hstep
    have hne : ∀ j, RevokeEvent.remove ≠ .reply j := fun j => by simp
    have hpurged : s.purged = true := by simp [Revocation.purged, hphase]
    exact
      { pending := h.pending
        listener := fun j rest hj => listener_other h hne j rest hj
        idle := fun j hj => idle_other h hne j hj
        ended := by simpa [hphase] using h.ended
        collects := collected_other h (Or.inr hne) (by simp [Revocation.collected, hphase])
        redis := redis_other h (fun k => by simp) hpurged.symm (fun _ => rfl) rfl }
  · cases hstep

theorem progress_expire {k : String} (h : Progress keyId batches start es s)
    (hstep : s.step keyId (.expire k) = some t) :
    Progress keyId batches start (es ++ [.expire k]) t := by
  simp only [Revocation.step, Option.some.injEq] at hstep
  subst hstep
  have hne : ∀ j, RevokeEvent.expire k ≠ .reply j := fun j => by simp
  exact
    { pending := h.pending
      listener := fun j rest hj => listener_other h hne j rest hj
      idle := fun j hj => idle_other h hne j hj
      ended := by simpa using h.ended
      collects := collected_other h (Or.inr hne) rfl
      redis := by
        intro x
        show (s.store.del [k]).redis x = _
        rw [ApiKeyStore.del_redis, h.redis x]
        by_cases hx : x = k
        · simp [hx]
        · simp [hx, Revocation.purged] }

end Steps

/-- The invariant along a schedule. -/
theorem progress_run (keyId : String) {userId : String} {batches : List (List String)}
    {store : ApiKeyStore N} {s t : Revocation N} {es : List RevokeEvent}
    (hstart : revokeApiKey userId keyId batches store = .ok s)
    (hrun : run (Revocation.step keyId) s es = some t) :
    Progress keyId batches s.store.redis es t := by
  refine run_induction (Revocation.step keyId) s
    (fun es t => Progress keyId batches s.store.redis es t) (progress_start keyId hstart) ?_ es t hrun
  intro es m e t _ hm hstep
  cases e with
  | data => exact progress_data hm hstep
  | reply j => exact progress_reply hm hstep
  | ended => exact progress_ended hm hstep
  | del => exact progress_del hm hstep
  | remove => exact progress_remove hm hstep
  | expire k => exact progress_expire hm hstep

/-! ### What a resolved revocation leaves behind -/

/-- No lookup entry that carries the id is left. -/
def Purged (keyId : String) (store : ApiKeyStore N) : Prop :=
  ∀ k, IsLookupKey k → carries keyId (store.redis k) = false

/-- The lookup entry of `rawKey` is the one `createApiKey` wrote for the row `keyId`, or is gone. -/
def CreatedAs (sha256 : String → String) (rawKey keyId : String) (store : ApiKeyStore N) : Prop :=
  ∀ text, store.redis (lookupKey (sha256 rawKey)) = some text → carries keyId (some text) = true

/-- `createApiKey` makes it so. -/
theorem createdAs_of_createApiKey (sha256 : String → String)
    (uuid id keyHash userId name : String) (store : ApiKeyStore N) :
    CreatedAs sha256 (createApiKey sha256 uuid id keyHash userId name store).2 id
      (createApiKey sha256 uuid id keyHash userId name store).1 := by
  intro text h
  have hset : some text
      = some (.document (.obj [("userId", .str userId), ("keyId", .str id)])) := by
    rw [← h]
    exact Function.update_self _ _ _
  rw [hset]
  simp [carries, Json.propIs, Json.prop, List.lookup]

/-- What may happen to the store after the revocation of `rawKey`'s row: keys of other raw keys are
created, entries are deleted or expire, rows of `api_keys` and `users` change. -/
inductive LaterStep (sha256 : String → String) (rawKey : String) :
    ApiKeyStore N → ApiKeyStore N → Prop
  | create (store : ApiKeyStore N) (uuid id keyHash userId name : String)
      (hfresh : sha256 (rawKeyOf uuid) ≠ sha256 rawKey) :
      LaterStep sha256 rawKey store (createApiKey sha256 uuid id keyHash userId name store).1
  | del (store : ApiKeyStore N) (keys : List String) :
      LaterStep sha256 rawKey store (store.del keys)
  | tables (store : ApiKeyStore N) (apiKeys : List ApiKeyEntity) (users : List UserEntity) :
      LaterStep sha256 rawKey store { store with apiKeys, users }

/-- A lookup entry that is gone stays gone. -/
theorem missing_later {sha256 : String → String} {rawKey : String} {store later : ApiKeyStore N}
    (hlater : Relation.ReflTransGen (LaterStep sha256 rawKey) store later)
    (h : store.redis (lookupKey (sha256 rawKey)) = none) :
    later.redis (lookupKey (sha256 rawKey)) = none := by
  induction hlater with
  | refl => exact h
  | tail _ hstep ih =>
    cases hstep with
    | create uuid id keyHash userId name hfresh =>
      have hne : lookupKey (sha256 rawKey) ≠ lookupKey (sha256 (rawKeyOf uuid)) := by
        simpa [lookupKey] using hfresh.symm
      exact (Function.update_of_ne hne _ _).trans ih
    | del keys => rw [ApiKeyStore.del_redis, ih, ite_self]
    | tables apiKeys users => exact ih

/-- The lookup entries that carry the id are each read before the stream ends, or expire.  The entry
under `apikey:{keyHash}` itself, should that be a lookup key, is deleted before the scan. -/
def EveryEntryRead (keyId : String) (batches : List (List String)) (key : ApiKeyEntity)
    (store : ApiKeyStore N) (es : List RevokeEvent) : Prop :=
  ∀ k, IsLookupKey k → k ≠ "apikey:" ++ key.keyHash → carries keyId (store.redis k) = true →
    ReadBeforeEnd batches es k ∨ RevokeEvent.expire k ∈ es

/-- What is left of an entry once the revocation has resolved. -/
theorem resolved_carries_iff {userId keyId : String} {batches : List (List String)}
    {store : ApiKeyStore N} {s t : Revocation N} {es : List RevokeEvent}
    (hstart : revokeApiKey userId keyId batches store = .ok s)
    (hrun : run (Revocation.step keyId) s es = some t) (hresolved : t.phase = .resolved) (k : String) :
    carries keyId (t.store.redis k) = true ↔
      carries keyId (s.store.redis k) = true ∧
        ¬ (ReadBeforeEnd batches es k ∨ RevokeEvent.expire k ∈ es) := by
  have h := progress_run keyId hstart hrun
  have hcollected : t.collected = t.doomed := by simp [Revocation.collected, hresolved]
  have hpurged : t.purged = true := by simp [Revocation.purged, hresolved]
  have hcollects := h.collects
  rw [Collects, hcollected] at hcollects
  rw [h.redis k, hpurged]
  constructor
  · intro hc
    split at hc
    · cases hc
    · rename_i hkept
      refine ⟨hc, fun hgone => hkept ?_⟩
      rcases hgone with hread | hexp
      · exact (hcollects.2 k hc hread).imp id fun hd => ⟨rfl, hd⟩
      · exact Or.inl hexp
  · intro ⟨hc, hnot⟩
    rw [if_neg]
    · exact hc
    · intro hgone
      rcases hgone with hexp | ⟨-, hd⟩
      · exact hnot (Or.inr hexp)
      · exact hnot (Or.inl (hcollects.1 k hd))

/-- The first `DEL` only takes the key named after the hash. -/
theorem start_redis {userId keyId : String} {batches : List (List String)}
    {store : ApiKeyStore N} {s : Revocation N}
    (hstart : revokeApiKey userId keyId batches store = .ok s) (k : String) :
    s.store.redis k = if k = "apikey:" ++ s.key.keyHash then none else store.redis k := by
  unfold revokeApiKey at hstart
  split at hstart
  · cases hstart
  · cases hstart
    simp only [ApiKeyStore.del_redis, List.mem_singleton]

/-- A revocation writes nothing: what it leaves was there before. -/
theorem redis_of_run {userId keyId : String} {batches : List (List String)}
    {store : ApiKeyStore N} {s t : Revocation N} {es : List RevokeEvent}
    (hstart : revokeApiKey userId keyId batches store = .ok s)
    (hrun : run (Revocation.step keyId) s es = some t) {k : String} {text : StoredText N}
    (h : t.store.redis k = some text) : store.redis k = some text := by
  rw [(progress_run keyId hstart hrun).redis k, start_redis hstart k] at h
  split at h
  · cases h
  · split at h
    · cases h
    · exact h

/-- **When revocation revokes.**  For every store, every split of the scan into batches and every
schedule on which the call resolves: no lookup entry carrying the id is left, and a raw key created
with that id is refused in every later state, iff every such entry was read before the stream ended
or expired. -/
theorem revokeApiKey_purges_iff (sha256 : String → String) {userId keyId : String}
    {batches : List (List String)} {store : ApiKeyStore N} {s t : Revocation N}
    {es : List RevokeEvent} (hstart : revokeApiKey userId keyId batches store = .ok s)
    (hrun : run (Revocation.step keyId) s es = some t) (hresolved : t.phase = .resolved) :
    (Purged keyId t.store ∧
      ∀ rawKey, CreatedAs sha256 rawKey keyId store →
        ∀ later, Relation.ReflTransGen (LaterStep sha256 rawKey) t.store later →
          ∃ e, validateApiKey sha256 rawKey later = .error e) ↔
      EveryEntryRead keyId batches s.key store es := by
  have hleft := resolved_carries_iff hstart hrun hresolved
  have hfirst : ∀ k, carries keyId (s.store.redis k) = true ↔
      k ≠ "apikey:" ++ s.key.keyHash ∧ carries keyId (store.redis k) = true := by
    intro k
    rw [start_redis hstart k]
    split
    · rename_i heq
      exact ⟨fun hc => absurd hc Bool.false_ne_true, fun hc => absurd heq hc.1⟩
    · rename_i hne
      exact ⟨fun hc => ⟨hne, hc⟩, fun hc => hc.2⟩
  constructor
  · intro ⟨hpurged, _⟩ k hk hne hc
    by_contra hnot
    have hstill := (hleft k).mpr ⟨(hfirst k).mpr ⟨hne, hc⟩, hnot⟩
    rw [hpurged k hk] at hstill
    cases hstill
  · intro hread
    have hpurged : Purged keyId t.store := by
      intro k hk
      by_contra hc
      obtain ⟨hcs, hnot⟩ := (hleft k).mp (Bool.not_eq_false _ ▸ hc)
      obtain ⟨hne, hcstore⟩ := (hfirst k).mp hcs
      exact hnot (hread k hk hne hcstore)
    refine ⟨hpurged, fun rawKey hcreated later hlater => ?_⟩
    refine validateApiKey_of_missing (missing_later hlater ?_)
    cases htext : t.store.redis (lookupKey (sha256 rawKey)) with
    | none => rfl
    | some text =>
      have hc := hcreated text (redis_of_run hstart hrun htext)
      have hnone := hpurged (lookupKey (sha256 rawKey)) ⟨sha256 rawKey, rfl⟩
      rw [htext, hc] at hnone
      cases hnone

/-! ### One key, two schedules -/

/-- An active user with one API key, `esk_0f8f…`, as `createApiKey` leaves it. -/
def sampleStore : ApiKeyStore ℕ where
  redis := fun k =>
    if k = "apikey:lookup:d00674cd546dc5428d36cf9c072d9ae038a9d54ec9afc530a1adc359b1e6dbdb" then
      some (.document (.obj [("userId", .str "user-1"), ("keyId", .str "key-1")]))
    else none
  apiKeys :=
    [{ id := "key-1", userId := "user-1", name := "ci", keyHash := "$2b$10$hash"
       keyPrefix := "esk_0f8fad5b" }]
  users :=
    [{ id := ⟨"user-1", rfl⟩, email := "a@example.com", passwordHash := none, role := .user
       isActive := true }]

def sampleSha256 (rawKey : String) : String :=
  if rawKey = "esk_0f8fad5bd9cb469fa16570867728950e" then
    "d00674cd546dc5428d36cf9c072d9ae038a9d54ec9afc530a1adc359b1e6dbdb"
  else ""

def sampleBatches : List (List String) :=
  [["apikey:lookup:d00674cd546dc5428d36cf9c072d9ae038a9d54ec9afc530a1adc359b1e6dbdb"]]

/-- The reply to the only `GET` comes after the end of the stream: the revocation resolves without
having deleted anything, and the revoked key is still accepted. -/
theorem revokeApiKey_leaves_entry :
    ∃ s t : Revocation ℕ, revokeApiKey "user-1" "key-1" sampleBatches sampleStore = .ok s ∧
      run (Revocation.step "key-1") s [.data, .ended, .del, .remove, .reply 0] = some t ∧
      t.phase = .resolved ∧ t.store.apiKeys = [] ∧ ¬ Purged "key-1" t.store ∧
      validateApiKey sampleSha256 "esk_0f8fad5bd9cb469fa16570867728950e" t.store
        = .ok ⟨"user-1", "a@example.com", .user, some (.str "key-1")⟩ := by
  refine ⟨_, _, rfl, rfl, rfl, rfl, ?_, rfl⟩
  intro hpurged
  have hentry := hpurged (lookupKey "d00674cd546dc5428d36cf9c072d9ae038a9d54ec9afc530a1adc359b1e6dbdb")
    ⟨_, rfl⟩
  cases hentry

/-- With the reply before the end the same revocation works. -/
theorem revokeApiKey_purges_in_time :
    ∃ s t : Revocation ℕ, revokeApiKey "user-1" "key-1" sampleBatches sampleStore = .ok s ∧
      run (Revocation.step "key-1") s [.data, .reply 0, .ended, .del, .remove] = some t ∧
      Purged "key-1" t.store := by
  have hread : ∀ key, EveryEntryRead "key-1" sampleBatches key sampleStore
      [.data, .reply 0, .ended, .del, .remove] := by
    intro key k _ _ hc
    have hk : k = "apikey:lookup:d00674cd546dc5428d36cf9c072d9ae038a9d54ec9afc530a1adc359b1e6dbdb" := by
      by_contra hne
      simp [sampleStore, hne, carries] at hc
    exact Or.inl ⟨0, _, 0, rfl, by decide, by rw [hk]; rfl⟩
  exact ⟨_, _, rfl, rfl,
    ((@revokeApiKey_purges_iff ℕ sampleSha256 "user-1" "key-1" sampleBatches sampleStore _ _
      [.data, .reply 0, .ended, .del, .remove] rfl rfl rfl).mpr (hread _)).1⟩

end EdgeSphere.Auth
