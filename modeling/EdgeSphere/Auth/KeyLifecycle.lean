import EdgeSphere.Auth.ApiKeys

/-!
# The life of an API key

Calls of `createApiKey` and `revokeApiKey` interleaved at their awaits, over one Redis and one database.  A creation
saves its row first, and writes the lookup entry afterwards; `validateApiKey` reads the entry alone.

* `KeyService.step` — one event of the service; `create_eq` — a creation without anything between;
* `Sound` — the invariant: every lookup entry is that of a creation, and a revocation deletes entries of its own key;
* `accepted_issued` — **a key that is accepted was issued to the user it is accepted for**;
* `Orphaned`, `orphan_stays` — **a key that outlives its row can be revoked no more**, and is accepted until it expires.
-/

namespace EdgeSphere.Auth

open EdgeSphere.Library
open EdgeSphere.Library.Runs

/-! ### The system -/

/-- What a call of `createApiKey` draws, is given by the database, and is passed. -/
structure Creation where
  uuid : String
  id : String
  userId : String
  name : String
  keyHash : String
  bcrypt : "$2".toList.isPrefixOf keyHash.toList = true

namespace Creation

variable {N : Type}

def rawKey (c : Creation) : String := rawKeyOf c.uuid

def entryKey (sha256 : String → String) (c : Creation) : String := lookupKey (sha256 c.rawKey)

def row (c : Creation) : ApiKeyEntity :=
  { id := c.id, userId := c.userId, name := c.name, keyHash := c.keyHash
    keyPrefix := String.ofList (c.rawKey.toList.take 12) }

/-- `JSON.stringify({ userId, keyId: saved.id })`. -/
def document (c : Creation) : StoredText N :=
  .document (.obj [("userId", .str c.userId), ("keyId", .str c.id)])

end Creation

/-- `publishing` are the creations whose row is saved and whose entry is not written, `revocations` the calls of
`revokeApiKey` that have found their row; each of these works on the store of the service. -/
structure KeyService (N : Type) where
  store : ApiKeyStore N
  publishing : List Creation
  revocations : List (String × Revocation N)

def KeyService.initial {N : Type} (users : List UserEntity) : KeyService N := ⟨⟨fun _ => none, [], users⟩, [], []⟩

inductive KeyEvent where
  /-- A creation saves its row. -/
  | save (c : Creation)
  /-- The creation at this place writes its entry. -/
  | publish (place : ℕ)
  /-- `revokeApiKey` up to its stream, which will emit `batches`. -/
  | revoke (userId keyId : String) (batches : List (List String))
  | revocation (place : ℕ) (e : RevokeEvent)
  /-- Redis drops a key whose time to live has passed. -/
  | expire (k : String)
  | users (users : List UserEntity)

/-- `MATCH apikey:lookup:*`. -/
def isLookupKey (k : String) : Bool := lookupPrefix.toList.isPrefixOf k.toList

section Step

variable {N : Type} (sha256 : String → String)

def KeyService.step (s : KeyService N) : KeyEvent → Option (KeyService N)
  | .save c => some { s with
      store := { s.store with apiKeys := s.store.apiKeys ++ [c.row] }
      publishing := s.publishing ++ [c] }
  | .publish place => s.publishing[place]?.map fun c => { s with
      store := s.store.set (c.entryKey sha256) c.document
      publishing := s.publishing.eraseIdx place }
  | .revoke userId keyId batches =>
    if batches.all fun batch => batch.all isLookupKey then
      match revokeApiKey userId keyId batches s.store with
      | .error _ => some s
      | .ok r => some { s with store := r.store, revocations := s.revocations ++ [(keyId, r)] }
    else none
  | .revocation place e => s.revocations[place]?.bind fun x =>
    (Revocation.step x.1 { x.2 with store := s.store } e).map fun r => { s with
      store := r.store
      revocations := s.revocations.set place (x.1, r) }
  | .expire k => some { s with store := s.store.del [k] }
  | .users users => some { s with store := { s.store with users } }

/-- **A creation without anything between its steps** is `createApiKey`. -/
theorem create_eq (s : KeyService N) (c : Creation) (hnone : s.publishing = []) :
    run (KeyService.step sha256) s [.save c, .publish 0]
      = some { s with store := (createApiKey sha256 c.uuid c.id c.keyHash c.userId c.name s.store).1 } := by
  unfold run run run
  rw [KeyService.step, Option.bind_some, KeyService.step, hnone]
  rfl

end Step

/-- The creations of a run. -/
def created (es : List KeyEvent) : List Creation :=
  es.filterMap fun
    | .save c => some c
    | _ => none

/-! ### The invariant -/

section Invariant

variable {N : Type} (sha256 : String → String)

/-- A revocation reads lookup keys, and finds entries of its own key. -/
structure Scanning (creations : List Creation) (keyId : String) (r : Revocation N) : Prop where
  id : r.key.id = keyId
  pending : ∀ k ∈ r.pending.flatten, isLookupKey k = true
  listeners : ∀ k ∈ r.listeners.flatten, isLookupKey k = true
  toDelete : ∀ k ∈ r.toDelete, ∃ c ∈ creations, c.id = keyId ∧ k = c.entryKey sha256
  doomed : ∀ k ∈ r.doomed, ∃ c ∈ creations, c.id = keyId ∧ k = c.entryKey sha256

/-- Every lookup entry is that of a creation. -/
def Entries (creations : List Creation) (store : ApiKeyStore N) : Prop :=
  ∀ k, isLookupKey k = true → ∀ text, store.redis k = some text →
    ∃ c ∈ creations, k = c.entryKey sha256 ∧ text = c.document

structure Sound (creations : List Creation) (s : KeyService N) : Prop where
  entries : Entries sha256 creations s.store
  publishing : ∀ c ∈ s.publishing, c ∈ creations
  rows : ∀ row ∈ s.store.apiKeys, ∃ c ∈ creations, row = c.row
  revocations : ∀ x ∈ s.revocations, Scanning sha256 creations x.1 x.2

variable {sha256}

theorem isLookupKey_lookupKey (text : String) : isLookupKey (lookupKey text) = true := by
  unfold isLookupKey lookupKey
  rw [String.toList_append, List.isPrefixOf_iff_prefix]
  exact List.prefix_append _ _

/-- The entry of the other naming, `apikey:{keyHash}`, is no lookup entry. -/
theorem not_isLookupKey_bcrypt (c : Creation) : isLookupKey ("apikey:" ++ c.keyHash) = false := by
  obtain ⟨rest, hrest⟩ := List.isPrefixOf_iff_prefix.mp c.bcrypt
  unfold isLookupKey
  rw [String.toList_append, ← hrest]
  rfl

theorem carries_document (c : Creation) (keyId : String) :
    carries keyId (some (c.document : StoredText N)) = decide (c.id = keyId) := by
  simp [carries, Creation.document, Json.propIs, Json.prop, List.lookup]

theorem Entries.del {creations : List Creation} {store : ApiKeyStore N} (h : Entries sha256 creations store)
    (keys : List String) : Entries sha256 creations (store.del keys) := by
  intro k hk text htext
  rw [ApiKeyStore.del_redis] at htext
  split at htext
  · cases htext
  · exact h k hk text htext

theorem Scanning.mono {creations more : List Creation} {keyId : String} {r : Revocation N}
    (h : Scanning sha256 creations keyId r) : Scanning sha256 (creations ++ more) keyId r := by
  have hgrow : ∀ k, (∃ c ∈ creations, c.id = keyId ∧ k = c.entryKey sha256) →
      ∃ c ∈ creations ++ more, c.id = keyId ∧ k = c.entryKey sha256 := by
    rintro k ⟨c, hc, hid, hk⟩
    exact ⟨c, List.mem_append_left _ hc, hid, hk⟩
  exact ⟨h.id, h.pending, h.listeners, fun k hk => hgrow k (h.toDelete k hk), fun k hk => hgrow k (h.doomed k hk)⟩

theorem Sound.mono {creations more : List Creation} {s : KeyService N} (h : Sound sha256 creations s) :
    Sound sha256 (creations ++ more) s where
  entries k hk text htext := by
    obtain ⟨c, hc, hkey, hdocument⟩ := h.entries k hk text htext
    exact ⟨c, List.mem_append_left _ hc, hkey, hdocument⟩
  publishing c hc := List.mem_append_left _ (h.publishing c hc)
  rows row hrow := by
    obtain ⟨c, hc, hcrow⟩ := h.rows row hrow
    exact ⟨c, List.mem_append_left _ hc, hcrow⟩
  revocations x hx := (h.revocations x hx).mono

/-- What one event of a revocation does to the store: nothing, it deletes keys that it has found or that have
expired, or it removes the row of its key. -/
theorem revocation_store {keyId : String} {r r' : Revocation N} {e : RevokeEvent}
    (hstep : Revocation.step keyId r e = some r') :
    r'.store = r.store ∨ (r.phase = .deleting ∧ r'.store = r.store.del r.doomed) ∨
    (∃ k, e = .expire k ∧ r'.store = r.store.del [k]) ∨
    r'.store = { r.store with apiKeys := r.store.apiKeys.filter fun k => decide (k.id ≠ r.key.id) } := by
  cases e with
  | data =>
    simp only [Revocation.step] at hstep
    split at hstep
    · cases hstep
      exact .inl rfl
    · cases hstep
  | reply j =>
    simp only [Revocation.step] at hstep
    split at hstep
    · cases hstep
      exact .inl rfl
    · cases hstep
  | ended =>
    simp only [Revocation.step] at hstep
    split at hstep
    · cases hstep
      exact .inl rfl
    · cases hstep
  | del =>
    simp only [Revocation.step] at hstep
    split at hstep
    · rename_i hphase
      cases hstep
      exact .inr (.inl ⟨hphase, rfl⟩)
    · cases hstep
  | remove =>
    simp only [Revocation.step] at hstep
    split at hstep
    · cases hstep
      exact .inr (.inr (.inr rfl))
    · cases hstep
  | expire k =>
    cases hstep
    exact .inr (.inr (.inl ⟨k, rfl, rfl⟩))

/-- A key that is replied to a listener is one of its keys. -/
theorem Scanning.step {creations : List Creation} {keyId : String} {r r' : Revocation N} {e : RevokeEvent}
    (h : Scanning sha256 creations keyId r) (hentries : Entries sha256 creations r.store)
    (hstep : Revocation.step keyId r e = some r') : Scanning sha256 creations keyId r' := by
  cases e with
  | data =>
    simp only [Revocation.step] at hstep
    split at hstep
    · rename_i batch rest _ hpending
      cases hstep
      have hkeys := h.pending
      rw [hpending, List.flatten_cons] at hkeys
      refine ⟨h.id, fun k hk => hkeys k (List.mem_append_right _ hk), fun k hk => ?_, h.toDelete, h.doomed⟩
      rw [List.flatten_append, List.flatten_singleton] at hk
      rcases List.mem_append.mp hk with hk | hk
      · exact h.listeners k hk
      · exact hkeys k (List.mem_append_left _ hk)
    · cases hstep
  | reply j =>
    simp only [Revocation.step] at hstep
    split at hstep
    · rename_i k ks hlistener
      cases hstep
      have hmem := List.mem_of_getElem? hlistener
      have hlookup : isLookupKey k = true :=
        h.listeners k (List.mem_flatten.mpr ⟨_, hmem, List.mem_cons_self⟩)
      refine ⟨h.id, h.pending, fun k' hk' => ?_, fun k' hk' => ?_, h.doomed⟩
      · obtain ⟨l, hl, hkl⟩ := List.mem_flatten.mp hk'
        rcases List.mem_or_eq_of_mem_set hl with hold | hnew
        · exact h.listeners k' (List.mem_flatten.mpr ⟨l, hold, hkl⟩)
        · rw [hnew] at hkl
          exact h.listeners k' (List.mem_flatten.mpr ⟨_, hmem, List.mem_cons_of_mem _ hkl⟩)
      · have hk' : k' ∈ if carries keyId (r.store.redis k) then r.toDelete ++ [k] else r.toDelete := hk'
        split at hk'
        · rename_i hcarries
          rcases List.mem_append.mp hk' with hold | hnew
          · exact h.toDelete k' hold
          · rw [List.mem_singleton.mp hnew]
            cases htext : r.store.redis k with
            | none =>
              rw [htext] at hcarries
              cases hcarries
            | some text =>
              obtain ⟨c, hc, hkey, rfl⟩ := hentries k hlookup text htext
              rw [htext, carries_document] at hcarries
              exact ⟨c, hc, of_decide_eq_true hcarries, hkey⟩
        · exact h.toDelete k' hk'
    · cases hstep
  | ended =>
    simp only [Revocation.step] at hstep
    split at hstep
    · cases hstep
      exact ⟨h.id, h.pending, h.listeners, h.toDelete, h.toDelete⟩
    · cases hstep
  | del =>
    simp only [Revocation.step] at hstep
    split at hstep
    · cases hstep
      exact ⟨h.id, h.pending, h.listeners, h.toDelete, h.doomed⟩
    · cases hstep
  | remove =>
    simp only [Revocation.step] at hstep
    split at hstep
    · cases hstep
      exact ⟨h.id, h.pending, h.listeners, h.toDelete, h.doomed⟩
    · cases hstep
  | expire k =>
    cases hstep
    exact ⟨h.id, h.pending, h.listeners, h.toDelete, h.doomed⟩

/-- A revocation that has been started. -/
theorem revoke_start {userId keyId : String} {batches : List (List String)} {store : ApiKeyStore N} {r : Revocation N}
    (h : revokeApiKey userId keyId batches store = .ok r) :
    r.key ∈ store.apiKeys ∧ r.key.id = keyId ∧ r.store = store.del ["apikey:" ++ r.key.keyHash] ∧
      r.pending = batches ∧ r.listeners = [] ∧ r.toDelete = [] ∧ r.doomed = [] ∧ r.phase = .scanning := by
  unfold revokeApiKey at h
  cases hfind : store.apiKeys.find? fun k => decide (k.id = keyId) && decide (k.userId = userId) with
  | none =>
    rw [hfind] at h
    cases h
  | some key =>
    rw [hfind] at h
    cases h
    have hkey := List.find?_some hfind
    exact ⟨List.mem_of_find?_eq_some hfind, of_decide_eq_true (Bool.and_eq_true_iff.mp hkey).1, rfl, rfl, rfl, rfl, rfl,
      rfl⟩

/-- **A step keeps the invariant.** -/
theorem Sound.step {creations : List Creation} {s s' : KeyService N} {e : KeyEvent} (h : Sound sha256 creations s)
    (hstep : s.step sha256 e = some s') : Sound sha256 (creations ++ created [e]) s' := by
  cases e with
  | save c =>
    cases hstep
    have hmono : Sound sha256 (creations ++ [c]) s := h.mono
    refine ⟨hmono.entries, fun c' hc' => ?_, fun row hrow => ?_, hmono.revocations⟩
    · exact (List.mem_append.mp hc').elim (hmono.publishing c') fun hnew => List.mem_append_right _ hnew
    · rcases List.mem_append.mp hrow with hold | hnew
      · exact hmono.rows row hold
      · exact ⟨c, List.mem_append_right _ List.mem_cons_self, List.mem_singleton.mp hnew⟩
  | publish place =>
    obtain ⟨c, hc, rfl⟩ := Option.map_eq_some_iff.mp hstep
    rw [show created [.publish place] = [] from rfl, List.append_nil]
    refine ⟨fun k hk text htext => ?_, fun c' hc' => h.publishing c' (List.mem_of_mem_eraseIdx hc'), h.rows,
      h.revocations⟩
    by_cases hkey : k = c.entryKey sha256
    · have hset : (s.store.set (c.entryKey sha256) c.document).redis k = some c.document := by
        rw [hkey]
        exact Function.update_self _ _ _
      exact ⟨c, h.publishing c (List.mem_of_getElem? hc), hkey, Option.some.inj (htext.symm.trans hset)⟩
    · have hsame : (s.store.set (c.entryKey sha256) c.document).redis k = s.store.redis k :=
        Function.update_of_ne hkey _ _
      exact h.entries k hk text (hsame.symm.trans htext)
  | revoke userId keyId batches =>
    rw [show created [.revoke userId keyId batches] = [] from rfl, List.append_nil]
    simp only [KeyService.step] at hstep
    split at hstep
    · rename_i hlookup
      cases hrevoke : revokeApiKey userId keyId batches s.store with
      | error e =>
        rw [hrevoke] at hstep
        cases hstep
        exact h
      | ok r =>
        rw [hrevoke] at hstep
        cases hstep
        obtain ⟨-, hid, hstore, hpending, hlisteners, htoDelete, hdoomed, -⟩ := revoke_start hrevoke
        refine ⟨?_, h.publishing, ?_, fun x hx => ?_⟩
        · show Entries sha256 creations r.store
          rw [hstore]
          exact h.entries.del _
        · show ∀ row ∈ r.store.apiKeys, _
          rw [hstore]
          exact h.rows
        · rcases List.mem_append.mp hx with hold | hnew
          · exact h.revocations x hold
          · rw [List.mem_singleton.mp hnew]
            refine ⟨hid, fun k hk => ?_, fun k hk => ?_, fun k hk => ?_, fun k hk => ?_⟩
            · have hk : k ∈ r.pending.flatten := hk
              rw [hpending] at hk
              obtain ⟨batch, hbatch, hk⟩ := List.mem_flatten.mp hk
              exact List.all_eq_true.mp (List.all_eq_true.mp hlookup batch hbatch) k hk
            · have hk : k ∈ r.listeners.flatten := hk
              rw [hlisteners] at hk
              exact absurd hk List.not_mem_nil
            · have hk : k ∈ r.toDelete := hk
              rw [htoDelete] at hk
              exact absurd hk List.not_mem_nil
            · have hk : k ∈ r.doomed := hk
              rw [hdoomed] at hk
              exact absurd hk List.not_mem_nil
    · cases hstep
  | revocation place e =>
    rw [show created [.revocation place e] = [] from rfl, List.append_nil]
    obtain ⟨x, hx, hstep⟩ := Option.bind_eq_some_iff.mp hstep
    obtain ⟨r, hr, rfl⟩ := Option.map_eq_some_iff.mp hstep
    have hscanning := h.revocations x (List.mem_of_getElem? hx)
    have hshared : Scanning sha256 creations x.1 { x.2 with store := s.store } :=
      ⟨hscanning.id, hscanning.pending, hscanning.listeners, hscanning.toDelete, hscanning.doomed⟩
    have hrows : Entries sha256 creations r.store ∧ ∀ row ∈ r.store.apiKeys, ∃ c ∈ creations, row = c.row := by
      rcases revocation_store hr with hsame | ⟨-, hdel⟩ | ⟨k, -, hdel⟩ | hremove
      · rw [hsame]
        exact ⟨h.entries, h.rows⟩
      · rw [hdel]
        exact ⟨h.entries.del _, h.rows⟩
      · rw [hdel]
        exact ⟨h.entries.del _, h.rows⟩
      · rw [hremove]
        exact ⟨h.entries, fun row hrow => h.rows row (List.mem_of_mem_filter hrow)⟩
    refine ⟨hrows.1, h.publishing, hrows.2, fun y hy => ?_⟩
    rcases List.mem_or_eq_of_mem_set hy with hold | rfl
    · exact h.revocations y hold
    · exact hshared.step h.entries hr
  | expire k =>
    cases hstep
    rw [show created [.expire k] = [] from rfl, List.append_nil]
    exact ⟨h.entries.del _, h.publishing, h.rows, h.revocations⟩
  | users users =>
    cases hstep
    rw [show created [.users users] = [] from rfl, List.append_nil]
    exact ⟨h.entries, h.publishing, h.rows, h.revocations⟩

theorem created_append (es fs : List KeyEvent) : created (es ++ fs) = created es ++ created fs :=
  List.filterMap_append

theorem sound_initial (users : List UserEntity) : Sound sha256 [] (KeyService.initial users : KeyService N) where
  entries k hk text htext := by cases htext
  publishing c hc := absurd hc List.not_mem_nil
  rows row hrow := absurd hrow List.not_mem_nil
  revocations x hx := absurd hx List.not_mem_nil

theorem sound_run {users : List UserEntity} {es : List KeyEvent} {s : KeyService N}
    (hrun : run (KeyService.step sha256) (.initial users) es = some s) : Sound sha256 (created es) s := by
  refine run_induction (KeyService.step sha256) (.initial users) (fun es s => Sound sha256 (created es) s)
    (sound_initial users) (fun es s e s' _ hs hstep => ?_) es s hrun
  rw [created_append]
  exact hs.step hstep

/-! ### Who a key is accepted for -/

theorem lookupKey_injective {a b : String} (h : lookupKey a = lookupKey b) : a = b := by
  unfold lookupKey at h
  have hchars := congrArg String.toList h
  rw [String.toList_append, String.toList_append] at hchars
  exact String.toList_injective (List.append_cancel_left hchars)

/-- What `validateApiKey` makes of the entry of a creation. -/
theorem validateApiKey_document {rawKey : String} {store : ApiKeyStore N} {c : Creation}
    (hformat : "esk_".toList.isPrefixOf rawKey.toList = true)
    (hentry : store.redis (lookupKey (sha256 rawKey)) = some c.document) :
    validateApiKey sha256 rawKey store
      = (store.users.find? fun u => decide (u.id.text = c.userId) && u.isActive).elim
          (.error (.unauthorized "User account is inactive or deleted"))
          fun user =>
            .ok { sub := user.id.text, email := user.email, role := user.role, keyId := some (.str c.id) } := by
  have hfind : findActiveUser store.users (some (.str c.userId : Json N))
      = .ok (store.users.find? fun u => decide (u.id.text = c.userId) && u.isActive) := rfl
  unfold validateApiKey
  rw [if_pos hformat, hentry]
  cases hactive : store.users.find? fun u => decide (u.id.text = c.userId) && u.isActive with
  | none =>
    rw [hactive] at hfind
    simp [Creation.document, Json.prop, List.lookup, hfind]
  | some user =>
    rw [hactive] at hfind
    simp [Creation.document, Json.prop, List.lookup, hfind]

theorem rawKey_format (c : Creation) : "esk_".toList.isPrefixOf c.rawKey.toList = true := by
  unfold Creation.rawKey rawKeyOf
  rw [String.toList_append, List.isPrefixOf_iff_prefix]
  exact List.prefix_append _ _

end Invariant

section Accepted

variable {N : Type}

/-- **A key that is accepted was issued to the user it is accepted for**, who is active, and names the row it was issued
with. -/
theorem accepted_issued (sha256 : String → String) (users : List UserEntity) (es : List KeyEvent) (s : KeyService N)
    (hrun : run (KeyService.step sha256) (.initial users) es = some s) (rawKey : String) (identity : Identity N)
    (haccepted : validateApiKey sha256 rawKey s.store = .ok identity) :
    ∃ c, .save c ∈ es ∧ sha256 c.rawKey = sha256 rawKey ∧ identity.sub = c.userId ∧
      identity.keyId = some (.str c.id) ∧
      ∃ user ∈ s.store.users, user.id.text = c.userId ∧ user.isActive = true := by
  have hsound := sound_run hrun
  by_cases hformat : "esk_".toList.isPrefixOf rawKey.toList = true
  · cases htext : s.store.redis (lookupKey (sha256 rawKey)) with
    | none =>
      obtain ⟨e, he⟩ := validateApiKey_of_missing htext
      rw [he] at haccepted
      cases haccepted
    | some text =>
      obtain ⟨c, hc, hkey, rfl⟩ := hsound.entries _ (isLookupKey_lookupKey _) text htext
      rw [validateApiKey_document hformat htext] at haccepted
      cases hfind : s.store.users.find? fun u => decide (u.id.text = c.userId) && u.isActive with
      | none =>
        rw [hfind] at haccepted
        cases haccepted
      | some user =>
        rw [hfind] at haccepted
        cases haccepted
        have hfound := List.find?_some hfind
        obtain ⟨hid, hactive⟩ := Bool.and_eq_true_iff.mp hfound
        have hid := of_decide_eq_true hid
        obtain ⟨e, he, hsave⟩ := List.mem_filterMap.mp hc
        cases e with
        | save c' =>
          cases hsave
          exact ⟨c, he, (lookupKey_injective hkey).symm, hid, rfl, user, List.mem_of_find?_eq_some hfind, hid, hactive⟩
        | _ => cases hsave
  · unfold validateApiKey at haccepted
    rw [if_neg hformat] at haccepted
    cases haccepted

end Accepted

/-- The user and the creation of the examples. -/
def sampleOwner : UserEntity :=
  { id := ⟨"owner-1", rfl⟩, email := "a@example.com", passwordHash := none, role := .user, isActive := true }

def sampleCreation : Creation :=
  { uuid := "0f8fad5b-d9cb-469f-a165-70867728950e", id := "key-1", userId := "owner-1", name := "ci"
    keyHash := "$2b$10$hash", bcrypt := rfl }

theorem accepted_issued_one : ∃ c, KeyEvent.save c ∈ [.save sampleCreation, .publish 0] ∧
    sampleSha256 c.rawKey = sampleSha256 sampleCreation.rawKey ∧ "owner-1" = c.userId := by
  have hrun : run (KeyService.step sampleSha256) (KeyService.initial [sampleOwner] : KeyService ℕ)
      [.save sampleCreation, .publish 0] = some _ := rfl
  obtain ⟨c, hc, hhash, hsub, -⟩ := accepted_issued sampleSha256 [sampleOwner] _ _ hrun sampleCreation.rawKey
    ⟨"owner-1", "a@example.com", .user, some (.str "key-1")⟩ rfl
  exact ⟨c, hc, hhash, hsub⟩

/-! ### Keys without a row -/

section Orphans

variable {N : Type} {sha256 : String → String}

/-- The database assigns an id once, and no two keys have one digest. -/
structure DistinctCreations (sha256 : String → String) (creations : List Creation) : Prop where
  ids : (creations.map Creation.id).Nodup
  keys : (creations.map (Creation.entryKey sha256)).Nodup

/-- The entry of the key is there, its row is not, and no call that revokes it goes on. -/
structure Orphaned (sha256 : String → String) (c : Creation) (s : KeyService N) : Prop where
  entry : s.store.redis (c.entryKey sha256) = some c.document
  row : ∀ row ∈ s.store.apiKeys, row.id ≠ c.id
  revocations : ∀ x ∈ s.revocations, x.1 = c.id → x.2.phase = .resolved

theorem DistinctCreations.eq_of_id {creations : List Creation} (h : DistinctCreations sha256 creations)
    {c c' : Creation} (hc : c ∈ creations) (hc' : c' ∈ creations) (hid : c.id = c'.id) : c = c' :=
  List.inj_on_of_nodup_map h.ids hc hc' hid

theorem DistinctCreations.eq_of_entryKey {creations : List Creation} (h : DistinctCreations sha256 creations)
    {c c' : Creation} (hc : c ∈ creations) (hc' : c' ∈ creations)
    (hkey : c.entryKey sha256 = c'.entryKey sha256) : c = c' :=
  List.inj_on_of_nodup_map h.keys hc hc' hkey

theorem DistinctCreations.sublist {creations more : List Creation} (h : DistinctCreations sha256 more)
    (hsub : creations.Sublist more) : DistinctCreations sha256 creations :=
  ⟨h.ids.sublist (hsub.map _), h.keys.sublist (hsub.map _)⟩

/-- A revocation that has resolved stays so. -/
theorem resolved_step {keyId : String} {r r' : Revocation N} {e : RevokeEvent}
    (hstep : Revocation.step keyId r e = some r') (hresolved : r.phase = .resolved) :
    r'.phase = .resolved ∧ (r'.store = r.store ∨ ∃ k, e = .expire k ∧ r'.store = r.store.del [k]) := by
  cases e with
  | data =>
    simp only [Revocation.step, hresolved] at hstep
    cases hstep
  | reply j =>
    simp only [Revocation.step] at hstep
    split at hstep
    · cases hstep
      exact ⟨hresolved, .inl rfl⟩
    · cases hstep
  | ended =>
    simp only [Revocation.step, hresolved] at hstep
    cases hstep
  | del =>
    simp only [Revocation.step, hresolved] at hstep
    cases hstep
  | remove =>
    simp only [Revocation.step, hresolved] at hstep
    cases hstep
  | expire k =>
    cases hstep
    exact ⟨hresolved, .inr ⟨k, rfl, rfl⟩⟩

/-- Redis drops this key. -/
def drops (k : String) : KeyEvent → Bool
  | .expire k' => k' = k
  | .revocation _ (.expire k') => k' = k
  | _ => false

theorem entry_del {store : ApiKeyStore N} {c : Creation} (h : store.redis (c.entryKey sha256) = some c.document)
    {keys : List String} (hnot : c.entryKey sha256 ∉ keys) :
    (store.del keys).redis (c.entryKey sha256) = some c.document := by
  rw [ApiKeyStore.del_redis, if_neg hnot]
  exact h

/-- **A step leaves an orphan what it is**, unless Redis drops its entry. -/
theorem Orphaned.step {creations : List Creation} {c : Creation} {s s' : KeyService N} {e : KeyEvent}
    (h : Orphaned sha256 c s) (hsound : Sound sha256 creations s) (hc : c ∈ creations)
    (hdistinct : DistinctCreations sha256 (creations ++ created [e])) (hstep : s.step sha256 e = some s')
    (hkept : drops (c.entryKey sha256) e = false) : Orphaned sha256 c s' := by
  have hbefore : DistinctCreations sha256 creations := hdistinct.sublist (List.sublist_append_left _ _)
  cases e with
  | save c' =>
    cases hstep
    refine ⟨h.entry, fun row hrow => ?_, h.revocations⟩
    rcases List.mem_append.mp hrow with hold | hnew
    · exact h.row row hold
    · rw [List.mem_singleton.mp hnew]
      intro hid
      -- the id would have been assigned twice
      have hids := hdistinct.ids
      rw [List.map_append, List.nodup_append] at hids
      exact hids.2.2 c.id (List.mem_map_of_mem hc) c'.id (List.mem_map_of_mem List.mem_cons_self) hid.symm
  | publish place =>
    obtain ⟨c', hc', rfl⟩ := Option.map_eq_some_iff.mp hstep
    refine ⟨?_, h.row, h.revocations⟩
    have hmem := hsound.publishing c' (List.mem_of_getElem? hc')
    by_cases hkey : c.entryKey sha256 = c'.entryKey sha256
    · cases hbefore.eq_of_entryKey hc hmem hkey
      exact Function.update_self _ _ _
    · exact (Function.update_of_ne hkey _ _).trans h.entry
  | revoke userId keyId batches =>
    simp only [KeyService.step] at hstep
    split at hstep
    · cases hrevoke : revokeApiKey userId keyId batches s.store with
      | error e =>
        rw [hrevoke] at hstep
        cases hstep
        exact h
      | ok r =>
        rw [hrevoke] at hstep
        cases hstep
        obtain ⟨hrow, hid, hstore, -⟩ := revoke_start hrevoke
        refine ⟨?_, ?_, fun x hx => ?_⟩
        · show r.store.redis _ = _
          rw [hstore]
          refine entry_del h.entry fun hmem => ?_
          obtain ⟨c', -, hc'⟩ := hsound.rows r.key hrow
          have hlookup := isLookupKey_lookupKey (sha256 c.rawKey)
          rw [show lookupKey (sha256 c.rawKey) = _ from List.mem_singleton.mp hmem, hc'] at hlookup
          exact absurd (hlookup.symm.trans (not_isLookupKey_bcrypt c')) (by decide)
        · show ∀ row ∈ r.store.apiKeys, _
          rw [hstore]
          exact h.row
        · rcases List.mem_append.mp hx with hold | hnew
          · exact h.revocations x hold
          · rw [List.mem_singleton.mp hnew]
            exact fun heq => absurd (hid.trans heq) (h.row r.key hrow)
    · cases hstep
  | revocation place e =>
    obtain ⟨x, hx, hstep⟩ := Option.bind_eq_some_iff.mp hstep
    obtain ⟨r, hr, rfl⟩ := Option.map_eq_some_iff.mp hstep
    have hmem := List.mem_of_getElem? hx
    have hscanning := hsound.revocations x hmem
    refine ⟨?_, fun row hrow => ?_, fun y hy => ?_⟩
    · show r.store.redis _ = _
      rcases revocation_store hr with hsame | ⟨hphase, hdel⟩ | ⟨k, rfl, hdel⟩ | hremove
      · rw [hsame]
        exact h.entry
      · rw [hdel]
        refine entry_del h.entry fun hdoomed => ?_
        obtain ⟨c', hc', hid, hkey⟩ := hscanning.doomed _ hdoomed
        cases hbefore.eq_of_entryKey hc hc' hkey
        have hresolved := h.revocations x hmem hid.symm
        have hphase : x.2.phase = .deleting := hphase
        rw [hresolved] at hphase
        cases hphase
      · rw [hdel]
        refine entry_del h.entry fun hexpired => ?_
        exact absurd hkept (by rw [drops, List.mem_singleton.mp hexpired]; simp)
      · rw [hremove]
        exact h.entry
    · have hrow : row ∈ r.store.apiKeys := hrow
      rcases revocation_store hr with hsame | ⟨-, hdel⟩ | ⟨k, -, hdel⟩ | hremove
      · rw [hsame] at hrow
        exact h.row row hrow
      · rw [hdel] at hrow
        exact h.row row hrow
      · rw [hdel] at hrow
        exact h.row row hrow
      · rw [hremove] at hrow
        exact h.row row (List.mem_of_mem_filter hrow)
    · rcases List.mem_or_eq_of_mem_set hy with hold | rfl
      · exact h.revocations y hold
      · exact fun hid => (resolved_step hr (h.revocations x hmem hid)).1
  | expire k =>
    cases hstep
    refine ⟨entry_del h.entry fun hmem => ?_, h.row, h.revocations⟩
    exact absurd hkept (by rw [drops, List.mem_singleton.mp hmem]; simp)
  | users users =>
    cases hstep
    exact ⟨h.entry, h.row, h.revocations⟩

/-- **A key that outlives its row can be revoked no more**: as long as Redis keeps its entry, every revocation answers
that there is no such key, and the key is accepted for its active user. -/
theorem orphan_stays (sha256 : String → String) (users : List UserEntity) (es later : List KeyEvent)
    (s s' : KeyService N) (c : Creation) (hrun : run (KeyService.step sha256) (.initial users) es = some s)
    (hlater : run (KeyService.step sha256) s later = some s') (hc : .save c ∈ es)
    (hdistinct : DistinctCreations sha256 (created (es ++ later))) (horphan : Orphaned sha256 c s)
    (hkept : ∀ e ∈ later, drops (c.entryKey sha256) e = false) :
    (∀ userId batches, revokeApiKey userId c.id batches s'.store = .error (.notFound "API key not found")) ∧
    ∀ user, (s'.store.users.find? fun u => decide (u.id.text = c.userId) && u.isActive) = some user →
      validateApiKey sha256 c.rawKey s'.store
        = .ok { sub := user.id.text, email := user.email, role := user.role, keyId := some (.str c.id) } := by
  have hcreated : c ∈ created es := List.mem_filterMap.mpr ⟨_, hc, rfl⟩
  have hend : Orphaned sha256 c s' := by
    refine run_induction (KeyService.step sha256) s (fun done t => done <+: later → Orphaned sha256 c t)
      (fun _ => horphan) (fun done t e t' hdone ih hstep hprefix => ?_) later s' hlater (List.prefix_refl _)
    have hshort : done <+: later := (List.prefix_append _ _).trans hprefix
    have hfull : run (KeyService.step sha256) (.initial users) (es ++ done) = some t := by
      rw [run_append, hrun]
      exact hdone
    have hsub : (created (es ++ done) ++ created [e]).Sublist (created (es ++ later)) := by
      rw [← created_append, List.append_assoc]
      exact (List.prefix_append_right_inj es).mpr hprefix |>.sublist.filterMap _
    refine (ih hshort).step (sound_run hfull) ?_ (hdistinct.sublist hsub) hstep
      (hkept e ( hprefix.subset (List.mem_append_right _ List.mem_cons_self)))
    rw [created_append]
    exact List.mem_append_left _ hcreated
  refine ⟨fun userId batches => ?_, fun user huser => ?_⟩
  · have hnone : (s'.store.apiKeys.find? fun k => decide (k.id = c.id) && decide (k.userId = userId)) = none := by
      refine List.find?_eq_none.mpr fun row hrow => ?_
      rw [decide_eq_false (hend.row row hrow)]
      exact Bool.false_ne_true
    unfold revokeApiKey
    rw [hnone]
  · rw [validateApiKey_document (rawKey_format c) hend.entry, huser]
    rfl

end Orphans

/-- A revocation overtakes the creation of its key: the row is gone when the entry is written. -/
def overtaken : List KeyEvent :=
  [.save sampleCreation, .revoke "owner-1" "key-1" [], .revocation 0 .ended, .revocation 0 .del, .revocation 0 .remove,
    .publish 0]

/-- **The key is accepted, and revoked in vain.** -/
theorem orphan_stays_overtaken : ∃ s : KeyService ℕ,
    run (KeyService.step sampleSha256) (.initial [sampleOwner]) (overtaken ++ [.revoke "owner-1" "key-1" []]) = some s ∧
    revokeApiKey "owner-1" "key-1" [] s.store = .error (.notFound "API key not found") ∧
    validateApiKey sampleSha256 sampleCreation.rawKey s.store
      = .ok ⟨"owner-1", "a@example.com", .user, some (.str "key-1")⟩ := by
  have hdistinct : DistinctCreations sampleSha256 (created (overtaken ++ [.revoke "owner-1" "key-1" []])) :=
    ⟨List.nodup_singleton _, List.nodup_singleton _⟩
  obtain ⟨hrevoke, hvalidate⟩ := @orphan_stays ℕ sampleSha256 [sampleOwner] overtaken
    [.revoke "owner-1" "key-1" []] _ _ sampleCreation rfl rfl List.mem_cons_self hdistinct
    ⟨rfl, fun row hrow => absurd hrow List.not_mem_nil, fun x hx _ => by cases List.mem_singleton.mp hx; rfl⟩
    (fun e he => by rw [List.mem_singleton.mp he]; rfl)
  exact ⟨_, rfl, hrevoke "owner-1" [], hvalidate sampleOwner rfl⟩

end EdgeSphere.Auth
