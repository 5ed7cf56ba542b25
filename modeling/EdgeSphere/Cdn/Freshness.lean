import EdgeSphere.Cdn.Serve

/-!
# Bytes fetched after some point of a run

Fetches are numbered, so what was fetched before some point of a run has a small number.  If then certain calls
would find no older entry, and no call that writes where they read holds older bytes, these calls are never
served anything older.

* `Since` — the invariant, kept by every call (`sinceContract`);
* `Command.unladen` — a call that waits for such a command holds no bytes, so it may be taken up under any
  contract (`every_unladen`);
* `served_since` — no older bytes are served.
-/

namespace EdgeSphere.Cdn

open EdgeSphere.Library
open EdgeSphere.Library.Buffer
open EdgeSphere.Library.Expiry
open EdgeSphere.Library.Program
open EdgeSphere.Library.Runs

variable {ι ε : Type} [DecidableEq ι] [DecidableEq ε]

/-! ### The invariant -/

/-- No live entry that a covered call would find comes from one of the first fetches. -/
structure Since (edges : ε → Edge) (covered : Request ε → Prop) (first : ℕ) (s : Caches ε) : Prop where
  fetches : first ≤ s.fetches.length
  redis : ∀ q v, covered q → read s.now (s.redis (physicalKey (q.cacheKey edges))) = some v →
    first ≤ v.source.number
  memory : ∀ q r, covered q → read s.now (s.memory q.edge (q.cacheKey edges)) = some r → first ≤ r.source.number

def since (edges : ε → Edge) (covered : Request ε → Prop) (first : ℕ) :
    Protocol (Caches ε) Turn (Command ε) Answer String where
  handle := handle edges
  allowed _ _ _ := True
  inv := Since edges covered first
  later _ _ := True
  refl _ := trivial
  trans _ _ := trivial

/-- What the call writes to Redis, a covered call would find. -/
def Meets (edges : ε → Edge) (covered : Request ε → Prop) (request : Request ε) : Prop :=
  ∃ q, covered q ∧ q.cacheKey edges = request.cacheKey edges

section Writes

variable {edges : ε → Edge} {covered : Request ε → Prop} {first : ℕ} {s : Caches ε}

omit [DecidableEq ε] in
theorem Since.advance (h : Since edges covered first s) (elapsed : ℕ) :
    Since edges covered first (s.advance elapsed) where
  fetches := h.fetches
  redis q v hcovered hread := h.redis q v hcovered (read_of_le (Nat.le_add_right _ _) hread)
  memory q r hcovered hread := h.memory q r hcovered (read_of_le (Nat.le_add_right _ _) hread)

omit [DecidableEq ε] in
theorem Since.recordFetch (h : Since edges covered first s) (request : Request ε) :
    Since edges covered first (s.recordFetch request) :=
  ⟨Nat.le_succ_of_le h.fetches, h.redis, h.memory⟩

omit [DecidableEq ε] in
/-- What is written to Redis has to be new if a covered call would find it. -/
theorem Since.setRedis (h : Since edges covered first s) {key : String} {value : Labelled (Source ε) (List Byte)}
    (hnew : ∀ q, covered q → q.cacheKey edges = key → first ≤ value.source.number) (seconds : ℕ) :
    Since edges covered first (s.setRedis key seconds value) where
  fetches := h.fetches
  redis q v hcovered hread := by
    by_cases hsame : q.cacheKey edges = key
    · rw [hsame, Caches.setRedis_self, show (s.setRedis _ _ _).now = s.now from rfl, read_put_self] at hread
      cases hread
      exact hnew q hcovered hsame
    · rw [Caches.setRedis_of_ne _ fun heq => hsame (physicalKey_inj.mp heq)] at hread
      exact h.redis q v hcovered hread
  memory := h.memory

theorem Since.setMemory (h : Since edges covered first s) {edge : ε} {key : String}
    {response : Labelled (Source ε) CdnResponse}
    (hnew : ∀ q, covered q → q.cacheKey edges = key → first ≤ response.source.number) (seconds : ℕ) :
    Since edges covered first (s.setMemory edge key seconds response) where
  fetches := h.fetches
  redis := h.redis
  memory q r hcovered hread := by
    by_cases hsame : q.edge = edge ∧ q.cacheKey edges = key
    · rw [hsame.1, hsame.2, Caches.setMemory_self, show (s.setMemory _ _ _ _).now = s.now from rfl,
        read_put_self] at hread
      cases hread
      exact hnew q hcovered hsame.2
    · rw [Caches.setMemory_of_ne _ (not_and_or.mp hsame)] at hread
      exact h.memory q r hcovered hread

end Writes

section Contract

variable (edges : ε → Edge) (covered : Request ε → Prop) (first : ℕ)

def sinceContract (request : Request ε) : Contract edges (since edges covered first) request where
  fetched _ f := Meets edges covered request → first ≤ f.number
  good _ o := Meets edges covered request → first ≤ o.source.number
  post _ r := covered request → first ≤ r.source.number
  handle_eq := rfl
  fetched_later _ _ _ _ h := h
  good_later _ _ _ _ h := h
  advance s elapsed hinv := ⟨Since.advance hinv elapsed, trivial⟩
  memoryHit s r hinv hread hcovered := hinv.memory request r hcovered hread
  redisHit s v object hinv hread _ hmeets := by
    obtain ⟨q, hcovered, hkey⟩ := hmeets
    exact hinv.redis q v hcovered (hkey ▸ hread)
  fetch s hinv := ⟨Since.recordFetch hinv request, trivial, fun _ => hinv.fetches⟩
  setRedis s f object seconds hinv hfetched _ :=
    ⟨Since.setRedis hinv (fun q hcovered hkey => hfetched ⟨q, hcovered, hkey⟩) _, trivial, hfetched⟩
  setMemory turn s o r hinv hgood _ _ :=
    ⟨Since.setMemory hinv (fun q hcovered hkey => hgood ⟨q, hcovered, hkey⟩) _, trivial,
      fun hcovered => hgood ⟨request, hcovered, rfl⟩⟩

theorem since_deletable : Deletable (since edges covered first) where
  delRedis s physical hinv := by
    refine ⟨⟨hinv.fetches, fun q v hcovered hread => ?_, hinv.memory⟩, trivial⟩
    cases hcell : (s.delRedis physical).redis (physicalKey (q.cacheKey edges)) with
    | none =>
      rw [hcell] at hread
      cases hread
    | some cell =>
      rw [hcell, ← Caches.delRedis_eq_some s hcell] at hread
      exact hinv.redis q v hcovered hread
  delMemory s edge key hinv := by
    refine ⟨⟨hinv.fetches, hinv.redis, fun q r hcovered hread => ?_⟩, trivial⟩
    cases hcell : (s.delMemory edge key).memory q.edge (q.cacheKey edges) with
    | none =>
      rw [hcell] at hread
      cases hread
    | some cell =>
      rw [hcell, ← Caches.delMemory_eq_some s hcell] at hread
      exact hinv.memory q r hcovered hread

end Contract

/-! ### Calls that hold no bytes -/

/-- A call that waits for this holds no bytes yet. -/
def Command.unladen : Command ε → Bool
  | .memoryGet _ _ | .getBuffer _ | .fetch _ _ => true
  | _ => false

/-- A call that waits for this may hold bytes. -/
def Laden (c : Command ε) : Prop := c.unladen = false

omit [DecidableEq ε] in
theorem within_laden {c : Command ε} (h : c.unladen = false) : (await c).Within Laden := within_command h

section Unladen

variable (edges : ε → Edge) (request : Request ε)

/-- If the program waits for such a command, it keeps any contract from any state on. -/
def Resumable (p : CdnProgram ε (Labelled (Source ε) CdnResponse)) : Prop :=
  ∀ c next, p = .call c next → c.unladen = true →
    ∀ (P : Protocol (Caches ε) Turn (Command ε) Answer String) (K : Contract edges P request) (s : Caches ε),
      p.Keeps P K.post Contract.anyError s

theorem resumable_ret (r : Labelled (Source ε) CdnResponse) : Resumable edges request (.ret r) := by
  intro c next heq
  cases heq

theorem resumable_throw (e : String) : Resumable edges request (.throw e) := by
  intro c next heq
  cases heq

theorem resumable_laden {c : Command ε}
    (next : Except String (Answer c) → CdnProgram ε (Labelled (Source ε) CdnResponse)) (hc : c.unladen = false) :
    Resumable edges request (.call c next) := by
  intro c' next' heq hunladen
  cases heq
  rw [hc] at hunladen
  cases hunladen

/-- Past its fetch, a call holds the bytes until it ends. -/
theorem every_fetchAndStore : (fetchAndStore edges request).Every (Resumable edges request) := by
  have hstore : ∀ file, (store edges request file).Within Laden :=
    within_store edges request rfl (fun _ _ => rfl) fun _ => rfl
  unfold fetchAndStore fetchFile
  rw [bind_eq, bind_eq, Program.bind_assoc]
  refine Every.command_bind ?_ (fun originRes => ?_) fun e => resumable_throw edges request e
  · intro c next heq _ P K s
    have hkeeps := K.keeps_fetchAndStore s
    unfold fetchAndStore fetchFile at hkeeps
    rw [bind_eq, bind_eq, Program.bind_assoc] at hkeeps
    exact hkeeps
  refine Within.every (Within.bind ?_ hstore)
    (fun c next hc => resumable_laden edges request next hc) (resumable_ret edges request)
    (resumable_throw edges request)
  split
  · refine (within_laden rfl).bind fun data => ?_
    have hetag : (etagOf originRes.etag : CdnProgram ε String).Within Laden := within_etagOf (by rfl) _
    refine hetag.bind fun etag => ?_
    simp only
    split
    · refine (within_laden rfl).bind fun _ => ?_
      exact (within_laden rfl).bind fun _ => trivial
    · trivial
  · trivial

theorem every_serveFromRedis : (serveFromRedis edges request).Every (Resumable edges request) := by
  have hredis : ∀ redisData, (tryRedis edges request redisData).Within Laden :=
    within_tryRedis edges request rfl fun _ => rfl
  unfold serveFromRedis
  refine Every.command_bind ?_ (fun redisData => ?_) fun e => resumable_throw edges request e
  · intro c next heq _ P K s
    exact K.keeps_serveFromRedis s
  refine (hredis redisData).every_bind (fun c next hc => resumable_laden edges request next hc)
    (resumable_throw edges request) fun response => ?_
  cases response with
  | none => exact every_fetchAndStore edges request
  | some r => exact resumable_ret edges request r

/-- **Whenever a call holds no bytes, it may be taken up under any contract.** -/
theorem every_unladen : (serveFile edges request).Every (Resumable edges request) := by
  unfold serveFile
  refine Every.command_bind ?_ (fun memData => ?_) fun e => resumable_throw edges request e
  · intro c next heq _ P K s
    exact K.keeps s
  cases memData with
  | none => exact every_serveFromRedis edges request
  | some r => exact resumable_ret edges request _

end Unladen

/-! ### Calls under other keys -/

/-- What the call writes, it writes under its own key. -/
def Own (edges : ε → Edge) (request : Request ε) : Command ε → Prop
  | .setex key _ _ => key = request.cacheKey edges
  | .memorySet _ key _ => key = request.cacheKey edges
  | _ => True

section Own

variable (edges : ε → Edge) (request : Request ε)

omit [DecidableEq ε] in
theorem own_fetchFile : (fetchFile edges request).Within (Own edges request) := by
  unfold fetchFile
  refine (within_command (by trivial)).bind fun originRes => ?_
  split
  · refine (within_command (by trivial)).bind fun data => ?_
    have hetag : (etagOf originRes.etag : CdnProgram ε String).Within (Own edges request) := within_etagOf trivial _
    refine hetag.bind fun etag => ?_
    simp only
    split
    · refine (within_command (by trivial)).bind fun _ => ?_
      exact (within_command (by trivial)).bind fun _ => trivial
    · trivial
  · trivial

omit [DecidableEq ε] in
theorem own_store (file : Labelled (Fetch ε) CacheObject) : (store edges request file).Within (Own edges request) :=
  within_store edges request trivial (fun _ _ => rfl) (fun _ => rfl) file

omit [DecidableEq ε] in
theorem own_serveFile : (serveFile edges request).Within (Own edges request) := by
  have hredis : ∀ redisData, (tryRedis edges request redisData).Within (Own edges request) :=
    within_tryRedis edges request trivial fun _ => rfl
  unfold serveFile
  refine (within_command (by trivial)).bind fun memData => ?_
  cases memData with
  | some r => trivial
  | none =>
    refine (within_command (by trivial)).bind fun redisData => ?_
    refine (hredis redisData).bind fun response => ?_
    cases response with
    | some r => trivial
    | none => exact (own_fetchFile edges request).bind (own_store edges request)

variable {edges request} {covered : Request ε → Prop} {first : ℕ}

/-- No covered call would find what such a command writes. -/
theorem since_handle_own (hmeets : ¬ Meets edges covered request) (turn : Turn) (s : Caches ε) (c : Command ε)
    (h : Since edges covered first s) (hown : Own edges request c) :
    Since edges covered first (handle edges turn s c).1 := by
  have hnew : ∀ {key number}, key = request.cacheKey edges → ∀ q, covered q → q.cacheKey edges = key →
      first ≤ number := fun hkey q hcovered hq => absurd ⟨q, hcovered, hq.trans hkey⟩ hmeets
  have hlater := h.advance turn.elapsed
  rcases (handle_state : (handle edges turn s c).1 = _ ∨ _) with hstate | hstate
  · exact hstate ▸ hlater
  · rw [hstate]
    cases c with
    | setex key ttlSeconds value =>
      cases ttlSeconds with
      | nan => exact hlater
      | int seconds =>
        simp only [execute]
        split
        · exact hlater.setRedis (hnew hown) _
        · exact hlater
    | memorySet edge key response => exact hlater.setMemory (hnew hown) _
    | fetch url request' =>
      simp only [execute]
      split
      · exact hlater.recordFetch request'
      · exact hlater
    | _ => exact hlater

end Own

/-! ### Runs -/

variable {edges : ε → Edge} {requests : ι → Request ε}

/-- **The calls are served nothing older**, from a point on at which they are steady. -/
theorem served_since {covered : Request ε → Prop} {first : ℕ} {start pool pool' : Calls ι ε}
    (hstart : start.Steady fun i => sinceContract edges covered first (requests i)) {es : List (Event ι ε)} {i : ι}
    {turn : Turn} (hrun : run (Calls.step edges) start es = some pool)
    (hstep : Calls.step edges pool (.call i turn) = some pool') {r : Labelled (Source ε) CdnResponse}
    (hret : pool'.procs i = .ret r) (hcovered : covered (requests i)) :
    first ≤ r.source.number := by
  have hfree : ∀ turn s c, (since edges covered first).allowed turn s c := fun _ _ _ => trivial
  have hsteady := hstart.run rfl (since_deletable edges covered first) hfree hrun
  obtain ⟨-, -, hpost⟩ := hsteady.step rfl (since_deletable edges covered first) (Event.allowed hfree _ pool) hstep
  exact hpost i turn rfl r hret hcovered

end EdgeSphere.Cdn
