import EdgeSphere.Edge.DiskPath
import EdgeSphere.Library.Expiry
import EdgeSphere.Library.Runs

/-!
# The edge server

The handler of `/cdn/` answers from Redis, from disk, or with what the origin answers, which it then stores in both, in a
goroutine of its own.  An event of the server is a request up to its answer from a cache or to its question to the origin,
an answer of the origin, or one write of a goroutine.

* `CacheEntry`, `EdgeStore` — what is cached, without the status of the answer;
* `lookup` — the two caches; `Written`, `lookup_written` — **a file that the server has written never answers**: its
  `CreatedAt` is the zero time;
* `EdgeServer.step` — one event.
-/

namespace EdgeSphere.Edge

open EdgeSphere.Library
open EdgeSphere.Library.Expiry
open EdgeSphere.Library.FilePath
open EdgeSphere.Library.Runs

abbrev Body := List Buffer.Byte

/-! ### Entries -/

/-- `CreatedAt` is in milliseconds since 1970. -/
structure CacheEntry where
  data : Body
  contentType : String
  etag : String
  remainingTTL : ℤ
  createdAt : ℤ
  deriving DecidableEq

/-- The zero time: the first of January of the year 1. -/
def zeroTime : ℤ := -62135596800000

/-- The longest duration, in milliseconds. -/
def maxDuration : ℤ := 9223372036854

/-- `time.Since`. -/
def since (now : ℕ) (t : ℤ) : ℤ := max (-maxDuration) (min maxDuration (now - t))

/-- `EDGE_REGION`, `CACHE_DIR`, and the working directory. -/
structure EdgeConfig where
  region : List Char
  cacheDir : List Char
  cwd : Place

/-- Redis, and the files by their places. -/
structure EdgeStore where
  redis : List Char → Option (Cell CacheEntry)
  disk : Place → Option CacheEntry

def EdgeConfig.key (config : EdgeConfig) (r : EdgeRequest) : List Char := buildCacheKey r config.region

def EdgeConfig.file (config : EdgeConfig) (key : List Char) : Place := resolve config.cwd (diskPath config.cacheDir key)

/-- What `TTL` answers. -/
def secondsLeft (now : ℕ) (c : Cell CacheEntry) : ℤ :=
  match c.deadline with
  | none => 0
  | some d => (d - now + 500) / 1000

namespace EdgeStore

variable (config : EdgeConfig) (s : EdgeStore)

/-- `CacheManager.GetFromRedis`. -/
def getFromRedis (now : ℕ) (key : List Char) : Option CacheEntry :=
  match s.redis key with
  | none => none
  | some c => if c.alive now then some { c.value with remainingTTL := secondsLeft now c } else none

/-- `CacheManager.SetInRedis`. -/
def setInRedis (now : ℕ) (key : List Char) (entry : CacheEntry) (ttlSeconds : ℕ) : EdgeStore :=
  { s with redis := Function.update s.redis key (put now ttlSeconds entry) }

/-- `CacheManager.GetFromDisk`. -/
def getFromDisk (now : ℕ) (key : List Char) : EdgeStore × Option CacheEntry :=
  match s.disk (config.file key) with
  | none => (s, none)
  | some entry =>
    if entry.remainingTTL * 1000 < since now entry.createdAt then
      ({ s with disk := Function.update s.disk (config.file key) none }, none)
    else (s, some { entry with remainingTTL := entry.remainingTTL - (since now entry.createdAt).tdiv 1000 })

/-- `CacheManager.SetOnDisk`. -/
def setOnDisk (key : List Char) (entry : CacheEntry) : EdgeStore :=
  { s with disk := Function.update s.disk (config.file key) (some entry) }

end EdgeStore

/-! ### Responses -/

structure EdgeResponse where
  status : ℕ
  headers : List (String × String)
  body : Body
  deriving DecidableEq

/-- The answer of the origin; a header that it does not have is empty. -/
structure OriginAnswer where
  status : ℕ
  body : Body
  contentType : String
  etag : String
  deriving DecidableEq

inductive OriginOutcome where
  /-- There is no URL to ask for. -/
  | unusable
  | unreachable
  | unreadable
  | answered (answer : OriginAnswer)

/-- `http.Error`. -/
def httpError (text : String) (status : ℕ) : EdgeResponse where
  status := status
  headers := [("Content-Type", "text/plain; charset=utf-8"), ("X-Content-Type-Options", "nosniff")]
  body := Buffer.encodeUtf8 (text ++ "\n").toList

def internalServerError : EdgeResponse := httpError "Internal server error" 500

def originUnavailable : EdgeResponse := httpError "Origin unavailable" 502

def originUnreadable : EdgeResponse := httpError "Failed to read origin response" 500

section Responses

variable (config : EdgeConfig)

def redisHit (entry : CacheEntry) : EdgeResponse where
  status := 200
  headers := [("Content-Type", entry.contentType), ("X-Cache", "HIT"), ("X-Cache-TTL", toString entry.remainingTTL),
    ("X-Edge-Region", String.ofList config.region),
    ("Cache-Control", "public, max-age=" ++ toString entry.remainingTTL), ("ETag", entry.etag)]
  body := entry.data

def diskHit (entry : CacheEntry) : EdgeResponse where
  status := 200
  headers := [("Content-Type", entry.contentType), ("X-Cache", "HIT"), ("X-Cache-Source", "disk"),
    ("X-Edge-Region", String.ofList config.region)]
  body := entry.data

def fetched (answer : OriginAnswer) (etag : String) : EdgeResponse where
  status := answer.status
  headers := [("Content-Type", answer.contentType), ("X-Cache", "MISS"),
    ("X-Edge-Region", String.ofList config.region), ("ETag", etag), ("Cache-Control", "public, max-age=3600")]
  body := answer.body

end Responses

/-- The origin's `ETag`, or the instant in nanoseconds, in hexadecimal digits. -/
def OriginAnswer.etagAt (answer : OriginAnswer) (nanos : ℕ) : String :=
  if answer.etag = "" then "\"" ++ String.ofList (Nat.toDigits 16 nanos) ++ "\"" else answer.etag

/-- A goroutine that stores an answer; `inRedis` says that its first write has returned. -/
structure EdgeFill where
  request : EdgeRequest
  answer : OriginAnswer
  etag : String
  inRedis : Bool

/-- The entry it stores: there is no `CreatedAt`. -/
def EdgeFill.entry (fill : EdgeFill) : CacheEntry :=
  ⟨fill.answer.body, fill.answer.contentType, fill.etag, 3600, zeroTime⟩

/-! ### The server -/

/-- Where an answer is found. -/
inductive Lookup where
  | redis (entry : CacheEntry)
  | disk (entry : CacheEntry)
  | miss

/-- The second cache. -/
def lookupDisk (config : EdgeConfig) (now : ℕ) (r : EdgeRequest) (s : EdgeStore) : EdgeStore × Lookup :=
  match s.getFromDisk config now (config.key r) with
  | (s, some entry) => (s, .disk entry)
  | (s, none) => (s, .miss)

/-- The two caches, one after the other; Redis may fail. -/
def lookup (config : EdgeConfig) (now : ℕ) (redisUp : Bool) (r : EdgeRequest) (s : EdgeStore) : EdgeStore × Lookup :=
  match if redisUp then s.getFromRedis now (config.key r) else none with
  | some entry => (s, .redis entry)
  | none => lookupDisk config now r s

/-- `fetching` are the requests that wait for the origin, `fills` and `repopulating` the goroutines; `answers` and
`responses` are what the origin and the server have answered so far. -/
structure EdgeServer where
  store : EdgeStore
  fetching : List EdgeRequest
  fills : List EdgeFill
  repopulating : List (List Char × CacheEntry)
  answers : List (EdgeRequest × OriginAnswer)
  responses : List (EdgeRequest × EdgeResponse)

/-- Nothing is cached. -/
def EdgeServer.initial : EdgeServer := ⟨⟨fun _ => none, fun _ => none⟩, [], [], [], [], []⟩

/-- What happens next; a goroutine is named by its place. -/
inductive EdgeEvent where
  | request (r : EdgeRequest) (now : ℕ) (redisUp : Bool)
  | origin (place : ℕ) (outcome : OriginOutcome) (nanos : ℕ)
  | setInRedis (place now : ℕ) (ok : Bool)
  | setOnDisk (place : ℕ) (ok : Bool)
  | repopulate (place now : ℕ) (ok : Bool)

namespace EdgeServer

variable (config : EdgeConfig) (s : EdgeServer)

def respond (r : EdgeRequest) (response : EdgeResponse) : EdgeServer :=
  { s with responses := s.responses ++ [(r, response)] }

/-- The handler, up to its first answer or its question. -/
def request (r : EdgeRequest) (now : ℕ) (redisUp : Bool) : EdgeServer :=
  match lookup config now redisUp r s.store with
  | (_, .redis entry) => s.respond r (redisHit config entry)
  | (store, .disk entry) =>
    respond { s with store, repopulating := s.repopulating ++ [(config.key r, entry)] } r (diskHit config entry)
  | (store, .miss) => { s with store, fetching := s.fetching ++ [r] }

/-- The rest of the handler. -/
def finish (r : EdgeRequest) (nanos : ℕ) : OriginOutcome → EdgeServer
  | .unusable => s.respond r internalServerError
  | .unreachable => s.respond r originUnavailable
  | .unreadable => s.respond r originUnreadable
  | .answered answer =>
    respond { s with
      answers := s.answers ++ [(r, answer)]
      fills := s.fills ++ [⟨r, answer, answer.etagAt nanos, false⟩] } r (fetched config answer (answer.etagAt nanos))

/-- One event. -/
def step : EdgeEvent → Option EdgeServer
  | .request r now redisUp => some (s.request config r now redisUp)
  | .origin place outcome nanos => s.fetching[place]?.map fun r =>
    finish config { s with fetching := s.fetching.eraseIdx place } r nanos outcome
  | .setInRedis place now ok => (s.fills[place]?.filter fun fill => !fill.inRedis).map fun fill =>
    { s with
      store := if ok then s.store.setInRedis now (config.key fill.request) fill.entry 3600 else s.store
      fills := s.fills.set place { fill with inRedis := true } }
  | .setOnDisk place ok => (s.fills[place]?.filter EdgeFill.inRedis).map fun fill =>
    { s with
      store := if ok then s.store.setOnDisk config (config.key fill.request) fill.entry else s.store
      fills := s.fills.eraseIdx place }
  | .repopulate place now ok => s.repopulating[place]?.map fun item =>
    { s with
      store := if ok then s.store.setInRedis now item.1 item.2 3600 else s.store
      repopulating := s.repopulating.eraseIdx place }

end EdgeServer

/-! ### The disk -/

/-- The files are entries of the server. -/
def Written (s : EdgeStore) : Prop :=
  ∀ place entry, s.disk place = some entry → entry.remainingTTL = 3600 ∧ entry.createdAt = zeroTime

/-- The zero time was long ago. -/
theorem since_zeroTime (now : ℕ) : 3600 * 1000 < since now zeroTime := by
  unfold since zeroTime maxDuration
  omega

theorem written_update {s : EdgeStore} (h : Written s) (place : Place) {entry : Option CacheEntry}
    (hentry : ∀ e, entry = some e → e.remainingTTL = 3600 ∧ e.createdAt = zeroTime) :
    Written { s with disk := Function.update s.disk place entry } := by
  intro other e he
  by_cases hplace : other = place
  · subst hplace
    exact hentry e ((Function.update_self other entry s.disk).symm.trans he)
  · exact h other e ((Function.update_of_ne hplace entry s.disk).symm.trans he)

/-- **A file that the server has written never answers**: it is found expired, and removed. -/
theorem getFromDisk_written (config : EdgeConfig) {s : EdgeStore} (h : Written s) (now : ℕ) (key : List Char) :
    (s.getFromDisk config now key).2 = none ∧ Written (s.getFromDisk config now key).1 ∧
      (s.getFromDisk config now key).1.redis = s.redis := by
  unfold EdgeStore.getFromDisk
  cases hfile : s.disk (config.file key) with
  | none => exact ⟨rfl, h, rfl⟩
  | some entry =>
    obtain ⟨httl, hcreated⟩ := h _ entry hfile
    have hexpired : entry.remainingTTL * 1000 < since now entry.createdAt := by
      rw [httl, hcreated]
      exact since_zeroTime now
    simp only [if_pos hexpired]
    exact ⟨trivial, written_update h _ fun e he => (by cases he), trivial⟩

theorem lookupDisk_written (config : EdgeConfig) {s : EdgeStore} (h : Written s) (now : ℕ) (r : EdgeRequest) :
    ∃ store, lookupDisk config now r s = (store, .miss) ∧ store.redis = s.redis ∧ Written store := by
  obtain ⟨hmiss, hwritten, hredis⟩ := getFromDisk_written config h now (config.key r)
  refine ⟨_, ?_, hredis, hwritten⟩
  unfold lookupDisk
  generalize s.getFromDisk config now (config.key r) = out at hmiss
  obtain ⟨store, found⟩ := out
  cases hmiss
  rfl

/-- So only Redis answers. -/
theorem lookup_written (config : EdgeConfig) {s : EdgeStore} (h : Written s) (now : ℕ) (redisUp : Bool)
    (r : EdgeRequest) :
    (∃ entry, redisUp = true ∧ s.getFromRedis now (config.key r) = some entry ∧
      lookup config now redisUp r s = (s, .redis entry)) ∨
    ∃ store, lookup config now redisUp r s = (store, .miss) ∧ store.redis = s.redis ∧ Written store ∧
      (redisUp = true → s.getFromRedis now (config.key r) = none) := by
  obtain ⟨store, hdisk, hredis, hwritten⟩ := lookupDisk_written config h now r
  unfold lookup
  cases redisUp with
  | false => exact .inr ⟨store, hdisk, hredis, hwritten, fun heq => by cases heq⟩
  | true =>
    simp only [if_true]
    cases s.getFromRedis now (config.key r) with
    | none => exact .inr ⟨store, hdisk, hredis, hwritten, fun _ => rfl⟩
    | some entry => exact .inl ⟨entry, trivial, rfl, rfl⟩

/-! ### Runs -/

/-- The disk holds what the server writes, and nothing is on its way from the disk into Redis. -/
structure WritesOnly (s : EdgeServer) : Prop where
  written : Written s.store
  idle : s.repopulating = []

variable {config : EdgeConfig} {s s' : EdgeServer}

theorem writesOnly_initial : WritesOnly .initial where
  written place entry h := by cases h
  idle := rfl

theorem WritesOnly.finish (h : WritesOnly s) (r : EdgeRequest) (nanos : ℕ) (outcome : OriginOutcome) :
    WritesOnly (s.finish config r nanos outcome) := by
  cases outcome <;> exact ⟨h.written, h.idle⟩

/-- **Every step keeps it so.** -/
theorem WritesOnly.step (h : WritesOnly s) {event : EdgeEvent} (hstep : s.step config event = some s') :
    WritesOnly s' := by
  cases event with
  | request r now redisUp =>
    cases hstep
    unfold EdgeServer.request
    rcases lookup_written config h.written now redisUp r with ⟨entry, -, -, hlookup⟩ | ⟨store, hlookup, -, hwritten, -⟩
    · rw [hlookup]
      exact ⟨h.written, h.idle⟩
    · rw [hlookup]
      exact ⟨hwritten, h.idle⟩
  | origin place outcome nanos =>
    obtain ⟨r, -, rfl⟩ := Option.map_eq_some_iff.mp hstep
    have hfetching : WritesOnly { s with fetching := s.fetching.eraseIdx place } := ⟨h.written, h.idle⟩
    exact hfetching.finish r nanos outcome
  | setInRedis place now ok =>
    obtain ⟨fill, -, rfl⟩ := Option.map_eq_some_iff.mp hstep
    cases ok with
    | false => exact ⟨h.written, h.idle⟩
    | true => exact ⟨h.written, h.idle⟩
  | setOnDisk place ok =>
    obtain ⟨fill, -, rfl⟩ := Option.map_eq_some_iff.mp hstep
    cases ok with
    | false => exact ⟨h.written, h.idle⟩
    | true =>
      refine ⟨written_update h.written _ fun e he => ?_, h.idle⟩
      cases he
      exact ⟨rfl, rfl⟩
  | repopulate place now ok =>
    obtain ⟨item, hitem, -⟩ := Option.map_eq_some_iff.mp hstep
    rw [h.idle] at hitem
    cases hitem

/-- **In every run**, the disk never answers, and nothing comes from it. -/
theorem writesOnly_run {es : List EdgeEvent} (hrun : run (EdgeServer.step config) .initial es = some s) :
    WritesOnly s :=
  run_induction (EdgeServer.step config) .initial (fun _ s => WritesOnly s) writesOnly_initial
    (fun _ _ _ _ _ h hstep => h.step hstep) es s hrun

end EdgeSphere.Edge
