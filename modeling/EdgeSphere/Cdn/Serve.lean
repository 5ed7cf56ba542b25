import EdgeSphere.Library.Expiry
import EdgeSphere.Library.Interference
import EdgeSphere.Cdn.CacheKey
import EdgeSphere.Gateway.PlatformConfig

/-!
# Serving a file from the edge

`CdnService.serveFile` asks the memory of its edge, then the Redis that all edges share, then the origin, and
fills what it missed.  The calls of all edges are interleaved command by command.

Bytes carry a label that no decision depends on: which call fetched them and when, and the TTL that was read
when they were stored.

* `encodeEntry`, `decodeEntry` — an entry in Redis, read back by `decodeEntry_encodeEntry`;
* `serveFile` — the program of one call, `handle` — how one of its commands is executed;
* `Calls.step` — one event: a command of a call, or an entry that is deleted;
* `Contract` — what has to be shown of an invariant so that a call keeps it (`Contract.keeps`).
-/

namespace EdgeSphere.Cdn

open EdgeSphere.Library
open EdgeSphere.Library.Buffer
open EdgeSphere.Library.Expiry
open EdgeSphere.Library.Program
open EdgeSphere.Library.Runs
open EdgeSphere.Library.Stringify

/-! ### Edges and calls -/

/-- `text || fallback`. -/
def orText (fallback : String) : Option String → String
  | none | some "" => fallback
  | some text => text

/-- `n || fallback`. -/
def orNumber (fallback : ℕ) : Option ℕ → ℕ
  | none | some 0 => fallback
  | some n => n

theorem orNumber_pos {fallback : ℕ} (h : 0 < fallback) (n : Option ℕ) : 0 < orNumber fallback n := by
  match n with
  | none => exact h
  | some 0 => exact h
  | some (n + 1) => exact Nat.succ_pos n

/-- The settings of a `CdnService`. -/
structure Edge where
  region : String
  originUrl : String
  ttlSeconds : ℕ
  memTtlSeconds : ℕ
  ttl_pos : 0 < ttlSeconds
  memTtl_pos : 0 < memTtlSeconds

/-- The constructor. -/
def Edge.configured (region originUrl : Option String) (ttlSeconds memTtlSeconds : Option ℕ) : Edge where
  region := orText "us-east-1" region
  originUrl := orText "http://localhost:3002" originUrl
  ttlSeconds := orNumber 3600 ttlSeconds
  memTtlSeconds := orNumber 300 memTtlSeconds
  ttl_pos := orNumber_pos (by decide) ttlSeconds
  memTtl_pos := orNumber_pos (by decide) memTtlSeconds

/-- An edge without settings. -/
def defaultEdge : Edge := Edge.configured none none none none

/-- A call of `serveFile` on an edge. -/
structure Request (ε : Type) where
  edge : ε
  bucket : String
  key : String
  transforms : Option ImageTransformParams

section Request

variable {ε : Type} (edges : ε → Edge) (request : Request ε)

def Request.cacheKey : String :=
  Cdn.cacheKey (edges request.edge).region request.bucket request.key request.transforms

def Request.originReqUrl : String :=
  (edges request.edge).originUrl ++ "/storage/buckets/" ++ request.bucket ++ "/files/" ++ request.key

end Request

/-! ### Labels -/

/-- A fetch that the origin answered with a 2xx status; `number` others were before it. -/
structure Fetch (ε : Type) where
  request : Request ε
  number : ℕ
  fetchedAt : ℕ

/-- Where stored bytes come from, with the TTL that was read for them. -/
structure Source (ε : Type) extends Fetch ε where
  ttlSeconds : IntNumber

structure Labelled (L α : Type) where
  value : α
  source : L

/-! ### Entries -/

/-- `cacheObject`, with the bytes that its `data` encodes. -/
structure CacheObject where
  data : List Byte
  contentType : String
  etag : String
  deriving DecidableEq, Repr

structure CdnResponse extends CacheObject where
  cacheHit : Bool
  remainingTTL : Option ℤ
  deriving DecidableEq, Repr

/-- `Buffer.from(JSON.stringify(cacheObject))`. -/
def encodeEntry (object : CacheObject) : List Byte :=
  encodeUtf8 (objectText [("data".toList, .text (encodeBase64 object.data)),
    ("contentType".toList, .text object.contentType.toList), ("etag".toList, .text object.etag.toList)])

/-- `JSON.parse(redisData.toString())` and `Buffer.from(parsed.data, "base64")`; entries are objects of strings. -/
def decodeEntry (redisData : List Byte) : Option CacheObject :=
  match parseObject (decodeUtf8 redisData) with
  | none => none
  | some parsed =>
    match parsed.lookup "data".toList, parsed.lookup "contentType".toList, parsed.lookup "etag".toList with
    | some data, some contentType, some etag =>
      some ⟨decodeBase64 data, String.ofList contentType, String.ofList etag⟩
    | _, _, _ => none

/-- **An entry is read back**, whatever bytes and texts it holds. -/
theorem decodeEntry_encodeEntry (object : CacheObject) : decodeEntry (encodeEntry object) = some object := by
  have hparse := parseObject_objectText [("data".toList, encodeBase64 object.data),
    ("contentType".toList, object.contentType.toList), ("etag".toList, object.etag.toList)]
  unfold decodeEntry encodeEntry
  rw [decodeUtf8_encodeUtf8]
  simp only [List.map_cons, List.map_nil] at hparse
  rw [hparse]
  show some (CacheObject.mk (decodeBase64 (encodeBase64 object.data)) (String.ofList object.contentType.toList)
    (String.ofList object.etag.toList)) = _
  rw [decodeBase64_encodeBase64, String.ofList_toList, String.ofList_toList]

/-! ### Images -/

/-- `text.includes(part)`. -/
def includes (text part : String) : Bool := decide (part.toList <:+: text.toList)

def supportedTypes : List String :=
  ["image/jpeg", "image/png", "image/gif", "image/webp", "image/avif", "image/svg+xml"]

/-- `ImageOptimizerService.isImage`. -/
def isImage (contentType : String) : Bool := supportedTypes.contains contentType.toLower

/-- The format that `transform` infers. -/
def inferredFormat (contentType : String) : String :=
  if includes contentType "webp" then "webp"
  else if includes contentType "png" then "png"
  else if includes contentType "jpeg" || includes contentType "jpg" then "jpeg"
  else if includes contentType "avif" then "avif"
  else "jpeg"

/-- The content type of what `ImageOptimizerService.transform` makes; the image itself is sharp's. -/
def transformedType (contentType : String) (params : ImageTransformParams) : String :=
  let format := match params.lookup .fmt with
    | some (.text fmt) => orText (inferredFormat contentType) (some fmt)
    | some (.number (some n)) => if n.value = .finite 0 then inferredFormat contentType else ""
    | _ => inferredFormat contentType
  if format = "webp" then "image/webp"
  else if format = "avif" then "image/avif"
  else if format = "png" then "image/png"
  else if format = "jpeg" ∨ format = "jpg" then "image/jpeg"
  else contentType

/-! ### Commands -/

/-- What `fetch` resolves to. -/
structure OriginReply (β : Type) where
  ok : Bool
  statusText : String
  contentType : Option String
  etag : Option String
  body : β

inductive Command (ε : Type) where
  | memoryGet (edge : ε) (cacheKey : String)
  | memorySet (edge : ε) (cacheKey : String) (response : Labelled (Source ε) CdnResponse)
  | getBuffer (key : String)
  | ttl (key : String)
  | setex (key : String) (ttlSeconds : IntNumber) (value : Labelled (Source ε) (List Byte))
  | hget (key field : String)
  /-- `request` is for the label. -/
  | fetch (originReqUrl : String) (request : Request ε)
  | buffer (body : Labelled (Fetch ε) (List Byte))
  | sharp (data : List Byte) (params : ImageTransformParams)
  | dateNow

abbrev Answer {ε : Type} : Command ε → Type
  | .memoryGet _ _ => Option (Labelled (Source ε) CdnResponse)
  | .memorySet _ _ _ => Unit
  | .getBuffer _ => Option (Labelled (Source ε) (List Byte))
  | .ttl _ => ℤ
  | .setex _ _ _ => Unit
  | .hget _ _ => Option String
  | .fetch _ _ => OriginReply (Labelled (Fetch ε) (List Byte))
  | .buffer _ => Labelled (Fetch ε) (List Byte)
  | .sharp _ _ => List Byte
  | .dateNow => ℕ

abbrev CdnProgram (ε α : Type) := Program (Command ε) Answer String α

abbrev await {ε : Type} (c : Command ε) : CdnProgram ε (Answer c) := command c

/-! ### `serveFile` -/

/-- `CacheService.getConfiguredTtlSeconds`. -/
def getConfiguredTtlSeconds {ε : Type} (defaultTtl : ℤ) : CdnProgram ε IntNumber := do
  let val : Option String ← await (.hget "platform_config" "cacheTtlSeconds")
  return Gateway.readSetting defaultTtl val

/-- `W/"${Date.now()}"`, with what else stands before the last quote. -/
def weakEtag (now : ℕ) (mark : String) : String := "W/\"" ++ toString now ++ mark ++ "\""

section Serve

variable {ε : Type} (edges : ε → Edge) (request : Request ε)

/-- `originRes.headers.get("etag") || W/"${Date.now()}"`. -/
def etagOf (etag : Option String) : CdnProgram ε String :=
  match etag with
  | none | some "" => do
    let now : ℕ ← await .dateNow
    return weakEtag now ""
  | some etag => return etag

/-- Step 4 and 5: from the origin, and through the image transforms. -/
def fetchFile : CdnProgram ε (Labelled (Fetch ε) CacheObject) := do
  let originRes : OriginReply (Labelled (Fetch ε) (List Byte)) ←
    await (.fetch (request.originReqUrl edges) request)
  if originRes.ok then
    let contentType := orText "application/octet-stream" originRes.contentType
    let data : Labelled (Fetch ε) (List Byte) ← await (.buffer originRes.body)
    let etag ← etagOf originRes.etag
    let transforms := request.transforms.getD []
    if transforms.length > 0 ∧ isImage contentType then
      let optimized : List Byte ← await (.sharp data.value transforms)
      let now : ℕ ← await .dateNow
      return ⟨⟨optimized, transformedType contentType transforms, weakEtag now "-opt"⟩, data.source⟩
    else return ⟨⟨data.value, contentType, etag⟩, data.source⟩
  else throw ("Origin error: " ++ originRes.statusText)

/-- Step 6 and 7: into both caches. -/
def store (file : Labelled (Fetch ε) CacheObject) : CdnProgram ε (Labelled (Source ε) CdnResponse) := do
  let ttlSeconds ← getConfiguredTtlSeconds (edges request.edge).ttlSeconds
  let source : Source ε := { file.source with ttlSeconds }
  await (.setex (request.cacheKey edges) ttlSeconds ⟨encodeEntry file.value, source⟩)
  let response : CdnResponse := { file.value with cacheHit := false, remainingTTL := none }
  await (.memorySet request.edge (request.cacheKey edges) ⟨response, source⟩)
  return ⟨response, source⟩

def fetchAndStore : CdnProgram ε (Labelled (Source ε) CdnResponse) := do
  let file ← fetchFile edges request
  store edges request file

/-- What is done inside `try` with an entry of Redis. -/
def fromRedis (redisData : Labelled (Source ε) (List Byte)) :
    CdnProgram ε (Option (Labelled (Source ε) CdnResponse)) :=
  match decodeEntry redisData.value with
  | none => throw "SyntaxError"
  | some parsed => do
    let ttl : ℤ ← await (.ttl (request.cacheKey edges))
    let remainingTTL := if 0 < ttl then some ttl else none
    let response : CdnResponse := { parsed with cacheHit := true, remainingTTL }
    await (.memorySet request.edge (request.cacheKey edges) ⟨response, redisData.source⟩)
    return some ⟨response, redisData.source⟩

/-- `if (redisData) try { … } catch (e) { … }`. -/
def tryRedis : Option (Labelled (Source ε) (List Byte)) → CdnProgram ε (Option (Labelled (Source ε) CdnResponse))
  | none => pure none
  | some redisData => (fromRedis edges request redisData).catchAll fun _ => pure none

/-- `serveFile` when the memory has missed. -/
def serveFromRedis : CdnProgram ε (Labelled (Source ε) CdnResponse) := do
  let redisData : Option (Labelled (Source ε) (List Byte)) ← await (.getBuffer (request.cacheKey edges))
  let response ← tryRedis edges request redisData
  match response with
  | some response => return response
  | none => fetchAndStore edges request

/-- `CdnService.serveFile`. -/
def serveFile : CdnProgram ε (Labelled (Source ε) CdnResponse) := do
  let memData : Option (Labelled (Source ε) CdnResponse) ←
    await (.memoryGet request.edge (request.cacheKey edges))
  match memData with
  | some memData => return { memData with value := { memData.value with cacheHit := true } }
  | none => serveFromRedis edges request

/-! What the parts of `serveFile` send. -/

variable {P : Command ε → Prop}

theorem within_getConfiguredTtlSeconds (hget : P (.hget "platform_config" "cacheTtlSeconds")) (defaultTtl : ℤ) :
    (getConfiguredTtlSeconds defaultTtl : CdnProgram ε IntNumber).Within P :=
  (within_command hget).bind fun _ => trivial

theorem within_etagOf (hnow : P .dateNow) (etag : Option String) : (etagOf etag : CdnProgram ε String).Within P := by
  unfold etagOf
  split
  · exact (within_command hnow).bind fun _ => trivial
  · exact (within_command hnow).bind fun _ => trivial
  · trivial

theorem within_store (hget : P (.hget "platform_config" "cacheTtlSeconds"))
    (hsetex : ∀ ttlSeconds o, P (.setex (request.cacheKey edges) ttlSeconds o))
    (hset : ∀ r, P (.memorySet request.edge (request.cacheKey edges) r)) (file : Labelled (Fetch ε) CacheObject) :
    (store edges request file).Within P := by
  unfold store
  refine (within_getConfiguredTtlSeconds hget _).bind fun ttlSeconds => ?_
  refine (within_command (hsetex _ _)).bind fun _ => ?_
  exact (within_command (hset _)).bind fun _ => trivial

theorem within_tryRedis (httl : P (.ttl (request.cacheKey edges)))
    (hset : ∀ r, P (.memorySet request.edge (request.cacheKey edges) r))
    (redisData : Option (Labelled (Source ε) (List Byte))) : (tryRedis edges request redisData).Within P := by
  cases redisData with
  | none => trivial
  | some redisData =>
    refine Within.catchAll ?_ fun _ => trivial
    unfold fromRedis
    split
    · trivial
    · refine (within_command httl).bind fun ttl => ?_
      exact (within_command (hset _)).bind fun _ => trivial

end Serve

/-! ### The caches -/

/-- Redis and the memories of the edges.  `fetches` are the fetches that were answered with a 2xx status, and
`built` the entries that were written to Redis, newest first. -/
structure Caches (ε : Type) where
  now : ℕ
  redis : String → Option (Cell (Labelled (Source ε) (List Byte)))
  memory : ε → String → Option (Cell (Labelled (Source ε) CdnResponse))
  fetches : List (Fetch ε)
  built : List (Labelled (Source ε) (List Byte))

/-- Whether an awaited command is executed, and whether its answer arrives. -/
inductive Fault where
  | none
  | refused
  | lost
  deriving DecidableEq, Repr

/-- What is decided outside of the service when a command is executed. -/
structure Turn where
  elapsed : ℕ
  fault : Fault
  cacheTtlSeconds : Option String
  origin : OriginReply (List Byte)
  transformed : List Byte

/-- Nothing fails, no TTL is configured, and the origin has an image of one byte. -/
def Turn.smooth (elapsed : ℕ) : Turn where
  elapsed := elapsed
  fault := .none
  cacheTtlSeconds := none
  origin := ⟨true, "OK", some "image/jpeg", some "e1", [1]⟩
  transformed := []

namespace Caches

variable {ε : Type}

def empty : Caches ε := ⟨0, fun _ => none, fun _ _ => none, [], []⟩

variable (s : Caches ε)

def advance (elapsed : ℕ) : Caches ε := { s with now := s.now + elapsed }

/-- A 2xx answer to a call, now. -/
def fetchOf (request : Request ε) : Fetch ε := ⟨request, s.fetches.length, s.now⟩

def recordFetch (request : Request ε) : Caches ε := { s with fetches := s.fetchOf request :: s.fetches }

/-- `SETEX` through the client, which adds its prefix. -/
def setRedis (key : String) (seconds : ℕ) (value : Labelled (Source ε) (List Byte)) : Caches ε :=
  { s with
    redis := Function.update s.redis (physicalKey key) (put s.now seconds value)
    built := value :: s.built }

def delRedis (physical : String) : Caches ε := { s with redis := Function.update s.redis physical none }

variable [DecidableEq ε]

/-- `NodeCache.set` with the `stdTTL` of the edge. -/
def setMemory (edge : ε) (key : String) (memTtlSeconds : ℕ) (response : Labelled (Source ε) CdnResponse) :
    Caches ε :=
  { s with
    memory := Function.update s.memory edge
      (Function.update (s.memory edge) key (put s.now memTtlSeconds response)) }

def delMemory (edge : ε) (key : String) : Caches ε :=
  { s with memory := Function.update s.memory edge (Function.update (s.memory edge) key none) }

end Caches

namespace Caches

variable {ε : Type} (s : Caches ε)

@[simp] theorem setRedis_self (key : String) (seconds : ℕ) (value : Labelled (Source ε) (List Byte)) :
    (s.setRedis key seconds value).redis (physicalKey key) = put s.now seconds value := Function.update_self _ _ _

theorem setRedis_of_ne {physical key : String} (h : physical ≠ physicalKey key) (seconds : ℕ)
    (value : Labelled (Source ε) (List Byte)) :
    (s.setRedis key seconds value).redis physical = s.redis physical := Function.update_of_ne h _ _

/-- An entry that is left was there before. -/
theorem delRedis_eq_some {physical key : String} {cell : Cell (Labelled (Source ε) (List Byte))}
    (h : (s.delRedis physical).redis key = some cell) : s.redis key = some cell := by
  have h : Function.update s.redis physical none key = some cell := h
  by_cases hkey : key = physical
  · rw [hkey, Function.update_self] at h
    cases h
  · rw [Function.update_of_ne hkey] at h
    exact h

variable [DecidableEq ε]

@[simp] theorem setMemory_self (edge : ε) (key : String) (memTtlSeconds : ℕ)
    (response : Labelled (Source ε) CdnResponse) :
    (s.setMemory edge key memTtlSeconds response).memory edge key = put s.now memTtlSeconds response := by
  simp [setMemory]

theorem setMemory_of_ne {edge edge' : ε} {key key' : String} (h : edge' ≠ edge ∨ key' ≠ key) (memTtlSeconds : ℕ)
    (response : Labelled (Source ε) CdnResponse) :
    (s.setMemory edge key memTtlSeconds response).memory edge' key' = s.memory edge' key' := by
  show Function.update s.memory edge (Function.update (s.memory edge) key _) edge' key' = _
  by_cases hedge : edge' = edge
  · have hkey : key' ≠ key := h.resolve_left fun hne => hne hedge
    rw [hedge, Function.update_self, Function.update_of_ne hkey]
  · rw [Function.update_of_ne hedge]

theorem delMemory_eq_some {edge edge' : ε} {key key' : String} {cell : Cell (Labelled (Source ε) CdnResponse)}
    (h : (s.delMemory edge key).memory edge' key' = some cell) : s.memory edge' key' = some cell := by
  have h : Function.update s.memory edge (Function.update (s.memory edge) key none) edge' key' = some cell := h
  by_cases hedge : edge' = edge
  · rw [hedge, Function.update_self] at h
    by_cases hkey : key' = key
    · rw [hkey, Function.update_self] at h
      cases h
    · rw [Function.update_of_ne hkey] at h
      rw [hedge]
      exact h
  · rw [Function.update_of_ne hedge] at h
    exact h

end Caches

/-- `TTL`: -2 for a missing key, else the seconds that are left, rounded. -/
def remainingTTL {α : Type} (now : ℕ) : Option (Cell α) → ℤ
  | none => -2
  | some cell =>
    match cell.deadline with
    | none => -1
    | some deadline => if now ≤ deadline then ((deadline : ℤ) - now + 500) / 1000 else -2

section Handle

variable {ε : Type} [DecidableEq ε] (edges : ε → Edge) (turn : Turn) (s : Caches ε)

/-- Execute a command that does not fail on the way. -/
def execute : (c : Command ε) → Caches ε × Except String (Answer c)
  | .memoryGet edge key => (s, .ok (read s.now (s.memory edge key)))
  | .memorySet edge key response => (s.setMemory edge key (edges edge).memTtlSeconds response, .ok ())
  | .getBuffer key => (s, .ok (read s.now (s.redis (physicalKey key))))
  | .ttl key => (s, .ok (remainingTTL s.now (s.redis (physicalKey key))))
  | .setex key ttlSeconds value =>
    match ttlSeconds with
    | .nan => (s, .error "ERR value is not an integer or out of range")
    | .int seconds =>
      if 0 < seconds then (s.setRedis key seconds.toNat value, .ok ())
      else (s, .error "ERR invalid expire time in 'setex' command")
  | .hget _ _ => (s, .ok turn.cacheTtlSeconds)
  | .fetch _ request =>
    (if turn.origin.ok then s.recordFetch request else s,
      .ok { turn.origin with body := ⟨turn.origin.body, s.fetchOf request⟩ })
  | .buffer body => (s, .ok body)
  | .sharp _ _ => (s, .ok turn.transformed)
  | .dateNow => (s, .ok s.now)

/-- The memory and the clock of the process never fail. -/
def Command.inProcess : Command ε → Bool
  | .memoryGet _ _ | .memorySet _ _ _ | .dateNow => true
  | _ => false

/-- Execute one command, after the time that has gone by. -/
def handle (c : Command ε) : Caches ε × Except String (Answer c) :=
  let s := s.advance turn.elapsed
  match if c.inProcess then .none else turn.fault with
  | .none => execute edges turn s c
  | .refused => (s, .error "ECONNREFUSED")
  | .lost => ((execute edges turn s c).1, .error "ETIMEDOUT")

end Handle

/-! ### What a command does -/

section Steps

variable {ε : Type} [DecidableEq ε] {edges : ε → Edge} {turn : Turn} {s : Caches ε} {c : Command ε}

/-- A command that is answered has been executed. -/
theorem handle_ok {r : Answer c} (h : (handle edges turn s c).2 = .ok r) :
    handle edges turn s c = execute edges turn (s.advance turn.elapsed) c := by
  unfold handle at h ⊢
  simp only at h ⊢
  split at h
  · rfl
  · cases h
  · cases h

/-- A command is executed or not. -/
theorem handle_state : (handle edges turn s c).1 = s.advance turn.elapsed ∨
    (handle edges turn s c).1 = (execute edges turn (s.advance turn.elapsed) c).1 := by
  unfold handle
  simp only
  split
  · exact .inr rfl
  · exact .inl rfl
  · exact .inr rfl

/-- The command changes neither the caches nor the record of them. -/
def Command.reads : Command ε → Bool
  | .memorySet _ _ _ | .setex _ _ _ | .fetch _ _ => false
  | _ => true

theorem execute_reads (h : c.reads = true) : (execute edges turn s c).1 = s := by
  cases c with
  | memorySet edge key response => cases h
  | setex key ttlSeconds value => cases h
  | fetch url request => cases h
  | _ => rfl

end Steps

/-! ### What a call has to keep -/

/-- What has to be shown of a protocol for one call: `fetched` is what is known of the label of fetched bytes,
`good` of an object that may be put into the memory, `post` of the response. -/
structure Contract {ε : Type} [DecidableEq ε] (edges : ε → Edge)
    (P : Protocol (Caches ε) Turn (Command ε) Answer String) (request : Request ε) where
  fetched : Caches ε → Fetch ε → Prop
  good : Caches ε → Labelled (Source ε) CacheObject → Prop
  post : Caches ε → Labelled (Source ε) CdnResponse → Prop
  handle_eq : P.handle = handle edges
  fetched_later : ∀ f s s', P.later s s' → fetched s f → fetched s' f
  good_later : ∀ o s s', P.later s s' → good s o → good s' o
  advance : ∀ s elapsed, P.inv s → P.inv (s.advance elapsed) ∧ P.later s (s.advance elapsed)
  memoryHit : ∀ s r, P.inv s → read s.now (s.memory request.edge (request.cacheKey edges)) = some r →
    post s { r with value := { r.value with cacheHit := true } }
  redisHit : ∀ s v object, P.inv s → read s.now (s.redis (physicalKey (request.cacheKey edges))) = some v →
    decodeEntry v.value = some object → good s ⟨object, v.source⟩
  fetch : ∀ s, P.inv s → P.inv (s.recordFetch request) ∧ P.later s (s.recordFetch request) ∧
    fetched (s.recordFetch request) (s.fetchOf request)
  setRedis : ∀ s f object (seconds : ℤ), P.inv s → fetched s f → 0 < seconds →
    let source : Source ε := { f with ttlSeconds := .int seconds }
    let s' := s.setRedis (request.cacheKey edges) seconds.toNat ⟨encodeEntry object, source⟩
    P.inv s' ∧ P.later s s' ∧ good s' ⟨object, source⟩
  setMemory : ∀ turn s o (r : CdnResponse), P.inv (s.advance turn.elapsed) → good (s.advance turn.elapsed) o →
    r.toCacheObject = o.value →
    P.allowed turn s (.memorySet request.edge (request.cacheKey edges) ⟨r, o.source⟩) →
    let s' := (s.advance turn.elapsed).setMemory request.edge (request.cacheKey edges)
      (edges request.edge).memTtlSeconds ⟨r, o.source⟩
    P.inv s' ∧ P.later (s.advance turn.elapsed) s' ∧ post s' ⟨r, o.source⟩

namespace Contract

variable {ε : Type} [DecidableEq ε] {edges : ε → Edge}
  {P : Protocol (Caches ε) Turn (Command ε) Answer String} {request : Request ε} (K : Contract edges P request)

/-- No matter which error. -/
def anyError : Caches ε → String → Prop := fun _ _ => True

include K in
/-- The rule of one command, executed at once or not at all; `Q` is what stays known until then. -/
theorem keeps_execute {c : Command ε} {Q : Caches ε → Prop} (hstable : ∀ s s', P.later s s' → Q s → Q s')
    {post : Caches ε → Answer c → Prop}
    (h : ∀ turn s, P.inv (s.advance turn.elapsed) → Q (s.advance turn.elapsed) → P.allowed turn s c →
      P.inv (execute edges turn (s.advance turn.elapsed) c).1 ∧
        P.later (s.advance turn.elapsed) (execute edges turn (s.advance turn.elapsed) c).1 ∧
          ∀ r, (execute edges turn (s.advance turn.elapsed) c).2 = .ok r →
            post (execute edges turn (s.advance turn.elapsed) c).1 r) {s : Caches ε} (hs : Q s) :
    (await c).Keeps P post anyError s := by
  refine keeps_command fun s' hlater hinv turn hallowed => ?_
  obtain ⟨hinv', hlater'⟩ := K.advance s' turn.elapsed hinv
  obtain ⟨hkeep, hdone, hpost⟩ := h turn s' hinv' (hstable _ _ hlater' (hstable _ _ hlater hs)) hallowed
  rw [K.handle_eq]
  refine ⟨?_, ?_, fun r hr => ?_, fun _ _ => trivial⟩
  · rcases (handle_state : (handle edges turn s' c).1 = _ ∨ _) with heq | heq
    · exact heq ▸ hinv'
    · exact heq ▸ hkeep
  · rcases (handle_state : (handle edges turn s' c).1 = _ ∨ _) with heq | heq
    · exact heq ▸ hlater'
    · exact heq ▸ P.trans hlater' hdone
  · have hexecuted := handle_ok hr
    rw [hexecuted] at hr ⊢
    exact hpost r hr

include K in
/-- A command that only reads. -/
theorem keeps_reads {c : Command ε} (hc : c.reads = true) {Q : Caches ε → Prop}
    (hstable : ∀ s s', P.later s s' → Q s → Q s') {post : Caches ε → Answer c → Prop}
    (hanswer : ∀ turn s r, P.inv s → Q s → (execute edges turn s c).2 = .ok r → post s r) {s : Caches ε}
    (hs : Q s) : (await c).Keeps P post anyError s := by
  refine K.keeps_execute hstable (fun turn s' hinv hq _ => ?_) hs
  rw [execute_reads hc]
  exact ⟨hinv, P.refl _, fun r hr => hanswer turn _ r hinv hq hr⟩

/-- The memory is filled, and the response is ready. -/
theorem keeps_memorySet {o : Labelled (Source ε) CacheObject} {r : CdnResponse} (hr : r.toCacheObject = o.value)
    {s : Caches ε} (ho : K.good s o) :
    (await (.memorySet request.edge (request.cacheKey edges) ⟨r, o.source⟩)).Keeps P
      (fun s _ => K.post s ⟨r, o.source⟩) anyError s := by
  refine K.keeps_execute (K.good_later o) (fun turn s' hinv hgood hallowed => ?_) ho
  obtain ⟨hkeep, hfill, hpost⟩ := K.setMemory turn s' o r hinv hgood hr hallowed
  exact ⟨hkeep, hfill, fun _ _ => hpost⟩

theorem keeps_etagOf {f : Fetch ε} (etag : Option String) {s : Caches ε} (hf : K.fetched s f) :
    (etagOf etag).Keeps P (fun s _ => K.fetched s f) anyError s := by
  have hnow : ((await .dateNow).bind fun now : ℕ => pure (weakEtag now "")).Keeps P
      (fun s _ => K.fetched s f) anyError s :=
    (K.keeps_reads rfl (K.fetched_later f) (fun _ _ _ _ hs _ => hs) hf).bind fun _ _ hs => hs
  unfold etagOf
  split
  · exact hnow
  · exact hnow
  · exact hf

/-- What comes from the origin is labelled with a fetch of this call. -/
theorem keeps_fetchFile (s : Caches ε) :
    (fetchFile edges request).Keeps P (fun s file => K.fetched s file.source) anyError s := by
  have hfetch : (await (.fetch (request.originReqUrl edges) request)).Keeps P
      (fun s originRes => originRes.ok = true → K.fetched s originRes.body.source) anyError s := by
    refine K.keeps_execute (Q := fun _ => True) (fun _ _ _ _ => trivial) (fun turn s' hinv _ _ => ?_) trivial
    obtain ⟨hkeep, hrecord, hfetched⟩ := K.fetch _ hinv
    by_cases horigin : turn.origin.ok = true
    · simp only [execute, if_pos horigin]
      refine ⟨hkeep, hrecord, fun r hr _ => ?_⟩
      cases hr
      exact hfetched
    · simp only [execute, if_neg horigin]
      refine ⟨hinv, P.refl _, fun r hr hok => ?_⟩
      cases hr
      exact absurd hok horigin
  unfold fetchFile
  refine hfetch.bind fun s originRes hfetched => ?_
  by_cases hok : originRes.ok = true
  · rw [if_pos hok]
    refine Keeps.bind (Q := fun s data => K.fetched s data.source)
      (K.keeps_reads rfl (K.fetched_later _) (fun turn s r _ hs hr => ?_) (hfetched hok)) fun s data hdata => ?_
    · cases hr
      exact hs
    refine (K.keeps_etagOf originRes.etag hdata).bind fun s etag hs => ?_
    simp only
    split
    · refine (K.keeps_reads rfl (K.fetched_later _) (fun _ _ _ _ hs _ => hs) hs).bind fun s _ hs => ?_
      exact (K.keeps_reads rfl (K.fetched_later _) (fun _ _ _ _ hs _ => hs) hs).bind fun s _ hs => hs
    · exact hs
  · rw [if_neg hok]
    trivial

/-- Both caches are filled with a file. -/
theorem keeps_store {file : Labelled (Fetch ε) CacheObject} {s : Caches ε} (hfile : K.fetched s file.source) :
    (store edges request file).Keeps P K.post anyError s := by
  have hsetex : ∀ s ttlSeconds, K.fetched s file.source →
      (await (.setex (request.cacheKey edges) ttlSeconds
        ⟨encodeEntry file.value, { file.source with ttlSeconds }⟩)).Keeps P
          (fun s _ => K.good s ⟨file.value, { file.source with ttlSeconds }⟩) anyError s := by
    intro s ttlSeconds hs
    refine K.keeps_execute (K.fetched_later _) (fun turn s' hinv hfetched _ => ?_) hs
    cases ttlSeconds with
    | nan =>
      refine ⟨hinv, P.refl _, fun r hr => ?_⟩
      cases hr
    | int seconds =>
      by_cases hpos : 0 < seconds
      · obtain ⟨hkeep, hset, hgood⟩ := K.setRedis _ file.source file.value seconds hinv hfetched hpos
        simp only [execute, if_pos hpos]
        exact ⟨hkeep, hset, fun _ _ => hgood⟩
      · simp only [execute, if_neg hpos]
        refine ⟨hinv, P.refl _, fun r hr => ?_⟩
        cases hr
  unfold store getConfiguredTtlSeconds
  refine Keeps.bind (Q := fun s _ => K.fetched s file.source) ?_ fun s ttlSeconds hs => ?_
  · exact (K.keeps_reads rfl (K.fetched_later _) (fun _ _ _ _ hs _ => hs) hfile).bind fun _ _ hs => hs
  refine (hsetex s ttlSeconds hs).bind fun s _ hgood => ?_
  exact (K.keeps_memorySet rfl hgood).bind fun _ _ hpost => hpost

theorem keeps_fetchAndStore (s : Caches ε) : (fetchAndStore edges request).Keeps P K.post anyError s :=
  (K.keeps_fetchFile s).bind fun _ _ hfile => K.keeps_store hfile

/-- An entry of Redis is decoded and put into the memory. -/
theorem keeps_fromRedis {redisData : Labelled (Source ε) (List Byte)} {s : Caches ε}
    (h : ∀ object, decodeEntry redisData.value = some object → K.good s ⟨object, redisData.source⟩) :
    (fromRedis edges request redisData).Keeps P (fun s response => ∀ r, response = some r → K.post s r)
      anyError s := by
  unfold fromRedis
  split
  · trivial
  · rename_i parsed hparsed
    refine (K.keeps_reads rfl (K.good_later _) (fun _ _ _ _ hs _ => hs) (h parsed hparsed)).bind fun s ttl hs => ?_
    refine (K.keeps_memorySet rfl hs).bind fun s _ hpost r hr => ?_
    cases hr
    exact hpost

theorem keeps_serveFromRedis (s : Caches ε) : (serveFromRedis edges request).Keeps P K.post anyError s := by
  unfold serveFromRedis
  refine Keeps.bind (Q := fun s redisData => ∀ v, redisData = some v → ∀ object,
    decodeEntry v.value = some object → K.good s ⟨object, v.source⟩)
    (K.keeps_reads rfl (Q := fun _ => True) (fun _ _ _ _ => trivial) (fun turn s r hinv _ hr v hv object hobject => ?_)
      trivial) fun s redisData hredis => ?_
  · cases hr
    exact K.redisHit s v object hinv hv hobject
  refine Keeps.bind (Q := fun s response => ∀ r, response = some r → K.post s r) ?_ fun s response hpost => ?_
  · cases redisData with
    | none =>
      intro r hr
      cases hr
    | some redisData =>
      refine Keeps.catchAll (K.keeps_fromRedis (hredis redisData rfl)) fun s e _ r hr => ?_
      cases hr
  · cases response with
    | none => exact K.keeps_fetchAndStore s
    | some r => exact hpost r rfl

/-- **A call keeps what its contract says.** -/
theorem keeps (s : Caches ε) : (serveFile edges request).Keeps P K.post anyError s := by
  unfold serveFile
  refine Keeps.bind (Q := fun s memData => ∀ r, memData = some r →
    K.post s { r with value := { r.value with cacheHit := true } })
    (K.keeps_reads rfl (Q := fun _ => True) (fun _ _ _ _ => trivial) (fun turn s r hinv _ hr v hv => ?_) trivial)
    fun s memData hmemory => ?_
  · cases hr
    exact K.memoryHit s v hinv hv
  cases memData with
  | none => exact K.keeps_serveFromRedis s
  | some r => exact hmemory r rfl

end Contract

/-! ### Runs -/

/-- Calls of any edges that share the caches. -/
abbrev Calls (ι ε : Type) := Pool (Caches ε) ι (Command ε) Answer String (Labelled (Source ε) CdnResponse)

/-- A command of a call is executed, or an entry is deleted: purged, evicted, lost with its process. -/
inductive Event (ι ε : Type) where
  | call (i : ι) (turn : Turn)
  | delRedis (physical : String)
  | delMemory (edge : ε) (key : String)

section Runs

variable {ι ε : Type} [DecidableEq ι] [DecidableEq ε] (edges : ε → Edge)

def Calls.step (pool : Calls ι ε) : Event ι ε → Option (Calls ι ε)
  | .call i turn => Pool.step (handle edges) pool (i, turn)
  | .delRedis physical => some { pool with state := pool.state.delRedis physical }
  | .delMemory edge key => some { pool with state := pool.state.delMemory edge key }

/-- Calls that have not begun. -/
def Calls.start (s : Caches ε) (requests : ι → Request ε) : Calls ι ε :=
  ⟨s, fun i => serveFile edges (requests i)⟩

/-- What a protocol says of entries that are deleted. -/
structure Deletable (P : Protocol (Caches ε) Turn (Command ε) Answer String) : Prop where
  delRedis : ∀ s physical, P.inv s → P.inv (s.delRedis physical) ∧ P.later s (s.delRedis physical)
  delMemory : ∀ s edge key, P.inv s → P.inv (s.delMemory edge key) ∧ P.later s (s.delMemory edge key)

/-- The protocol allows the step. -/
def Event.Allowed (P : Protocol (Caches ε) Turn (Command ε) Answer String) (pool : Calls ι ε) :
    Event ι ε → Prop
  | .call i turn => ∀ c next, pool.procs i = .call c next → P.allowed turn pool.state c
  | _ => True

variable {edges} {P : Protocol (Caches ε) Turn (Command ε) Answer String} {requests : ι → Request ε}

/-- The calls of a pool are steady, each with its own contract. -/
def Calls.Steady (contracts : ∀ i, Contract edges P (requests i)) (pool : Calls ι ε) : Prop :=
  Pool.Steady P (fun i => (contracts i).post) (fun _ => Contract.anyError) pool

omit [DecidableEq ι] in
theorem Calls.steady_start (contracts : ∀ i, Contract edges P (requests i)) {s : Caches ε} (hinv : P.inv s) :
    (Calls.start edges s requests).Steady contracts where
  inv := hinv
  keeps i c next hi := by
    have hkeeps := (contracts i).keeps s
    rw [show serveFile edges (requests i) = .call c next from hi] at hkeeps
    exact hkeeps

/-- **An event keeps the calls steady**, and a response is as its contract says. -/
theorem Calls.Steady.step {contracts : ∀ i, Contract edges P (requests i)} (hhandle : P.handle = handle edges)
    (hdelete : Deletable P) {pool pool' : Calls ι ε} {event : Event ι ε} (h : pool.Steady contracts)
    (hallowed : event.Allowed P pool) (hstep : Calls.step edges pool event = some pool') :
    pool'.Steady contracts ∧ P.later pool.state pool'.state ∧
      ∀ i turn, event = .call i turn → ∀ r, pool'.procs i = .ret r → (contracts i).post pool'.state r := by
  cases event with
  | call i turn =>
    have hpool : Pool.step P.handle pool (i, turn) = some pool' := by
      rw [hhandle]
      exact hstep
    obtain ⟨hsteady, hlater, hret, -⟩ := Pool.Steady.step h hpool hallowed
    refine ⟨hsteady, hlater, fun j turn' heq r hr => ?_⟩
    cases heq
    exact hret r hr
  | delRedis physical =>
    obtain ⟨hinv, hlater⟩ := hdelete.delRedis pool.state physical h.inv
    cases hstep
    exact ⟨Pool.Steady.environment h hinv hlater, hlater, fun _ _ heq => by cases heq⟩
  | delMemory edge key =>
    obtain ⟨hinv, hlater⟩ := hdelete.delMemory pool.state edge key h.inv
    cases hstep
    exact ⟨Pool.Steady.environment h hinv hlater, hlater, fun _ _ heq => by cases heq⟩

omit [DecidableEq ι] [DecidableEq ε] in
/-- A protocol may allow every step. -/
theorem Event.allowed (hfree : ∀ turn s c, P.allowed turn s c) (event : Event ι ε) (pool : Calls ι ε) :
    event.Allowed P pool := by
  cases event with
  | call i turn => exact fun _ _ _ => hfree _ _ _
  | delRedis physical => trivial
  | delMemory edge key => trivial

/-- **Steady calls stay so**, and their responses are as their contracts say. -/
theorem Calls.Steady.run {contracts : ∀ i, Contract edges P (requests i)} (hhandle : P.handle = handle edges)
    (hdelete : Deletable P) (hfree : ∀ turn s c, P.allowed turn s c) {es : List (Event ι ε)}
    {start pool : Calls ι ε} (hstart : start.Steady contracts)
    (hrun : Runs.run (Calls.step edges) start es = some pool) : pool.Steady contracts := by
  refine run_induction (Calls.step edges) start (fun _ pool => pool.Steady contracts) hstart ?_ es pool hrun
  intro _ s e t _ hs hst
  exact (hs.step hhandle hdelete (e.allowed hfree s) hst).1

/-- An event goes on with what the calls can become. -/
theorem Calls.every_step {S : ι → CdnProgram ε (Labelled (Source ε) CdnResponse) → Prop} {pool pool' : Calls ι ε}
    {event : Event ι ε} (h : ∀ i, (pool.procs i).Every (S i)) (hstep : Calls.step edges pool event = some pool')
    (i : ι) : (pool'.procs i).Every (S i) := by
  cases event with
  | call j turn => exact Pool.every_step h hstep i
  | delRedis physical =>
    cases hstep
    exact h i
  | delMemory edge key =>
    cases hstep
    exact h i

/-- A call sends no other commands later on. -/
theorem Calls.within_step {Q : Command ε → Prop} {pool pool' : Calls ι ε} {event : Event ι ε} {i : ι}
    (h : (pool.procs i).Within Q) (hstep : Calls.step edges pool event = some pool') :
    (pool'.procs i).Within Q := by
  cases event with
  | call j turn => exact Pool.within_step h hstep
  | delRedis physical =>
    cases hstep
    exact h
  | delMemory edge key =>
    cases hstep
    exact h

/-- A run that is evaluated up to a response. -/
theorem Calls.exists_of_outcome {κ : Type*} {start : Calls ι ε} {es : List (Event ι ε)} {i : ι} {turn : Turn}
    {f : Calls ι ε → Labelled (Source ε) CdnResponse → κ} {k : κ}
    (h : (Runs.run (Calls.step edges) start (es ++ [.call i turn])).bind
      (fun pool' => (pool'.procs i).result.map (f pool')) = some k) :
    ∃ pool pool' response, Runs.run (Calls.step edges) start es = some pool ∧
      Calls.step edges pool (.call i turn) = some pool' ∧ pool'.procs i = .ret response ∧ f pool' response = k := by
  obtain ⟨pool', hrun, hresult⟩ := Option.bind_eq_some_iff.mp h
  obtain ⟨response, hresponse, hvalue⟩ := Option.map_eq_some_iff.mp hresult
  obtain ⟨pool, hpool, hstep⟩ := (run_snoc_eq_some _ _ _ _ _).mp hrun
  exact ⟨pool, pool', response, hpool, hstep, result_eq_some.mp hresponse, hvalue⟩

/-- A call that is let run alone ends as its program does. -/
theorem Calls.exists_run (edges : ε → Edge) (turn : Turn) {pool : Calls ι ε} {i : ι} {c : Command ε}
    {next : Except String (Answer c) → CdnProgram ε (Labelled (Source ε) CdnResponse)}
    (hi : pool.procs i = .call c next) {r : Labelled (Source ε) CdnResponse}
    (hexec : (exec (handle edges turn) pool.state (pool.procs i)).2 = .ok r) :
    ∃ es before after, Runs.run (Calls.step edges) pool es = some before ∧
      Calls.step edges before (.call i turn) = some after ∧ after.procs i = .ret r := by
  generalize hp : pool.procs i = p at hi hexec
  induction p generalizing pool c next with
  | ret a => cases hi
  | throw e => cases hi
  | call d dnext ih =>
    let out := handle edges turn pool.state d
    let moved : Calls ι ε := ⟨out.1, Function.update pool.procs i (dnext out.2)⟩
    have hstep : Calls.step edges pool (.call i turn) = some moved := Pool.step_eq_some.mpr ⟨d, dnext, hp, rfl⟩
    have hmoved : moved.procs i = dnext out.2 := Function.update_self i _ _
    have hrest : (exec (handle edges turn) moved.state (dnext out.2)).2 = .ok r := hexec
    cases hnext : dnext out.2 with
    | ret a =>
      rw [hnext] at hmoved hrest
      cases hrest
      exact ⟨[], pool, moved, rfl, hstep, hmoved⟩
    | throw e =>
      rw [hnext] at hrest
      cases hrest
    | call c' next' =>
      obtain ⟨es, before, after, hrun, hlast, hret⟩ := ih out.2 hmoved hnext hrest
      refine ⟨.call i turn :: es, before, after, ?_, hlast, hret⟩
      rw [run_cons, hstep]
      exact hrun

end Runs

end EdgeSphere.Cdn
