import EdgeSphere.Library.Buffer
import EdgeSphere.Library.Headers
import EdgeSphere.Library.JsonText

/-!
# The cache before the CDN

`CdnCacheMiddleware.use` sets `X-GW-Cache` itself, takes the place of `write` and `end`, and keeps what has passed
through them for a minute: the headers of the response as they are then, its own among them, and the body in base64.

* `intercept_eq` — the middleware changes nothing in what a handler sends, and has all of its bytes;
* `readEntry_text` — an entry is read back from its text;
* `use_hit` — what is served from an entry: its bytes, and its headers put over the one that says `HIT`;
* `Transparent` — the promise, for the answer of the handler and for all later ones;
* `transparent_iff` — **the exact condition**: Redis answers, the handler leaves `X-GW-Cache` alone, and nothing is
  stored;
* `hit_says_miss` — a plain answer, and the copy of it that says `MISS`.
-/

namespace EdgeSphere.Gateway

open EdgeSphere.Library
open EdgeSphere.Library.Buffer

/-! ### Responses -/

/-- A text, a number or a list of texts. -/
abbrev HeaderValue := Json NumberToken

/-- What a handler writes; a text is written as UTF-8. -/
inductive Chunk where
  | buffer (bytes : List Byte)
  | text (s : String)

def Chunk.bytes : Chunk → List Byte
  | .buffer bytes => bytes
  | .text s => encodeUtf8 s.toList

/-- A response on its way: its headers, whether they were sent, and the body so far. -/
structure Res where
  headers : Headers HeaderValue
  sent : Bool
  body : List Byte

/-- What a handler calls on the response before `end`. -/
inductive ResCall where
  | setHeader (name : String) (value : HeaderValue)
  | write (chunk : Chunk)

/-- A header that is set too late throws, and is not set; the first chunk sends the headers. -/
def Res.call (res : Res) : ResCall → Res
  | .setHeader name value => if res.sent then res else { res with headers := res.headers.set name value }
  | .write chunk => { res with sent := true, body := res.body ++ chunk.bytes }

/-- A handler by its calls, the chunk it ends with, if any, and the status it answers with. -/
structure ResHandler where
  calls : List ResCall
  last : Option Chunk
  statusCode : ℕ

/-- What a client receives. -/
structure GatewayReply where
  statusCode : ℕ
  headers : Headers HeaderValue
  body : List Byte

def lastBytes (h : ResHandler) : List Byte := (h.last.map Chunk.bytes).getD []

/-- The handler alone, on a response. -/
def ResHandler.run (h : ResHandler) (res : Res) : GatewayReply :=
  let out := h.calls.foldl Res.call res
  { statusCode := h.statusCode, headers := out.headers, body := out.body ++ lastBytes h }

/-! ### The middleware -/

/-- `res.send(buffer)` of Express, of which is known that it leaves `X-GW-Cache` alone. -/
structure Express where
  send : Headers HeaderValue → List Byte → GatewayReply
  keeps : ∀ headers body, (send headers body).headers.get "x-gw-cache" = headers.get "x-gw-cache"

/-- What is read of a request; `query` is the text of its `URLSearchParams`. -/
structure CdnRequest where
  method : String
  path : String
  query : String
  deriving DecidableEq

/-- What is kept of a response. -/
structure CacheEntry where
  headers : List (String × HeaderValue)
  data : String

def CacheEntry.json (e : CacheEntry) : Json NumberToken := .obj [("headers", .obj e.headers), ("data", .str e.data)]

/-- `JSON.parse` of an entry; `none` is a text that the middleware has never written. -/
def readEntry (text : List Char) : Option CacheEntry :=
  match Json.parse text with
  | some (.obj [("headers", .obj headers), ("data", .str data)]) => some ⟨headers, data⟩
  | _ => none

/-- The keys of Redis that the middleware uses, with their texts. -/
abbrev CdnStore := String → Option (List Char)

/-- Redis may refuse either command. -/
structure RedisOutage where
  get : Bool
  setex : Bool

/-- `X-GW-Cache` as the middleware sets it. -/
def gwCache (value : String) (headers : Headers HeaderValue) : Headers HeaderValue :=
  headers.set "X-GW-Cache" (.str value)

/-- The handler's calls on the `write` of the middleware: the response, and the chunks that were kept. -/
def intercept (seen : Res × List (List Byte)) (call : ResCall) : Res × List (List Byte) :=
  match call with
  | .setHeader name value => (seen.1.call (.setHeader name value), seen.2)
  | .write chunk => (seen.1.call (.write chunk), seen.2 ++ [chunk.bytes])

section Middleware

variable (md5 : String → String) (express : Express)

/-- `gw:cdn:${req.path}:${queryHash}`. -/
def cdnCacheKey (req : CdnRequest) : String := "gw:cdn:" ++ req.path ++ ":" ++ md5 req.query

/-- The part of `use` for a key that Redis does not have: the reply, and the text for the key. -/
def interceptedRun (base : Headers HeaderValue) (h : ResHandler) : GatewayReply × List Char :=
  let out := h.calls.foldl intercept (⟨gwCache "MISS" base, false, []⟩, [])
  let bodyBuffer := (out.2 ++ [lastBytes h]).flatten
  let entry : CacheEntry :=
    { headers := out.1.headers.entries, data := String.ofList (encodeBase64 bodyBuffer) }
  ({ statusCode := h.statusCode, headers := out.1.headers, body := out.1.body ++ lastBytes h },
    Json.stringify entry.json)

/-- `CdnCacheMiddleware.use` with the handler behind it, on a response that the framework has put headers on. -/
def useCdnCache (outage : RedisOutage) (store : CdnStore) (req : CdnRequest) (base : Headers HeaderValue)
    (h : ResHandler) : GatewayReply × CdnStore :=
  if ¬ "/cdn".toList.isPrefixOf req.path.toList ∨ req.method ≠ "GET" then (h.run ⟨base, false, []⟩, store)
  else
    let key := cdnCacheKey md5 req
    -- what is thrown is logged, and the handler goes on with the response as it is
    if outage.get then (h.run ⟨base, false, []⟩, store)
    else match (store key).filter (fun text => decide (text ≠ [])) with
      | some text =>
        let headers := gwCache "HIT" base
        match readEntry text with
        | some entry =>
          (express.send (headers.putAll entry.headers) (decodeBase64 entry.data.toList), store)
        | none => (h.run ⟨headers, false, []⟩, store)
      | none =>
        let out := interceptedRun base h
        (out.1, if h.statusCode = 200 ∧ outage.setex = false then Function.update store key (some out.2) else store)

/-! ### The promise -/

/-- The answer of a handler, with `X-GW-Cache: MISS` and nothing else added. -/
structure Missed (plain reply : GatewayReply) : Prop where
  body : reply.body = plain.body
  headers : ∀ name, reply.headers.get name = (gwCache "MISS" plain.headers).get name

/-- A copy of an answer: its bytes and its headers, with `X-GW-Cache: HIT`. -/
structure Copied (first reply : GatewayReply) : Prop where
  body : reply.body = first.body
  headers : ∀ name value, name ≠ "x-gw-cache" → first.headers.get name = some value →
    reply.headers.get name = some value
  label : reply.headers.get "x-gw-cache" = some (.str "HIT")

/-- **The promise**: the answer of the handler is labelled `MISS`; and as long as Redis has the entry that was made of
it, every later request of the same path and query, whatever handler it would reach, is answered with a copy. -/
structure Transparent (outage : RedisOutage) (store : CdnStore) (req : CdnRequest) (base : Headers HeaderValue)
    (h : ResHandler) : Prop where
  first : Missed (h.run ⟨base, false, []⟩) (useCdnCache md5 express outage store req base h).1
  later : ∀ (store' : CdnStore) (text : List Char),
    (useCdnCache md5 express outage store req base h).2 (cdnCacheKey md5 req) = some text →
    store' (cdnCacheKey md5 req) = some text → ∀ (setex : Bool) (h' : ResHandler),
      Copied (useCdnCache md5 express outage store req base h).1
        (useCdnCache md5 express ⟨false, setex⟩ store' req base h').1

/-- What a handler sets `X-GW-Cache` to by itself, before its headers are sent. -/
def ResHandler.ownLabel (h : ResHandler) : Option HeaderValue :=
  (h.run ⟨Headers.empty, false, []⟩).headers.get "x-gw-cache"

end Middleware

/-! ### Handlers -/

theorem sent_setHeader (res : Res) (name : String) (value : HeaderValue) :
    (res.call (.setHeader name value)).sent = res.sent := by
  unfold Res.call
  dsimp only
  split
  · rfl
  · rfl

theorem body_setHeader (res : Res) (name : String) (value : HeaderValue) :
    (res.call (.setHeader name value)).body = res.body := by
  unfold Res.call
  dsimp only
  split
  · rfl
  · rfl

/-- Two responses that were equally far when a header or a chunk comes: what was set since, and what was there. -/
theorem get_foldl_call (calls : List ResCall) (own res : Res) (base : Headers HeaderValue) (hsent : own.sent = res.sent)
    (hget : ∀ name, res.headers.get name = (own.headers.get name).or (base.get name)) (name : String) :
    (calls.foldl Res.call res).headers.get name
      = ((calls.foldl Res.call own).headers.get name).or (base.get name) := by
  induction calls generalizing own res with
  | nil => exact hget name
  | cons call calls ih =>
    refine ih _ _ ?_ ?_
    · cases call with
      | setHeader n value => rw [sent_setHeader, sent_setHeader, hsent]
      | write chunk => rfl
    · intro name
      cases call with
      | write chunk => exact hget name
      | setHeader n value =>
        unfold Res.call
        dsimp only
        by_cases hs : res.sent = true
        · rw [if_pos hs, if_pos (hsent.trans hs)]
          exact hget name
        · rw [if_neg hs, if_neg fun h => hs (hsent.symm.trans h)]
          dsimp only
          rw [Headers.get_set, Headers.get_set, hget]
          split
          · rfl
          · rfl

/-- **The headers of an answer**: what the handler sets, and what was there before. -/
theorem get_run (h : ResHandler) (base : Headers HeaderValue) (name : String) :
    (h.run ⟨base, false, []⟩).headers.get name
      = ((h.run ⟨Headers.empty, false, []⟩).headers.get name).or (base.get name) :=
  get_foldl_call h.calls ⟨Headers.empty, false, []⟩ ⟨base, false, []⟩ base rfl (fun _ => rfl) name

/-- **The middleware is not seen by the handler**, and keeps what the handler writes. -/
theorem intercept_eq (calls : List ResCall) (seen : Res × List (List Byte)) (hkept : seen.1.body = seen.2.flatten) :
    (calls.foldl intercept seen).1 = calls.foldl Res.call seen.1 ∧
      (calls.foldl intercept seen).1.body = (calls.foldl intercept seen).2.flatten := by
  induction calls generalizing seen with
  | nil => exact ⟨rfl, hkept⟩
  | cons call calls ih =>
    cases call with
    | setHeader name value =>
      exact ih (intercept seen (.setHeader name value)) ((body_setHeader seen.1 name value).trans hkept)
    | write chunk =>
      refine ih (intercept seen (.write chunk)) ?_
      show seen.1.body ++ chunk.bytes = (seen.2 ++ [chunk.bytes]).flatten
      rw [hkept, List.flatten_append, List.flatten_singleton]

/-- The body does not depend on the headers. -/
theorem body_foldl_call (calls : List ResCall) {res res' : Res} (hbody : res.body = res'.body) :
    (calls.foldl Res.call res).body = (calls.foldl Res.call res').body := by
  induction calls generalizing res res' with
  | nil => exact hbody
  | cons call calls ih =>
    refine ih ?_
    cases call with
    | setHeader name value => rw [body_setHeader, body_setHeader, hbody]
    | write chunk => exact congrArg (· ++ chunk.bytes) hbody

/-! ### Entries -/

theorem readEntry_text (e : CacheEntry) : readEntry (Json.stringify e.json) = some e := by
  unfold readEntry
  rw [Json.parse_stringify]
  rfl

/-- The entry that is made of an answer. -/
def storedEntry (reply : GatewayReply) : CacheEntry :=
  { headers := reply.headers.entries, data := String.ofList (encodeBase64 reply.body) }

/-- What is sent and what is kept, for a key that Redis does not have. -/
theorem interceptedRun_eq (base : Headers HeaderValue) (h : ResHandler) :
    interceptedRun base h = (h.run ⟨gwCache "MISS" base, false, []⟩,
      Json.stringify (storedEntry (h.run ⟨gwCache "MISS" base, false, []⟩)).json) := by
  obtain ⟨hsame, hkept⟩ := intercept_eq h.calls (⟨gwCache "MISS" base, false, []⟩, []) rfl
  unfold interceptedRun storedEntry ResHandler.run
  dsimp only
  rw [List.flatten_append, List.flatten_singleton, ← hkept, hsame]

section Requests

variable {md5 : String → String} {express : Express} {outage : RedisOutage} {store : CdnStore} {req : CdnRequest}
  {base : Headers HeaderValue} {h : ResHandler}

/-- The headers that the handler begins with. -/
def startHeaders (outage : RedisOutage) (base : Headers HeaderValue) : Headers HeaderValue :=
  if outage.get then base else gwCache "MISS" base

/-- Redis has got an entry of the answer. -/
def Stored (outage : RedisOutage) (h : ResHandler) : Prop :=
  outage.get = false ∧ outage.setex = false ∧ h.statusCode = 200

theorem passes_guard (hmethod : req.method = "GET") (hpath : "/cdn".toList.isPrefixOf req.path.toList = true) :
    ¬ (¬ "/cdn".toList.isPrefixOf req.path.toList = true ∨ req.method ≠ "GET") := by
  rintro (hp | hm)
  · exact hp hpath
  · exact hm hmethod

variable (md5 express outage store req base h) in
/-- **A request that reaches the handler**, for a key that Redis does not have. -/
theorem use_miss (hmethod : req.method = "GET") (hpath : "/cdn".toList.isPrefixOf req.path.toList = true)
    (hmiss : store (cdnCacheKey md5 req) = none) :
    (useCdnCache md5 express outage store req base h).1 = h.run ⟨startHeaders outage base, false, []⟩ ∧
      (Stored outage h → (useCdnCache md5 express outage store req base h).2 (cdnCacheKey md5 req)
        = some (Json.stringify (storedEntry (h.run ⟨startHeaders outage base, false, []⟩)).json)) ∧
      (¬ Stored outage h → (useCdnCache md5 express outage store req base h).2 = store) := by
  unfold useCdnCache startHeaders Stored
  rw [if_neg (passes_guard hmethod hpath)]
  dsimp only
  by_cases hget : outage.get = true
  · rw [if_pos hget, if_pos hget]
    refine ⟨rfl, fun hstored => ?_, fun _ => rfl⟩
    rw [hget] at hstored
    cases hstored.1
  · rw [if_neg hget, if_neg hget, hmiss, interceptedRun_eq]
    refine ⟨rfl, fun hstored => ?_, fun hstored => ?_⟩
    · show (if h.statusCode = 200 ∧ outage.setex = false then _ else store) _ = _
      rw [if_pos ⟨hstored.2.2, hstored.2.1⟩, Function.update_self]
    · show (if h.statusCode = 200 ∧ outage.setex = false then _ else store) = store
      rw [if_neg fun hboth => hstored ⟨eq_false_of_ne_true hget, hboth.2, hboth.1⟩]

/-- **A request that finds an entry**: the headers of the entry are put over the label. -/
theorem use_hit (hmethod : req.method = "GET") (hpath : "/cdn".toList.isPrefixOf req.path.toList = true)
    {reply : GatewayReply} (hentry : store (cdnCacheKey md5 req) = some (Json.stringify (storedEntry reply).json))
    (setex : Bool) : (useCdnCache md5 express ⟨false, setex⟩ store req base h).1
      = express.send ((gwCache "HIT" base).putAll reply.headers.entries) reply.body := by
  have hfilter : (some (Json.stringify (storedEntry reply).json)).filter (fun text => decide (text ≠ []))
      = some (Json.stringify (storedEntry reply).json) := rfl
  unfold useCdnCache
  rw [if_neg (passes_guard hmethod hpath)]
  dsimp only
  rw [if_neg Bool.false_ne_true, hentry, hfilter]
  dsimp only
  rw [readEntry_text]
  show express.send _ (decodeBase64 (String.ofList (encodeBase64 reply.body)).toList) = _
  rw [String.toList_ofList, decodeBase64_encodeBase64]
  rfl

/-- What a copy is made of: every header of the answer, `X-GW-Cache` among them. -/
theorem get_replayed (reply : GatewayReply) (name : String) :
    ((gwCache "HIT" base).putAll reply.headers.entries).get name
      = (reply.headers.get name).or ((gwCache "HIT" base).get name) :=
  Headers.get_putAll reply.headers.distinct reply.headers.small _ name

/-- The label that is left at the end. -/
def finalLabel (outage : RedisOutage) (base : Headers HeaderValue) (h : ResHandler) : Option HeaderValue :=
  h.ownLabel.or (if outage.get then base.get "x-gw-cache" else some (.str "MISS"))

theorem lowerCase_label : lowerCase "X-GW-Cache" = "x-gw-cache" := by decide

theorem get_gwCache (value : String) (headers : Headers HeaderValue) (name : String) :
    (gwCache value headers).get name = if name = "x-gw-cache" then some (.str value) else headers.get name := by
  unfold gwCache
  rw [Headers.get_set, lowerCase_label]

theorem get_label (outage : RedisOutage) (base : Headers HeaderValue) (h : ResHandler) :
    (h.run ⟨startHeaders outage base, false, []⟩).headers.get "x-gw-cache" = finalLabel outage base h := by
  rw [get_run]
  unfold startHeaders finalLabel ResHandler.ownLabel
  split
  · rfl
  · rw [get_gwCache, if_pos rfl]

/-- **The first answer** is labelled `MISS` iff that is the label that is left. -/
theorem missed_iff : Missed (h.run ⟨base, false, []⟩) (h.run ⟨startHeaders outage base, false, []⟩) ↔
    finalLabel outage base h = some (.str "MISS") := by
  constructor
  · intro hmissed
    rw [← get_label, hmissed.headers, get_gwCache, if_pos rfl]
  · intro hlabel
    refine ⟨congrArg (· ++ lastBytes h) (body_foldl_call h.calls rfl), fun name => ?_⟩
    rw [get_gwCache]
    split
    · rename_i hname
      rw [hname, get_label, hlabel]
    · rename_i hname
      have hstart : (startHeaders outage base).get name = base.get name := by
        unfold startHeaders
        split
        · rfl
        · rw [get_gwCache, if_neg hname]
      rw [get_run, get_run h base, hstart]

/-- **A copy says `MISS`**, if its answer did. -/
theorem get_label_copy (hmethod : req.method = "GET") (hpath : "/cdn".toList.isPrefixOf req.path.toList = true)
    (hlabel : finalLabel outage base h = some (.str "MISS")) {store' : CdnStore}
    (hentry : store' (cdnCacheKey md5 req)
      = some (Json.stringify (storedEntry (h.run ⟨startHeaders outage base, false, []⟩)).json))
    (setex : Bool) (h' : ResHandler) :
    (useCdnCache md5 express ⟨false, setex⟩ store' req base h').1.headers.get "x-gw-cache" = some (.str "MISS") := by
  rw [use_hit hmethod hpath hentry, express.keeps, get_replayed, get_label, hlabel]
  rfl

/-- An answer that is stored breaks the promise. -/
theorem not_transparent_of_stored (hmethod : req.method = "GET")
    (hpath : "/cdn".toList.isPrefixOf req.path.toList = true) (hmiss : store (cdnCacheKey md5 req) = none)
    (hstored : Stored outage h) : ¬ Transparent md5 express outage store req base h := by
  intro hpromise
  obtain ⟨hreply, hkept, -⟩ := use_miss md5 express outage store req base h hmethod hpath hmiss
  have hlabel := missed_iff.mp (hreply ▸ hpromise.first)
  have hcopy := hpromise.later
    (fun _ => some (Json.stringify (storedEntry (h.run ⟨startHeaders outage base, false, []⟩)).json)) _ (hkept hstored)
    rfl false h
  have hhit := hcopy.label
  rw [get_label_copy hmethod hpath hlabel rfl] at hhit
  exact absurd (Json.str.inj (Option.some.inj hhit)) (by decide)

/-- **The exact condition.**  For every handler, whatever it sets and writes, and all failures of Redis: the promise is
kept iff nothing of the answer is stored and the label that is left on it is `MISS`. -/
theorem transparent_iff (hmethod : req.method = "GET") (hpath : "/cdn".toList.isPrefixOf req.path.toList = true)
    (hmiss : store (cdnCacheKey md5 req) = none) : Transparent md5 express outage store req base h ↔
      finalLabel outage base h = some (.str "MISS") ∧ ¬ Stored outage h := by
  obtain ⟨hreply, -, hunstored⟩ := use_miss md5 express outage store req base h hmethod hpath hmiss
  constructor
  · intro hpromise
    exact ⟨missed_iff.mp (hreply ▸ hpromise.first),
      fun hstored => not_transparent_of_stored hmethod hpath hmiss hstored hpromise⟩
  · rintro ⟨hlabel, hkept⟩
    refine ⟨hreply ▸ missed_iff.mpr hlabel, fun store' text htext => ?_⟩
    rw [hunstored hkept, hmiss] at htext
    cases htext

end Requests

/-! ### A file and its copy -/

/-- A type is added if there is none, and a length. -/
def plainSend (headers : Headers HeaderValue) (body : List Byte) : GatewayReply :=
  let typed : Headers HeaderValue :=
    if (headers.get "content-type").isSome then headers
    else headers.set "Content-Type" (.str "application/octet-stream")
  { statusCode := 200, headers := typed.set "Content-Length" (.num (NumberToken.ofInt body.length)), body }

theorem plainSend_keeps (headers : Headers HeaderValue) (body : List Byte) :
    (plainSend headers body).headers.get "x-gw-cache" = headers.get "x-gw-cache" := by
  unfold plainSend
  dsimp only
  rw [Headers.get_set, if_neg (by decide)]
  split
  · rfl
  · rw [Headers.get_set, if_neg (by decide)]

def plainExpress : Express := ⟨plainSend, plainSend_keeps⟩

/-- The digest of the empty query. -/
def emptyMd5 : String → String := fun _ => "d41d8cd98f00b204e9800998ecf8427e"

def fileRequest : CdnRequest := ⟨"GET", "/cdn/site/index.html", ""⟩

/-- A type, and a text in two pieces. -/
def fileHandler : ResHandler :=
  ⟨[.setHeader "Content-Type" (.str "text/html"), .write (.text "<p>")], some (.text "</p>"), 200⟩

/-- The file, where Redis takes nothing. -/
theorem transparent_iff_refused :
    Transparent emptyMd5 plainExpress ⟨false, true⟩ (fun _ => none) fileRequest Headers.empty fileHandler ↔
      finalLabel ⟨false, true⟩ Headers.empty fileHandler = some (.str "MISS") ∧ ¬ Stored ⟨false, true⟩ fileHandler :=
  transparent_iff rfl rfl rfl

/-- **The copy of the file says `MISS`**, and the promise is broken. -/
theorem hit_says_miss :
    ((useCdnCache emptyMd5 plainExpress ⟨false, false⟩
        (useCdnCache emptyMd5 plainExpress ⟨false, false⟩ (fun _ => none) fileRequest Headers.empty fileHandler).2
        fileRequest Headers.empty fileHandler).1.headers.get "x-gw-cache" = some (.str "MISS")) ∧
      ¬ Transparent emptyMd5 plainExpress ⟨false, false⟩ (fun _ => none) fileRequest Headers.empty fileHandler := by
  have hstored : Stored ⟨false, false⟩ fileHandler := ⟨rfl, rfl, rfl⟩
  obtain ⟨-, hkept, -⟩ := use_miss emptyMd5 plainExpress ⟨false, false⟩ (fun _ => none) fileRequest
    Headers.empty fileHandler rfl rfl rfl
  refine ⟨get_label_copy rfl rfl rfl (hkept hstored) false fileHandler, ?_⟩
  exact not_transparent_of_stored rfl rfl rfl hstored

end EdgeSphere.Gateway
