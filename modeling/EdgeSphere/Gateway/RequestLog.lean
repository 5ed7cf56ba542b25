import EdgeSphere.Analytics.Consumer
import EdgeSphere.Gateway.CdnCache
import EdgeSphere.Gateway.DlqService
import EdgeSphere.Library.ParseInt

/-!
# The log of the requests

`LoggingMiddleware` passes an event to `publishRequestEvent` when a response has been sent, and `CdnController` of the
cdn-service passes one of its own.  The analytics-service makes rows of them.

* `published` — the event of a request, unless its path is skipped; `CdnExchange.event` — that of the cdn-service;
* `LogRow` — the columns a row is known by; `Exchange.row`, `CdnExchange.row` — those of the two;
* `toRow_event`, `toRow_cdn_event` — **what is made of an event is the row of its request**.
-/

namespace EdgeSphere.Gateway.RequestLog

open EdgeSphere.Library
open EdgeSphere.Library.Buffer
open EdgeSphere.Gateway.DeadLetters

instance : Zero NumberToken := ⟨.ofInt 0⟩

/-! ### The gateway -/

/-- A request with its response, as far as the middleware reads them; `sub` is `req.user?.sub` at the end. -/
structure Exchange where
  method : String
  originalUrl : String
  ip : Option String
  startTime : ℤ
  sub : Option String
  statusCode : ℕ
  headers : Headers HeaderValue
  /-- `Date.now()` and `new Date()` in the listener. -/
  endTime : ℤ
  time : ℤ

def skipPrefixes : List String :=
  ["/metrics", "/health", "/favicon.ico", "/v1/analytics", "/v1/notifications/alerts/history",
    "/v1/notifications/history"]

/-- `text.startsWith(start)`. -/
def startsWith (start text : String) : Bool := start.toList.isPrefixOf text.toList

def shouldSkip (originalUrl : String) : Bool :=
  skipPrefixes.any fun p =>
    originalUrl = p || startsWith (p ++ "?") originalUrl || startsWith (p ++ "/") originalUrl

/-- What `parseInt` makes a text of. -/
def headerText : HeaderValue → String
  | .str s => s
  | .num n => String.ofList n.chars
  | .arr elems => String.intercalate "," (elems.map fun
    | .str s => s
    | _ => "")
  | _ => ""

/-- A number in JSON; NaN is `null`.  The integers are those below 2^53. -/
def jsonOf : IntNumber → Json NumberToken
  | .nan => .null
  | .int n => .num (.ofInt n)

namespace Exchange

def latency (x : Exchange) : ℤ := x.endTime - x.startTime

def cacheHitHeader (x : Exchange) : Option HeaderValue :=
  match (x.headers.get "x-cache").filter Json.truthy with
  | some value => some value
  | none => x.headers.get "x-cache-hit"

def cacheHit (x : Exchange) : Bool :=
  match x.cacheHitHeader with
  | some (.str value) => value = "HIT"
  | _ => false

def userId (x : Exchange) : Option String := x.sub.filter fun sub => sub ≠ ""

def bytes (x : Exchange) : IntNumber :=
  match (x.headers.get "content-length").filter Json.truthy with
  | some value => parseInt (headerText value)
  | none => .int 0

/-- The part of the path that the service is named by. -/
def service (x : Exchange) : String :=
  let pathParts := split '/' x.originalUrl
  if pathParts[1]? = some "v1" then orText (pathParts[2]?.getD "") "gateway"
  else orText (pathParts[1]?.getD "") "gateway"

end Exchange

/-- What `process.env.EDGE_REGION` of the gateway is, and the text of a date. -/
structure LogSettings where
  edgeRegion : Option String
  toISOString : ℤ → String
  toISOString_ne : ∀ t, toISOString t ≠ ""

/-- A text of no characters is falsy. -/
def orDefault (value : Option String) (fallback : String) : String := orText (value.getD "") fallback

/-- The object that is passed to `publishRequestEvent`. -/
def Exchange.event (settings : LogSettings) (x : Exchange) : EventData :=
  [("time", .str (settings.toISOString x.time)), ("service", .str x.service), ("method", .str x.method),
    ("path", .str x.originalUrl), ("status", .num (.ofInt x.statusCode)), ("latencyMs", .num (.ofInt x.latency))]
  ++ (x.userId.toList.map fun id => ("userId", .str id))
  ++ [("ip", .str (orDefault x.ip "unknown")), ("cacheHit", .bool x.cacheHit), ("bytes", jsonOf x.bytes),
    ("edgeRegion", .str (orDefault settings.edgeRegion "global"))]

/-- The listener of `finish`. -/
def published (settings : LogSettings) (x : Exchange) : Option EventData :=
  if shouldSkip x.originalUrl then none else some (x.event settings)

/-! ### The cdn-service -/

/-- How `serveFile` ended. -/
inductive Serving where
  | served (cacheHit : Bool) (length : ℕ) (contentType : Option String)
  /-- `status` is `error.status || 500`. -/
  | failed (status : ℕ)

/-- A request with what became of it, as far as `CdnController` reads them; `edgeRegion` is that of its edge. -/
structure CdnExchange where
  edgeRegion : Option String
  method : String
  originalUrl : String
  ip : Option String
  latencyMs : ℤ
  serving : Serving
  time : ℤ

/-- The members that depend on how it ended. -/
def Serving.members (edgeRegion : Option String) (ip : String) : Serving → EventData
  | .served cacheHit length contentType =>
    [("ip", .str ip), ("cacheHit", .bool cacheHit), ("bytes", .num (.ofInt length)),
      ("edgeRegion", .str (orDefault edgeRegion "unknown"))]
    ++ contentType.toList.map fun type => ("contentType", .str type)
  | .failed _ => [("ip", .str ip), ("cacheHit", .bool false), ("bytes", .num (.ofInt 0))]

def Serving.status : Serving → ℕ
  | .served _ _ _ => 200
  | .failed status => status

/-- The object that is passed to `publishRequestEvent`. -/
def CdnExchange.event (settings : LogSettings) (x : CdnExchange) : EventData :=
  [("time", .str (settings.toISOString x.time)), ("service", .str "cdn-service"), ("method", .str x.method),
    ("path", .str x.originalUrl), ("status", .num (.ofInt x.serving.status)), ("latencyMs", .num (.ofInt x.latencyMs))]
  ++ x.serving.members x.edgeRegion (orDefault x.ip "unknown")

/-! ### Rows -/

/-- A row of the table by what it is about; `none` is a column that is not given, and the id is drawn. -/
structure LogRow where
  time : String
  service : String
  method : String
  path : String
  status : ℕ
  latencyMs : ℤ
  userId : Option String
  ip : String
  cacheHit : Bool
  bytes : ℤ
  edgeRegion : Option String

/-- The row as `ingestEventBatch` hands it on. -/
def LogRow.columns (row : LogRow) : Analytics.RequestEventRow NumberToken where
  time := some (.str row.time)
  service := some (.str row.service)
  method := some (.str row.method)
  path := some (.str row.path)
  status := some (.num (.ofInt row.status))
  latencyMs := some (.num (.ofInt row.latencyMs))
  userId := row.userId.map .str
  ip := some (.str row.ip)
  country := none
  cacheHit := .bool row.cacheHit
  bytes := .num (.ofInt row.bytes)
  edgeRegion := row.edgeRegion.map .str
  requestId := none

def Exchange.row (settings : LogSettings) (x : Exchange) : LogRow where
  time := settings.toISOString x.time
  service := x.service
  method := x.method
  path := x.originalUrl
  status := x.statusCode
  latencyMs := x.latency
  userId := x.userId
  ip := orDefault x.ip "unknown"
  cacheHit := x.cacheHit
  bytes := match x.bytes with
    | .int n => n
    | .nan => 0
  edgeRegion := some (orDefault settings.edgeRegion "global")

def CdnExchange.row (settings : LogSettings) (x : CdnExchange) : LogRow where
  time := settings.toISOString x.time
  service := "cdn-service"
  method := x.method
  path := x.originalUrl
  status := x.serving.status
  latencyMs := x.latencyMs
  userId := none
  ip := orDefault x.ip "unknown"
  cacheHit := match x.serving with
    | .served cacheHit _ _ => cacheHit
    | .failed _ => false
  bytes := match x.serving with
    | .served _ length _ => length
    | .failed _ => 0
  edgeRegion := match x.serving with
    | .served _ _ _ => some (orDefault x.edgeRegion "unknown")
    | .failed _ => none

/-! ### From the message to the row -/

theorem truthy_time (settings : LogSettings) (t : ℤ) :
    (Json.str (settings.toISOString t) : Json NumberToken).truthy = true :=
  decide_eq_true (settings.toISOString_ne t)

@[simp] theorem firstTruthy_bool (b : Bool) :
    Json.firstTruthy (some (.bool b)) none (.bool false) = (.bool b : Json NumberToken) := by
  cases b <;> rfl

@[simp] theorem firstTruthy_int (n : ℤ) :
    Json.firstTruthy (some (.num (.ofInt n))) none (.num 0) = (.num (.ofInt n) : Json NumberToken) := by
  unfold Json.firstTruthy
  by_cases hzero : NumberToken.ofInt n = 0
  · rw [hzero]
    rfl
  · have htruthy : (Json.num (NumberToken.ofInt n)).truthy = true := decide_eq_true hzero
    rw [Option.filter_some_pos htruthy]

/-- What is read of a missing number. -/
theorem firstTruthy_jsonOf (n : IntNumber) : Json.firstTruthy (some (jsonOf n)) none (.num 0)
    = (.num (.ofInt (match n with
      | .int n => n
      | .nan => 0)) : Json NumberToken) := by
  cases n with
  | nan => rfl
  | int n => exact firstTruthy_int n

/-- **The event of the gateway has the row of its request.** -/
theorem toRow_event (settings : LogSettings) (x : Exchange) :
    Analytics.toRow (.obj (x.event settings)) = some (x.row settings).columns := by
  have hbytes := firstTruthy_jsonOf x.bytes
  have hcacheHit := firstTruthy_bool x.cacheHit
  have htime := truthy_time settings x.time
  unfold Exchange.event Exchange.row
  cases x.userId <;>
    simp [Analytics.toRow, Json.prop, List.lookup, LogRow.columns, hbytes, hcacheHit, htime]

theorem toRow_cdn_event (settings : LogSettings) (x : CdnExchange) :
    Analytics.toRow (.obj (x.event settings)) = some (x.row settings).columns := by
  have htime := truthy_time settings x.time
  unfold CdnExchange.event CdnExchange.row
  cases x.serving with
  | served cacheHit length contentType =>
    cases contentType <;>
      simp [Analytics.toRow, Json.prop, List.lookup, LogRow.columns, Serving.members, htime]
  | failed status =>
    simp [Analytics.toRow, Json.prop, List.lookup, LogRow.columns, Serving.members, htime]

/-- A message is read back as its event. -/
theorem parse_eventBytes (data : EventData) : Json.parse (decodeUtf8 (eventBytes data)) = some (.obj data) := by
  unfold eventBytes
  rw [decodeUtf8_encodeUtf8, Json.parse_stringify]

end EdgeSphere.Gateway.RequestLog
