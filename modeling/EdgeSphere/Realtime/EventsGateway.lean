import EdgeSphere.Library.Addition
import EdgeSphere.Library.Buffer
import EdgeSphere.Library.History
import EdgeSphere.Library.Rooms

/-!
# The websocket-gateway

`EventsGateway` puts the sockets of `/realtime` into rooms, and `KafkaConsumerService` publishes in these rooms what
it receives from Kafka and Redis, and the metrics of the last five seconds.  A socket has an id of its own, and socket.io
joins a list of rooms at once but leaves one at a time.

* `step` — one event of the process; a `TypeError` in the callback of the timer ends it;
* `announced` — what an event publishes, `answered` — what it sends to a socket alone;
* `mem_members_iff` — a socket is in a room iff the last event that names both is a subscription;
* `inbox_eq` — **a socket receives exactly what is published in its rooms while it is subscribed**, and its answers,
  once and in order.
-/

namespace EdgeSphere.Realtime

open EdgeSphere.Library
open EdgeSphere.Library.Buffer
open EdgeSphere.Library.Runs

variable {κ : Type*} [DecidableEq κ]

/-! ### Messages -/

/-- The rooms in which something is published. -/
inductive Room where
  | events
  | metrics
  | alerts
  | cdn
  | storage
  deriving DecidableEq, Repr

def Room.name : Room → String
  | events => "events"
  | metrics => "metrics"
  | alerts => "alerts"
  | cdn => "cdn"
  | storage => "storage"

theorem Room.name_injective : Function.Injective Room.name := by
  intro a b h
  cases a <;> cases b <;> first | rfl | exact absurd h (by decide)

structure RealtimeMetrics where
  requestsPerSec : Number
  cacheHitRatio : Number
  avgLatencyMs : Number
  activeConnections : ℕ
  errorRate : Number
  timestamp : String

/-- What is sent, under the names of the events. -/
inductive Message (κ : Type*) where
  | connected (clientId : κ) (timestamp : String)
  | subscribed (rooms : List (Json JsonNumber))
  /-- What Nest sends when a handler throws. -/
  | exception
  | requestEvent (event : Json JsonNumber)
  | metricsUpdate (metrics : RealtimeMetrics)
  | alertTriggered (alert : Json JsonNumber)
  | cachePurged (event : Json JsonNumber)
  | storageEvent (event : Json JsonNumber)

/-! ### Metrics -/

structure RecentRequestSample where
  receivedAt : ℤ
  latencyMs : Json JsonNumber
  cacheHit : Bool
  status : Json JsonNumber

/-- The sample of an event received `now`; `none` is the `TypeError` on `null`. -/
def sampleOf (now : ℤ) (data : Json JsonNumber) : Option RecentRequestSample := do
  let latencyMs ← data.prop "latencyMs"
  let cacheHit ← data.prop "cacheHit"
  let status ← data.prop "status"
  return {
    receivedAt := now
    latencyMs := Json.firstTruthy latencyMs none (.num 0)
    cacheHit := (cacheHit.map Json.truthy).getD false
    status := Json.firstTruthy status none (.num 0) }

def metricsWindowMs : ℕ := 5000

/-- What the window keeps at a time. -/
def recent (now : ℤ) (samples : List RecentRequestSample) : List RecentRequestSample :=
  samples.filter fun r => decide (now - metricsWindowMs ≤ r.receivedAt)

/-- `total > 0 ? count / total : 0`. -/
def ratio (count total : ℕ) : Number := if 0 < total then Number.ofRat (count / total) else .finite 0

/-- The metrics of some samples; `none` is a `TypeError` at a status or a latency, and `numberText` is
`String(number)`. -/
def metricsOf (numberText : Number → List Char) (samples : List RecentRequestSample) (activeConnections : ℕ)
    (timestamp : String) : Option RealtimeMetrics := do
  let total := samples.length
  let hits := (samples.filter fun r => r.cacheHit).length
  let statuses ← samples.mapM fun r => r.status.toNumber
  let errors := (statuses.filter fun status => status.ge (.finite 400)).length
  let latencySum ← sum numberText (samples.map fun r => r.latencyMs)
  return {
    requestsPerSec := Number.ofRat (total / (metricsWindowMs / 1000))
    cacheHitRatio := ratio hits total
    avgLatencyMs := if 0 < total then latencySum.toNumber.divNat total else .finite 0
    activeConnections
    errorRate := ratio errors total
    timestamp }

/-! ### The process -/

/-- `listening` says whether `onModuleInit` has reached Kafka: if not, there is no subscription and no timer. -/
structure Gateway (κ : Type*) where
  server : Hub κ String (Message κ)
  listening : Bool
  recentRequests : List RecentRequestSample
  crashed : Bool

/-- After `onModuleInit`. -/
def start (κ : Type*) [DecidableEq κ] (listening : Bool) : Gateway κ := ⟨.empty, listening, [], false⟩

/-- What happens next; times are in milliseconds. -/
inductive Event (κ : Type*) where
  | connection (client : κ) (timestamp : String)
  | disconnection (client : κ)
  | subscribe (client : κ) (payload : Option (Json JsonNumber))
  | unsubscribe (client : κ) (payload : Option (Json JsonNumber))
  | kafkaMessage (topic : String) (value : Option (List Byte)) (now : ℤ)
  | redisMessage (channel message : String)
  | metricsInterval (now : ℤ) (timestamp : String)

/-- What `rooms.forEach` runs through; only a list has it, and `none` is the `TypeError`. -/
def elementsOf : Option (Json JsonNumber) → Option (List (Json JsonNumber))
  | some (.arr rooms) => some rooms
  | _ => none

/-- The rooms that `client.join(room)` joins: `room` may be a list of them. -/
def joinedBy : Json JsonNumber → List String
  | .str room => [room]
  | .arr rooms => rooms.filterMap fun
    | .str room => some room
    | _ => none
  | _ => []

/-- The room that `client.leave(room)` leaves. -/
def leftBy : Json JsonNumber → List String
  | .str room => [room]
  | _ => []

namespace Gateway

def handleConnection (g : Gateway κ) (client : κ) (timestamp : String) : Gateway κ :=
  { g with server := (g.server.connect client).tell client (.connected client timestamp) }

def handleDisconnect (g : Gateway κ) (client : κ) : Gateway κ := { g with server := g.server.disconnect client }

def handleSubscribe (g : Gateway κ) (client : κ) (payload : Option (Json JsonNumber)) : Gateway κ :=
  match elementsOf payload with
  | some rooms =>
    { g with server := (g.server.joinAll client (rooms.flatMap joinedBy)).tell client (.subscribed rooms) }
  | none => { g with server := g.server.tell client .exception }

def handleUnsubscribe (g : Gateway κ) (client : κ) (payload : Option (Json JsonNumber)) : Gateway κ :=
  match elementsOf payload with
  | some rooms => { g with server := g.server.leaveAll client (rooms.flatMap leftBy) }
  | none => { g with server := g.server.tell client .exception }

def emit (g : Gateway κ) (room : Room) (message : Message κ) : Gateway κ :=
  { g with server := g.server.publish room.name message }

def emitRequestEvent (g : Gateway κ) (event : Json JsonNumber) : Gateway κ := g.emit .events (.requestEvent event)

def emitMetricsUpdate (g : Gateway κ) (metrics : RealtimeMetrics) : Gateway κ :=
  g.emit .metrics (.metricsUpdate metrics)

def emitAlert (g : Gateway κ) (alert : Json JsonNumber) : Gateway κ := g.emit .alerts (.alertTriggered alert)

def emitCachePurge (g : Gateway κ) (event : Json JsonNumber) : Gateway κ := g.emit .cdn (.cachePurged event)

def emitStorageEvent (g : Gateway κ) (event : Json JsonNumber) : Gateway κ := g.emit .storage (.storageEvent event)

def getConnectedClientsCount (g : Gateway κ) : ℕ := g.server.online.card

/-- `eachMessage`; what it throws it catches, and `parse` is `JSON.parse`. -/
def eachMessage (parse : List Char → Option (Json JsonNumber)) (g : Gateway κ) (topic : String)
    (value : Option (List Byte)) (now : ℤ) : Gateway κ :=
  match value with
  | none => g
  | some bytes =>
    match parse (decodeUtf8 bytes) with
    | none => g
    | some data =>
      if topic = "request.events" then
        let g := g.emitRequestEvent data
        { g with recentRequests := g.recentRequests ++ (sampleOf now data).toList }
      else if topic = "storage.events" then g.emitStorageEvent data
      else if topic = "alerts.triggered" then g.emitAlert data
      else g

/-- The handler of messages from Redis. -/
def onMessage (parse : List Char → Option (Json JsonNumber)) (g : Gateway κ) (channel message : String) : Gateway κ :=
  if channel = "cache:invalidate" then
    match parse message.toList with
    | some event => g.emitCachePurge event
    | none => g
  else g

/-- The callback of the timer. -/
def emitMetrics (numberText : Number → List Char) (g : Gateway κ) (now : ℤ) (timestamp : String) : Gateway κ :=
  let g := { g with recentRequests := recent now g.recentRequests }
  match metricsOf numberText g.recentRequests g.getConnectedClientsCount timestamp with
  | some metrics => g.emitMetricsUpdate metrics
  | none => { g with crashed := true }

end Gateway

section Process

variable (parse : List Char → Option (Json JsonNumber)) (numberText : Number → List Char)

/-- One event of the process. -/
def step (g : Gateway κ) (e : Event κ) : Option (Gateway κ) :=
  if g.crashed then none
  else match e with
  | .connection client timestamp =>
    if client ∈ g.server.online then none else some (g.handleConnection client timestamp)
  | .disconnection client => if client ∈ g.server.online then some (g.handleDisconnect client) else none
  | .subscribe client payload => if client ∈ g.server.online then some (g.handleSubscribe client payload) else none
  | .unsubscribe client payload =>
    if client ∈ g.server.online then some (g.handleUnsubscribe client payload) else none
  | .kafkaMessage topic value now => if g.listening then some (g.eachMessage parse topic value now) else none
  | .redisMessage channel message => if g.listening then some (g.onMessage parse channel message) else none
  | .metricsInterval now timestamp => if g.listening then some (g.emitMetrics numberText now timestamp) else none

/-! ### What an event says -/

/-- What a message from Kafka publishes. -/
def announcedBy (topic : String) (data : Json JsonNumber) : Option (Room × Message κ) :=
  if topic = "request.events" then some (.events, .requestEvent data)
  else if topic = "storage.events" then some (.storage, .storageEvent data)
  else if topic = "alerts.triggered" then some (.alerts, .alertTriggered data)
  else none

/-- What an event publishes in a state. -/
def announced (g : Gateway κ) : Event κ → Option (Room × Message κ)
  | .kafkaMessage topic value _ => (value.bind fun bytes => parse (decodeUtf8 bytes)).bind (announcedBy topic)
  | .redisMessage channel message =>
    if channel = "cache:invalidate" then (parse message.toList).map fun event => (.cdn, .cachePurged event) else none
  | .metricsInterval now timestamp =>
    (metricsOf numberText (recent now g.recentRequests) g.getConnectedClientsCount timestamp).map fun metrics =>
      (.metrics, .metricsUpdate metrics)
  | _ => none

end Process

/-- What an event sends to this socket alone. -/
def answered (client : κ) : Event κ → List (Message κ)
  | .connection c timestamp => if client = c then [.connected c timestamp] else []
  | .subscribe c payload => if client = c then [((elementsOf payload).map .subscribed).getD .exception] else []
  | .unsubscribe c payload => if client = c then ((elementsOf payload).map fun _ => []).getD [.exception] else []
  | _ => []

namespace Event

/-- The event subscribes the socket to the room. -/
def subscribes (client : κ) (room : String) : Event κ → Bool
  | .subscribe c payload => decide (client = c ∧ room ∈ ((elementsOf payload).getD []).flatMap joinedBy)
  | _ => false

/-- The event takes the socket out of the room. -/
def unsubscribes (client : κ) (room : String) : Event κ → Bool
  | .disconnection c => decide (client = c)
  | .unsubscribe c payload => decide (client = c ∧ room ∈ ((elementsOf payload).getD []).flatMap leftBy)
  | _ => false

theorem subscribes_eq_false {client : κ} {room : String} {e : Event κ} (h : e.unsubscribes client room = true) :
    e.subscribes client room = false := by
  cases e with
  | subscribe c payload => cases h
  | _ => rfl

end Event

/-- The last event that names the socket and the room is a subscription. -/
def subscribedTo (client : κ) (room : String) (es : List (Event κ)) : Bool :=
  switched (Event.subscribes client room) (Event.unsubscribes client room) es

/-- What a socket in these rooms receives of an announcement. -/
def reaching (isIn : String → Bool) (announcement : Option (Room × Message κ)) : List (Message κ) :=
  (announcement.filter fun a => isIn a.1.name).toList.map Prod.snd

/-! ### What a step does -/

/-- An announcement is published in its room. -/
def publishing (server : Hub κ String (Message κ)) : Option (Room × Message κ) → Hub κ String (Message κ)
  | none => server
  | some (room, message) => server.publish room.name message

section Publishing

variable {server : Hub κ String (Message κ)} {announcement : Option (Room × Message κ)} {client : κ}

@[simp] theorem members_publishing : (publishing server announcement).members = server.members := by
  rcases announcement with - | ⟨room, message⟩ <;> rfl

@[simp] theorem online_publishing : (publishing server announcement).online = server.online := by
  rcases announcement with - | ⟨room, message⟩ <;> rfl

theorem inbox_publishing {isIn : String → Bool} (h : ∀ room, isIn room = true ↔ (client, room) ∈ server.members) :
    (publishing server announcement).inbox client = server.inbox client ++ reaching isIn announcement := by
  rcases announcement with - | ⟨room, message⟩
  · exact (List.append_nil _).symm
  · show (server.publish room.name message).inbox client = _
    rw [Hub.inbox_publish]
    unfold reaching
    by_cases hroom : isIn room.name = true
    · rw [if_pos ((h room.name).mp hroom), Option.filter, if_pos hroom]
      rfl
    · rw [if_neg fun hmem => hroom ((h room.name).mpr hmem), Option.filter, if_neg hroom]
      rfl

end Publishing

section Steps

variable {parse : List Char → Option (Json JsonNumber)} {numberText : Number → List Char} {g g' : Gateway κ}
  {e : Event κ} {client : κ} {room : String}

theorem server_eachMessage (topic : String) (value : Option (List Byte)) (now : ℤ) :
    (g.eachMessage parse topic value now).server
      = publishing g.server (announced parse numberText g (.kafkaMessage topic value now)) := by
  unfold Gateway.eachMessage announced
  cases value with
  | none => rfl
  | some bytes =>
    simp only [Option.bind_some]
    cases parse (decodeUtf8 bytes) with
    | none => rfl
    | some data =>
      simp only [Option.bind_some, announcedBy]
      split_ifs <;> rfl

theorem server_onMessage (channel message : String) :
    (g.onMessage parse channel message).server
      = publishing g.server (announced parse numberText g (.redisMessage channel message)) := by
  unfold Gateway.onMessage announced
  simp only
  split_ifs
  · cases parse message.toList <;> rfl
  · rfl

theorem server_emitMetrics (now : ℤ) (timestamp : String) :
    (g.emitMetrics numberText now timestamp).server
      = publishing g.server (announced parse numberText g (.metricsInterval now timestamp)) := by
  unfold Gateway.emitMetrics announced
  simp only [Gateway.getConnectedClientsCount]
  cases metricsOf numberText (recent now g.recentRequests) g.server.online.card timestamp <;> rfl

/-- What a step does. -/
theorem step_cases (h : step parse numberText g e = some g') : g.crashed = false ∧
    ((∃ c timestamp, e = .connection c timestamp ∧ c ∉ g.server.online ∧ g' = g.handleConnection c timestamp) ∨
      (∃ c, e = .disconnection c ∧ c ∈ g.server.online ∧ g' = g.handleDisconnect c) ∨
      (∃ c payload, e = .subscribe c payload ∧ c ∈ g.server.online ∧ g' = g.handleSubscribe c payload) ∨
      (∃ c payload, e = .unsubscribe c payload ∧ c ∈ g.server.online ∧ g' = g.handleUnsubscribe c payload) ∨
      g.listening = true ∧
        ((∃ topic value now, e = .kafkaMessage topic value now ∧ g' = g.eachMessage parse topic value now) ∨
          (∃ channel message, e = .redisMessage channel message ∧ g' = g.onMessage parse channel message) ∨
          ∃ now timestamp, e = .metricsInterval now timestamp ∧ g' = g.emitMetrics numberText now timestamp)) := by
  unfold step at h
  split at h
  · cases h
  · rename_i hcrashed
    refine ⟨Bool.eq_false_iff.mpr hcrashed, ?_⟩
    cases e with
    | connection c timestamp =>
      simp only at h
      split at h
      · cases h
      · exact .inl ⟨c, timestamp, rfl, ‹_›, (Option.some.inj h).symm⟩
    | disconnection c =>
      obtain ⟨hc, h⟩ := Option.ite_none_right_eq_some.mp h
      exact .inr (.inl ⟨c, rfl, hc, (Option.some.inj h).symm⟩)
    | subscribe c payload =>
      obtain ⟨hc, h⟩ := Option.ite_none_right_eq_some.mp h
      exact .inr (.inr (.inl ⟨c, payload, rfl, hc, (Option.some.inj h).symm⟩))
    | unsubscribe c payload =>
      obtain ⟨hc, h⟩ := Option.ite_none_right_eq_some.mp h
      exact .inr (.inr (.inr (.inl ⟨c, payload, rfl, hc, (Option.some.inj h).symm⟩)))
    | kafkaMessage topic value now =>
      obtain ⟨hlistening, h⟩ := Option.ite_none_right_eq_some.mp h
      exact .inr (.inr (.inr (.inr ⟨hlistening, .inl ⟨topic, value, now, rfl, (Option.some.inj h).symm⟩⟩)))
    | redisMessage channel message =>
      obtain ⟨hlistening, h⟩ := Option.ite_none_right_eq_some.mp h
      exact .inr (.inr (.inr (.inr ⟨hlistening, .inr (.inl ⟨channel, message, rfl, (Option.some.inj h).symm⟩)⟩)))
    | metricsInterval now timestamp =>
      obtain ⟨hlistening, h⟩ := Option.ite_none_right_eq_some.mp h
      exact .inr (.inr (.inr (.inr ⟨hlistening, .inr (.inr ⟨now, timestamp, rfl, (Option.some.inj h).symm⟩)⟩)))

/-- What comes from Kafka, from Redis or from the timer is published, and no more. -/
theorem server_of_received (client : κ) (room : String) (h : (∃ topic value now, e = .kafkaMessage topic value now ∧
        g' = g.eachMessage parse topic value now) ∨
      (∃ channel message, e = .redisMessage channel message ∧ g' = g.onMessage parse channel message) ∨
      ∃ now timestamp, e = .metricsInterval now timestamp ∧ g' = g.emitMetrics numberText now timestamp) :
    (e.subscribes client room = false ∧ e.unsubscribes client room = false ∧ answered client e = []) ∧
      g'.server = publishing g.server (announced parse numberText g e) := by
  rcases h with ⟨topic, value, now, rfl, rfl⟩ | ⟨channel, message, rfl, rfl⟩ | ⟨now, timestamp, rfl, rfl⟩
  · exact ⟨⟨rfl, rfl, rfl⟩, server_eachMessage topic value now⟩
  · exact ⟨⟨rfl, rfl, rfl⟩, server_onMessage channel message⟩
  · exact ⟨⟨rfl, rfl, rfl⟩, server_emitMetrics now timestamp⟩

/-- Who is in a room after a step. -/
theorem mem_members_step (h : step parse numberText g e = some g') : (client, room) ∈ g'.server.members ↔
    e.subscribes client room = true ∨ (client, room) ∈ g.server.members ∧ e.unsubscribes client room = false := by
  obtain ⟨-, ⟨c, timestamp, rfl, hoff, rfl⟩ | ⟨c, rfl, hon, rfl⟩ | ⟨c, payload, rfl, hon, rfl⟩ |
    ⟨c, payload, rfl, hon, rfl⟩ | ⟨-, hreceived⟩⟩ := step_cases h
  · simp [Gateway.handleConnection, Event.subscribes, Event.unsubscribes]
  · simp [Gateway.handleDisconnect, Event.subscribes, Event.unsubscribes]
  · unfold Gateway.handleSubscribe Event.subscribes
    simp only [Event.unsubscribes]
    cases elementsOf payload with
    | some rooms => simp [Hub.mem_joinAll hon, or_comm]
    | none => simp
  · unfold Gateway.handleUnsubscribe Event.unsubscribes
    simp only [Event.subscribes]
    cases elementsOf payload with
    | some rooms => simp
    | none => simp
  · obtain ⟨⟨hsub, hunsub, -⟩, hserver⟩ := server_of_received client room hreceived
    rw [hserver, members_publishing, hsub, hunsub]
    simp

/-- What a socket has received after a step, if `isIn` are its rooms. -/
theorem inbox_step (isIn : String → Bool) (hin : ∀ room, isIn room = true ↔ (client, room) ∈ g.server.members)
    (h : step parse numberText g e = some g') : g'.server.inbox client
      = g.server.inbox client ++ (answered client e ++ reaching isIn (announced parse numberText g e)) := by
  obtain ⟨-, ⟨c, timestamp, rfl, hoff, rfl⟩ | ⟨c, rfl, hon, rfl⟩ | ⟨c, payload, rfl, hon, rfl⟩ |
    ⟨c, payload, rfl, hon, rfl⟩ | ⟨-, hreceived⟩⟩ := step_cases h
  · show ((g.server.connect c).tell c (.connected c timestamp)).inbox client
      = g.server.inbox client ++ (answered client (.connection c timestamp) ++ [])
    rw [Hub.inbox_tell, Hub.inbox_connect, List.append_nil]
    rfl
  · exact (List.append_nil _).symm
  · show _ = g.server.inbox client ++ (answered client (.subscribe c payload) ++ [])
    unfold Gateway.handleSubscribe answered
    simp only [List.append_nil]
    cases elementsOf payload with
    | some rooms =>
      simp only [Hub.inbox_tell, Hub.inbox_joinAll]
      rfl
    | none => exact Hub.inbox_tell
  · show _ = g.server.inbox client ++ (answered client (.unsubscribe c payload) ++ [])
    unfold Gateway.handleUnsubscribe answered
    simp only [List.append_nil]
    cases elementsOf payload with
    | some rooms =>
      show g.server.inbox client = g.server.inbox client ++ if client = c then [] else []
      rw [ite_self, List.append_nil]
    | none => exact Hub.inbox_tell
  · obtain ⟨⟨-, -, hanswered⟩, hserver⟩ := server_of_received client "" hreceived
    rw [hserver, inbox_publishing hin, hanswered]
    rfl

/-! ### Runs -/

variable {listening : Bool} {es : List (Event κ)}

/-- **The sockets of a room** are those whose last word about it was a subscription. -/
theorem mem_members_iff (hrun : run (step parse numberText) (start κ listening) es = some g) :
    (client, room) ∈ g.server.members ↔ subscribedTo client room es = true := by
  refine run_induction (step parse numberText) (start κ listening)
    (fun es g => (client, room) ∈ g.server.members ↔ subscribedTo client room es = true) ?_ ?_ es g hrun
  · exact iff_of_false (Finset.notMem_empty _) Bool.false_ne_true
  · intro es g e g' _ ih hstep
    rw [mem_members_step hstep, subscribedTo, switched_snoc, switch, ih]
    simp [subscribedTo]

/-- The subscriptions, in terms of the events. -/
theorem subscribedTo_iff : subscribedTo client room es = true ↔ ∃ before e after, es = before ++ e :: after ∧
    e.subscribes client room = true ∧ ∀ e' ∈ after, e'.unsubscribes client room = false := by
  refine switched_iff.trans ?_
  refine exists_congr fun before => exists_congr fun e => exists_congr fun after => and_congr_right fun _ =>
    and_congr_right fun _ => forall₂_congr fun e' _ => ⟨fun h => ?_, fun h h' => ?_⟩
  · by_contra hoff
    have hoff := Bool.eq_true_of_not_eq_false hoff
    exact absurd (h hoff) (by rw [Event.subscribes_eq_false hoff]; decide)
  · rw [h] at h'
    cases h'

/-- A socket has received its answers and what was published in the rooms it was in. -/
theorem inbox_eq (hrun : run (step parse numberText) (start κ listening) es = some g) (client : κ) :
    g.server.inbox client = ((trail (step parse numberText) (start κ listening) es).flatMap fun (done, m, e) =>
      answered client e ++ reaching (fun room => subscribedTo client room done) (announced parse numberText m e)) := by
  refine run_induction (step parse numberText) (start κ listening)
    (fun es g => g.server.inbox client = ((trail (step parse numberText) (start κ listening) es).flatMap
      fun (done, m, e) => answered client e
        ++ reaching (fun room => subscribedTo client room done) (announced parse numberText m e))) rfl ?_ es g hrun
  intro es g e g' hrun ih hstep
  rw [trail_snoc hrun, List.flatMap_append, ← ih, List.flatMap_singleton]
  exact inbox_step _ (fun room => (mem_members_iff hrun).symm) hstep

/-- **Who hears what.**  A socket has received its answers and, of what was published, what was said in a room while
its last word about this room was a subscription: every such message once, and in order. -/
theorem receives_exactly (hrun : run (step parse numberText) (start κ listening) es = some g) (client : κ) :
    (g.server.inbox client = (trail (step parse numberText) (start κ listening) es).flatMap fun (done, m, e) =>
      answered client e ++ reaching (fun room => subscribedTo client room done) (announced parse numberText m e)) ∧
    ∀ room done, subscribedTo client room done = true ↔ ∃ before e after, done = before ++ e :: after ∧
      e.subscribes client room = true ∧ ∀ e' ∈ after, e'.unsubscribes client room = false :=
  ⟨inbox_eq hrun client, fun _ _ => subscribedTo_iff⟩

end Steps

theorem receives_exactly_one : ∃ g, run (step (fun _ => some (.obj [])) fun _ => []) (start ℕ true)
      [.connection 0 "now", .subscribe 0 (some (.arr [.str "events"])), .kafkaMessage "request.events" (some []) 0]
      = some g ∧
    (g.server.inbox 0 = (trail (step (fun _ => some (.obj [])) fun _ => []) (start ℕ true)
      [.connection 0 "now", .subscribe 0 (some (.arr [.str "events"])), .kafkaMessage "request.events" (some []) 0]).flatMap
        fun (done, m, e) => answered 0 e ++ reaching (fun room => subscribedTo 0 room done)
          (announced (fun _ => some (.obj [])) (fun _ => []) m e)) ∧
    g.server.inbox 0 = [.connected 0 "now", .subscribed [.str "events"], .requestEvent (.obj [])] :=
  ⟨_, rfl, (receives_exactly rfl 0).1, rfl⟩

end EdgeSphere.Realtime
