import EdgeSphere.Library.Buffer
import EdgeSphere.Library.Json
import EdgeSphere.Library.Runs
import Mathlib

/-!
# The consumer of the analytics-service

`KafkaConsumerService` collects the events of the topic `request.events` in `batch` and hands them to
`AnalyticsService.ingestEventBatch` in arrays.  Between two awaits nothing else runs, so an event of the
consumer is a handler up to its first await, the end of a call of `ingestEventBatch`, or the end of
`consumer.disconnect`.

* `Consumer.step` — one event; `handledEvents` — the messages of a run that were parsed;
* `passed_in_order` — **what has been passed on and what is in `batch` is what was handled, in order**, and no
  two calls overlap;
* `events_conserved_iff` — **no event is lost exactly if every insert succeeds**.
-/

namespace EdgeSphere.Analytics

open EdgeSphere.Library
open EdgeSphere.Library.Buffer
open EdgeSphere.Library.Runs

variable {N : Type}

/-! ### Rows -/

/-- What `ingestEventBatch` hands to the database; `none` is `undefined`.  `time` is what the date is made of, or
else it is the present, and a missing `requestId` is drawn. -/
structure RequestEventRow (N : Type) where
  time : Option (Json N)
  service : Option (Json N)
  method : Option (Json N)
  path : Option (Json N)
  status : Option (Json N)
  latencyMs : Option (Json N)
  userId : Option (Json N)
  ip : Option (Json N)
  country : Option (Json N)
  cacheHit : Json N
  bytes : Json N
  edgeRegion : Option (Json N)
  requestId : Option (Json N)

section Rows

variable [Zero N] [DecidableEq N]

/-- The row of an event; `none` is the `TypeError` on `null`. -/
def toRow (event : Json N) : Option (RequestEventRow N) := do
  let time ← event.prop "time"
  let service ← event.prop "service"
  let method ← event.prop "method"
  let path ← event.prop "path"
  let status ← event.prop "status"
  let latencyMs ← event.prop "latencyMs"
  let userId ← event.prop "userId"
  let ip ← event.prop "ip"
  let country ← event.prop "country"
  let cacheHit ← event.prop "cacheHit"
  let bytes ← event.prop "bytes"
  let edgeRegion ← event.prop "edgeRegion"
  let requestId ← event.prop "requestId"
  return {
    time := time.filter Json.truthy
    service, method, path, status, latencyMs, userId, ip, country
    cacheHit := Json.firstTruthy cacheHit none (.bool false)
    bytes := Json.firstTruthy bytes none (.num 0)
    edgeRegion
    requestId := requestId.filter Json.truthy }

/-- Every value but `null` has a row. -/
theorem toRow_isSome {event : Json N} : (toRow event).isSome = true ↔ event ≠ .null := by
  cases event with
  | null => simp [toRow, Json.prop]
  | _ => simp [toRow, Json.prop]

/-- The rows of an array, if the `map` does not throw. -/
def toRows (events : List (Json N)) : Option (List (RequestEventRow N)) := events.mapM toRow

theorem toRows_eq_some {events : List (Json N)} {rows : List (RequestEventRow N)}
    (h : toRows events = some rows) : rows.map some = events.map toRow := by
  unfold toRows at h
  induction events generalizing rows with
  | nil =>
    cases h
    rfl
  | cons event events ih =>
    rw [List.mapM_cons] at h
    obtain ⟨row, hrow, h⟩ := Option.bind_eq_some_iff.mp h
    obtain ⟨rest, hrest, h⟩ := Option.bind_eq_some_iff.mp h
    cases h
    rw [List.map_cons, List.map_cons, hrow, ih hrest]

theorem toRows_isSome {events : List (Json N)} :
    (toRows events).isSome = true ↔ ∀ event ∈ events, event ≠ .null := by
  unfold toRows
  induction events with
  | nil => simp
  | cons event events ih =>
    rw [List.mapM_cons, List.forall_mem_cons, ← ih, ← toRow_isSome]
    cases toRow event with
    | none => simp
    | some row => cases List.mapM toRow events <;> simp

end Rows

/-! ### The consumer -/

/-- Who awaits a flush. -/
inductive Caller where
  | timer
  | eachMessage
  | onModuleDestroy
  deriving DecidableEq, Repr

/-- A call of `ingestEventBatch` in progress. -/
structure IngestCall (N : Type) where
  events : List (Json N)
  caller : Caller

/-- What `onModuleDestroy` awaits. -/
inductive Shutdown where
  | running
  | flushing
  | disconnecting
  | done
  deriving DecidableEq, Repr

/-- `passed` are the arrays handed to `ingestEventBatch` so far, `requestEvents` the rows of the table that come
from here. -/
structure Consumer (N : Type) where
  batch : List (Json N)
  isProcessing : Bool
  batchTimer : Bool
  ingesting : List (IngestCall N)
  shutdown : Shutdown
  passed : List (List (Json N))
  requestEvents : List (RequestEventRow N)

/-- After `onModuleInit`. -/
def Consumer.initial : Consumer N := ⟨[], false, true, [], .running, [], []⟩

/-- What happens next. -/
inductive ConsumerEvent where
  | message (topic : String) (value : Option (List Byte))
  /-- The timer fires. -/
  | tick
  | onModuleDestroy
  /-- The call at this place ends; the database has taken its rows, or not. -/
  | settled (place : ℕ) (inserted : Bool)
  | disconnected

namespace Consumer

/-- `this.batch.length === 0 || this.isProcessing`. -/
def skips (s : Consumer N) : Bool := s.batch.isEmpty || s.isProcessing

/-- `flushBatch`, up to its await. -/
def flushBatch (caller : Caller) (s : Consumer N) : Consumer N :=
  if s.skips then s
  else { s with
    isProcessing := true
    batch := []
    ingesting := s.ingesting ++ [⟨s.batch, caller⟩]
    passed := s.passed ++ [s.batch] }

/-- The event a message carries; `parse` is `JSON.parse`, which may throw. -/
def eventOf (parse : List Char → Option (Json N)) (topic : String) (value : Option (List Byte)) :
    Option (Json N) :=
  if topic = "request.events" then value.bind fun bytes => parse (decodeUtf8 bytes) else none

/-- `eachMessage`. -/
def eachMessage (parse : List Char → Option (Json N)) (topic : String) (value : Option (List Byte))
    (s : Consumer N) : Consumer N :=
  match value with
  | none => s
  | some bytes =>
    match parse (decodeUtf8 bytes) with
    | none => s
    | some event =>
      if topic = "request.events" then
        let s := { s with batch := s.batch ++ [event] }
        if 1000 ≤ s.batch.length then s.flushBatch .eachMessage else s
      else s

/-- What a message does: nothing, or it adds its event, and a batch of 1000 is flushed. -/
theorem eachMessage_cases (parse : List Char → Option (Json N)) (topic : String) (value : Option (List Byte))
    (s : Consumer N) :
    (eventOf parse topic value = none ∧ s.eachMessage parse topic value = s) ∨
      ∃ event, eventOf parse topic value = some event ∧
        (s.eachMessage parse topic value = { s with batch := s.batch ++ [event] } ∨
          s.eachMessage parse topic value = flushBatch .eachMessage { s with batch := s.batch ++ [event] }) := by
  cases value with
  | none => exact .inl ⟨ite_self none, rfl⟩
  | some bytes =>
    unfold eachMessage eventOf
    simp only [Option.bind_some]
    cases parse (decodeUtf8 bytes) with
    | none => exact .inl ⟨ite_self none, rfl⟩
    | some event =>
      simp only
      by_cases htopic : topic = "request.events"
      · rw [if_pos htopic, if_pos htopic]
        refine .inr ⟨event, rfl, ?_⟩
        split
        · exact .inr rfl
        · exact .inl rfl
      · rw [if_neg htopic, if_neg htopic]
        exact .inl ⟨rfl, rfl⟩

variable [Zero N] [DecidableEq N]

/-- The end of `ingestEventBatch`, which catches what its insert throws, and of `flushBatch` with it. -/
def settle (s : Consumer N) (place : ℕ) (call : IngestCall N) (inserted : Bool) : Consumer N :=
  { s with
    isProcessing := false
    ingesting := s.ingesting.eraseIdx place
    shutdown := if call.caller = .onModuleDestroy then .disconnecting else s.shutdown
    requestEvents := match toRows call.events with
      | some rows => if inserted then s.requestEvents ++ rows else s.requestEvents
      | none => s.requestEvents }

/-- One event of the consumer. -/
def step (parse : List Char → Option (Json N)) (s : Consumer N) : ConsumerEvent → Option (Consumer N)
  | .message topic value => some (s.eachMessage parse topic value)
  | .tick => if s.batchTimer then some (s.flushBatch .timer) else none
  | .onModuleDestroy =>
    if s.shutdown = .running then
      some (flushBatch .onModuleDestroy
        { s with batchTimer := false, shutdown := if s.skips then .disconnecting else .flushing })
    else none
  | .settled place inserted => s.ingesting[place]?.map fun call => s.settle place call inserted
  | .disconnected => if s.shutdown = .disconnecting then some { s with shutdown := .done } else none

end Consumer

/-- The event that a message adds. -/
def ConsumerEvent.handled (parse : List Char → Option (Json N)) : ConsumerEvent → Option (Json N)
  | .message topic value => Consumer.eventOf parse topic value
  | _ => none

/-- The events that have been handled, in order. -/
def handledEvents (parse : List Char → Option (Json N)) (es : List ConsumerEvent) : List (Json N) :=
  es.filterMap (ConsumerEvent.handled parse)

theorem handledEvents_snoc (parse : List Char → Option (Json N)) (es : List ConsumerEvent) (e : ConsumerEvent) :
    handledEvents parse (es ++ [e]) = handledEvents parse es ++ (e.handled parse).toList := by
  unfold handledEvents
  rw [List.filterMap_append]
  cases he : e.handled parse with
  | none => rw [List.filterMap_cons_none he]; rfl
  | some event => rw [List.filterMap_cons_some he]; rfl

/-- What a message, a tick, or the shutdown does to a property of the handled events and the consumer: it is kept if
a new event, a flush and a change of the phase keep it. -/
structure Consumer.Inductive (P : List (Json N) → Consumer N → Prop) : Prop where
  push : ∀ {handled s} event, P handled s → P (handled ++ [event]) { s with batch := s.batch ++ [event] }
  flush : ∀ {handled s} caller, P handled s → P handled (s.flushBatch caller)
  phase : ∀ {handled s} batchTimer shutdown, P handled s → P handled { s with batchTimer, shutdown }

namespace Consumer.Inductive

variable {P : List (Json N) → Consumer N → Prop} {handled : List (Json N)} {s s' : Consumer N}

theorem eachMessage (hP : Consumer.Inductive P) (h : P handled s) (parse : List Char → Option (Json N))
    (topic : String) (value : Option (List Byte)) :
    P (handled ++ (Consumer.eventOf parse topic value).toList) (s.eachMessage parse topic value) := by
  rcases s.eachMessage_cases parse topic value with ⟨hnone, hsame⟩ | ⟨event, hevent, hpushed | hflushed⟩
  · rw [hnone, hsame, Option.toList_none, List.append_nil]
    exact h
  · rw [hevent, hpushed, Option.toList_some]
    exact hP.push event h
  · rw [hevent, hflushed, Option.toList_some]
    exact hP.flush .eachMessage (hP.push event h)

variable [Zero N] [DecidableEq N]

/-- **Every step but the end of a call.** -/
theorem step (hP : Consumer.Inductive P) {parse : List Char → Option (Json N)} {event : ConsumerEvent}
    (h : P handled s) (hevent : ∀ place inserted, event ≠ .settled place inserted)
    (hstep : s.step parse event = some s') : P (handled ++ (event.handled parse).toList) s' := by
  cases event with
  | message topic value =>
    cases hstep
    exact hP.eachMessage h parse topic value
  | tick =>
    show P (handled ++ []) s'
    rw [List.append_nil]
    simp only [Consumer.step] at hstep
    split at hstep
    · cases hstep
      exact hP.flush .timer h
    · cases hstep
  | onModuleDestroy =>
    show P (handled ++ []) s'
    rw [List.append_nil]
    simp only [Consumer.step] at hstep
    split at hstep
    · cases hstep
      exact hP.flush .onModuleDestroy (hP.phase false _ h)
    · cases hstep
  | settled place inserted => exact absurd rfl (hevent place inserted)
  | disconnected =>
    show P (handled ++ []) s'
    rw [List.append_nil]
    simp only [Consumer.step] at hstep
    split at hstep
    · cases hstep
      exact hP.phase s.batchTimer .done h
    · cases hstep

end Consumer.Inductive

/-! ### Order -/

namespace Consumer

/-- What has been passed on, and what has not, is what was handled; the flag says whether a call is in
progress. -/
structure InOrder (handled : List (Json N)) (s : Consumer N) : Prop where
  events : s.passed.flatten ++ s.batch = handled
  calls : s.ingesting.length = if s.isProcessing then 1 else 0

variable {handled : List (Json N)} {s : Consumer N}

theorem InOrder.flushBatch (h : s.InOrder handled) (caller : Caller) : (s.flushBatch caller).InOrder handled := by
  unfold Consumer.flushBatch
  split
  · exact h
  · rename_i hskips
    have hidle : s.isProcessing = false := by
      cases hbusy : s.isProcessing with
      | false => rfl
      | true => exact absurd (by rw [skips, hbusy, Bool.or_true]) hskips
    refine ⟨?_, ?_⟩
    · rw [List.flatten_append, List.flatten_singleton, List.append_nil]
      exact h.events
    · have hcalls := h.calls
      rw [hidle, if_neg Bool.false_ne_true] at hcalls
      rw [List.length_append, hcalls]
      rfl

theorem inOrder_inductive : Consumer.Inductive (N := N) InOrder where
  push event h := ⟨by rw [← h.events, List.append_assoc], h.calls⟩
  flush caller h := h.flushBatch caller
  phase _ _ h := ⟨h.events, h.calls⟩

variable [Zero N] [DecidableEq N]

/-- **A step keeps the order**, whatever ends how. -/
theorem InOrder.step {parse : List Char → Option (Json N)} {event : ConsumerEvent} {s' : Consumer N}
    (h : s.InOrder handled) (hstep : s.step parse event = some s') :
    s'.InOrder (handled ++ (event.handled parse).toList) := by
  by_cases hevent : ∃ place inserted, event = .settled place inserted
  · obtain ⟨place, inserted, rfl⟩ := hevent
    obtain ⟨call, hcall, rfl⟩ := Option.map_eq_some_iff.mp hstep
    obtain ⟨hplace, -⟩ := List.getElem?_eq_some_iff.mp hcall
    show (s.settle place call inserted).InOrder (handled ++ [])
    rw [List.append_nil]
    refine ⟨h.events, ?_⟩
    have hcalls := h.calls
    show (s.ingesting.eraseIdx place).length = 0
    rw [List.length_eraseIdx_of_lt hplace]
    split at hcalls
    · omega
    · omega
  · exact inOrder_inductive.step h (fun place inserted heq => hevent ⟨place, inserted, heq⟩) hstep

end Consumer

section Runs

variable [Zero N] [DecidableEq N]

theorem inOrder_run {parse : List Char → Option (Json N)} {es : List ConsumerEvent} {s : Consumer N}
    (hrun : run (Consumer.step parse) .initial es = some s) : s.InOrder (handledEvents parse es) := by
  refine run_induction (Consumer.step parse) .initial (fun es s => s.InOrder (handledEvents parse es)) ⟨rfl, rfl⟩
    (fun es s e t _ hs hst => ?_) es s hrun
  rw [handledEvents_snoc]
  exact hs.step hst

/-- **Nothing is lost, doubled or reordered in memory**: what has been passed on, and then `batch`, is what was
handled; and at most one call is in progress. -/
theorem passed_in_order (parse : List Char → Option (Json N)) (es : List ConsumerEvent) (s : Consumer N)
    (hrun : run (Consumer.step parse) .initial es = some s) :
    s.passed.flatten ++ s.batch = handledEvents parse es ∧ s.ingesting.length ≤ 1 := by
  have h := inOrder_run hrun
  refine ⟨h.events, ?_⟩
  rw [h.calls]
  split
  · exact le_refl 1
  · exact Nat.zero_le 1

end Runs

/-- A parser that knows two documents. -/
def twoDocuments : List Char → Option (Json ℕ)
  | ['1'] => some (.num 1)
  | ['2'] => some (.num 2)
  | _ => none

def requestMessage (byte : Byte) : ConsumerEvent := .message "request.events" (some [byte])

/-- A message, a flush, another message that arrives meanwhile, and one that is not JSON. -/
theorem passed_in_order_two : ∃ s, run (Consumer.step twoDocuments) .initial
      [requestMessage 49, .tick, requestMessage 50, requestMessage 51, .tick] = some s ∧
    s.passed.flatten = [.num 1] ∧ s.batch = [.num 2] ∧ s.ingesting.length ≤ 1 := by
  refine ⟨_, rfl, rfl, rfl, ?_⟩
  exact (passed_in_order twoDocuments [requestMessage 49, .tick, requestMessage 50, requestMessage 51, .tick] _
    rfl).2

/-! ### Loss -/

/-- The events of the calls in progress. -/
def Consumer.inProgress (s : Consumer N) : List (Json N) := (s.ingesting.map IngestCall.events).flatten

section Loss

variable [Zero N] [DecidableEq N]

/-- Every event that was handled has its row in the table, is in a call in progress, or in `batch`. -/
def Conserved (handled : List (Json N)) (s : Consumer N) : Prop :=
  ∃ stored, s.requestEvents.map some = stored.map toRow ∧ (stored ++ s.inProgress ++ s.batch).Perm handled

/-- **The condition on a step.**  If it ends a call, all of its events have rows, and the database has taken
them. -/
def Stores (s : Consumer N) : ConsumerEvent → Prop
  | .settled place inserted => ∀ call, s.ingesting[place]? = some call →
    inserted = true ∧ ∀ event ∈ call.events, event ≠ .null
  | _ => True

/-- What has become of the events: `stored` and `lost` are those of the calls that have ended. -/
structure Ledger (handled stored lost : List (Json N)) (s : Consumer N) : Prop where
  rows : s.requestEvents.map some = stored.map toRow
  entries : (stored ++ lost ++ s.inProgress ++ s.batch).Perm handled
  nonempty : ∀ call ∈ s.ingesting, call.events ≠ []

variable {handled stored lost : List (Json N)} {s s' : Consumer N}

theorem Ledger.flushBatch (h : Ledger handled stored lost s) (caller : Caller) :
    Ledger handled stored lost (s.flushBatch caller) := by
  unfold Consumer.flushBatch
  split
  · exact h
  · rename_i hskips
    refine ⟨h.rows, ?_, fun call hcall => ?_⟩
    · let call : IngestCall N := ⟨s.batch, caller⟩
      have hinProgress : ((s.ingesting ++ [call]).map IngestCall.events).flatten
          = s.inProgress ++ s.batch := by
        rw [List.map_append, List.flatten_append, List.map_singleton, List.flatten_singleton]
        rfl
      show (stored ++ lost ++ ((s.ingesting ++ [call]).map IngestCall.events).flatten ++ []).Perm handled
      rw [hinProgress, List.append_nil, ← List.append_assoc]
      exact h.entries
    · rcases List.mem_append.mp hcall with hold | hnew
      · exact h.nonempty call hold
      · rw [List.mem_singleton.mp hnew]
        intro hempty
        have hempty : s.batch = [] := hempty
        rw [Consumer.skips, hempty] at hskips
        exact hskips rfl

theorem ledger_inductive : Consumer.Inductive fun handled (s : Consumer N) => Ledger handled stored lost s where
  push {handled s} event h := by
    refine ⟨h.rows, ?_, h.nonempty⟩
    show (stored ++ lost ++ s.inProgress ++ (s.batch ++ [event])).Perm (handled ++ [event])
    rw [← List.append_assoc]
    exact h.entries.append_right [event]
  flush caller h := h.flushBatch caller
  phase _ _ h := ⟨h.rows, h.entries, h.nonempty⟩

omit [Zero N] [DecidableEq N] in
/-- The events of a call that ends are those of the others and its own. -/
theorem inProgress_eraseIdx {place : ℕ} {call : IngestCall N} (hcall : s.ingesting[place]? = some call) :
    s.inProgress.Perm (call.events ++ ((s.ingesting.eraseIdx place).map IngestCall.events).flatten) := by
  obtain ⟨hplace, hget⟩ := List.getElem?_eq_some_iff.mp hcall
  have hperm : s.ingesting.Perm (call :: s.ingesting.eraseIdx place) := by
    rw [← hget]
    exact (List.getElem_cons_eraseIdx_perm hplace).symm
  exact (hperm.map IngestCall.events).flatten

/-- A call ends. -/
theorem Ledger.settle (h : Ledger handled stored lost s) {place : ℕ} {call : IngestCall N}
    (hcall : s.ingesting[place]? = some call) (inserted : Bool) :
    (∃ rows, toRows call.events = some rows ∧ inserted = true ∧
      Ledger handled (stored ++ call.events) lost (s.settle place call inserted)) ∨
    ((toRows call.events = none ∨ inserted = false) ∧
      Ledger handled stored (lost ++ call.events) (s.settle place call inserted)) := by
  have hnonempty : ∀ c ∈ s.ingesting.eraseIdx place, c.events ≠ [] :=
    fun c hc => h.nonempty c (List.mem_of_mem_eraseIdx hc)
  let rest := ((s.ingesting.eraseIdx place).map IngestCall.events).flatten
  have hentries : (stored ++ lost ++ (call.events ++ rest) ++ s.batch).Perm handled := by
    refine List.Perm.trans ?_ h.entries
    exact ((inProgress_eraseIdx hcall).symm.append_left _).append_right _
  have hstored : (stored ++ call.events ++ lost ++ rest ++ s.batch).Perm handled := by
    refine List.Perm.trans ?_ hentries
    rw [← List.append_assoc (stored ++ lost), List.append_assoc stored, List.append_assoc stored lost]
    exact ((List.perm_append_comm.append_left stored).append_right rest).append_right s.batch
  have hlost : (stored ++ (lost ++ call.events) ++ rest ++ s.batch).Perm handled := by
    rw [← List.append_assoc stored, List.append_assoc (stored ++ lost)]
    exact hentries
  cases hrows : toRows call.events with
  | none => exact .inr ⟨.inl rfl, by rw [Consumer.settle, hrows]; exact h.rows, hlost, hnonempty⟩
  | some rows =>
    cases inserted with
    | false => exact .inr ⟨.inr rfl, by rw [Consumer.settle, hrows]; exact h.rows, hlost, hnonempty⟩
    | true =>
      refine .inl ⟨rows, rfl, rfl, ?_, hstored, hnonempty⟩
      show (match toRows call.events with
        | some rows => s.requestEvents ++ rows
        | none => s.requestEvents).map some = _
      rw [hrows, List.map_append, List.map_append, h.rows, toRows_eq_some hrows]

/-- **A step keeps the ledger**: it adds to what is stored, or, if it does not meet the condition, to what is
lost. -/
theorem Ledger.step {parse : List Char → Option (Json N)} {event : ConsumerEvent}
    (h : Ledger handled stored lost s) (hstep : s.step parse event = some s') :
    ∃ stored' lost', Ledger (handled ++ (event.handled parse).toList) stored' (lost ++ lost') s' ∧
      (lost' = [] ↔ Stores s event) := by
  by_cases hevent : ∃ place inserted, event = .settled place inserted
  · obtain ⟨place, inserted, rfl⟩ := hevent
    obtain ⟨call, hcall, rfl⟩ := Option.map_eq_some_iff.mp hstep
    show ∃ stored' lost', Ledger (handled ++ []) stored' (lost ++ lost') (s.settle place call inserted) ∧ _
    rw [List.append_nil]
    rcases h.settle hcall inserted with ⟨rows, hrows, hinserted, hledger⟩ | ⟨hfails, hledger⟩
    · refine ⟨_, [], by rw [List.append_nil]; exact hledger, fun _ call' hcall' => ?_, fun _ => rfl⟩
      cases hcall.symm.trans hcall'
      exact ⟨hinserted, toRows_isSome.mp (by rw [hrows]; rfl)⟩
    · refine ⟨_, call.events, hledger, fun hempty => ?_, fun hstores => ?_⟩
      · exact absurd hempty (h.nonempty call (List.mem_of_getElem? hcall))
      · obtain ⟨hinserted, hnull⟩ := hstores call hcall
        rcases hfails with hrows | hinserted'
        · have hsome := toRows_isSome.mpr hnull
          rw [hrows] at hsome
          cases hsome
        · rw [hinserted] at hinserted'
          cases hinserted'
  · have hother : ∀ place inserted, event ≠ .settled place inserted :=
      fun place inserted heq => hevent ⟨place, inserted, heq⟩
    refine ⟨stored, [], by rw [List.append_nil]; exact ledger_inductive.step h hother hstep, fun _ => ?_, fun _ => rfl⟩
    cases event with
    | settled place inserted => exact absurd rfl (hother place inserted)
    | _ => trivial

/-- What a run has lost. -/
theorem ledger_run {parse : List Char → Option (Json N)} {es : List ConsumerEvent}
    (hrun : run (Consumer.step parse) .initial es = some s) :
    ∃ stored lost, Ledger (handledEvents parse es) stored lost s ∧
      (lost = [] ↔ Throughout (Consumer.step parse) Stores .initial es) := by
  refine run_induction (Consumer.step parse) .initial (fun es s => ∃ stored lost,
    Ledger (handledEvents parse es) stored lost s ∧
      (lost = [] ↔ Throughout (Consumer.step parse) Stores .initial es)) ?_ (fun es s e t hs hledger hst => ?_) es s hrun
  · exact ⟨[], [], ⟨rfl, List.Perm.refl _, fun call hcall => by cases hcall⟩, fun _ => trivial, fun _ => rfl⟩
  · obtain ⟨stored, lost, hledger, hlost⟩ := hledger
    obtain ⟨stored', lost', hledger', hstores⟩ := hledger.step hst
    refine ⟨stored', lost ++ lost', by rw [handledEvents_snoc]; exact hledger', ?_⟩
    rw [List.append_eq_nil_iff, hlost, hstores, throughout_snoc hs]

/-- **No event is lost exactly if every call that has ended has stored its rows.** -/
theorem events_conserved_iff (parse : List Char → Option (Json N)) (es : List ConsumerEvent) (s : Consumer N)
    (hrun : run (Consumer.step parse) .initial es = some s) :
    Conserved (handledEvents parse es) s ↔ Throughout (Consumer.step parse) Stores .initial es := by
  obtain ⟨stored, lost, hledger, hlost⟩ := ledger_run hrun
  rw [← hlost]
  constructor
  · intro ⟨stored', hrows, hperm⟩
    -- both account for all events, and the table has room for as many stored ones
    have hlength := (hledger.entries.trans hperm.symm).length_eq
    have hsame := congrArg List.length (hledger.rows.symm.trans hrows)
    rw [List.length_map, List.length_map] at hsame
    simp only [List.length_append, hsame] at hlength
    exact List.eq_nil_of_length_eq_zero (by omega)
  · intro hnone
    refine ⟨stored, hledger.rows, ?_⟩
    have hentries := hledger.entries
    rw [hnone, List.append_nil] at hentries
    exact hentries

end Loss

/-- One event, and an insert that succeeds. -/
theorem events_conserved_iff_one : ∃ s, run (Consumer.step twoDocuments) .initial
      [requestMessage 49, .tick, .settled 0 true] = some s ∧ Conserved [.num 1] s := by
  refine ⟨_, rfl, (events_conserved_iff twoDocuments [requestMessage 49, .tick, .settled 0 true] _ rfl).mpr ?_⟩
  refine ⟨trivial, fun s hs => ⟨trivial, fun t ht => ⟨fun call hcall => ?_, fun _ _ => trivial⟩⟩⟩
  cases hs
  cases ht
  cases hcall
  exact ⟨rfl, fun event hevent hnull => by cases (List.mem_singleton.mp hevent).symm.trans hnull⟩

/-- **One event, and an insert that fails: the event is nowhere.** -/
theorem failed_insert_loses : ∃ s, run (Consumer.step twoDocuments) .initial
      [requestMessage 49, .tick, .settled 0 false] = some s ∧
    handledEvents twoDocuments [requestMessage 49, .tick, .settled 0 false] = [.num 1] ∧
      ¬ Conserved [.num 1] s := by
  refine ⟨_, rfl, rfl, fun ⟨stored, hrows, hperm⟩ => ?_⟩
  have hempty : stored = [] := List.map_eq_nil_iff.mp hrows.symm
  rw [hempty] at hperm
  exact absurd hperm.length_eq (by decide)

end EdgeSphere.Analytics
