import EdgeSphere.Gateway.DeadLetters
import EdgeSphere.Gateway.RequestLog
import EdgeSphere.Library.History

/-!
# From a request to its row

The gateway, the topic `request.events`, the cdn-service and the analytics-service together: a response is sent, its
event is published and, if need be, sent again from a dead letter, the consumer is handed the messages one by one, in
any order, and inserts what it has collected.

* `Pipeline.step` — one event of any of them;
* `gateway_run` — the gateway's part of a run; `Books` — what has become of the messages;
* `deliveries_nodup` — an event is delivered once at most;
* `rows_of_requests` — **no request has two rows, none that is skipped has one, and a row says what its request was**;
* `every_request_counted` — **at rest, each request has its row** unless its event was given up.
-/

namespace EdgeSphere.EventPipeline

open EdgeSphere.Library
open EdgeSphere.Library.Buffer
open EdgeSphere.Library.Runs
open EdgeSphere.Analytics
open EdgeSphere.Gateway.RequestLog
open EdgeSphere.Gateway.DeadLetters

/-! ### The system -/

/-- `topic` holds the messages that the consumer has not been handed. -/
structure Pipeline where
  gateway : System
  topic : List (List Byte)
  consumer : Consumer NumberToken

def Pipeline.initial : Pipeline := ⟨.initial, [], .initial⟩

inductive PipelineEvent where
  /-- A response of the gateway has been sent. -/
  | finish (x : Exchange)
  /-- A call of the gateway executes its next command. -/
  | advance (place : ℕ) (turn : Turn)
  /-- A dead letter is handed to a handler. -/
  | receive (place : ℕ)
  /-- The cdn-service publishes its event, and the send succeeds or not. -/
  | serve (x : CdnExchange) (sent : Bool)
  /-- The message at this place is handed to the consumer. -/
  | deliver (place : ℕ)
  /-- Anything else the consumer does. -/
  | consume (e : ConsumerEvent)

/-- What is delivered to the topic of the events. -/
def messagesOf (turn : Turn) : Command → List (List Byte)
  | .send topic value => if topic = "request.events" && turn.error.isNone then [value] else []
  | _ => []

/-- Not a message of the topic. -/
def ownEvent : ConsumerEvent → Bool
  | .message topic _ => decide (topic ≠ "request.events")
  | _ => true

section System

variable (settings : LogSettings) (getTime : String → Option ℤ)

def Pipeline.step (s : Pipeline) : PipelineEvent → Option Pipeline
  | .finish x => match published settings x with
    | none => some s
    | some data => (s.gateway.step settings.toISOString getTime (.publish data)).map fun gateway => { s with gateway }
  | .advance place turn =>
    (s.gateway.step settings.toISOString getTime (.advance place turn)).map fun gateway => { s with
      gateway
      topic := s.topic ++ ((s.gateway.tasks[place]?.bind fun t => t.2.next).map (messagesOf turn)).getD [] }
  | .receive place =>
    (s.gateway.step settings.toISOString getTime (.receive place)).map fun gateway => { s with gateway }
  | .serve x sent =>
    some { s with topic := s.topic ++ if sent then [eventBytes (x.event settings)] else [] }
  | .deliver place => s.topic[place]?.bind fun bytes =>
    (s.consumer.step Json.parse (.message "request.events" (some bytes))).map fun consumer => { s with
      topic := s.topic.eraseIdx place
      consumer }
  | .consume e =>
    if ownEvent e then (s.consumer.step Json.parse e).map fun consumer => { s with consumer } else none

/-! ### The gateway's part -/

/-- The requests that are not skipped. -/
def logged (es : List PipelineEvent) : List Exchange :=
  es.filterMap fun
    | .finish x => if shouldSkip x.originalUrl then none else some x
    | _ => none

/-- The requests whose event the cdn-service has sent. -/
def served (es : List PipelineEvent) : List CdnExchange :=
  es.filterMap fun
    | .serve x true => some x
    | _ => none

/-- What a step is for the gateway. -/
def PipelineEvent.gateway : PipelineEvent → Option SystemEvent
  | .finish x => (published settings x).map .publish
  | .advance place turn => some (.advance place turn)
  | .receive place => some (.receive place)
  | _ => none

def gatewayEvents (es : List PipelineEvent) : List SystemEvent := es.filterMap (PipelineEvent.gateway settings)

variable {settings getTime}

/-- **A step of the pipeline** is one of the gateway, or leaves it alone. -/
theorem gateway_step {s s' : Pipeline} {e : PipelineEvent} (hstep : s.step settings getTime e = some s') :
    run (System.step settings.toISOString getTime) s.gateway (e.gateway settings).toList = some s'.gateway := by
  cases e with
  | finish x =>
    simp only [Pipeline.step, PipelineEvent.gateway] at hstep ⊢
    cases hpublished : published settings x with
    | none =>
      rw [hpublished] at hstep
      cases hstep
      rfl
    | some data =>
      rw [hpublished] at hstep
      obtain ⟨gateway, hgateway, rfl⟩ := Option.map_eq_some_iff.mp hstep
      exact (run_singleton _ _ _).trans hgateway
  | advance place turn =>
    obtain ⟨gateway, hgateway, rfl⟩ := Option.map_eq_some_iff.mp hstep
    exact (run_singleton _ _ _).trans hgateway
  | receive place =>
    obtain ⟨gateway, hgateway, rfl⟩ := Option.map_eq_some_iff.mp hstep
    exact (run_singleton _ _ _).trans hgateway
  | serve x sent =>
    cases hstep
    rfl
  | deliver place =>
    obtain ⟨bytes, -, hstep⟩ := Option.bind_eq_some_iff.mp hstep
    obtain ⟨consumer, -, rfl⟩ := Option.map_eq_some_iff.mp hstep
    rfl
  | consume e =>
    simp only [Pipeline.step] at hstep
    split at hstep
    · obtain ⟨consumer, -, rfl⟩ := Option.map_eq_some_iff.mp hstep
      rfl
    · cases hstep

variable {es : List PipelineEvent} {s : Pipeline}

/-- **The gateway's part of a run is a run of the gateway.** -/
theorem gateway_run (hrun : run (Pipeline.step settings getTime) .initial es = some s) :
    run (System.step settings.toISOString getTime) .initial (gatewayEvents settings es) = some s.gateway := by
  refine run_induction (Pipeline.step settings getTime) .initial (fun es s =>
    run (System.step settings.toISOString getTime) .initial (gatewayEvents settings es) = some s.gateway) rfl
    (fun es s e t _ hs hst => ?_) es s hrun
  have hsnoc : gatewayEvents settings (es ++ [e]) = gatewayEvents settings es ++ (e.gateway settings).toList := by
    unfold gatewayEvents
    rw [List.filterMap_append]
    cases he : e.gateway settings with
    | none => rw [List.filterMap_cons_none he]; rfl
    | some event => rw [List.filterMap_cons_some he]; rfl
  rw [hsnoc, run_append, hs]
  exact gateway_step hst

/-- The events of the gateway are those of the requests that are not skipped. -/
theorem events_logged (hrun : run (Pipeline.step settings getTime) .initial es = some s) :
    s.gateway.events = (logged es).map (Exchange.event settings) := by
  rw [events_run (gateway_run hrun)]
  unfold passed gatewayEvents logged
  rw [List.filterMap_filterMap, List.map_filterMap]
  refine List.filterMap_congr fun e _ => ?_
  cases e with
  | finish x =>
    simp only [PipelineEvent.gateway, published]
    split <;> rfl
  | _ => rfl

end System

/-! ### Deliveries -/

/-- The value that a send delivers to the topic of the events. -/
def messageOf (e : Entry) : Option (List Byte) :=
  match e.command with
  | .send _ value => if e.delivers then some value else none
  | _ => none

def messagesIn (s : System) : List (List Byte) := s.log.filterMap fun x => messageOf x.2

/-- The event of each delivery. -/
def deliveries (s : System) : List ℕ := s.log.filterMap fun x => if x.2.delivers then some x.1 else none

/-- The event was given up. -/
def gaveUp (s : System) (i : ℕ) : Bool := (s.journey i).log.any Entry.isPermanentFailure

section Deliveries

variable {toISOString : ℤ → String} {getTime : String → Option ℤ} {es : List SystemEvent} {s : System}

/-- What is delivered to the topic of the events is the value of a send. -/
theorem messageOf_delivers {e : Entry} (h : e.delivers = true) :
    ∃ value, e.command = .send "request.events" value ∧ messageOf e = some value := by
  have hevent : e.isEvent = true := (Bool.and_eq_true_iff.mp h).1
  unfold messageOf
  unfold Entry.isEvent at hevent
  split at hevent
  · rename_i topic value hcommand
    rw [of_decide_eq_true hevent] at hcommand
    rw [hcommand]
    exact ⟨value, rfl, if_pos h⟩
  · cases hevent

theorem messageOf_eq_none {e : Entry} (h : ¬ e.delivers = true) : messageOf e = none := by
  unfold messageOf
  split
  · rw [if_neg h]
  · rfl

theorem fate_account {data : EventData} {refused : Bool} {j : Journey} (h : Fate data refused j) :
    ∃ resends failed givenUp delivered, Account data resends failed givenUp delivered j.log ∧ delivered ≤ 1 := by
  cases h with
  | carried hplace hlive hothers hdlq hbooks => exact ⟨_, _, _, _, hbooks, Nat.zero_le 1⟩
  | waiting hk hletter hspent hdlq hbooks => exact ⟨_, _, _, _, hbooks, Nat.zero_le 1⟩
  | delivered hk hspent hdlq hbooks => exact ⟨_, _, _, _, hbooks, Nat.le_refl 1⟩
  | givenUp hspent hdlq hbooks => exact ⟨_, _, _, _, hbooks, Nat.zero_le 1⟩
  | lost hk hspent hdlq hbooks => exact ⟨_, _, _, _, hbooks, Nat.zero_le 1⟩

/-- The entries of an event, if it has been passed. -/
theorem log_cases (hrun : run (System.step toISOString getTime) .initial es = some s) (i : ℕ) :
    (s.events[i]? = none ∧ (s.journey i).log = []) ∨ ∃ data, s.events[i]? = some data ∧
      ∃ resends failed givenUp delivered, Account data resends failed givenUp delivered (s.journey i).log ∧
        delivered ≤ 1 := by
  cases hevent : s.events[i]? with
  | none =>
    have hknown := known_run hrun i
    unfold Known at hknown
    rw [hevent] at hknown
    exact .inl ⟨rfl, congrArg Journey.log hknown.1⟩
  | some data =>
    obtain ⟨refused, hfate, -⟩ := fate_run hrun hevent
    exact .inr ⟨data, rfl, fate_account hfate⟩

/-- **A delivery is about an event that was passed**, and delivers its text. -/
theorem delivered_event (hrun : run (System.step toISOString getTime) .initial es = some s) {i : ℕ} {e : Entry}
    (hmem : (i, e) ∈ s.log) (hdelivers : e.delivers = true) :
    ∃ data, s.events[i]? = some data ∧ messageOf e = some (eventBytes data) := by
  have hlog : e ∈ (s.journey i).log := mem_select.mpr hmem
  obtain ⟨value, hcommand, hmessage⟩ := messageOf_delivers hdelivers
  rcases log_cases hrun i with ⟨-, hempty⟩ | ⟨data, hdata, resends, failed, givenUp, delivered, hbooks, -⟩
  · rw [hempty] at hlog
    cases hlog
  · rcases hbooks.texts e hlog _ _ hcommand with hletter | ⟨-, htext⟩
    · exact absurd hletter (by decide)
    · exact ⟨data, hdata, by rw [hmessage, htext]⟩

/-- The messages are those of the events that were delivered. -/
theorem messagesIn_eq (hrun : run (System.step toISOString getTime) .initial es = some s) :
    messagesIn s = (deliveries s).filterMap fun i => s.events[i]?.map eventBytes := by
  unfold messagesIn deliveries
  rw [List.filterMap_filterMap]
  refine List.filterMap_congr fun x hx => ?_
  by_cases hdelivers : x.2.delivers = true
  · obtain ⟨data, hdata, hmessage⟩ := delivered_event hrun (i := x.1) (e := x.2) hx hdelivers
    rw [if_pos hdelivers, Option.bind_some, hdata, hmessage]
    rfl
  · rw [if_neg hdelivers, Option.bind_none, messageOf_eq_none hdelivers]

theorem count_deliveries (s : System) (i : ℕ) :
    (deliveries s).count i = (s.journey i).log.countP Entry.delivers := by
  unfold deliveries System.journey
  induction s.log with
  | nil => rfl
  | cons x log ih =>
    obtain ⟨j, e⟩ := x
    have hih : (log.filterMap fun x => if x.2.delivers then some x.1 else none).count i
        = (select i log).countP Entry.delivers := ih
    show ((((j, e) :: log).filterMap fun x => if x.2.delivers then some x.1 else none).count i)
      = (select i ((j, e) :: log)).countP Entry.delivers
    by_cases hj : j = i
    · rw [hj, select_cons_self, List.countP_cons, ← hih]
      cases hdelivers : e.delivers <;> simp [hdelivers]
    · rw [select_cons_of_ne hj, ← hih]
      cases hdelivers : e.delivers <;> simp [hdelivers, hj]

/-- **An event is delivered once at most.** -/
theorem deliveries_nodup (hrun : run (System.step toISOString getTime) .initial es = some s) :
    (deliveries s).Nodup := by
  refine List.nodup_iff_count_le_one.mpr fun i => ?_
  rw [count_deliveries]
  rcases log_cases hrun i with ⟨-, hempty⟩ | ⟨data, -, resends, failed, givenUp, delivered, hbooks, hone⟩
  · rw [hempty]
    exact Nat.zero_le 1
  · rw [hbooks.delivered]
    exact hone

theorem mem_deliveries {i : ℕ} : i ∈ deliveries s ↔ 0 < (s.journey i).log.countP Entry.delivers := by
  rw [← count_deliveries, List.count_pos_iff]

theorem deliveries_lt (hrun : run (System.step toISOString getTime) .initial es = some s) {i : ℕ}
    (hi : i ∈ deliveries s) : i < s.events.length := by
  rcases log_cases hrun i with ⟨-, hempty⟩ | ⟨data, hdata, -⟩
  · rw [mem_deliveries, hempty] at hi
    exact absurd hi (Nat.lt_irrefl 0)
  · exact (List.getElem?_eq_some_iff.mp hdata).1

/-- At rest, an event was delivered exactly if it was not given up. -/
theorem mem_deliveries_atRest (hrun : run (System.step toISOString getTime) .initial es = some s)
    (hdlq : Throughout (System.step toISOString getTime) (fun s e => s.refuses e = none) .initial es)
    (hrest : s.dlq = [] ∧ ∀ t ∈ s.tasks, t.2.next = none) {i : ℕ} (hi : i < s.events.length) :
    i ∈ deliveries s ↔ gaveUp s i = false := by
  obtain ⟨refused, hfate, hiff⟩ := fate_run hrun (List.getElem?_eq_getElem hi)
  have haccepted : Accepted toISOString getTime i es := hdlq.mono fun s e h heq => by
    rw [h] at heq
    cases heq
  cases hiff.mpr haccepted
  have hquiet : ∀ t ∈ (s.journey i).tasks, t.next = none := fun t ht => hrest.2 _ (mem_select.mp ht)
  have hempty : (s.journey i).dlq = [] := by
    show select i s.dlq = []
    rw [hrest.1, select_nil]
  rw [mem_deliveries, gaveUp, ← Bool.not_eq_true, List.any_eq_true, ← List.countP_pos_iff]
  cases hfate with
  | carried hplace hlive hothers hdlq hbooks =>
    obtain ⟨c, hc⟩ := hlive.next_isSome
    rw [hquiet _ (List.mem_of_getElem? hplace)] at hc
    cases hc
  | waiting hk hletter hspent hwaiting hbooks =>
    rw [hempty] at hwaiting
    cases hwaiting
  | delivered hk hspent hdlq hbooks =>
    rw [hbooks.delivered, hbooks.givenUp]
    exact iff_of_true Nat.one_pos (Nat.lt_irrefl 0)
  | givenUp hspent hdlq hbooks =>
    rw [hbooks.delivered, hbooks.givenUp]
    exact iff_of_false (Nat.lt_irrefl 0) fun h => h Nat.one_pos

/-- The messages that a step of the gateway adds to the topic. -/
def addedBy (s : System) : SystemEvent → List (List Byte)
  | .advance place turn => ((s.tasks[place]?.bind fun t => t.2.next).map (messagesOf turn)).getD []
  | _ => []

theorem messageOf_entries (origin : Origin) (turn : Turn) (c : Command) :
    (entriesOf origin turn c).filterMap messageOf = messagesOf turn c := by
  cases c with
  | send topic value =>
    by_cases htopic : topic = "request.events" <;> cases herror : turn.error <;>
      simp [entriesOf, messagesOf, messageOf, Entry.delivers, Entry.isEvent, htopic, herror]
  | _ => rfl

theorem messagesIn_step {s' : System} {e : SystemEvent} (hstep : s.step toISOString getTime e = some s') :
    messagesIn s' = messagesIn s ++ addedBy s e := by
  cases e with
  | publish data =>
    cases hstep
    exact (List.append_nil _).symm
  | advance place turn =>
    obtain ⟨⟨i, t⟩, ht, hstep⟩ := Option.bind_eq_some_iff.mp hstep
    obtain ⟨c, hc, rfl⟩ := Option.map_eq_some_iff.mp hstep
    have hadded : addedBy s (.advance place turn) = messagesOf turn c := by
      show ((s.tasks[place]?.bind fun t => t.2.next).map (messagesOf turn)).getD [] = _
      rw [ht, Option.bind_some, hc]
      rfl
    unfold messagesIn
    rw [hadded, List.filterMap_append, List.filterMap_map, ← messageOf_entries t.origin]
    rfl
  | receive place =>
    obtain ⟨x, -, rfl⟩ := Option.map_eq_some_iff.mp hstep
    exact (List.append_nil _).symm

end Deliveries

/-! ### The books -/

def readMessage (bytes : List Byte) : Option (Json NumberToken) := Json.parse (decodeUtf8 bytes)

/-- The messages that the cdn-service has sent. -/
def servedMessages (settings : LogSettings) (es : List PipelineEvent) : List (List Byte) :=
  (served es).map fun x => eventBytes (x.event settings)

/-- What has become of the messages: `taken` have been handed to the consumer. -/
structure Books (sent taken : List (List Byte)) (stored lost : List (Json NumberToken)) (s : Pipeline) : Prop where
  messages : (taken ++ s.topic).Perm (messagesIn s.gateway ++ sent)
  ledger : Ledger (taken.filterMap readMessage) stored lost s.consumer

/-- **The condition on a step.**  No dead letter is refused, and no INSERT fails. -/
def Smooth (s : Pipeline) : PipelineEvent → Prop
  | .advance place turn => s.gateway.refuses (.advance place turn) = none
  | .consume (.settled _ inserted) => inserted = true
  | _ => True

instance decidableSmooth (s : Pipeline) : (e : PipelineEvent) → Decidable (Smooth s e)
  | .finish _ => inferInstanceAs (Decidable True)
  | .advance place turn => inferInstanceAs (Decidable (s.gateway.refuses (.advance place turn) = none))
  | .receive _ => inferInstanceAs (Decidable True)
  | .serve _ _ => inferInstanceAs (Decidable True)
  | .deliver _ => inferInstanceAs (Decidable True)
  | .consume (.message _ _) => inferInstanceAs (Decidable True)
  | .consume .tick => inferInstanceAs (Decidable True)
  | .consume .onModuleDestroy => inferInstanceAs (Decidable True)
  | .consume (.settled _ inserted) => inferInstanceAs (Decidable (inserted = true))
  | .consume .disconnected => inferInstanceAs (Decidable True)

section Books

variable {settings : LogSettings} {getTime : String → Option ℤ} {sent taken : List (List Byte)}
  {stored lost : List (Json NumberToken)} {s s' : Pipeline}

/-- The gateway adds messages to the topic. -/
theorem Books.gateway (h : Books sent taken stored lost s) {gateway : System} {e : SystemEvent}
    (hstep : s.gateway.step settings.toISOString getTime e = some gateway) :
    Books sent taken stored lost { s with gateway, topic := s.topic ++ addedBy s.gateway e } where
  messages := by
    show (taken ++ (s.topic ++ addedBy s.gateway e)).Perm (messagesIn gateway ++ sent)
    rw [messagesIn_step hstep, ← List.append_assoc]
    refine (h.messages.append_right _).trans ?_
    rw [List.append_assoc, List.append_assoc]
    exact List.perm_append_comm.append_left _
  ledger := h.ledger

/-- The cdn-service adds a message to the topic. -/
theorem Books.serve (h : Books sent taken stored lost s) (more : List (List Byte)) :
    Books (sent ++ more) taken stored lost { s with topic := s.topic ++ more } where
  messages := by
    show (taken ++ (s.topic ++ more)).Perm (messagesIn s.gateway ++ (sent ++ more))
    rw [← List.append_assoc, ← List.append_assoc]
    exact h.messages.append_right more
  ledger := h.ledger

/-- What the consumer does on its own. -/
theorem Books.consume (h : Books sent taken stored lost s) {e : ConsumerEvent} {consumer : Consumer NumberToken}
    (hown : ownEvent e = true) (hstep : s.consumer.step Json.parse e = some consumer) :
    ∃ stored' lost', Books sent taken stored' (lost ++ lost') { s with consumer } ∧
      (lost' = [] ↔ Stores s.consumer e) := by
  obtain ⟨stored', lost', hledger, hlost⟩ := h.ledger.step hstep
  have hhandled : e.handled (Json.parse (N := NumberToken)) = none := by
    cases e with
    | message topic value => exact if_neg (of_decide_eq_true hown)
    | _ => rfl
  rw [hhandled, Option.toList_none, List.append_nil] at hledger
  exact ⟨stored', lost', ⟨h.messages, hledger⟩, hlost⟩

/-- A message is handed to the consumer. -/
theorem Books.deliver (h : Books sent taken stored lost s) {place : ℕ} {bytes : List Byte}
    (hplace : s.topic[place]? = some bytes) {consumer : Consumer NumberToken}
    (hstep : s.consumer.step Json.parse (.message "request.events" (some bytes)) = some consumer) :
    ∃ stored', Books sent (taken ++ [bytes]) stored' lost
      { s with topic := s.topic.eraseIdx place, consumer } := by
  obtain ⟨stored', lost', hledger, hlost⟩ := h.ledger.step hstep
  cases hlost.mpr trivial
  rw [List.append_nil] at hledger
  refine ⟨stored', ?_, ?_⟩
  · show (taken ++ [bytes] ++ s.topic.eraseIdx place).Perm (messagesIn s.gateway ++ sent)
    obtain ⟨hlt, hget⟩ := List.getElem?_eq_some_iff.mp hplace
    have hperm : s.topic.Perm ([bytes] ++ s.topic.eraseIdx place) := by
      rw [← hget]
      exact (List.getElem_cons_eraseIdx_perm hlt).symm
    rw [List.append_assoc]
    exact (hperm.symm.append_left taken).trans h.messages
  · rw [List.filterMap_append]
    exact hledger

end Books

/-! ### Runs -/

section Runs

variable {settings : LogSettings} {getTime : String → Option ℤ} {es : List PipelineEvent} {s : Pipeline}

theorem messages_objects (hrun : run (Pipeline.step settings getTime) .initial es = some s) {bytes : List Byte}
    (hbytes : bytes ∈ messagesIn s.gateway ++ servedMessages settings es) :
    ∃ data, readMessage bytes = some (.obj data) := by
  rcases List.mem_append.mp hbytes with hgateway | hserved
  · rw [messagesIn_eq (gateway_run hrun)] at hgateway
    obtain ⟨i, -, hi⟩ := List.mem_filterMap.mp hgateway
    obtain ⟨data, -, rfl⟩ := Option.map_eq_some_iff.mp hi
    exact ⟨data, parse_eventBytes data⟩
  · obtain ⟨x, -, rfl⟩ := List.mem_map.mp hserved
    exact ⟨x.event settings, parse_eventBytes _⟩

/-- The events of a call in progress are objects. -/
theorem stores_settled (hrun : run (Pipeline.step settings getTime) .initial es = some s) {taken : List (List Byte)}
    {stored lost : List (Json NumberToken)} (hbooks : Books (servedMessages settings es) taken stored lost s)
    (place : ℕ) : Stores s.consumer (.settled place true) := by
  intro call hcall
  refine ⟨rfl, fun event hevent hnull => ?_⟩
  have hprogress : event ∈ s.consumer.inProgress :=
    List.mem_flatten.mpr ⟨call.events, List.mem_map_of_mem (List.mem_of_getElem? hcall), hevent⟩
  have hhandled : event ∈ taken.filterMap readMessage := by
    refine hbooks.ledger.entries.subset ?_
    exact List.mem_append_left _ (List.mem_append_right _ hprogress)
  obtain ⟨bytes, hbytes, hread⟩ := List.mem_filterMap.mp hhandled
  have hsent := hbooks.messages.subset (List.mem_append_left _ hbytes)
  obtain ⟨data, hdata⟩ := messages_objects hrun hsent
  rw [hdata, hnull] at hread
  cases hread

theorem servedMessages_snoc (settings : LogSettings) (es : List PipelineEvent) (e : PipelineEvent) :
    servedMessages settings (es ++ [e]) = servedMessages settings es ++ servedMessages settings [e] := by
  unfold servedMessages served
  rw [List.filterMap_append, List.map_append]

/-- **The books of every run.** -/
theorem books_run (hrun : run (Pipeline.step settings getTime) .initial es = some s) :
    ∃ taken stored lost, Books (servedMessages settings es) taken stored lost s ∧
      (Throughout (Pipeline.step settings getTime) Smooth .initial es → lost = []) := by
  refine run_induction (Pipeline.step settings getTime) .initial (fun es s => ∃ taken stored lost,
    Books (servedMessages settings es) taken stored lost s ∧
      (Throughout (Pipeline.step settings getTime) Smooth .initial es → lost = [])) ?_
    (fun es s e s' hs hbooks hstep => ?_) es s hrun
  · exact ⟨[], [], [], ⟨.refl _, ⟨rfl, .refl _, fun call hcall => by cases hcall⟩⟩, fun _ => rfl⟩
  · obtain ⟨taken, stored, lost, hbooks, hlost⟩ := hbooks
    have hbefore : Throughout (Pipeline.step settings getTime) Smooth .initial (es ++ [e]) →
        lost = [] ∧ Smooth s e := fun h => ⟨hlost ((throughout_snoc hs).mp h).1, ((throughout_snoc hs).mp h).2⟩
    rw [servedMessages_snoc]
    cases e with
    | finish x =>
      have hnone : servedMessages settings [.finish x] = [] := rfl
      rw [hnone, List.append_nil]
      simp only [Pipeline.step] at hstep
      cases hpublished : published settings x with
      | none =>
        rw [hpublished] at hstep
        cases hstep
        exact ⟨taken, stored, lost, hbooks, fun h => (hbefore h).1⟩
      | some data =>
        rw [hpublished] at hstep
        obtain ⟨gateway, hgateway, rfl⟩ := Option.map_eq_some_iff.mp hstep
        have hadded : addedBy s.gateway (.publish data) = [] := rfl
        have hmore := hbooks.gateway hgateway
        rw [hadded, List.append_nil] at hmore
        exact ⟨taken, stored, lost, hmore, fun h => (hbefore h).1⟩
    | advance place turn =>
      have hnone : servedMessages settings [.advance place turn] = [] := rfl
      rw [hnone, List.append_nil]
      obtain ⟨gateway, hgateway, rfl⟩ := Option.map_eq_some_iff.mp hstep
      exact ⟨taken, stored, lost, hbooks.gateway hgateway, fun h => (hbefore h).1⟩
    | receive place =>
      have hnone : servedMessages settings [.receive place] = [] := rfl
      rw [hnone, List.append_nil]
      obtain ⟨gateway, hgateway, rfl⟩ := Option.map_eq_some_iff.mp hstep
      have hadded : addedBy s.gateway (.receive place) = [] := rfl
      have hmore := hbooks.gateway hgateway
      rw [hadded, List.append_nil] at hmore
      exact ⟨taken, stored, lost, hmore, fun h => (hbefore h).1⟩
    | serve x sent =>
      cases hstep
      refine ⟨taken, stored, lost, ?_, fun h => (hbefore h).1⟩
      cases sent with
      | false => exact hbooks.serve []
      | true => exact hbooks.serve [eventBytes (x.event settings)]
    | deliver place =>
      have hnone : servedMessages settings [.deliver place] = [] := rfl
      rw [hnone, List.append_nil]
      obtain ⟨bytes, hplace, hstep⟩ := Option.bind_eq_some_iff.mp hstep
      obtain ⟨consumer, hconsumer, rfl⟩ := Option.map_eq_some_iff.mp hstep
      obtain ⟨stored', hmore⟩ := hbooks.deliver hplace hconsumer
      exact ⟨_, stored', lost, hmore, fun h => (hbefore h).1⟩
    | consume e =>
      have hnone : servedMessages settings [.consume e] = [] := rfl
      rw [hnone, List.append_nil]
      simp only [Pipeline.step] at hstep
      split at hstep
      · rename_i hown
        obtain ⟨consumer, hconsumer, rfl⟩ := Option.map_eq_some_iff.mp hstep
        obtain ⟨stored', lost', hmore, hlost'⟩ := hbooks.consume hown hconsumer
        refine ⟨taken, stored', lost ++ lost', hmore, fun h => ?_⟩
        obtain ⟨hnothing, hsmooth⟩ := hbefore h
        rw [hnothing, List.nil_append]
        refine hlost'.mpr ?_
        cases e with
        | settled place inserted =>
          cases hsmooth
          exact stores_settled hs hbooks place
        | _ => trivial
      · cases hstep

/-! ### Rows -/

def rowOfMessage (bytes : List Byte) : Option (RequestEventRow NumberToken) := (readMessage bytes).bind toRow

/-- What a request is recorded as. -/
def requestRow (settings : LogSettings) (x : Exchange) : RequestEventRow NumberToken := (x.row settings).columns

def cdnRow (settings : LogSettings) (x : CdnExchange) : RequestEventRow NumberToken := (x.row settings).columns

theorem rowOfMessage_event (settings : LogSettings) (x : Exchange) :
    rowOfMessage (eventBytes (x.event settings)) = some (requestRow settings x) := by
  unfold rowOfMessage readMessage
  rw [parse_eventBytes]
  exact toRow_event settings x

theorem rowOfMessage_cdn_event (settings : LogSettings) (x : CdnExchange) :
    rowOfMessage (eventBytes (x.event settings)) = some (cdnRow settings x) := by
  unfold rowOfMessage readMessage
  rw [parse_eventBytes]
  exact toRow_cdn_event settings x

/-- The rows of the table are those of what is stored. -/
theorem rows_eq {handled stored lost : List (Json NumberToken)} {consumer : Consumer NumberToken}
    (h : Ledger handled stored lost consumer) : consumer.requestEvents = stored.filterMap toRow := by
  have hrows := congrArg (List.filterMap id) h.rows
  rw [List.filterMap_map, List.filterMap_map] at hrows
  exact (List.filterMap_some).symm.trans hrows

/-- The rows of the messages of the gateway are those of the requests that were delivered. -/
theorem gateway_rows (hrun : run (Pipeline.step settings getTime) .initial es = some s) :
    (messagesIn s.gateway).filterMap rowOfMessage
      = (deliveries s.gateway).filterMap fun i => (logged es)[i]?.map (requestRow settings) := by
  rw [messagesIn_eq (gateway_run hrun), List.filterMap_filterMap]
  refine List.filterMap_congr fun i _ => ?_
  rw [events_logged hrun, List.getElem?_map]
  cases (logged es)[i]? with
  | none => rfl
  | some x => exact rowOfMessage_event settings x

theorem served_rows (settings : LogSettings) (es : List PipelineEvent) :
    (servedMessages settings es).filterMap rowOfMessage = (served es).map (cdnRow settings) := by
  unfold servedMessages
  rw [List.filterMap_map, ← List.filterMap_eq_map]
  exact List.filterMap_congr fun x _ => rowOfMessage_cdn_event settings x

/-- A list by its places. -/
theorem filterMap_range {α β : Type*} (l : List α) (f : α → β) :
    ((List.range l.length).filterMap fun i => l[i]?.map f) = l.map f := by
  induction l with
  | nil => rfl
  | cons a l ih =>
    rw [List.length_cons, List.range_succ_eq_map]
    show f a :: (((List.range l.length).map Nat.succ).filterMap fun i => (a :: l)[i]?.map f) = f a :: l.map f
    rw [List.filterMap_map, ← ih]
    rfl

theorem subperm_filterMap {α β : Type*} (f : α → Option β) {l l' : List α} (h : l.Subperm l') :
    (l.filterMap f).Subperm (l'.filterMap f) := by
  obtain ⟨m, hperm, hsub⟩ := h
  exact ⟨m.filterMap f, hperm.filterMap f, hsub.filterMap f⟩

/-- **No request has two rows, a request that is skipped has none, and a row says what its request was.** -/
theorem rows_of_requests (settings : LogSettings) (getTime : String → Option ℤ) (es : List PipelineEvent)
    (s : Pipeline) (hrun : run (Pipeline.step settings getTime) .initial es = some s) :
    s.consumer.requestEvents.Subperm
      ((logged es).map (requestRow settings) ++ (served es).map (cdnRow settings)) := by
  obtain ⟨taken, stored, lost, hbooks, -⟩ := books_run hrun
  have hgateway := gateway_run hrun
  have hstored : stored.Subperm (taken.filterMap readMessage) := by
    refine List.Subperm.trans ?_ hbooks.ledger.entries.subperm
    rw [List.append_assoc, List.append_assoc]
    exact (List.sublist_append_left _ _).subperm
  have htaken : taken.Subperm (messagesIn s.gateway ++ servedMessages settings es) :=
    (List.sublist_append_left _ _).subperm.trans hbooks.messages.subperm
  have hdelivered : (deliveries s.gateway).Subperm (List.range (logged es).length) := by
    refine List.subperm_of_subset (deliveries_nodup hgateway) fun i hi => List.mem_range.mpr ?_
    have hlt := deliveries_lt hgateway hi
    rwa [events_logged hrun, List.length_map] at hlt
  have hall := subperm_filterMap rowOfMessage htaken
  rw [List.filterMap_append, gateway_rows hrun, served_rows] at hall
  rw [rows_eq hbooks.ledger]
  refine (subperm_filterMap toRow hstored).trans ?_
  rw [List.filterMap_filterMap]
  refine hall.trans (List.Subperm.append ?_ (List.Subperm.refl _))
  rw [← filterMap_range (logged es) (requestRow settings)]
  exact subperm_filterMap _ hdelivered

end Runs

def sampleSettings : LogSettings := ⟨none, epochText, fun _ => show "1970-01-01T00:00:00.000Z" ≠ "" by decide⟩

/-- `GET` of a path, which is answered. -/
def sampleExchange (originalUrl : String) : Exchange where
  method := "GET"
  originalUrl
  ip := some "10.0.0.1"
  startTime := 0
  sub := none
  statusCode := 200
  headers := .empty
  endTime := 12
  time := 12

/-- A request and a poll of the dashboard; the message of the request is handed on, collected and inserted. -/
def recorded : List PipelineEvent :=
  [.finish (sampleExchange "/v1/storage/buckets"), .finish (sampleExchange "/v1/analytics/summary"),
    .advance 0 succeeds, .deliver 0, .consume .tick, .consume (.settled 0 true)]

/-- **The poll has no row.** -/
theorem rows_of_requests_one : ∃ s, run (Pipeline.step sampleSettings epochTime) .initial recorded = some s ∧
    s.consumer.requestEvents.Subperm [requestRow sampleSettings (sampleExchange "/v1/storage/buckets")] := by
  obtain ⟨s, hs⟩ : ∃ s, run (Pipeline.step sampleSettings epochTime) .initial recorded = some s :=
    Option.isSome_iff_exists.mp (by decide +kernel)
  exact ⟨s, hs, rows_of_requests sampleSettings epochTime recorded s hs⟩

section Runs

variable {settings : LogSettings} {getTime : String → Option ℤ} {es : List PipelineEvent} {s : Pipeline}

/-- The requests whose event was not given up. -/
def keptRequests (gateway : System) (requests : List Exchange) : List Exchange :=
  (List.range requests.length).filterMap fun i => if gaveUp gateway i then none else requests[i]?

/-- Every call of the gateway has ended, every letter and every message has been handled, and the consumer has
nothing left. -/
structure Pipeline.AtRest (s : Pipeline) : Prop where
  calls : ∀ t ∈ s.gateway.tasks, t.2.next = none
  letters : s.gateway.dlq = []
  topic : s.topic = []
  batch : s.consumer.batch = []
  ingesting : s.consumer.ingesting = []

/-- No letter of the gateway is refused in a run without failures. -/
theorem gateway_throughout (hrun : run (Pipeline.step settings getTime) .initial es = some s)
    (hsmooth : Throughout (Pipeline.step settings getTime) Smooth .initial es) :
    Throughout (System.step settings.toISOString getTime) (fun s e => s.refuses e = none) .initial
      (gatewayEvents settings es) := by
  revert hsmooth
  refine run_induction (Pipeline.step settings getTime) .initial (fun es _ =>
    Throughout (Pipeline.step settings getTime) Smooth .initial es →
      Throughout (System.step settings.toISOString getTime) (fun s e => s.refuses e = none) .initial
        (gatewayEvents settings es)) (fun _ => trivial) (fun es s e s' hs ih hstep hsmooth => ?_) es s hrun
  obtain ⟨hbefore, hlast⟩ := (throughout_snoc hs).mp hsmooth
  have hgateway := gateway_run hs
  unfold gatewayEvents at hgateway ih ⊢
  rw [List.filterMap_append]
  cases he : e.gateway settings with
  | none =>
    rw [List.filterMap_cons_none he, List.filterMap_nil, List.append_nil]
    exact ih hbefore
  | some event =>
    rw [List.filterMap_cons_some he, List.filterMap_nil]
    refine (throughout_snoc hgateway).mpr ⟨ih hbefore, ?_⟩
    cases e with
    | finish x =>
      obtain ⟨data, -, rfl⟩ := Option.map_eq_some_iff.mp he
      rfl
    | advance place turn =>
      cases he
      exact hlast
    | receive place =>
      cases he
      rfl
    | serve x sent => cases he
    | deliver place => cases he
    | consume e => cases he

/-- At rest, what was delivered is what was not given up. -/
theorem deliveries_perm (hrun : run (Pipeline.step settings getTime) .initial es = some s)
    (hsmooth : Throughout (Pipeline.step settings getTime) Smooth .initial es) (hrest : s.AtRest) :
    (deliveries s.gateway).Perm ((List.range (logged es).length).filter fun i => !gaveUp s.gateway i) := by
  have hgateway := gateway_run hrun
  have hlength : s.gateway.events.length = (logged es).length := by
    rw [events_logged hrun, List.length_map]
  refine (List.perm_ext_iff_of_nodup (deliveries_nodup hgateway) (List.nodup_range.filter _)).mpr fun i => ?_
  rw [List.mem_filter, List.mem_range, ← hlength, Bool.not_eq_true']
  constructor
  · intro hi
    have hlt := deliveries_lt hgateway hi
    exact ⟨hlt, (mem_deliveries_atRest hgateway (gateway_throughout hrun hsmooth) ⟨hrest.letters, hrest.calls⟩
      hlt).mp hi⟩
  · intro ⟨hlt, hkept⟩
    exact (mem_deliveries_atRest hgateway (gateway_throughout hrun hsmooth) ⟨hrest.letters, hrest.calls⟩ hlt).mpr hkept

/-- **At rest, after a run without failures but those of the sends of events**, the table has the row of each request
that is not skipped and whose event was not given up, and one for each event of the cdn-service. -/
theorem every_request_counted (settings : LogSettings) (getTime : String → Option ℤ) (es : List PipelineEvent)
    (s : Pipeline) (hrun : run (Pipeline.step settings getTime) .initial es = some s)
    (hsmooth : Throughout (Pipeline.step settings getTime) Smooth .initial es) (hrest : s.AtRest) :
    s.consumer.requestEvents.Perm
      ((keptRequests s.gateway (logged es)).map (requestRow settings) ++ (served es).map (cdnRow settings)) := by
  obtain ⟨taken, stored, lost, hbooks, hlost⟩ := books_run hrun
  have hinProgress : s.consumer.inProgress = [] := by
    unfold Consumer.inProgress
    rw [hrest.ingesting]
    rfl
  have hstored : stored.Perm (taken.filterMap readMessage) := by
    have hentries := hbooks.ledger.entries
    rwa [hlost hsmooth, hinProgress, hrest.batch, List.append_nil, List.append_nil, List.append_nil] at hentries
  have htaken : taken.Perm (messagesIn s.gateway ++ servedMessages settings es) := by
    have hmessages := hbooks.messages
    rwa [hrest.topic, List.append_nil] at hmessages
  have hall := htaken.filterMap rowOfMessage
  rw [List.filterMap_append, gateway_rows hrun, served_rows] at hall
  rw [rows_eq hbooks.ledger]
  refine (hstored.filterMap toRow).trans ?_
  rw [List.filterMap_filterMap]
  refine hall.trans (List.Perm.append_right _ ?_)
  refine ((deliveries_perm hrun hsmooth hrest).filterMap _).trans (List.Perm.of_eq ?_)
  unfold keptRequests
  rw [List.filterMap_filter, List.map_filterMap]
  refine List.filterMap_congr fun i _ => ?_
  cases gaveUp s.gateway i <;> rfl

end Runs

/-- The first send fails, the letter is handled, the second send succeeds, and its message is inserted. -/
def recordedLate : List PipelineEvent :=
  [.finish (sampleExchange "/v1/storage/buckets"), .advance 0 fails, .advance 0 succeeds, .advance 0 succeeds,
    .advance 0 succeeds, .receive 0, .advance 1 succeeds, .advance 1 succeeds, .advance 1 succeeds,
    .advance 1 succeeds, .deliver 0, .consume .tick, .consume (.settled 0 true)]

/-- **A request whose first send failed has its row.** -/
theorem every_request_counted_late :
    ∃ s, run (Pipeline.step sampleSettings epochTime) .initial recordedLate = some s ∧
      s.consumer.requestEvents.Perm [requestRow sampleSettings (sampleExchange "/v1/storage/buckets")] := by
  obtain ⟨s, hs, hseen⟩ := Option.map_eq_some_iff.mp (show
    (run (Pipeline.step sampleSettings epochTime) .initial recordedLate).map (fun s =>
      (decide (∀ t ∈ s.gateway.tasks, t.2.next = none), s.gateway.dlq.isEmpty, s.topic.isEmpty,
        s.consumer.batch.isEmpty, s.consumer.ingesting.isEmpty, gaveUp s.gateway 0))
      = some (true, true, true, true, true, false) by decide +kernel)
  simp only [Prod.mk.injEq, decide_eq_true_eq, List.isEmpty_iff] at hseen
  obtain ⟨hcalls, hletters, htopic, hbatch, hingesting, hkept⟩ := hseen
  have hperm := every_request_counted sampleSettings epochTime recordedLate s hs (by decide +kernel)
    ⟨hcalls, hletters, htopic, hbatch, hingesting⟩
  have hrequests : keptRequests s.gateway (logged recordedLate) = [sampleExchange "/v1/storage/buckets"] := by
    show (List.range 1).filterMap _ = _
    simp only [List.range_one, List.filterMap_cons, hkept]
    rfl
  rw [hrequests] at hperm
  exact ⟨s, hs, hperm⟩

end EdgeSphere.EventPipeline
