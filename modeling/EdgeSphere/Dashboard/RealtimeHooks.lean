import EdgeSphere.Library.Newest
import EdgeSphere.Realtime.EventsGateway

/-!
# The hooks of the dashboard that listen

`lib/websocket.ts` holds one socket for a page, and the hooks `useRealtimeAlerts`, `useRealtimeEvents` and
`useRealtimeMetrics` subscribe and listen on it.  While the socket is not connected, what is emitted waits in its buffer;
`socket.off(event)` takes every listener of the event away.

* `Tab.step` — one event of a page; `hears` — what a hook does with a message;
* `listens_iff` — a hook listens until any hook of its kind unmounts;
* `shown_eq` — **a hook shows what has been received since it mounted, until a hook of its kind unmounts**, the newest
  first and as many as it is for.
-/

namespace EdgeSphere.Dashboard

open EdgeSphere.Library
open EdgeSphere.Library.Runs
open EdgeSphere.Realtime

/-! ### Hooks -/

/-- The hooks, each for one room. -/
inductive Kind where
  | alerts
  | events
  | metrics
  deriving DecidableEq, Repr

def Kind.room : Kind → Room
  | alerts => .alerts
  | events => .events
  | metrics => .metrics

/-- What a listener waits for: two events of the socket itself, and the messages of a room. -/
inductive SocketEvent where
  | connect
  | disconnect
  | message (kind : Kind)
  deriving DecidableEq, Repr

/-- What the cleanup of a hook takes the listeners of. -/
def Kind.offs : Kind → List SocketEvent
  | metrics => [.message .metrics, .connect, .disconnect]
  | kind => [.message kind]

/-- The state of a mounted hook. -/
inductive HookState where
  | alerts (alerts : List (Json JsonNumber))
  | events (maxEvents : ℕ) (events : List (Json JsonNumber))
  | metrics (metrics : Option RealtimeMetrics) (connected : Bool)

/-- The hook and its argument. -/
inductive Hook where
  | useRealtimeAlerts
  | useRealtimeEvents (maxEvents : ℕ)
  | useRealtimeMetrics

def Hook.kind : Hook → Kind
  | useRealtimeAlerts => .alerts
  | useRealtimeEvents _ => .events
  | useRealtimeMetrics => .metrics

namespace HookState

def kind : HookState → Kind
  | alerts _ => .alerts
  | events .. => .events
  | metrics .. => .metrics

/-- The hook whose state it is. -/
def hook : HookState → Hook
  | alerts _ => .useRealtimeAlerts
  | events maxEvents _ => .useRealtimeEvents maxEvents
  | metrics .. => .useRealtimeMetrics

/-- After the first effect; `connected` is `socket.connected`. -/
def initial (connected : Bool) : Hook → HookState
  | .useRealtimeAlerts => alerts []
  | .useRealtimeEvents maxEvents => events maxEvents []
  | .useRealtimeMetrics => metrics none connected

/-- The callbacks of the room's messages. -/
def hears {κ : Type*} : Message κ → HookState → HookState
  | .alertTriggered alert, alerts prev => alerts (remember 50 prev alert)
  | .requestEvent event, events maxEvents prev => events maxEvents (remember maxEvents prev event)
  | .metricsUpdate data, metrics _ connected => metrics (some data) connected
  | _, state => state

/-- `setConnected`. -/
def setConnected (connected : Bool) : HookState → HookState
  | metrics data _ => metrics data connected
  | state => state

/-- What a hook shows of the messages of its room. -/
def shown : HookState → List (Json JsonNumber) ⊕ Option RealtimeMetrics
  | alerts l | events _ l => .inl l
  | metrics data _ => .inr data

end HookState

/-- The hooks that have a callback for a message. -/
def kindOf {κ : Type*} : Message κ → Option Kind
  | .alertTriggered _ => some .alerts
  | .requestEvent _ => some .events
  | .metricsUpdate _ => some .metrics
  | _ => none

/-! ### A page -/

/-- What `subscribeToRoom` and `unsubscribeFromRoom` emit. -/
inductive Packet where
  | subscribe (room : Room)
  | unsubscribe (room : Room)
  deriving DecidableEq, Repr

/-- A page with its socket; a listener is known by its event and its hook. -/
structure Tab (ι : Type*) where
  mounted : ι → Option HookState
  listeners : List (SocketEvent × ι)
  connected : Bool
  sendBuffer : List Packet
  /-- What is on its way to the server. -/
  sent : List Packet

variable {ι κ : Type*}

/-- What happens on a page. -/
inductive TabEvent (ι κ : Type*) where
  | mount (i : ι) (hook : Hook)
  | unmount (i : ι) (kind : Kind)
  | connect
  | disconnect
  | received (message : Message κ)

namespace Tab

def start : Tab ι := ⟨fun _ => none, [], false, [], []⟩

/-- `socket.emit`. -/
def emit (page : Tab ι) (packet : Packet) : Tab ι :=
  if page.connected then { page with sent := page.sent ++ [packet] }
  else { page with sendBuffer := page.sendBuffer ++ [packet] }

/-- `socket.on`. -/
def on (page : Tab ι) (event : SocketEvent) (i : ι) : Tab ι :=
  { page with listeners := page.listeners ++ [(event, i)] }

/-- `socket.off`. -/
def off (page : Tab ι) (event : SocketEvent) : Tab ι :=
  { page with listeners := page.listeners.filter fun l => l.1 ≠ event }

variable {page page' : Tab ι} {i j : ι} {hook : Hook} {kind : Kind} {event : SocketEvent}

@[simp] theorem listeners_emit (packet : Packet) : (page.emit packet).listeners = page.listeners := by
  unfold emit
  split <;> rfl

@[simp] theorem mounted_emit (packet : Packet) : (page.emit packet).mounted = page.mounted := by
  unfold emit
  split <;> rfl

@[simp] theorem connected_emit (packet : Packet) : (page.emit packet).connected = page.connected := by
  unfold emit
  split <;> rfl

theorem foldl_off (events : List SocketEvent) : (events.foldl off page).mounted = page.mounted ∧
    (events.foldl off page).connected = page.connected ∧
    ∀ l, l ∈ (events.foldl off page).listeners ↔ l ∈ page.listeners ∧ l.1 ∉ events := by
  induction events generalizing page with
  | nil => exact ⟨rfl, rfl, fun l => by simp⟩
  | cons event events ih =>
    obtain ⟨hmounted, hconnected, hlisteners⟩ := @ih (page.off event)
    refine ⟨hmounted, hconnected, fun l => ?_⟩
    rw [List.foldl_cons, hlisteners, List.mem_cons, not_or, ← and_assoc]
    simp [off]

variable [DecidableEq ι]

/-- A callback of each listener of the event. -/
def call (page : Tab ι) (event : SocketEvent) (callback : HookState → HookState) : Tab ι :=
  { page with mounted := fun i => if (event, i) ∈ page.listeners then (page.mounted i).map callback else page.mounted i }

/-- The effect of a hook. -/
def mount (page : Tab ι) (i : ι) (hook : Hook) : Tab ι :=
  let page := page.emit (.subscribe hook.kind.room)
  let page := match hook.kind with
    | .metrics => ((page.on .connect i).on .disconnect i).on (.message .metrics) i
    | kind => page.on (.message kind) i
  { page with mounted := Function.update page.mounted i (some (.initial page.connected hook)) }

/-- The cleanup of a hook. -/
def unmount (page : Tab ι) (i : ι) (kind : Kind) : Tab ι :=
  let page := (kind.offs.foldl off page).emit (.unsubscribe kind.room)
  { page with mounted := Function.update page.mounted i none }

/-- The buffer is sent before the listeners are called. -/
def connect (page : Tab ι) : Tab ι :=
  call { page with connected := true, sent := page.sendBuffer, sendBuffer := [] } .connect (.setConnected true)

def disconnect (page : Tab ι) : Tab ι :=
  call { page with connected := false, sent := [] } .disconnect (.setConnected false)

def receive (page : Tab ι) (message : Message κ) : Tab ι :=
  match kindOf message with
  | some kind => page.call (.message kind) (.hears message)
  | none => page

/-- One event of a page. -/
def step (page : Tab ι) : TabEvent ι κ → Option (Tab ι)
  | .mount i hook => if (page.mounted i).isNone then some (page.mount i hook) else none
  | .unmount i kind => if (page.mounted i).map HookState.kind = some kind then some (page.unmount i kind) else none
  | .connect => if page.connected then none else some page.connect
  | .disconnect => if page.connected then some page.disconnect else none
  | .received message => if page.connected then some (page.receive message) else none

/-! ### What an event does to hooks and listeners -/

theorem mounted_call {callback : HookState → HookState} : (page.call event callback).mounted i
    = if (event, i) ∈ page.listeners then (page.mounted i).map callback else page.mounted i := rfl

theorem mem_listeners_mount {l : SocketEvent × ι} :
    l ∈ (page.mount i hook).listeners ↔ l ∈ page.listeners ∨ l.1 ∈ hook.kind.offs ∧ l.2 = i := by
  obtain ⟨event, j⟩ := l
  cases hook <;> simp [mount, on, Hook.kind, Kind.offs, or_and_right, or_assoc, or_comm, or_left_comm]

theorem mem_listeners_unmount {l : SocketEvent × ι} :
    l ∈ (page.unmount i kind).listeners ↔ l ∈ page.listeners ∧ l.1 ∉ kind.offs := by
  unfold unmount
  simp only [listeners_emit]
  exact (foldl_off kind.offs).2.2 l

theorem mounted_mount : (page.mount i hook).mounted j
    = if j = i then some (.initial page.connected hook) else page.mounted j := by
  cases hook <;> simp [mount, on, Hook.kind, Function.update_apply]

@[simp] theorem connected_mount : (page.mount i hook).connected = page.connected := by
  cases hook <;> exact connected_emit _

@[simp] theorem connected_unmount : (page.unmount i kind).connected = page.connected := by
  unfold unmount
  simp only [connected_emit]
  exact (foldl_off kind.offs).2.1

theorem mounted_unmount : (page.unmount i kind).mounted j = if j = i then none else page.mounted j := by
  unfold unmount
  simp only [mounted_emit]
  rw [(foldl_off kind.offs).1, Function.update_apply]

end Tab

/-! ### What a hook hears -/

namespace TabEvent

/-- A hook of this kind unmounts. -/
def unmounts (kind : Kind) : TabEvent ι κ → Bool
  | .unmount _ k => decide (k = kind)
  | _ => false

def message : TabEvent ι κ → Option (Message κ)
  | .received message => some message
  | _ => none

end TabEvent

def alertOf : Message κ → Option (Json JsonNumber)
  | .alertTriggered alert => some alert
  | _ => none

def requestEventOf : Message κ → Option (Json JsonNumber)
  | .requestEvent event => some event
  | _ => none

def metricsUpdateOf : Message κ → Option RealtimeMetrics
  | .metricsUpdate metrics => some metrics
  | _ => none

/-- What a hook shows after some messages: the newest alerts or events, or the last metrics. -/
def Hook.shows (hook : Hook) (messages : List (Message κ)) : List (Json JsonNumber) ⊕ Option RealtimeMetrics :=
  match hook with
  | useRealtimeAlerts => .inl (newest 50 alertOf messages)
  | useRealtimeEvents maxEvents => .inl (newest maxEvents requestEventOf messages)
  | useRealtimeMetrics => .inr (newest 1 metricsUpdateOf messages).head?

section Messages

variable {message : Message κ} {messages : List (Message κ)} {st : HookState} {hook : Hook}

theorem HookState.hook_hears : (st.hears message).hook = st.hook := by
  cases st <;> cases message <;> rfl

/-- A message of another room is nothing to a hook. -/
theorem HookState.hears_eq_self (h : kindOf message ≠ some st.hook.kind) : st.hears message = st := by
  cases st <;> cases message <;> first | rfl | exact absurd rfl h

/-- A message of another room shows nothing. -/
theorem Hook.shows_snoc_of_ne (h : kindOf message ≠ some hook.kind) :
    hook.shows (messages ++ [message]) = hook.shows messages := by
  cases hook with
  | useRealtimeAlerts =>
    refine congrArg Sum.inl (newest_snoc_none ?_)
    cases message <;> first | rfl | exact absurd rfl h
  | useRealtimeEvents n =>
    refine congrArg Sum.inl (newest_snoc_none ?_)
    cases message <;> first | rfl | exact absurd rfl h
  | useRealtimeMetrics =>
    refine congrArg (fun l : List RealtimeMetrics => Sum.inr l.head?) (newest_snoc_none ?_)
    cases message <;> first | rfl | exact absurd rfl h

/-- **One message more.** -/
theorem HookState.shown_hears (h : st.shown = st.hook.shows messages) :
    (st.hears message).shown = st.hook.shows (messages ++ [message]) := by
  by_cases hkind : kindOf message = some st.hook.kind
  · cases message with
    | alertTriggered alert =>
      cases st with
      | alerts l =>
        rw [show l = newest 50 alertOf messages from Sum.inl.inj h]
        exact congrArg Sum.inl (newest_snoc_some (f := alertOf) rfl).symm
      | _ => cases hkind
    | requestEvent event =>
      cases st with
      | events n l =>
        rw [show l = newest n requestEventOf messages from Sum.inl.inj h]
        exact congrArg Sum.inl (newest_snoc_some (f := requestEventOf) rfl).symm
      | _ => cases hkind
    | metricsUpdate metrics =>
      cases st with
      | metrics data connected =>
        have hnew : newest 1 metricsUpdateOf (messages ++ [.metricsUpdate metrics])
            = remember 1 (newest 1 metricsUpdateOf messages) metrics := newest_snoc_some rfl
        exact congrArg (fun l : List RealtimeMetrics => Sum.inr l.head?) hnew.symm
      | _ => cases hkind
    | _ => cases hkind
  · rw [hears_eq_self hkind, h, Hook.shows_snoc_of_ne hkind]

theorem HookState.metrics_of_hears {data : Option RealtimeMetrics} {connected : Bool}
    (h : st.hears message = .metrics data connected) : ∃ data', st = .metrics data' connected := by
  cases st <;> cases message <;> cases h <;> exact ⟨_, rfl⟩

theorem Kind.message_mem_offs (kind : Kind) : SocketEvent.message kind ∈ kind.offs := by cases kind <;> decide

theorem HookState.setConnected_rest (connected : Bool) :
    (st.setConnected connected).hook = st.hook ∧ (st.setConnected connected).shown = st.shown := by
  cases st <;> exact ⟨rfl, rfl⟩

end Messages

/-- The messages received until a hook of this kind unmounts. -/
def heard (kind : Kind) (es : List (TabEvent ι κ)) : List (Message κ) :=
  (es.takeWhile fun e => !e.unmounts kind).filterMap TabEvent.message

/-- No hook of this kind unmounts. -/
def listening (kind : Kind) (es : List (TabEvent ι κ)) : Bool := es.all fun e => !e.unmounts kind

theorem heard_snoc (kind : Kind) (es : List (TabEvent ι κ)) (e : TabEvent ι κ) :
    heard kind (es ++ [e]) = heard kind es ++ if listening kind es then e.message.toList else [] := by
  unfold heard listening
  rw [List.takeWhile_append]
  by_cases hall : es.all (fun e => !e.unmounts kind) = true
  · have htake : es.takeWhile (fun e => !e.unmounts kind) = es :=
      List.takeWhile_eq_self_iff.mpr fun a ha => List.all_eq_true.mp hall a ha
    rw [htake, if_pos rfl, if_pos hall, List.filterMap_append]
    cases e with
    | unmount i k =>
      by_cases hk : k = kind
      · simp [TabEvent.unmounts, TabEvent.message, hk]
      · simp [TabEvent.unmounts, TabEvent.message, hk]
    | _ => simp [TabEvent.unmounts, TabEvent.message]
  · rw [if_neg hall, List.append_nil, if_neg fun hlen => hall ?_]
    have htake := List.takeWhile_prefix (fun e : TabEvent ι κ => !e.unmounts kind) (l := es) |>.eq_of_length hlen
    exact List.all_eq_true.mpr fun a ha => List.takeWhile_eq_self_iff.mp htake a ha

theorem listening_snoc (kind : Kind) (es : List (TabEvent ι κ)) (e : TabEvent ι κ) :
    listening kind (es ++ [e]) = (listening kind es && !e.unmounts kind) := by
  unfold listening
  rw [List.all_append, List.all_cons, List.all_nil, Bool.and_true]

/-! ### A hook from its mount on -/

variable [DecidableEq ι]

/-- What holds of a mounted hook after the messages that it has heard; `on` says whether it still listens. -/
structure Follows (i : ι) (hook : Hook) (messages : List (Message κ)) (on : Bool) (page : Tab ι) : Prop where
  state : ∃ st, page.mounted i = some st ∧ st.hook = hook ∧ st.shown = hook.shows messages ∧
    (on = true → ∀ data connected, st = .metrics data connected → connected = page.connected)
  listens : ∀ event ∈ hook.kind.offs, (event, i) ∈ page.listeners ↔ on = true

namespace Follows

variable {i j : ι} {hook hook' : Hook} {kind : Kind} {messages : List (Message κ)} {on : Bool} {page page' : Tab ι}

theorem mount : Follows i hook ([] : List (Message κ)) true (page.mount i hook) := by
  refine ⟨⟨_, Tab.mounted_mount.trans (if_pos rfl), ?_, ?_, ?_⟩, fun event hevent => ?_⟩
  · cases hook <;> rfl
  · cases hook <;> simp [HookState.initial, HookState.shown, Hook.shows, newest]
  · intro _ data connected hst
    rw [Tab.connected_mount]
    cases hook with
    | useRealtimeMetrics =>
      cases hst
      rfl
    | _ => cases hst
  · exact iff_of_true (Tab.mem_listeners_mount.mpr (.inr ⟨hevent, rfl⟩)) rfl

theorem mount_other (h : Follows i hook messages on page) (hji : i ≠ j) :
    Follows i hook messages on (page.mount j hook') := by
  obtain ⟨st, hst, hhook, hshown, hflag⟩ := h.state
  refine ⟨⟨st, ?_, hhook, hshown, ?_⟩, fun event hevent => ?_⟩
  · rw [Tab.mounted_mount, if_neg hji, hst]
  · rw [Tab.connected_mount]
    exact hflag
  · rw [Tab.mem_listeners_mount, ← h.listens event hevent]
    exact or_iff_left fun hnew => hji hnew.2

theorem offs_disjoint {kind kind' : Kind} {event : SocketEvent} (h : event ∈ kind.offs) (h' : event ∈ kind'.offs) :
    kind' = kind := by
  cases kind <;> cases kind' <;> simp_all [Kind.offs]

/-- **The cleanup of another hook** of the kind takes this hook's listeners too. -/
theorem unmount_other (h : Follows i hook messages on page) (hji : i ≠ j) :
    Follows i hook messages (on && !decide (kind = hook.kind)) (page.unmount j kind) := by
  obtain ⟨st, hst, hhook, hshown, hflag⟩ := h.state
  refine ⟨⟨st, ?_, hhook, hshown, ?_⟩, fun event hevent => ?_⟩
  · rw [Tab.mounted_unmount, if_neg hji, hst]
  · rw [Tab.connected_unmount]
    exact fun hon => hflag (Bool.and_elim_left hon)
  · rw [Tab.mem_listeners_unmount, h.listens event hevent, Bool.and_eq_true, Bool.not_eq_true', decide_eq_false_iff_not]
    refine and_congr_right fun _ => ⟨fun hevent' heq => hevent' (heq ▸ hevent), fun hne hevent' => ?_⟩
    exact hne (offs_disjoint hevent hevent')

/-- The socket is connected, or not any more. -/
theorem setConnected (h : Follows i hook messages on page) (page' : Tab ι) {event : SocketEvent} (hevent : event ∈ Kind.metrics.offs)
    (hlisteners : page'.listeners = page.listeners) (hmounted : page'.mounted = page.mounted) :
    Follows i hook messages on (page'.call event (.setConnected page'.connected)) := by
  obtain ⟨st, hst, hhook, hshown, -⟩ := h.state
  refine ⟨?_, fun event hevent => by rw [← h.listens event hevent, ← hlisteners]; rfl⟩
  by_cases hmem : (event, i) ∈ page.listeners
  · obtain ⟨hhook', hshown'⟩ := st.setConnected_rest page'.connected
    refine ⟨st.setConnected page'.connected, ?_, hhook'.trans hhook, hshown'.trans hshown, fun _ data connected heq => ?_⟩
    · exact Tab.mounted_call.trans (by rw [hlisteners, hmounted, if_pos hmem, hst, Option.map_some])
    · cases st <;> cases heq
      rfl
  · refine ⟨st, ?_, hhook, hshown, fun hon data connected heq => ?_⟩
    · exact Tab.mounted_call.trans (by rw [hlisteners, hmounted, if_neg hmem, hst])
    · have hkind : hook.kind = .metrics := by rw [← hhook, heq]; rfl
      exact absurd ((h.listens event (hkind ▸ hevent)).mpr hon) hmem

theorem connect (h : Follows i hook messages on page) : Follows i hook messages on page.connect :=
  h.setConnected { page with connected := true, sent := page.sendBuffer, sendBuffer := [] }
    (by decide) rfl rfl

theorem disconnect (h : Follows i hook messages on page) : Follows i hook messages on page.disconnect :=
  h.setConnected { page with connected := false, sent := [] } (by decide) rfl rfl

/-- **A message** is heard while the hook listens. -/
theorem receive (h : Follows i hook messages on page) (message : Message κ) :
    Follows i hook (messages ++ if on then [message] else []) on (page.receive message) := by
  obtain ⟨st, hst, rfl, hshown, hflag⟩ := h.state
  unfold Tab.receive
  cases hkind : kindOf message with
  | none =>
    refine ⟨⟨st, hst, rfl, ?_, hflag⟩, h.listens⟩
    cases on with
    | false => rw [if_neg Bool.false_ne_true, List.append_nil, hshown]
    | true => rw [if_pos rfl, Hook.shows_snoc_of_ne (by rw [hkind]; simp), hshown]
  | some kind =>
    refine ⟨?_, h.listens⟩
    have hmine : kind = st.hook.kind → ((SocketEvent.message kind, i) ∈ page.listeners ↔ on = true) := by
      rintro rfl
      exact h.listens _ st.hook.kind.message_mem_offs
    have hother : kind ≠ st.hook.kind → st.hook.shows (messages ++ [message]) = st.hook.shows messages := fun hne =>
      Hook.shows_snoc_of_ne (by rw [hkind]; exact fun heq => hne (Option.some.inj heq))
    by_cases hmem : (SocketEvent.message kind, i) ∈ page.listeners
    · refine ⟨st.hears message, ?_, HookState.hook_hears, ?_, fun hon data connected heq => ?_⟩
      · exact Tab.mounted_call.trans (by rw [if_pos hmem, hst, Option.map_some])
      · rw [HookState.shown_hears hshown]
        cases on with
        | true => rw [if_pos rfl]
        | false => rw [if_neg Bool.false_ne_true, List.append_nil, hother fun heq => by simpa using (hmine heq).mp hmem]
      · obtain ⟨data', hdata⟩ := HookState.metrics_of_hears heq
        exact hflag hon data' connected hdata
    · refine ⟨st, ?_, rfl, ?_, hflag⟩
      · exact Tab.mounted_call.trans (by rw [if_neg hmem, hst])
      · rw [hshown]
        cases on with
        | true => rw [if_pos rfl, hother fun heq => hmem ((hmine heq).mpr rfl)]
        | false => rw [if_neg Bool.false_ne_true, List.append_nil]

end Follows

/-! ### Runs -/

section Runs

variable {i : ι} {hook : Hook} {page page' : Tab ι} {es : List (TabEvent ι κ)}

/-- A hook after a run in which it is not unmounted. -/
theorem follows_of_run (hrun : run Tab.step (page.mount i hook) es = some page')
    (hkept : ∀ kind, .unmount i kind ∉ es) : Follows i hook (heard hook.kind es) (listening hook.kind es) page' := by
  refine run_induction Tab.step (page.mount i hook) (fun es page' => (∀ kind, .unmount i kind ∉ es) →
    Follows i hook (heard hook.kind es) (listening hook.kind es) page') (fun _ => .mount) ?_ es page' hrun hkept
  intro es page' e page'' _ ih hstep hkept
  have h := ih fun kind hmem => hkept kind (List.mem_append_left _ hmem)
  rw [heard_snoc, listening_snoc]
  cases e with
  | mount j hook' =>
    obtain ⟨hfree, heq⟩ := Option.ite_none_right_eq_some.mp hstep
    cases heq
    have hji : i ≠ j := by
      rintro rfl
      obtain ⟨st, hst, -⟩ := h.state
      rw [hst] at hfree
      cases hfree
    simpa [TabEvent.message, TabEvent.unmounts] using h.mount_other hji
  | unmount j kind =>
    obtain ⟨hmounted, heq⟩ := Option.ite_none_right_eq_some.mp hstep
    cases heq
    have hji : i ≠ j := by
      rintro rfl
      exact hkept kind (List.mem_append_right _ List.mem_cons_self)
    simpa [TabEvent.message, TabEvent.unmounts] using h.unmount_other hji
  | connect =>
    obtain ⟨-, heq⟩ := Option.ite_none_left_eq_some.mp hstep
    cases heq
    simpa [TabEvent.message, TabEvent.unmounts] using h.connect
  | disconnect =>
    obtain ⟨-, heq⟩ := Option.ite_none_right_eq_some.mp hstep
    cases heq
    simpa [TabEvent.message, TabEvent.unmounts] using h.disconnect
  | received message =>
    obtain ⟨-, heq⟩ := Option.ite_none_right_eq_some.mp hstep
    cases heq
    simpa [TabEvent.message, TabEvent.unmounts] using h.receive message

/-- **What a hook shows**: the newest of the messages that have arrived since it mounted, up to the first cleanup of
another hook of its kind. -/
theorem shows_what_it_heard (hrun : run Tab.step (page.mount i hook) es = some page')
    (hkept : ∀ kind, .unmount i kind ∉ es) : ∃ st, page'.mounted i = some st ∧ st.hook = hook ∧
      st.shown = hook.shows ((es.takeWhile fun e => !e.unmounts hook.kind).filterMap TabEvent.message) := by
  obtain ⟨st, hst, hhook, hshown, -⟩ := (follows_of_run hrun hkept).state
  exact ⟨st, hst, hhook, hshown⟩

end Runs

/-- Two lists of events, of which one is closed. -/
theorem shows_what_it_heard_twice : ∃ page', run Tab.step ((Tab.start : Tab ℕ).mount 0 (.useRealtimeEvents 2))
      [.mount 1 (.useRealtimeEvents 2), .connect, .received (.requestEvent (.bool true)), .unmount 1 .events,
        .received (.requestEvent (.bool false) : Message ℕ)] = some page' ∧
    ∃ st, page'.mounted 0 = some st ∧ st.hook = .useRealtimeEvents 2 ∧ st.shown = .inl [.bool true] := by
  have hrun : run Tab.step ((Tab.start : Tab ℕ).mount 0 (.useRealtimeEvents 2))
      [.mount 1 (.useRealtimeEvents 2), .connect, .received (.requestEvent (.bool true)), .unmount 1 .events,
        .received (.requestEvent (.bool false) : Message ℕ)] = some _ := rfl
  obtain ⟨st, hst, hhook, hshown⟩ := shows_what_it_heard hrun (by simp)
  exact ⟨_, hrun, st, hst, hhook, hshown⟩

end EdgeSphere.Dashboard
