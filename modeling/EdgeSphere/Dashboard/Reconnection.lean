import EdgeSphere.Dashboard.RealtimeHooks

/-!
# A page that loses its connection

A page and the websocket-gateway, with what is on its way between them.  Each connection has an id of its own and starts
in no room; what a page emits while it has no connection is sent with the next one, and the hooks subscribe when they
mount and at no other time.

* `System.step` — one event of the page, of the network or of the gateway;
* `Sound` — the page knows whether it is connected, and so does every hook that listens for it: `sound_of_run`;
* `Deaf` — the connection is in no room, and nothing on its way will change this: `Deaf.step`;
* `deaf_after_loss` — **after a connection has been lost nothing reaches a hook** until some hook mounts, however often
  the page reconnects and whatever the gateway publishes, while the hooks show that they are connected.
-/

namespace EdgeSphere.Dashboard

open EdgeSphere.Library
open EdgeSphere.Library.Runs
open EdgeSphere.Realtime

variable {κ ι : Type*}

/-! ### Packets -/

/-- A packet as the gateway receives it. -/
def Packet.event (id : κ) : Packet → Realtime.Event κ
  | .subscribe room => .subscribe id (some (.arr [.str room.name]))
  | .unsubscribe room => .unsubscribe id (some (.arr [.str room.name]))

/-- What a page has emitted and the gateway has not received. -/
def Tab.pending (page : Tab ι) : List Packet := page.sent ++ page.sendBuffer

/-- Who speaks. -/
def speaker : Realtime.Event κ → Option κ
  | .connection client _ | .subscribe client _ | .unsubscribe client _ => some client
  | _ => none

/-! ### Pages that know where they are -/

namespace Tab

variable {page : Tab ι} {i j : ι} {hook : Hook} {kind : Kind} {packet packet' : Packet}

theorem mem_pending_emit : packet' ∈ (page.emit packet).pending ↔ packet' ∈ page.pending ∨ packet' = packet := by
  unfold emit pending
  split
  · simp [or_assoc, or_comm]
  · simp [or_assoc]

theorem pending_foldl_off (events : List SocketEvent) : (events.foldl off page).pending = page.pending ∧
    (events.foldl off page).sendBuffer = page.sendBuffer := by
  induction events generalizing page with
  | nil => exact ⟨rfl, rfl⟩
  | cons event events ih => exact @ih (page.off event)

/-- What is emitted on a connection is sent. -/
theorem sendBuffer_emit (h : page.connected = true) : (page.emit packet).sendBuffer = page.sendBuffer := by
  unfold emit
  rw [if_pos h]

/-- The hooks that are still mounted show what they did. -/
def SameShown (page page' : Tab ι) : Prop := ∀ i st', page'.mounted i = some st' →
  ∃ st, page.mounted i = some st ∧ st'.hook = st.hook ∧ st'.shown = st.shown

theorem SameShown.refl (page : Tab ι) : SameShown page page := fun _ st' h => ⟨st', h, rfl, rfl⟩

theorem SameShown.trans {page page' page'' : Tab ι} (h : SameShown page page') (h' : SameShown page' page'') :
    SameShown page page'' := by
  intro i st'' hst''
  obtain ⟨st', hst', hhook', hshown'⟩ := h' i st'' hst''
  obtain ⟨st, hst, hhook, hshown⟩ := h i st' hst'
  exact ⟨st, hst, hhook'.trans hhook, hshown'.trans hshown⟩

variable [DecidableEq ι]

theorem mem_pending_unmount :
    packet ∈ (page.unmount i kind).pending ↔ packet ∈ page.pending ∨ packet = .unsubscribe kind.room := by
  have hsame : (kind.offs.foldl off page).pending = page.pending := (pending_foldl_off kind.offs).1
  rw [← hsame]
  exact mem_pending_emit

/-- Nothing waits in the buffer of a page that is connected, and the hooks that listen for it show whether it is. -/
structure Sound (page : Tab ι) : Prop where
  buffer : page.connected = true → page.sendBuffer = []
  shows : ∀ i data connected, page.mounted i = some (.metrics data connected) → (.connect, i) ∈ page.listeners →
    (.disconnect, i) ∈ page.listeners → connected = page.connected

namespace Sound

theorem mount (h : page.Sound) : (page.mount i hook).Sound := by
  refine ⟨fun hconnected => ?_, fun j data connected hj hon hoff => ?_⟩
  · rw [connected_mount] at hconnected
    have hsame : (page.mount i hook).sendBuffer = (page.emit (.subscribe hook.kind.room)).sendBuffer := by
      cases hook <;> rfl
    rw [hsame, sendBuffer_emit hconnected, h.buffer hconnected]
  · rw [connected_mount]
    rw [mounted_mount] at hj
    split at hj
    · cases hook <;> cases hj
      rfl
    · rename_i hji
      rw [mem_listeners_mount] at hon hoff
      exact h.shows j data connected hj (hon.resolve_right fun hnew => hji hnew.2)
        (hoff.resolve_right fun hnew => hji hnew.2)

theorem unmount (h : page.Sound) : (page.unmount i kind).Sound := by
  refine ⟨fun hconnected => ?_, fun j data connected hj hon hoff => ?_⟩
  · rw [connected_unmount] at hconnected
    have hkept : (kind.offs.foldl off page).connected = true := (foldl_off kind.offs).2.1.trans hconnected
    exact ((sendBuffer_emit hkept).trans (pending_foldl_off kind.offs).2).trans (h.buffer hconnected)
  · rw [connected_unmount]
    rw [mounted_unmount] at hj
    rw [mem_listeners_unmount] at hon hoff
    split at hj
    · cases hj
    · exact h.shows j data connected hj hon.1 hoff.1

/-- A callback that leaves the flag alone, or the one that sets it. -/
theorem call {page' : Tab ι} {event : SocketEvent} {callback : HookState → HookState}
    (hbuffer : page'.connected = true → page'.sendBuffer = [])
    (hcalled : ∀ i st data connected, page'.mounted i = some st → (event, i) ∈ page'.listeners →
      callback st = .metrics data connected → (.connect, i) ∈ page'.listeners → (.disconnect, i) ∈ page'.listeners →
        connected = page'.connected)
    (hother : ∀ i data connected, page'.mounted i = some (.metrics data connected) → (event, i) ∉ page'.listeners →
      (.connect, i) ∈ page'.listeners → (.disconnect, i) ∈ page'.listeners → connected = page'.connected) :
    (page'.call event callback).Sound := by
  refine ⟨hbuffer, fun i data connected hi hon hoff => ?_⟩
  rw [mounted_call] at hi
  split at hi
  · obtain ⟨st, hst, heq⟩ := Option.map_eq_some_iff.mp hi
    exact hcalled i st data connected hst ‹_› heq hon hoff
  · exact hother i data connected hi ‹_› hon hoff

theorem connect : page.connect.Sound := by
  refine call (fun _ => rfl) (fun i st data connected _ _ heq _ _ => ?_) (fun i data connected _ hno hon _ => absurd hon hno)
  cases st <;> cases heq
  rfl

theorem disconnect : page.disconnect.Sound := by
  refine call (fun h => by cases h) (fun i st data connected _ _ heq _ _ => ?_)
    (fun i data connected _ hno _ hoff => absurd hoff hno)
  cases st <;> cases heq
  rfl

theorem receive (h : page.Sound) (message : Message κ) : (page.receive message).Sound := by
  unfold Tab.receive
  cases kindOf message with
  | none => exact h
  | some kind =>
    refine call h.buffer (fun i st data connected hst _ heq hon hoff => ?_)
      (fun i data connected hi _ hon hoff => h.shows i data connected hi hon hoff)
    obtain ⟨data', rfl⟩ := HookState.metrics_of_hears heq
    exact h.shows i data' connected hst hon hoff

end Sound

end Tab

/-! ### The system -/

/-- `session` is the id of the page's connection, of whose messages `read` have arrived. -/
structure System (κ ι : Type*) where
  gateway : Gateway κ
  page : Tab ι
  session : Option κ
  read : ℕ

inductive SystemEvent (κ ι : Type*) where
  | mount (i : ι) (hook : Hook)
  | unmount (i : ι) (kind : Kind)
  /-- A connection is made. -/
  | opened (id : κ) (timestamp : String)
  /-- The page finds its connection gone. -/
  | lost
  /-- The next packet arrives at the gateway. -/
  | delivered
  /-- The next message arrives at the page. -/
  | received
  /-- Anything else at the gateway. -/
  | server (e : Realtime.Event κ)

variable [DecidableEq κ] [DecidableEq ι]

namespace System

def start (κ ι : Type*) [DecidableEq κ] (listening : Bool) : System κ ι :=
  ⟨Realtime.start κ listening, Tab.start, none, 0⟩

variable (parse : List Char → Option (Json JsonNumber)) (numberText : Number → List Char)

/-- One event of the system. -/
def step (s : System κ ι) : SystemEvent κ ι → Option (System κ ι)
  | .mount i hook => (s.page.step (.mount i hook : TabEvent ι κ)).map fun page => { s with page }
  | .unmount i kind => (s.page.step (.unmount i kind : TabEvent ι κ)).map fun page => { s with page }
  | .opened id timestamp =>
    if s.session.isNone ∧ s.gateway.server.inbox id = [] then
      (Realtime.step parse numberText s.gateway (.connection id timestamp)).map fun gateway =>
        ⟨gateway, s.page.connect, some id, 0⟩
    else none
  | .lost => if s.session.isSome then some { s with page := s.page.disconnect, session := none } else none
  | .delivered =>
    match s.session, s.page.sent with
    | some id, packet :: rest =>
      (Realtime.step parse numberText s.gateway (packet.event id)).map fun gateway =>
        { s with gateway, page := { s.page with sent := rest } }
    | _, _ => none
  | .received =>
    (s.session.bind fun id => (s.gateway.server.inbox id)[s.read]?).map fun message =>
      { s with page := s.page.receive message, read := s.read + 1 }
  | .server e =>
    if s.session.isSome ∧ speaker e = s.session then none
    else (Realtime.step parse numberText s.gateway e).map fun gateway => { s with gateway }

/-! ### Steps -/

variable {parse : List Char → Option (Json JsonNumber)} {numberText : Number → List Char} {s s' : System κ ι}
  {e : SystemEvent κ ι} {es : List (SystemEvent κ ι)} {listening : Bool}

/-- The page knows whether it is connected. -/
structure Sound (s : System κ ι) : Prop where
  page : s.page.Sound
  connected : s.page.connected = s.session.isSome

/-- What a step does. -/
theorem step_cases (h : s.step parse numberText e = some s') :
    (∃ i hook, e = .mount i hook ∧ s' = { s with page := s.page.mount i hook }) ∨
    (∃ i kind, e = .unmount i kind ∧ s' = { s with page := s.page.unmount i kind }) ∨
    (∃ id timestamp gateway, e = .opened id timestamp ∧ s.session = none ∧ s.gateway.server.inbox id = [] ∧
      Realtime.step parse numberText s.gateway (.connection id timestamp) = some gateway ∧
      s' = ⟨gateway, s.page.connect, some id, 0⟩) ∨
    (∃ id, e = .lost ∧ s.session = some id ∧ s' = { s with page := s.page.disconnect, session := none }) ∨
    (∃ id packet rest gateway, e = .delivered ∧ s.session = some id ∧ s.page.sent = packet :: rest ∧
      Realtime.step parse numberText s.gateway (packet.event id) = some gateway ∧
      s' = { s with gateway, page := { s.page with sent := rest } }) ∨
    (∃ id message, e = .received ∧ s.session = some id ∧ (s.gateway.server.inbox id)[s.read]? = some message ∧
      s' = { s with page := s.page.receive message, read := s.read + 1 }) ∨
    (∃ e' gateway, e = .server e' ∧ (∀ id, s.session = some id → speaker e' ≠ some id) ∧
      Realtime.step parse numberText s.gateway e' = some gateway ∧ s' = { s with gateway }) := by
  cases e with
  | mount i hook =>
    obtain ⟨page, hpage, heq⟩ := Option.map_eq_some_iff.mp h
    obtain ⟨-, hmount⟩ := Option.ite_none_right_eq_some.mp hpage
    cases hmount
    exact .inl ⟨i, hook, rfl, heq.symm⟩
  | unmount i kind =>
    obtain ⟨page, hpage, heq⟩ := Option.map_eq_some_iff.mp h
    obtain ⟨-, hunmount⟩ := Option.ite_none_right_eq_some.mp hpage
    cases hunmount
    exact .inr (.inl ⟨i, kind, rfl, heq.symm⟩)
  | opened id timestamp =>
    obtain ⟨⟨hnone, hfresh⟩, h⟩ := Option.ite_none_right_eq_some.mp h
    obtain ⟨gateway, hgateway, heq⟩ := Option.map_eq_some_iff.mp h
    exact .inr (.inr (.inl ⟨id, timestamp, gateway, rfl, Option.isNone_iff_eq_none.mp hnone, hfresh, hgateway, heq.symm⟩))
  | lost =>
    obtain ⟨hsome, h⟩ := Option.ite_none_right_eq_some.mp h
    obtain ⟨id, hid⟩ := Option.isSome_iff_exists.mp hsome
    exact .inr (.inr (.inr (.inl ⟨id, rfl, hid, (Option.some.inj h).symm⟩)))
  | delivered =>
    simp only [step] at h
    split at h
    · rename_i id packet rest hid hsent
      obtain ⟨gateway, hgateway, heq⟩ := Option.map_eq_some_iff.mp h
      exact .inr (.inr (.inr (.inr (.inl ⟨id, packet, rest, gateway, rfl, hid, hsent, hgateway, heq.symm⟩))))
    · cases h
  | received =>
    obtain ⟨message, hmessage, heq⟩ := Option.map_eq_some_iff.mp h
    obtain ⟨id, hid, hmessage⟩ := Option.bind_eq_some_iff.mp hmessage
    exact .inr (.inr (.inr (.inr (.inr (.inl ⟨id, message, rfl, hid, hmessage, heq.symm⟩)))))
  | server e' =>
    obtain ⟨hspeaker, h⟩ := Option.ite_none_left_eq_some.mp h
    obtain ⟨gateway, hgateway, heq⟩ := Option.map_eq_some_iff.mp h
    refine .inr (.inr (.inr (.inr (.inr (.inr ⟨e', gateway, rfl, fun id hid heq' => hspeaker ?_, hgateway, heq.symm⟩)))))
    exact ⟨Option.isSome_iff_exists.mpr ⟨id, hid⟩, heq'.trans hid.symm⟩

theorem Sound.step (hs : s.Sound) (h : s.step parse numberText e = some s') : s'.Sound := by
  rcases step_cases h with ⟨i, hook, -, rfl⟩ | ⟨i, kind, -, rfl⟩ | ⟨id, timestamp, gateway, -, -, -, -, rfl⟩ |
    ⟨id, -, -, rfl⟩ | ⟨id, packet, rest, gateway, -, -, -, -, rfl⟩ | ⟨id, message, -, -, -, rfl⟩ | ⟨e', gateway, -, -, -, rfl⟩
  · exact ⟨hs.page.mount, Tab.connected_mount.trans hs.connected⟩
  · exact ⟨hs.page.unmount, Tab.connected_unmount.trans hs.connected⟩
  · exact ⟨.connect, rfl⟩
  · exact ⟨.disconnect, rfl⟩
  · exact ⟨⟨hs.page.buffer, hs.page.shows⟩, hs.connected⟩
  · refine ⟨hs.page.receive message, ?_⟩
    unfold Tab.receive
    cases kindOf message <;> exact hs.connected
  · exact ⟨hs.page, hs.connected⟩

theorem sound_of_run (hrun : run (step parse numberText) (start κ ι listening) es = some s) : s.Sound := by
  refine run_induction (step parse numberText) (start κ ι listening) (fun _ s => s.Sound) ?_
    (fun _ _ _ _ _ ih hstep => ih.step hstep) es s hrun
  exact ⟨⟨fun _ => rfl, fun _ _ _ h => by cases h⟩, rfl⟩

/-! ### Deaf connections -/

/-- Nothing on its way subscribes, the connection is in no room, and no message of a room is on its way to the page. -/
structure Deaf (s : System κ ι) : Prop where
  pending : ∀ packet ∈ s.page.pending, ∃ room, packet = .unsubscribe room
  rooms : ∀ id, s.session = some id → ∀ room, (id, room) ∉ s.gateway.server.members
  unread : ∀ id, s.session = some id → ∀ message ∈ (s.gateway.server.inbox id).drop s.read, kindOf message = none

/-- No answer is a message of a room. -/
theorem kindOf_answered {id : κ} {e : Realtime.Event κ} {message : Message κ} (h : message ∈ Realtime.answered id e) :
    kindOf message = none := by
  have hone : ∀ {p : Prop} [Decidable p] {m : Message κ}, kindOf m = none → message ∈ (if p then [m] else []) →
      kindOf message = none := by
    intro p _ m hm hmem
    split at hmem
    · rw [List.mem_singleton.mp hmem, hm]
    · cases hmem
  cases e with
  | connection c timestamp => exact hone (by rfl) h
  | subscribe c payload =>
    simp only [Realtime.answered] at h
    exact hone (by cases elementsOf payload <;> rfl) h
  | unsubscribe c payload =>
    simp only [Realtime.answered] at h
    cases helements : elementsOf payload with
    | none =>
      rw [helements] at h
      exact hone (by rfl) h
    | some rooms => simp [helements] at h
  | _ => cases h

/-- A step of the gateway that does not subscribe a connection in no room tells it nothing of the rooms. -/
theorem quiet_step {g g' : Gateway κ} {e : Realtime.Event κ} (id : κ) (read : ℕ)
    (hstep : Realtime.step parse numberText g e = some g') (hsubscribe : ∀ room, e.subscribes id room = false)
    (hrooms : ∀ room, (id, room) ∉ g.server.members)
    (hunread : ∀ message ∈ (g.server.inbox id).drop read, kindOf message = none) :
    (∀ room, (id, room) ∉ g'.server.members) ∧
      ∀ message ∈ (g'.server.inbox id).drop read, kindOf message = none := by
  refine ⟨fun room hmem => ?_, fun message hmessage => ?_⟩
  · rcases (mem_members_step hstep).mp hmem with hsub | ⟨hin, -⟩
    · rw [hsubscribe room] at hsub
      cases hsub
    · exact hrooms room hin
  · have hnothing : reaching (fun _ => false) (announced parse numberText g e) = [] := by
      unfold reaching
      cases announced parse numberText g e <;> rfl
    rw [inbox_step (fun _ => false) (fun room => iff_of_false Bool.false_ne_true (hrooms room)) hstep, hnothing,
      List.append_nil, List.drop_append] at hmessage
    rcases List.mem_append.mp hmessage with hold | hnew
    · exact hunread message hold
    · exact kindOf_answered (List.mem_of_mem_drop hnew)

/-- **A deaf connection stays deaf** as long as no hook mounts, and so does the next one. -/
theorem Deaf.step (hd : s.Deaf) (h : s.step parse numberText e = some s') (hmount : ∀ i hook, e ≠ .mount i hook) :
    s'.Deaf := by
  rcases step_cases h with ⟨i, hook, rfl, -⟩ | ⟨i, kind, -, rfl⟩ | ⟨id, timestamp, gateway, -, -, hfresh, hgateway, rfl⟩ |
    ⟨id, -, -, rfl⟩ | ⟨id, packet, rest, gateway, -, hid, hsent, hgateway, rfl⟩ | ⟨id, message, -, hid, hmessage, rfl⟩ |
    ⟨e', gateway, -, hspeaker, hgateway, rfl⟩
  · exact absurd rfl (hmount i hook)
  · refine ⟨fun packet hpacket => ?_, hd.rooms, hd.unread⟩
    rcases Tab.mem_pending_unmount.mp hpacket with hold | rfl
    · exact hd.pending packet hold
    · exact ⟨_, rfl⟩
  · obtain ⟨-, ⟨_, _, heq, hoffline, -⟩ | ⟨_, heq, -⟩ | ⟨_, _, heq, -⟩ | ⟨_, _, heq, -⟩ |
      ⟨-, ⟨_, _, _, heq, -⟩ | ⟨_, _, heq, -⟩ | ⟨_, _, heq, -⟩⟩⟩ := Realtime.step_cases hgateway <;> cases heq
    obtain ⟨hrooms, hunread⟩ := quiet_step id 0 hgateway (fun _ => rfl)
      (fun room => Hub.notMem_of_offline hoffline) (by simp [hfresh])
    refine ⟨fun packet hpacket => hd.pending packet (List.mem_append_right _ ?_), ?_, ?_⟩
    · simpa [Tab.pending, Tab.connect, Tab.call] using hpacket
    · rintro _ ⟨⟩
      exact hrooms
    · rintro _ ⟨⟩
      exact hunread
  · refine ⟨fun packet hpacket => hd.pending packet (List.mem_append_right _ ?_), (fun _ h => by cases h),
      (fun _ h => by cases h)⟩
    simpa [Tab.pending, Tab.disconnect, Tab.call] using hpacket
  · obtain ⟨room, rfl⟩ := hd.pending packet (List.mem_append_left _ (hsent ▸ List.mem_cons_self))
    have hquiet := quiet_step id s.read hgateway (fun _ => rfl)
      (hd.rooms id hid) (hd.unread id hid)
    refine ⟨fun packet hpacket => hd.pending packet ?_, ?_, ?_⟩
    · rw [Tab.pending, hsent]
      exact List.mem_cons_of_mem _ hpacket
    · intro id' hid'
      cases hid.symm.trans hid'
      exact hquiet.1
    · intro id' hid'
      cases hid.symm.trans hid'
      exact hquiet.2
  · have hnone := hd.unread id hid message (List.mem_iff_getElem?.mpr ⟨0, by rw [List.getElem?_drop, ← hmessage]; rfl⟩)
    refine ⟨?_, hd.rooms, fun id' hid' message' hmessage' => ?_⟩
    · rw [Tab.receive, hnone]
      exact hd.pending
    · rw [← List.drop_drop] at hmessage'
      exact hd.unread id' hid' message' (List.mem_of_mem_drop hmessage')
  · have hquiet : ∀ id, s.session = some id → (∀ room, (id, room) ∉ gateway.server.members) ∧
        ∀ message ∈ (gateway.server.inbox id).drop s.read, kindOf message = none := by
      intro id hid
      refine quiet_step id s.read hgateway (fun room => ?_) (hd.rooms id hid) (hd.unread id hid)
      cases e' with
      | subscribe client payload => exact decide_eq_false fun h => hspeaker id hid (congrArg some h.1.symm)
      | _ => rfl
    exact ⟨hd.pending, fun id hid => (hquiet id hid).1, fun id hid => (hquiet id hid).2⟩

/-! ### What the hooks show -/

theorem sameShown_setConnected (page : Tab ι) {event : SocketEvent} {connected : Bool} :
    page.SameShown (page.call event (.setConnected connected)) := by
  intro i st' hst'
  rw [Tab.mounted_call] at hst'
  split at hst'
  · obtain ⟨st, hst, rfl⟩ := Option.map_eq_some_iff.mp hst'
    exact ⟨st, hst, st.setConnected_rest connected⟩
  · exact ⟨st', hst', rfl, rfl⟩

/-- **On a deaf connection nothing changes** what the hooks show. -/
theorem Deaf.sameShown (hd : s.Deaf) (h : s.step parse numberText e = some s') (hmount : ∀ i hook, e ≠ .mount i hook) :
    s.page.SameShown s'.page := by
  rcases step_cases h with ⟨i, hook, rfl, -⟩ | ⟨i, kind, -, rfl⟩ | ⟨id, timestamp, gateway, -, -, -, -, rfl⟩ |
    ⟨id, -, -, rfl⟩ | ⟨id, packet, rest, gateway, -, -, -, -, rfl⟩ | ⟨id, message, -, hid, hmessage, rfl⟩ |
    ⟨e', gateway, -, -, -, rfl⟩
  · exact absurd rfl (hmount i hook)
  · intro j st' hst'
    simp only [Tab.mounted_unmount] at hst'
    split at hst'
    · cases hst'
    · exact ⟨st', hst', rfl, rfl⟩
  · exact sameShown_setConnected { s.page with connected := true, sent := s.page.sendBuffer, sendBuffer := [] }
  · exact sameShown_setConnected { s.page with connected := false, sent := [] }
  · exact .refl s.page
  · have hnone := hd.unread id hid message (List.mem_iff_getElem?.mpr ⟨0, by rw [List.getElem?_drop, ← hmessage]; rfl⟩)
    simp only [Tab.receive, hnone]
    exact .refl s.page
  · exact .refl s.page

/-- A connection that is gone leaves nothing behind. -/
theorem deaf_of_lost (hs : s.Sound) (h : s.step parse numberText .lost = some s') : s'.Deaf ∧ s.page.SameShown s'.page := by
  obtain ⟨hsome, h⟩ := Option.ite_none_right_eq_some.mp h
  cases h
  refine ⟨⟨fun packet hpacket => ?_, (fun _ h => by cases h), (fun _ h => by cases h)⟩,
    sameShown_setConnected { s.page with connected := false, sent := [] }⟩
  rw [show (s.page.disconnect).pending = s.page.sendBuffer from rfl,
    hs.page.buffer (hs.connected.trans hsome)] at hpacket
  cases hpacket

/-- **After a loss.**  Once a connection has been lost, no hook shows anything new until some hook mounts, through all
reconnections and whatever is published meanwhile; a hook that listens for the connection shows whether there is one. -/
theorem deaf_after_loss {m t : System κ ι} {after : List (SystemEvent κ ι)}
    (hrun : run (step parse numberText) (start κ ι listening) es = some s)
    (hlost : s.step parse numberText .lost = some m) (hafter : run (step parse numberText) m after = some t)
    (hmount : ∀ i hook, .mount i hook ∉ after) :
    (∀ i st', t.page.mounted i = some st' →
      ∃ st, s.page.mounted i = some st ∧ st'.hook = st.hook ∧ st'.shown = st.shown) ∧
    ∀ i data connected, t.page.mounted i = some (.metrics data connected) → (.connect, i) ∈ t.page.listeners →
      (.disconnect, i) ∈ t.page.listeners → connected = t.session.isSome := by
  have hsound := sound_of_run hrun
  obtain ⟨hdeaf, hsame⟩ := deaf_of_lost hsound hlost
  have hlast := run_induction (step parse numberText) m (fun after t => (∀ i hook, .mount i hook ∉ after) →
      t.Deaf ∧ t.Sound ∧ m.page.SameShown t.page) (fun _ => ⟨hdeaf, hsound.step hlost, .refl m.page⟩) (by
    intro after t e t' _ ih hstep hmount
    obtain ⟨hdeaf, hsound, hsame⟩ := ih fun i hook hmem => hmount i hook (List.mem_append_left _ hmem)
    have hother : ∀ i hook, e ≠ .mount i hook := fun i hook heq =>
      hmount i hook (List.mem_append_right _ (List.mem_singleton.mpr heq.symm))
    exact ⟨hdeaf.step hstep hother, hsound.step hstep, hsame.trans (hdeaf.sameShown hstep hother)⟩) after t hafter hmount
  refine ⟨hsame.trans hlast.2.2, fun i data connected hi hon hoff => ?_⟩
  rw [← hlast.2.1.connected]
  exact hlast.2.1.page.shows i data connected hi hon hoff

end System

/-- A page that is connected again, while events are published. -/
theorem deaf_after_loss_one : ∃ s m t,
    run (System.step (fun _ => some (.obj [])) fun _ => []) (System.start ℕ ℕ true)
      [.mount 0 (.useRealtimeEvents 10), .mount 1 .useRealtimeMetrics, .opened 0 "now", .delivered, .delivered] = some s ∧
    System.step (fun _ => some (.obj [])) (fun _ => []) s .lost = some m ∧
    run (System.step (fun _ => some (.obj [])) fun _ => []) m
      [.opened 1 "later", .server (.kafkaMessage "request.events" (some []) 0), .received] = some t ∧
    (∀ i st', t.page.mounted i = some st' →
      ∃ st, s.page.mounted i = some st ∧ st'.hook = st.hook ∧ st'.shown = st.shown) ∧
    t.page.mounted 1 = some (.metrics none true) := by
  have hdeaf : ∀ s m t,
      run (System.step (fun _ => some (.obj [])) fun _ => []) (System.start ℕ ℕ true)
        [.mount 0 (.useRealtimeEvents 10), .mount 1 .useRealtimeMetrics, .opened 0 "now", .delivered, .delivered] = some s →
      System.step (fun _ => some (.obj [])) (fun _ => []) s .lost = some m →
      run (System.step (fun _ => some (.obj [])) fun _ => []) m
        [.opened 1 "later", .server (.kafkaMessage "request.events" (some []) 0), .received] = some t →
      ∀ i st', t.page.mounted i = some st' →
        ∃ st, s.page.mounted i = some st ∧ st'.hook = st.hook ∧ st'.shown = st.shown :=
    fun _ _ _ hrun hlost hafter => (System.deaf_after_loss hrun hlost hafter (by simp)).1
  exact ⟨_, _, _, rfl, rfl, rfl, hdeaf _ _ _ rfl rfl rfl, rfl⟩

end EdgeSphere.Dashboard
