import EdgeSphere.Library.Buffer
import EdgeSphere.Library.JsonParse
import EdgeSphere.Notification.Dispatch

/-!
# Messages from Kafka

`KafkaConsumerService.eachMessage` parses a message and dispatches it to the channels that it names.  What it throws
goes to kafkajs, which hands the same message over again.

* `eachMessage` — the handler, from the bytes on;
* `dispatch_completes_iff` — a dispatch comes to its end iff its channels can be run through and taken as labels;
* `Handled` — the messages that are no text of JSON, are `null`, or name channels of another shape are not;
* `eachMessage_completes_iff` — **the exact condition**, in every state and whatever is rejected;
* `redelivered_forever` — what is thrown once is thrown at every redelivery.
-/

namespace EdgeSphere.Notification

open EdgeSphere.Library
open EdgeSphere.Library.Buffer

instance : Zero Number := ⟨.finite 0⟩

/-! ### The handler -/

/-- `event.name` for a value that is not `null`. -/
def propertyOf (event : Json Number) (name : String) : Option (Json Number) := (event.prop name).getD none

/-- `['email', 'webhook']`. -/
def defaultChannels : Json Number := .arr [.str "email", .str "webhook"]

def isDispatched (topic : String) : Bool := topic = "alerts.triggered" || topic = "system.events"

/-- `eachMessage`; the value of a message may be missing. -/
def eachMessage (labels : LabelRule Number) (w : Surroundings) (topic : String) (value : Option (List Byte))
    (s : Notifications Number) : Notifications Number × Except Unit Unit :=
  match value with
  | none => (s, .ok ())
  | some bytes =>
    match JsonParse.parse (decodeUtf8 bytes) with
    | none => (s, .error ())
    | some event =>
      if isDispatched topic then
        match event.prop "channels" with
        | none => (s, .error ())
        | some channels => dispatch labels w (propertyOf event) (orElse channels (some defaultChannels)) s
      else (s, .ok ())

/-! ### What comes to its end -/

/-- The channels of an event can be run through and taken as labels: a list of such, a text, or nothing that is
true. -/
def ChannelsTaken (labels : LabelRule Number) : Option (Json Number) → Prop
  | some (.arr elems) => ∀ channel ∈ elems, labels.accepts ["channel"] [some channel] = true
  | some (.str _) => True
  | some (.obj _) => False
  | some (.bool b) => b = false
  | some (.num n) => n = 0
  | some .null => True
  | none => True

/-- **The messages that are handled**: none, or a value of JSON, other than `null` and with such channels where the
topic is one of the two. -/
def Handled (labels : LabelRule Number) (topic : String) : Option (List Byte) → Prop
  | none => True
  | some bytes => ∃ event, JsonParse.parse (decodeUtf8 bytes) = some event ∧
      (isDispatched topic = true → event ≠ .null ∧ ChannelsTaken labels (propertyOf event "channels"))

section Loop

variable {N : Type*} [Zero N] [DecidableEq N] {labels : LabelRule N} {w : Surroundings}
  {alert : String → Option (Json N)}

/-- A loop that comes to its end has taken all its labels. -/
theorem accepts_of_dispatchChannels {channels : List (Json N)} {s : Notifications N} {record : NotificationRecord N}
    (h : (dispatchChannels labels w alert channels s record).2.2 = .ok ()) :
    ∀ channel ∈ channels, labels.accepts ["channel"] [some channel] = true := by
  induction channels generalizing s record with
  | nil => exact fun channel hchannel => by cases hchannel
  | cons first rest ih =>
    unfold dispatchChannels at h
    by_cases haccepts : labels.accepts ["channel"] [some first] = true
    · obtain ⟨s', record', added, hrun, -⟩ := dispatchChannel_spec labels w alert s record haccepts
      rw [hrun] at h
      intro channel hchannel
      rcases List.mem_cons.mp hchannel with rfl | hrest
      · exact haccepts
      · exact ih h channel hrest
    · unfold dispatchChannel at h
      rw [if_neg haccepts] at h
      cases h

/-- **A dispatch comes to its end** iff its channels can be run through and are all taken as labels. -/
theorem dispatch_completes_iff (channels : Option (Json N)) (s : Notifications N) :
    (dispatch labels w alert channels s).2 = .ok () ↔
      ∃ elems, elementsOf channels = some elems ∧
        ∀ channel ∈ elems, labels.accepts ["channel"] [some channel] = true := by
  cases helems : elementsOf channels with
  | none =>
    obtain ⟨record, -, hrun⟩ := dispatch_nothing labels w alert s helems
    rw [hrun]
    exact iff_of_false (fun h => by cases h) (fun ⟨_, hsome, _⟩ => by cases hsome)
  | some elems =>
    constructor
    · intro h
      unfold dispatch at h
      rw [helems] at h
      exact ⟨elems, rfl, accepts_of_dispatchChannels h⟩
    · rintro ⟨_, hsame, haccepts⟩
      cases hsame
      obtain ⟨s', _, record', added, -, -, hrun⟩ :=
        dispatch_elements labels w alert s helems haccepts
      rw [hrun]

end Loop

section Handler

variable {labels : LabelRule Number} {topic : String} {value : Option (List Byte)}

theorem channels_taken_iff (channels : Option (Json Number)) :
    (∃ elems, elementsOf (orElse channels (some defaultChannels)) = some elems ∧
        ∀ channel ∈ elems, labels.accepts ["channel"] [some channel] = true) ↔
      ChannelsTaken labels channels := by
  -- the channels that are taken instead of nothing
  have hdefault : ∃ elems, elementsOf (some defaultChannels) = some elems ∧
      ∀ channel ∈ elems, labels.accepts ["channel"] [some channel] = true := by
    refine ⟨_, rfl, fun channel hchannel => ?_⟩
    rcases List.mem_cons.mp hchannel with rfl | hwebhook
    · exact accepts_text labels .email
    · cases List.mem_singleton.mp hwebhook
      exact accepts_text labels .webhook
  match channels with
  | none => exact iff_of_true hdefault trivial
  | some .null => exact iff_of_true hdefault trivial
  | some (.bool true) => exact iff_of_false (fun ⟨_, hsome, _⟩ => by cases hsome) (fun h => by cases h)
  | some (.bool false) => exact iff_of_true hdefault rfl
  | some (.num n) =>
    by_cases hzero : n = 0
    · subst hzero
      exact iff_of_true hdefault rfl
    · refine iff_of_false (fun ⟨_, hsome, _⟩ => ?_) hzero
      have htrue : Option.filter Json.truthy (some (Json.num n)) = some (Json.num n) :=
        Option.filter_eq_some_iff.mpr ⟨rfl, decide_eq_true hzero⟩
      unfold orElse at hsome
      rw [htrue] at hsome
      cases hsome
  | some (.str text) =>
    refine iff_of_true ?_ trivial
    by_cases hempty : text = ""
    · subst hempty
      exact hdefault
    · have htrue : Option.filter Json.truthy (some (Json.str text : Json Number)) = some (Json.str text) :=
        Option.filter_eq_some_iff.mpr ⟨rfl, decide_eq_true hempty⟩
      unfold orElse
      rw [htrue]
      refine ⟨_, rfl, fun channel hchannel => ?_⟩
      obtain ⟨c, -, rfl⟩ := List.mem_map.mp hchannel
      exact labels.texts ["channel"] [String.singleton c] rfl
  | some (.arr elems) =>
    constructor
    · rintro ⟨_, hsome, haccepts⟩
      cases hsome
      exact haccepts
    · intro h
      exact ⟨elems, rfl, h⟩
  | some (.obj fields) => exact iff_of_false (fun ⟨_, hsome, _⟩ => by cases hsome) id

theorem eachMessage_ok_iff (labels : LabelRule Number) (w : Surroundings) (topic : String)
    (value : Option (List Byte)) (s : Notifications Number) :
    (eachMessage labels w topic value s).2 = .ok () ↔ Handled labels topic value := by
  cases value with
  | none => exact iff_of_true rfl trivial
  | some bytes =>
    unfold eachMessage Handled
    dsimp only
    cases hparse : JsonParse.parse (decodeUtf8 bytes) with
    | none => exact iff_of_false (fun h => by cases h) (fun ⟨_, hsome, _⟩ => by cases hsome)
    | some event =>
      simp only [Option.some.injEq, exists_eq_left']
      by_cases htopic : isDispatched topic = true
      · rw [if_pos htopic]
        simp only [htopic, forall_const]
        cases hprop : event.prop "channels" with
        | none =>
          refine iff_of_false (fun h => by cases h) fun h => h.1 ?_
          cases event with
          | null => rfl
          | _ => cases hprop
        | some channels =>
          have hchannels : propertyOf event "channels" = channels := by
            unfold propertyOf
            rw [hprop]
            rfl
          have hne : event ≠ .null := by
            rintro rfl
            cases hprop
          rw [hchannels, and_iff_right hne]
          exact (dispatch_completes_iff _ s).trans (channels_taken_iff channels)
      · rw [if_neg htopic]
        exact iff_of_true rfl fun h => absurd h htopic

/-- kafkajs hands a message over until the handler completes: the state it leaves, `none` as long as it throws. -/
def redeliver (labels : LabelRule Number) (topic : String) (value : Option (List Byte)) :
    List Surroundings → Notifications Number → Option (Notifications Number)
  | [], _ => none
  | w :: ws, s =>
    match eachMessage labels w topic value s with
    | (s', .ok ()) => some s'
    | (s', .error ()) => redeliver labels topic value ws s'

/-- A message that is not handled is handed over for ever. -/
theorem redelivered_forever (h : ¬ Handled labels topic value) (ws : List Surroundings) (s : Notifications Number) :
    redeliver labels topic value ws s = none := by
  induction ws generalizing s with
  | nil => rfl
  | cons w ws ih =>
    have hthrown := mt (eachMessage_ok_iff labels w topic value s).mp h
    unfold redeliver
    cases hrun : eachMessage labels w topic value s with
    | mk s' outcome =>
      rw [hrun] at hthrown
      cases outcome with
      | ok _ => exact absurd rfl hthrown
      | error _ => exact ih s'

/-- **The exact condition.**  For every topic, all bytes, every state, all settings and whatever is rejected: the
handler completes without throwing iff the message is one of those that are handled, and the others block their
partition for ever. -/
theorem eachMessage_completes_iff (labels : LabelRule Number) (w : Surroundings) (topic : String)
    (value : Option (List Byte)) (s : Notifications Number) :
    ((eachMessage labels w topic value s).2 = .ok () ↔ Handled labels topic value) ∧
      ((∀ ws, redeliver labels topic value ws s = none) ↔ ¬ Handled labels topic value) := by
  refine ⟨eachMessage_ok_iff labels w topic value s, fun h hhandled => ?_, fun h ws => redelivered_forever h ws s⟩
  have hdone := (eachMessage_ok_iff labels w topic value s).mpr hhandled
  have hagain := h [w]
  unfold redeliver at hagain
  cases hrun : eachMessage labels w topic value s with
  | mk s' outcome =>
    rw [hrun] at hdone hagain
    cases hdone
    cases hagain

end Handler

/-! ### Three messages -/

/-- A text that is cut off, `null`, and channels as the dashboard's form sends them. -/
def poison : List (List Byte) :=
  ["\x7b", "null", "\x7b\"channels\":\x7b\"email\":true\x7d\x7d"].map fun text => encodeUtf8 text.toList

theorem poison_parsed : poison.map (fun bytes => JsonParse.parse (decodeUtf8 bytes)) =
    [none, some .null, some (.obj [("channels", .obj [("email", .bool true)])])] := rfl

theorem poison_unhandled : ∀ bytes ∈ poison, ¬ Handled promClient "alerts.triggered" (some bytes) := by
  rintro bytes hbytes ⟨event, hparse, htaken⟩
  obtain ⟨hne, hchannels⟩ := htaken rfl
  have hmem : some event ∈ poison.map fun bytes => JsonParse.parse (decodeUtf8 bytes) :=
    hparse ▸ List.mem_map_of_mem hbytes
  rw [poison_parsed] at hmem
  simp only [List.mem_cons, reduceCtorEq, Option.some.injEq, List.not_mem_nil, or_false, false_or] at hmem
  rcases hmem with rfl | rfl
  · exact hne rfl
  · exact hchannels

/-- **Each of them blocks its partition**, whatever the settings, and whatever is rejected. -/
theorem poison_blocks :
    poison.map (fun bytes => JsonParse.parse (decodeUtf8 bytes)) =
        [none, some .null, some (.obj [("channels", .obj [("email", .bool true)])])] ∧
      ∀ bytes ∈ poison, ∀ (w : Surroundings) (s : Notifications Number),
        (eachMessage promClient w "alerts.triggered" (some bytes) s).2 ≠ .ok () ∧
          ∀ ws, redeliver promClient "alerts.triggered" (some bytes) ws s = none := by
  refine ⟨poison_parsed, fun bytes hbytes w s => ⟨?_, fun ws => ?_⟩⟩
  · exact mt (eachMessage_ok_iff promClient w "alerts.triggered" (some bytes) s).mp
      (poison_unhandled bytes hbytes)
  · exact redelivered_forever (poison_unhandled bytes hbytes) ws s

end EdgeSphere.Notification
