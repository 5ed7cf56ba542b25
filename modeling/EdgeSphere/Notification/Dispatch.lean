import EdgeSphere.Notification.Rules

/-!
# The messages of an alert

`NotificationsService.dispatch` sends an alert to each of its channels and keeps a record of it.  The channels are
what a rule's body or a message holds, a JSON value of any shape; the counters are prom-client's, whose rule for
what it takes as labels is a parameter.

* `dispatch` — the loop, with its three ways to send and the record that `finally` keeps;
* `dispatchChannels_spec` — what a loop over accepted labels does, from any state;
* `Truthful` — what the record and the counters should say of the channels that were selected;
* `Deliverable` — an array of known channels, each once, with Slack only where its webhook is configured;
* `accepted_rules_truthful_iff` — **the exact condition**: whatever the failures, the record of a rule that triggers
  is truthful iff its channels are deliverable and its name is taken as a label;
* `form_selects_email` — the body of the dashboard's form: nothing is sent, and the record says success.
-/

namespace EdgeSphere.Notification

open EdgeSphere.Library
open EdgeSphere.Library.Keyed

variable {N : Type*}

/-! ### Labels -/

/-- Which values prom-client takes as labels of the names of a counter.  As many texts as there are names are
taken. -/
structure LabelRule (N : Type*) where
  accepts : List String → List (Option (Json N)) → Bool
  texts : ∀ (names texts : List String), names.length = texts.length →
    accepts names (texts.map fun s => some (.str s)) = true

/-- `labels(...)` and `inc()` as they are: an object in the place of the values has to have known names only. -/
def objectOrValues (names : List String) (values : List (Option (Json N))) : Bool :=
  match values with
  | some .null :: _ => true
  | some (.obj fields) :: _ => fields.all fun f => names.contains f.1
  | some (.arr elems) :: _ => elems.isEmpty
  | _ => decide (names.length = values.length)

theorem objectOrValues_texts (names texts : List String) (h : names.length = texts.length) :
    objectOrValues (N := N) names (texts.map fun s => some (.str s)) = true := by
  cases texts with
  | nil => exact decide_eq_true h
  | cons text texts =>
    refine decide_eq_true ?_
    rw [List.length_map]
    exact h

def promClient : LabelRule N := ⟨objectOrValues, objectOrValues_texts⟩

/-! ### Messages -/

/-- A template text, by its pieces. -/
inductive Piece (N : Type*) where
  | text (s : String)
  | value (v : Option (Json N))

/-- What is handed to a transport; the text for Slack stands in an attachment as well. -/
inductive Outgoing (N : Type*) where
  | email (sender recipient : String) (subject body : List (Piece N))
  | webhook (url : String) (payload : List (String × Option (Json N)))
  | slack (url : String) (text : List (Piece N))

def Outgoing.channel : Outgoing N → Channel
  | .email _ _ _ _ => .email
  | .webhook _ _ => .webhook
  | .slack _ _ => .slack

/-- The settings that `dispatch` reads. -/
structure NotifyConfig where
  smtpFrom : Option String
  alertEmailTo : Option String
  webhookUrl : Option String
  slackWebhookUrl : Option String

/-- A setting that is no empty text. -/
def setting (value : Option String) : Option String := value.filter fun s => decide (s ≠ "")

/-- `channel === 'email'`, `'webhook'` or `'slack'`. -/
def channelOf : Json N → Option Channel
  | .str s =>
    if s = "email" then some .email else if s = "webhook" then some .webhook
    else if s = "slack" then some .slack else none
  | _ => none

section Build

variable [Zero N] [DecidableEq N]

/-- `a || b`. -/
def orElse (a b : Option (Json N)) : Option (Json N) :=
  match a.filter Json.truthy with
  | some j => some j
  | none => b

/-- The message of a channel; Slack has none without its webhook, and what is no channel has none. -/
def messageOf (cfg : NotifyConfig) (now : String) (alert : String → Option (Json N)) (channel : Json N) :
    Option (Outgoing N) :=
  let ruleName := orElse (alert "ruleName") (alert "name")
  match channelOf channel with
  | some .email =>
    some (.email ((setting cfg.smtpFrom).getD "alerts@edgesphere.local")
      ((setting cfg.alertEmailTo).getD "admin@edgesphere.local") [.text "Alert Triggered: ", .value ruleName]
      [.text "Message: ", .value (alert "message"), .text "\nCondition: ", .value (alert "condition"),
        .text "\nValue: ", .value (alert "currentValue")])
  | some .webhook =>
    some (.webhook ((setting cfg.webhookUrl).getD "http://localhost:3100/api/webhooks/alerts")
      [("alertId", alert "id"), ("ruleName", ruleName), ("condition", alert "condition"),
        ("threshold", alert "threshold"), ("currentValue", alert "currentValue"), ("message", alert "message"),
        ("timestamp", orElse (alert "timestamp") (some (.str now))), ("severity", some (.str "high"))])
  | some .slack =>
    (setting cfg.slackWebhookUrl).map fun url =>
      .slack url [.text "*Alert*: ", .value ruleName, .text "\n", .value (alert "message")]
  | none => none

end Build

/-! ### The service -/

inductive Status where
  | success
  | failed
  deriving DecidableEq, Repr

structure NotificationRecord (N : Type*) where
  id : String
  alertId : Json N
  channels : Option (Json N)
  status : Status
  timestamp : String
  error : Option String

/-- The memory of the service and its counters, by the labels they were raised for; and, for the statements only,
every record that was ever made and every message that was handed to a transport, with the error that came back. -/
structure Notifications (N : Type*) where
  history : List (NotificationRecord N)
  sentTotal : List (Json N)
  failedTotal : List (Json N)
  recorded : List (NotificationRecord N)
  attempts : List (Outgoing N × Option String)

/-- What a dispatch meets: the settings, what becomes of the `n`-th message that is handed to a transport (`none` if
it is delivered), the random id and the instant. -/
structure Surroundings where
  config : NotifyConfig
  rejection : ℕ → Option String
  id : String
  now : String

section Loop

variable [Zero N] [DecidableEq N] (labels : LabelRule N) (w : Surroundings) (alert : String → Option (Json N))

/-- The branches of `dispatch` for a channel: what is handed over, and the error that comes back. -/
def sendTo (channel : Json N) (s : Notifications N) : Notifications N × Option String :=
  match messageOf w.config w.now alert channel with
  | none => (s, none)
  | some message =>
    let rejection := w.rejection s.attempts.length
    ({ s with attempts := s.attempts ++ [(message, rejection)] }, rejection)

/-- The body of the loop.  The counter of failures takes the same labels as the one of successes: where the first
throws, so does the second, and that one stands in the `catch`. -/
def dispatchChannel (channel : Json N) (s : Notifications N) (record : NotificationRecord N) :
    Notifications N × NotificationRecord N × Except Unit Unit :=
  let sent := sendTo w alert channel s
  if labels.accepts ["channel"] [some channel] then
    match sent.2 with
    | none => ({ sent.1 with sentTotal := sent.1.sentTotal ++ [channel] }, record, .ok ())
    | some message =>
      ({ sent.1 with failedTotal := sent.1.failedTotal ++ [channel] },
        { record with status := .failed, error := some message }, .ok ())
  else (sent.1, record, .error ())

def dispatchChannels : List (Json N) → Notifications N → NotificationRecord N →
    Notifications N × NotificationRecord N × Except Unit Unit
  | [], s, record => (s, record, .ok ())
  | channel :: channels, s, record =>
    match dispatchChannel labels w alert channel s record with
    | (s', record', .ok ()) => dispatchChannels channels s' record'
    | (s', record', .error ()) => (s', record', .error ())

/-- What `for ... of` runs through: the elements of an array, the characters of a text; it throws on anything else. -/
def elementsOf : Option (Json N) → Option (List (Json N))
  | some (.arr elems) => some elems
  | some (.str s) => some (s.toList.map fun c => .str (String.singleton c))
  | _ => none

/-- `unshift`, and `pop` if there are more than 100 now. -/
def remember (record : NotificationRecord N) (history : List (NotificationRecord N)) : List (NotificationRecord N) :=
  let history := record :: history
  if 100 < history.length then history.dropLast else history

/-- `NotificationsService.dispatch`. -/
def dispatch (channels : Option (Json N)) (s : Notifications N) : Notifications N × Except Unit Unit :=
  let record : NotificationRecord N :=
    { id := w.id, alertId := Json.firstTruthy (alert "id") none (.str "unknown"), channels, status := .success
      timestamp := w.now, error := none }
  let looped : Notifications N × NotificationRecord N × Except Unit Unit := match elementsOf channels with
    | none => (s, record, .error ())
    | some elems => dispatchChannels labels w alert elems s record
  ({ looped.1 with
      history := remember looped.2.1 looped.1.history
      recorded := looped.2.1 :: looped.1.recorded }, looped.2.2)

end Loop

/-! ### What was selected -/

/-- What a value of `channels` selects: the elements that the loop runs through and, in an object such as that of
the dashboard's form, the names that are set to true. -/
def selected : Option (Json N) → List (Json N)
  | some (.obj fields) => fields.filterMap fun f =>
    match f.2 with
    | .bool true => some (.str f.1)
    | _ => none
  | channels => (elementsOf channels).getD []

/-- The label of a message. -/
def labelOf (attempt : Outgoing N × Option String) : Json N := .str attempt.1.channel.text

/-- **The promise**: between two states, each selected channel was attempted exactly once, the counter of successes
was raised for the delivered ones and no others, and there is one new record, which says `failed` iff some selected
channel was not delivered. -/
structure Truthful (channels : List (Json N)) (before after : Notifications N) : Prop where
  once : ∀ channel ∈ channels, ∃ c : Channel, channel = .str c.text ∧
    ((after.attempts.drop before.attempts.length).map fun a => a.1.channel).count c = 1
  sent : after.sentTotal = before.sentTotal ++
    ((after.attempts.drop before.attempts.length).filter fun a => a.2.isNone).map labelOf
  record : ∃ record, after.recorded = record :: before.recorded ∧
    (record.status = .failed ↔ ∃ channel ∈ channels,
      ∀ a ∈ after.attempts.drop before.attempts.length, labelOf a = channel → a.2.isSome = true)

/-- An array of channels, none of them twice, with Slack only where its webhook is configured; or a value that
selects nothing. -/
def Deliverable (cfg : NotifyConfig) : Option (Json N) → Prop
  | some (.arr elems) => elems.Nodup ∧ ∀ channel ∈ elems, ∃ c : Channel, channel = .str c.text ∧
      (c = .slack → (setting cfg.slackWebhookUrl).isSome = true)
  | some (.str s) => s = ""
  | some (.obj fields) => ∀ f ∈ fields, f.2 ≠ .bool true
  | _ => True

/-! ### Channels and messages -/

theorem channelOf_eq_some {channel : Json N} {c : Channel} : channelOf channel = some c ↔ channel = .str c.text := by
  constructor
  · intro h
    unfold channelOf at h
    split at h
    · rename_i s
      split_ifs at h with hemail hwebhook hslack
      · cases h; rw [hemail]; rfl
      · cases h; rw [hwebhook]; rfl
      · cases h; rw [hslack]; rfl
    · cases h
  · rintro rfl
    cases c with
    | email => rfl
    | webhook => rfl
    | slack => rfl

theorem text_injective : Function.Injective Channel.text := by
  intro c c' h
  have hsame := channelOf_eq_some (N := ℚ).mpr (congrArg Json.str h)
  rw [channelOf_eq_some.mpr rfl] at hsame
  exact Option.some.inj hsame

section Messages

variable [Zero N] [DecidableEq N] {cfg : NotifyConfig} {now : String} {alert : String → Option (Json N)}

/-- The message of a channel is a message for it. -/
theorem channel_of_messageOf {channel : Json N} {m : Outgoing N} (h : messageOf cfg now alert channel = some m) :
    channel = .str m.channel.text := by
  unfold messageOf at h
  cases hchannel : channelOf channel with
  | none =>
    rw [hchannel] at h
    cases h
  | some c =>
    rw [hchannel] at h
    rw [channelOf_eq_some.mp hchannel]
    cases c with
    | email => cases h; rfl
    | webhook => cases h; rfl
    | slack =>
      obtain ⟨url, -, rfl⟩ := Option.map_eq_some_iff.mp h
      rfl

/-- A known channel has a message, Slack where its webhook is configured. -/
theorem messageOf_isSome (c : Channel) : (messageOf cfg now alert (.str c.text)).isSome = true ↔
    (c = .slack → (setting cfg.slackWebhookUrl).isSome = true) := by
  unfold messageOf
  rw [channelOf_eq_some.mpr rfl]
  cases c with
  | email => exact iff_of_true rfl (fun h => by cases h)
  | webhook => exact iff_of_true rfl (fun h => by cases h)
  | slack => simp

end Messages

/-! ### The loop -/

section Spec

variable [Zero N] [DecidableEq N] (labels : LabelRule N) (w : Surroundings) (alert : String → Option (Json N))
  (s : Notifications N)

omit [Zero N] [DecidableEq N] in
theorem accepts_text (c : Channel) : labels.accepts ["channel"] [some (.str c.text)] = true :=
  labels.texts ["channel"] [c.text] rfl

/-- What a loop leaves: the messages it handed over, in the order of the channels, with what became of them. -/
structure Looped (w : Surroundings) (alert : String → Option (Json N)) (channels : List (Json N))
    (s s' : Notifications N) (record record' : NotificationRecord N) (added : List (Outgoing N × Option String)) :
    Prop where
  attempts : s'.attempts = s.attempts ++ added
  messages : added.map Prod.fst = channels.filterMap (messageOf w.config w.now alert)
  recorded : s'.recorded = s.recorded
  sent : (∀ channel ∈ channels, (messageOf w.config w.now alert channel).isSome = true) →
    s'.sentTotal = s.sentTotal ++ (added.filter fun a => a.2.isNone).map labelOf
  status : record'.status = .failed ↔ record.status = .failed ∨ ∃ a ∈ added, a.2.isSome = true

/-- The body of the loop, where the label is accepted. -/
theorem dispatchChannel_spec (record : NotificationRecord N) {channel : Json N}
    (haccepts : labels.accepts ["channel"] [some channel] = true) :
    ∃ s' record' added, dispatchChannel labels w alert channel s record = (s', record', .ok ()) ∧
      Looped w alert [channel] s s' record record' added := by
  unfold dispatchChannel sendTo
  rw [if_pos haccepts]
  cases hmessage : messageOf w.config w.now alert channel with
  | none =>
    refine ⟨_, _, [], rfl, (List.append_nil _).symm, by rw [List.filterMap_cons_none hmessage]; rfl, rfl,
      fun hall => ?_, by simp⟩
    have hsome := hall channel (List.mem_singleton.mpr rfl)
    rw [hmessage] at hsome
    cases hsome
  | some m =>
    have hmessages : [m] = [channel].filterMap (messageOf w.config w.now alert) := by
      rw [List.filterMap_cons_some hmessage]
      rfl
    cases hrejection : w.rejection s.attempts.length with
    | none =>
      dsimp only
      refine ⟨_, _, [(m, none)], rfl, rfl, hmessages, rfl, fun _ => ?_, by simp⟩
      rw [channel_of_messageOf hmessage]
      rfl
    | some error =>
      dsimp only
      exact ⟨_, _, [(m, some error)], rfl, rfl, hmessages, rfl, fun _ => (List.append_nil _).symm, by simp⟩

/-- **The loop**, where all labels are accepted: it comes to its end, whatever is rejected. -/
theorem dispatchChannels_spec (record : NotificationRecord N) {channels : List (Json N)}
    (haccepts : ∀ channel ∈ channels, labels.accepts ["channel"] [some channel] = true) :
    ∃ s' record' added, dispatchChannels labels w alert channels s record = (s', record', .ok ()) ∧
      Looped w alert channels s s' record record' added := by
  induction channels generalizing s record with
  | nil => exact ⟨s, record, [], rfl, (List.append_nil _).symm, rfl, rfl, fun _ => (List.append_nil _).symm, by simp⟩
  | cons channel channels ih =>
    obtain ⟨s₁, record₁, first, hfirst, hone⟩ :=
      dispatchChannel_spec labels w alert s record (haccepts channel List.mem_cons_self)
    obtain ⟨s₂, record₂, rest, hrest, hmany⟩ := ih s₁ record₁ fun c hc => haccepts c (List.mem_cons_of_mem _ hc)
    refine ⟨s₂, record₂, first ++ rest, ?_, ?_, ?_, hmany.recorded.trans hone.recorded, fun hall => ?_, ?_⟩
    · unfold dispatchChannels
      rw [hfirst]
      exact hrest
    · rw [hmany.attempts, hone.attempts, List.append_assoc]
    · rw [List.map_append, hone.messages, hmany.messages, ← List.filterMap_append, List.singleton_append]
    · rw [hmany.sent fun c hc => hall c (List.mem_cons_of_mem _ hc),
        hone.sent fun c hc => hall c (List.mem_singleton.mp hc ▸ List.mem_cons_self), List.append_assoc,
        ← List.map_append, ← List.filter_append]
    · rw [hmany.status, hone.status, or_assoc]
      simp only [List.mem_append, or_and_right, exists_or]

variable {labels w alert s}

/-- Where every channel has its message, the messages are for the channels one by one. -/
theorem Looped.map_labelOf {channels : List (Json N)} {s' : Notifications N} {record record' : NotificationRecord N}
    {added : List (Outgoing N × Option String)} (h : Looped w alert channels s s' record record' added)
    (hall : ∀ channel ∈ channels, (messageOf w.config w.now alert channel).isSome = true) :
    added.map labelOf = channels := by
  have hmap : added.map labelOf = (added.map Prod.fst).map fun m => Json.str m.channel.text := by
    rw [List.map_map]
    rfl
  rw [hmap, h.messages, List.map_filterMap]
  refine (List.filterMap_congr fun channel hchannel => ?_).trans List.filterMap_some
  obtain ⟨m, hm⟩ := Option.isSome_iff_exists.mp (hall channel hchannel)
  rw [hm, channel_of_messageOf hm]
  rfl

omit [Zero N] [DecidableEq N] in
theorem map_channel (added : List (Outgoing N × Option String)) :
    (added.map fun a => a.1.channel).map (fun c => (Json.str c.text : Json N)) = added.map labelOf := by
  rw [List.map_map]
  rfl

variable (labels w alert s) in
/-- A dispatch to what can be run through, where all labels are accepted. -/
theorem dispatch_elements {channels : Option (Json N)} {elems : List (Json N)} (helems : elementsOf channels = some elems)
    (haccepts : ∀ channel ∈ elems, labels.accepts ["channel"] [some channel] = true) :
    ∃ s' record record' added, record.status = .success ∧ Looped w alert elems s s' record record' added ∧
      dispatch labels w alert channels s
        = ({ s' with history := remember record' s'.history, recorded := record' :: s'.recorded }, .ok ()) := by
  unfold dispatch
  rw [helems]
  obtain ⟨s', record', added, hrun, hlooped⟩ := dispatchChannels_spec labels w alert s
    { id := w.id, alertId := Json.firstTruthy (alert "id") none (.str "unknown"), channels, status := .success
      timestamp := w.now, error := none } haccepts
  dsimp only
  rw [hrun]
  exact ⟨s', _, record', added, rfl, hlooped, rfl⟩

variable (labels w alert s) in
/-- A dispatch to anything else throws, and keeps its record. -/
theorem dispatch_nothing {channels : Option (Json N)} (hnone : elementsOf channels = none) :
    ∃ record, record.status = .success ∧ dispatch labels w alert channels s
      = ({ s with history := remember record s.history, recorded := record :: s.recorded }, .error ()) := by
  unfold dispatch
  rw [hnone]
  exact ⟨_, rfl, rfl⟩

end Spec

/-! ### One dispatch -/

section Truth

variable [Zero N] [DecidableEq N] {labels : LabelRule N} {w : Surroundings} {alert : String → Option (Json N)}
  {s : Notifications N}

/-- A run through deliverable channels. -/
theorem truthful_of_deliverable {channels : Option (Json N)} {elems : List (Json N)}
    (helems : elementsOf channels = some elems) (hnodup : elems.Nodup)
    (hknown : ∀ channel ∈ elems, ∃ c : Channel, channel = .str c.text ∧
      (c = .slack → (setting w.config.slackWebhookUrl).isSome = true)) :
    Truthful elems s (dispatch labels w alert channels s).1 := by
  have haccepts : ∀ channel ∈ elems, labels.accepts ["channel"] [some channel] = true := by
    intro channel hchannel
    obtain ⟨c, rfl, -⟩ := hknown channel hchannel
    exact accepts_text labels c
  have hall : ∀ channel ∈ elems, (messageOf w.config w.now alert channel).isSome = true := by
    intro channel hchannel
    obtain ⟨c, rfl, hslack⟩ := hknown channel hchannel
    exact (messageOf_isSome c).mpr hslack
  obtain ⟨s', record, record', added, hstatus, hlooped, hrun⟩ :=
    dispatch_elements labels w alert s helems haccepts
  have hlabels := hlooped.map_labelOf hall
  have hmap := (map_channel added).trans hlabels
  have hnew : s'.attempts.drop s.attempts.length = added := by
    rw [hlooped.attempts, List.drop_left]
  rw [hrun]
  constructor
  · intro channel hchannel
    obtain ⟨c, rfl, -⟩ := hknown channel hchannel
    refine ⟨c, rfl, ?_⟩
    show ((s'.attempts.drop s.attempts.length).map fun a => a.1.channel).count c = 1
    rw [hnew]
    refine List.count_eq_one_of_mem (List.Nodup.of_map _ (hmap ▸ hnodup)) ?_
    rw [← hmap] at hchannel
    obtain ⟨c', hc', hsame⟩ := List.mem_map.mp hchannel
    rwa [← text_injective (Json.str.inj hsame)]
  · show s'.sentTotal = _ ++ ((s'.attempts.drop s.attempts.length).filter _).map _
    rw [hnew]
    exact hlooped.sent hall
  · refine ⟨record', congrArg (record' :: ·) hlooped.recorded, ?_⟩
    show record'.status = .failed ↔ ∃ channel ∈ elems,
      ∀ a ∈ s'.attempts.drop s.attempts.length, labelOf a = channel → a.2.isSome = true
    rw [hnew, hlooped.status, hstatus]
    constructor
    · rintro (hfailed | ⟨a, ha, hrejected⟩)
      · cases hfailed
      · refine ⟨labelOf a, hlabels ▸ List.mem_map_of_mem ha, fun a' ha' hsame => ?_⟩
        rwa [List.inj_on_of_nodup_map (hlabels ▸ hnodup) ha' ha hsame]
    · rintro ⟨channel, hchannel, hundelivered⟩
      rw [← hlabels] at hchannel
      obtain ⟨a, ha, hsame⟩ := List.mem_map.mp hchannel
      exact Or.inr ⟨a, ha, hundelivered a ha hsame⟩

/-- A value that selects nothing and cannot be run through. -/
theorem truthful_of_nothing {channels : Option (Json N)} (hnone : elementsOf channels = none) :
    Truthful [] s (dispatch labels w alert channels s).1 := by
  obtain ⟨record, hstatus, hrun⟩ := dispatch_nothing labels w alert s hnone
  rw [hrun]
  have hnew : s.attempts.drop s.attempts.length = [] := List.drop_length
  refine ⟨(fun channel hchannel => by cases hchannel), ?_, record, rfl, ?_⟩
  · show s.sentTotal = _ ++ ((s.attempts.drop s.attempts.length).filter _).map _
    rw [hnew]
    exact (List.append_nil _).symm
  · rw [hstatus]
    exact iff_of_false (fun h => by cases h) (fun ⟨_, hchannel, _⟩ => by cases hchannel)

/-- An array whose elements were attempted once each. -/
theorem deliverable_of_once {elems : List (Json N)}
    (honce : ∀ channel ∈ elems, ∃ c : Channel, channel = .str c.text ∧
      (((dispatch labels w alert (some (.arr elems)) s).1.attempts.drop s.attempts.length).map
        fun a => a.1.channel).count c = 1) :
    elems.Nodup ∧ ∀ channel ∈ elems, ∃ c : Channel, channel = .str c.text ∧
      (c = .slack → (setting w.config.slackWebhookUrl).isSome = true) := by
  have haccepts : ∀ channel ∈ elems, labels.accepts ["channel"] [some channel] = true := by
    intro channel hchannel
    obtain ⟨c, rfl, -⟩ := honce channel hchannel
    exact accepts_text labels c
  obtain ⟨s', record, record', added, -, hlooped, hrun⟩ :=
    dispatch_elements labels w alert s (show elementsOf (some (.arr elems)) = some elems from rfl) haccepts
  have hnew : (dispatch labels w alert (some (.arr elems)) s).1.attempts.drop s.attempts.length = added := by
    rw [hrun]
    show s'.attempts.drop s.attempts.length = added
    rw [hlooped.attempts, List.drop_left]
  rw [hnew] at honce
  -- a channel that was attempted has a message
  have hmessage : ∀ channel ∈ elems, ∃ c : Channel, channel = .str c.text ∧
      (messageOf w.config w.now alert channel).isSome = true := by
    intro channel hchannel
    obtain ⟨c, rfl, hcount⟩ := honce channel hchannel
    obtain ⟨a, ha, hac⟩ := List.mem_map.mp (List.count_pos_iff.mp (hcount ▸ Nat.one_pos))
    have hm : a.1 ∈ elems.filterMap (messageOf w.config w.now alert) :=
      hlooped.messages ▸ List.mem_map_of_mem ha
    obtain ⟨other, -, hother⟩ := List.mem_filterMap.mp hm
    have hsame : other = .str c.text := by rw [channel_of_messageOf hother, hac]
    exact ⟨c, rfl, by rw [← hsame, hother]; rfl⟩
  refine ⟨?_, fun channel hchannel => ?_⟩
  · have hlabels := hlooped.map_labelOf fun channel hchannel => (hmessage channel hchannel).choose_spec.2
    have hmap := (map_channel added).trans hlabels
    rw [← hmap]
    refine List.Nodup.map (fun c c' h => text_injective (Json.str.inj h)) (List.nodup_iff_count_le_one.mpr fun c => ?_)
    by_cases hmem : c ∈ added.map fun a => a.1.channel
    · obtain ⟨c', hsame, hcount⟩ := honce (.str c.text) (hmap ▸ List.mem_map_of_mem hmem)
      rw [text_injective (Json.str.inj hsame), hcount]
    · rw [List.count_eq_zero_of_not_mem hmem]
      exact Nat.zero_le 1
  · obtain ⟨c, rfl, hsome⟩ := hmessage channel hchannel
    exact ⟨c, rfl, (messageOf_isSome c).mp hsome⟩

theorem singleton_ne_channel (x : Char) (c : Channel) : String.singleton x ≠ c.text := by
  intro h
  have hlength : 1 = c.text.toList.length := by
    rw [← h, String.toList_singleton]
    rfl
  cases c with
  | email => exact absurd hlength (by decide)
  | webhook => exact absurd hlength (by decide)
  | slack => exact absurd hlength (by decide)

/-- **One dispatch**: whatever is rejected, it is truthful iff the channels are deliverable. -/
theorem dispatch_truthful_iff (channels : Option (Json N)) :
    Truthful (selected channels) s (dispatch labels w alert channels s).1 ↔ Deliverable w.config channels := by
  match channels with
  | none => exact iff_of_true (truthful_of_nothing rfl) trivial
  | some .null => exact iff_of_true (truthful_of_nothing rfl) trivial
  | some (.bool b) => exact iff_of_true (truthful_of_nothing rfl) trivial
  | some (.num n) => exact iff_of_true (truthful_of_nothing rfl) trivial
  | some (.arr elems) =>
    exact ⟨fun h => deliverable_of_once h.once, fun h => truthful_of_deliverable rfl h.1 h.2⟩
  | some (.str text) =>
    constructor
    · intro h
      show text = ""
      by_contra hne
      obtain ⟨x, xs, hcons⟩ := List.exists_cons_of_ne_nil fun hnil => hne (String.toList_eq_nil_iff.mp hnil)
      have hmem : (Json.str (String.singleton x) : Json N) ∈ selected (some (.str text)) := by
        show _ ∈ text.toList.map _
        rw [hcons]
        exact List.mem_cons_self
      obtain ⟨c, hc, -⟩ := h.once _ hmem
      exact singleton_ne_channel x c (Json.str.inj hc)
    · rintro rfl
      exact truthful_of_deliverable rfl List.nodup_nil fun channel hchannel => by cases hchannel
  | some (.obj fields) =>
    obtain ⟨record, -, hrun⟩ := dispatch_nothing labels w alert s
      (show elementsOf (some (.obj fields)) = none from rfl)
    constructor
    · rintro h f hf htrue
      have hmem : (Json.str f.1 : Json N) ∈ selected (some (.obj fields)) := by
        refine List.mem_filterMap.mpr ⟨f, hf, ?_⟩
        rw [htrue]
      obtain ⟨c, -, hcount⟩ := h.once _ hmem
      rw [hrun] at hcount
      have hzero : ((s.attempts.drop s.attempts.length).map fun a => a.1.channel).count c = 1 := hcount
      rw [List.drop_length] at hzero
      cases hzero
    · intro hfalse
      have hnone : selected (some (.obj fields)) = [] := by
        refine List.filterMap_eq_nil_iff.mpr fun f hf => ?_
        split
        · rename_i htrue
          exact absurd htrue (hfalse f hf)
        · rfl
      rw [hnone]
      exact truthful_of_nothing rfl

end Truth

/-! ### A rule that triggers -/

/-- What a check draws and computes for a rule that is triggered; an instant is its text. -/
structure Trigger where
  uuid : String
  value : ℚ
  message : String
  timestamp : String
  now : ℕ

/-- The memory of `AlertsService` that a trigger changes, the latest entries first, and its counter. -/
structure AlertMemory where
  history : List StoredRule
  lastTriggered : List (Option (Json ℚ) × ℕ)
  triggeredTotal : List (Option (Json ℚ) × Option (Json ℚ))

def alertRecordOf (rule : StoredRule) (t : Trigger) : StoredRule := fun name => (List.lookup name
  [("id", some (.str t.uuid)), ("ruleId", rule "id"), ("ruleName", rule "name"), ("condition", rule "condition"),
    ("threshold", rule "threshold"), ("currentValue", some (.num t.value)), ("message", some (.str t.message)),
    ("timestamp", some (.str t.timestamp))]).getD none

/-- The body of `if (result.triggered)` in `checkAlerts`; what is thrown there is logged only. -/
def trigger (labels : LabelRule ℚ) (w : Surroundings) (rule : StoredRule) (t : Trigger) (m : AlertMemory)
    (s : Notifications ℚ) : AlertMemory × Notifications ℚ :=
  let alertRecord := alertRecordOf rule t
  let history := alertRecord :: m.history
  let m : AlertMemory :=
    { m with
      history := if 50 < history.length then history.dropLast else history
      lastTriggered := (rule "id", t.now) :: m.lastTriggered }
  if labels.accepts ["rule_name", "condition"] [rule "name", rule "condition"] then
    ({ m with triggeredTotal := (rule "name", rule "condition") :: m.triggeredTotal },
      (dispatch labels w alertRecord (rule "channels") s).1)
  else (m, s)

/-- The rule's name and condition are taken as labels, and its channels are deliverable. -/
def Reported (labels : LabelRule ℚ) (cfg : NotifyConfig) (name condition channels : Option (Json ℚ)) : Prop :=
  labels.accepts ["rule_name", "condition"] [name, condition] = true ∧ Deliverable cfg channels

/-- **A stored rule that triggers**, whatever it holds. -/
theorem trigger_truthful_iff (labels : LabelRule ℚ) (w : Surroundings) (rule : StoredRule) (t : Trigger)
    (m : AlertMemory) (s : Notifications ℚ) :
    Truthful (selected (rule "channels")) s (trigger labels w rule t m s).2 ↔
      Reported labels w.config (rule "name") (rule "condition") (rule "channels") := by
  unfold trigger Reported
  by_cases haccepts : labels.accepts ["rule_name", "condition"] [rule "name", rule "condition"] = true
  · rw [if_pos haccepts, and_iff_right haccepts]
    exact dispatch_truthful_iff (rule "channels")
  · rw [if_neg haccepts]
    refine iff_of_false (fun h => ?_) fun h => haccepts h.1
    obtain ⟨record, hrecord, -⟩ := h.record
    exact List.cons_ne_self record s.recorded hrecord.symm

/-- **The exact condition.**  For every body that `createRule` or `updateRule` accepts, all settings and all patterns
of rejected messages: when the rule triggers, each selected channel is attempted exactly once, the counter of
successes counts the delivered messages, and the record says `failed` iff a selected channel was not delivered, iff
the channels of the rule are deliverable and its name and condition are taken as labels. -/
theorem accepted_rules_truthful_iff (labels : LabelRule ℚ) (w : Surroundings) (t : Trigger) (m : AlertMemory)
    (s : Notifications ℚ) :
    (∀ (uuid : String) (body : Body) (rules : List StoredRule),
      Truthful (selected ((createRule uuid body rules).2 "channels")) s
          (trigger labels w (createRule uuid body rules).2 t m s).2 ↔
        Reported labels w.config (some (Json.firstTruthy (body.properties "name") none (.str "New Rule")))
          (some (Json.firstTruthy (body.properties "condition") none (.str "error_rate_above")))
          (some (Json.firstTruthy (body.properties "channels") none (.arr [.str "webhook"])))) ∧
    (∀ (id : String) (updates : Body) (rules rules' : List StoredRule) (rule : StoredRule),
      updateRule id updates rules = .ok (rules', rule) →
        ∃ r ∈ rules, hasId id r = true ∧
          (Truthful (selected (rule "channels")) s (trigger labels w rule t m s).2 ↔
            Reported labels w.config ((updates.properties "name").or (r "name"))
              ((updates.properties "condition").or (r "condition"))
              ((updates.properties "channels").or (r "channels")))) := by
  constructor
  · intro uuid body rules
    exact trigger_truthful_iff labels w (createRule uuid body rules).2 t m s
  · intro id updates rules rules' rule hupdate
    unfold updateRule at hupdate
    split at hupdate
    · cases hupdate
    · rename_i updated hupdated
      cases hupdate
      obtain ⟨before, r, after, rfl, hr, -, rfl, -⟩ := updateFirst_eq_some.mp hupdated
      exact ⟨r, List.mem_append_right _ List.mem_cons_self, hr, trigger_truthful_iff labels w _ t m s⟩

/-! ### The dashboard's form -/

/-- Nothing was sent or recorded yet. -/
def freshNotifications : Notifications ℚ := ⟨[], [], [], [], []⟩

/-- No webhook for Slack, and everything that is handed over is delivered. -/
def plainSurroundings : Surroundings := ⟨⟨none, none, none, none⟩, fun _ => none, "x7k2m", "2024-05-01T10:00:00.000Z"⟩

def firstTrigger : Trigger :=
  ⟨"f81d", 10, "Error rate is 10%, above threshold of 5%", "2024-05-01T10:00:00.000Z", 1714557600000⟩

/-- An update of a default rule, to e-mail instead of the webhook. -/
def emailUpdate : Body := .object [("channels", .arr [.str "email"])]

def emailRule : StoredRule := spread highErrorRate.object emailUpdate.properties

/-- The rule after the update. -/
theorem accepted_rules_truthful_iff_email : ∃ r ∈ initialRules, hasId "1" r = true ∧
    (Truthful (selected (emailRule "channels")) freshNotifications
        (trigger promClient plainSurroundings emailRule firstTrigger ⟨[], [], []⟩ freshNotifications).2 ↔
      Reported promClient plainSurroundings.config ((emailUpdate.properties "name").or (r "name"))
        ((emailUpdate.properties "condition").or (r "condition"))
        ((emailUpdate.properties "channels").or (r "channels"))) :=
  (accepted_rules_truthful_iff promClient plainSurroundings firstTrigger ⟨[], [], []⟩ freshNotifications).2
    "1" emailUpdate initialRules _ _ rfl

/-- The body that the form sends: `window` is not read, and `channels` is an object. -/
def formBody : Body :=
  .object [("name", .str "Errors"), ("condition", .str "error_rate_above"), ("threshold", .num 5), ("window", .num 5),
    ("channels", .obj [("email", .bool true), ("webhook", .bool false), ("slack", .bool false)])]

/-- **A rule of the form selects e-mail, sends nothing and is recorded as a success.** -/
theorem form_selects_email :
    selected ((createRule "f81d" formBody []).2 "channels") = [.str "email"] ∧
      (trigger promClient plainSurroundings (createRule "f81d" formBody []).2 firstTrigger ⟨[], [], []⟩
        freshNotifications).2.recorded.map (·.status) = [.success] ∧
      ¬ Truthful (selected ((createRule "f81d" formBody []).2 "channels")) freshNotifications
        (trigger promClient plainSurroundings (createRule "f81d" formBody []).2 firstTrigger ⟨[], [], []⟩
          freshNotifications).2 := by
  have hselected : selected ((createRule "f81d" formBody []).2 "channels") = [.str "email"] := rfl
  refine ⟨hselected, rfl, fun h => ?_⟩
  rw [hselected] at h
  obtain ⟨c, -, hcount⟩ := h.once _ List.mem_cons_self
  have hnone : ([] : List Channel).count c = 1 := hcount
  cases hnone

end EdgeSphere.Notification
