import EdgeSphere.Library.Buffer
import EdgeSphere.Library.JsonText
import EdgeSphere.Library.Program

/-!
# The dead letter queue of the gateway

`EventPublisherService.publishRequestEvent`, and `DlqService` with the handler that sends a dead letter again.
What has been tried is written into the letter, so that each handler knows it from its text alone.

* `DlqMessage.ofBytes_toBytes` — **a letter is read back**;
* `Sending`, `Stamping`, `Dying`, `Arriving`, … — where a call stands, by what it does next;
* `publishRequestEvent_sending`, `eachMessage_arriving` — the calls go through these.
-/

namespace EdgeSphere.Gateway.DeadLetters

open EdgeSphere.Library
open EdgeSphere.Library.Buffer
open EdgeSphere.Library.Program

/-! ### Messages -/

/-- What `JSON.stringify` writes of an event, name by name: a date as its text, and nothing of `undefined`. -/
abbrev EventData := List (String × Json NumberToken)

/-- The message that an event is sent as. -/
def eventBytes (data : EventData) : List Byte := encodeUtf8 (Json.stringify (.obj data))

structure DlqMessage where
  originalTopic : String
  originalMessage : Json NumberToken
  error : String
  attempt : ℕ
  timestamp : String
  retryAfter : ℤ

namespace DlqMessage

/-- The object literal of `publishToDlq`. -/
def toJson (m : DlqMessage) : Json NumberToken :=
  .obj [("originalTopic", .str m.originalTopic), ("originalMessage", m.originalMessage), ("error", .str m.error),
    ("attempt", .num (.ofInt m.attempt)), ("timestamp", .str m.timestamp), ("retryAfter", .num (.ofInt m.retryAfter))]

/-- What the handler reads of a document, if it is as `publishToDlq` writes them; nothing else writes to these
topics. -/
def ofJson (document : Json NumberToken) : Option DlqMessage :=
  match (document.prop "originalTopic").join, (document.prop "originalMessage").join, (document.prop "error").join,
    (document.prop "attempt").join, (document.prop "timestamp").join, (document.prop "retryAfter").join with
  | some (.str originalTopic), some originalMessage, some (.str error), some (.num attempt), some (.str timestamp),
    some (.num retryAfter) =>
    match attempt.toInt, retryAfter.toInt with
    | some (.ofNat attempt), some retryAfter =>
      some { originalTopic, originalMessage, error, attempt, timestamp, retryAfter }
    | _, _ => none
  | _, _, _, _, _, _ => none

def toBytes (m : DlqMessage) : List Byte := encodeUtf8 (Json.stringify m.toJson)

/-- `JSON.parse(message.value.toString())`. -/
def ofBytes (bytes : List Byte) : Option DlqMessage := (Json.parse (decodeUtf8 bytes)).bind ofJson

theorem ofJson_toJson (m : DlqMessage) : ofJson m.toJson = some m := by
  have hattempt : (NumberToken.ofInt m.attempt).toInt = some (.ofNat m.attempt) := NumberToken.toInt_ofInt _
  have hretryAfter := NumberToken.toInt_ofInt m.retryAfter
  show (match (NumberToken.ofInt m.attempt).toInt, (NumberToken.ofInt m.retryAfter).toInt with
    | some (.ofNat attempt), some retryAfter => some { m with attempt, retryAfter }
    | _, _ => none) = some m
  rw [hattempt, hretryAfter]

/-- **A letter is read back.** -/
theorem ofBytes_toBytes (m : DlqMessage) : ofBytes m.toBytes = some m := by
  unfold ofBytes toBytes
  rw [decodeUtf8_encodeUtf8, Json.parse_stringify, Option.bind_some, ofJson_toJson]

end DlqMessage

/-! ### Calls -/

/-- `substring(0, units)`; half a surrogate pair is left out. -/
def substringUnits : ℕ → List Char → List Char
  | _, [] => []
  | units, c :: cs =>
    let width := if c.toNat < 0x10000 then 1 else 2
    if width ≤ units then c :: substringUnits (units - width) cs else []

/-- What these calls do outside of the program. -/
inductive Command where
  | send (topic : String) (value : List Byte)
  /-- `new Date().toISOString()`. -/
  | newDate
  | dateNow
  | sleep (ms : ℤ)
  | recordDlqMessage (topic : String) (reason : String)
  | recordDlqRetrySuccess
  | recordDlqPermanentFailure
  deriving DecidableEq

abbrev Answer : Command → Type
  | .send _ _ => Unit
  | .newDate => String
  | .dateNow => ℤ
  | .sleep _ => Unit
  | .recordDlqMessage _ _ => Unit
  | .recordDlqRetrySuccess => Unit
  | .recordDlqPermanentFailure => Unit

/-- What is thrown is known by its message. -/
abbrev DlqProgram := Program Command Answer String Unit

abbrev await (c : Command) : Program Command Answer String (Answer c) := command c

def getRetryAfterMs (attempt : ℕ) : ℤ :=
  if attempt = 0 then 30 * 1000
  else if attempt = 1 then 5 * 60 * 1000
  else if attempt = 2 then 30 * 60 * 1000
  else -1

/-- `a || b` of texts. -/
def orText (a b : String) : String := if a ≠ "" then a else b

def publishToDlq (originalTopic : String) (message : Json NumberToken) (error : String) (attempt : ℕ) :
    DlqProgram := do
  let retryAfter := getRetryAfterMs attempt
  let timestamp ← await .newDate
  let dlqMessage : DlqMessage := ⟨originalTopic, message, error, attempt, timestamp, retryAfter⟩
  catchAll (do
    await (.send (originalTopic ++ ".dlq") dlqMessage.toBytes)
    await (.recordDlqMessage originalTopic (String.ofList (substringUnits 50 error.toList)))) fun _ => ret ()

def publishRequestEvent (data : EventData) : DlqProgram :=
  catchAll (await (.send "request.events" (eventBytes data))) fun error =>
    publishToDlq "request.events" (.obj data) (orText error "Unknown error") 0

/-- The text of a message that is sent again. -/
def originalText : Json NumberToken → List Char
  | .str s => s.toList
  | message => Json.stringify message

/-- `getTime` is that of the date a text stands for; `none` is NaN. -/
def waitBefore (getTime : String → Option ℤ) (m : DlqMessage) (now : ℤ) : DlqProgram :=
  match getTime m.timestamp with
  | none => ret ()
  | some msgTime =>
    let waitTime := msgTime + m.retryAfter - now
    if 0 < waitTime then await (.sleep (min waitTime 10000)) else ret ()

/-- `eachMessage`, the handler of `subscribeAndRetry`. -/
def eachMessage (getTime : String → Option ℤ) (value : Option (List Byte)) : DlqProgram :=
  match value with
  | none => ret ()
  | some bytes => catchAll (match DlqMessage.ofBytes bytes with
    | none => throw "SyntaxError"
    | some dlqMsg => do
      let now ← await .dateNow
      if dlqMsg.retryAfter = -1 ∨ 3 ≤ dlqMsg.attempt then
        await .recordDlqPermanentFailure
      else do
        waitBefore getTime dlqMsg now
        catchAll (do
          await (.send dlqMsg.originalTopic (encodeUtf8 (originalText dlqMsg.originalMessage)))
          await .recordDlqRetrySuccess) fun retryError =>
          publishToDlq dlqMsg.originalTopic dlqMsg.originalMessage (orText retryError "Retry failed")
            (dlqMsg.attempt + 1)) fun _ => ret ()

/-- Both tests of the handler are one: no time is set from the third attempt on. -/
theorem gives_up_iff (attempt : ℕ) : getRetryAfterMs attempt = -1 ∨ 3 ≤ attempt ↔ 3 ≤ attempt := by
  unfold getRetryAfterMs
  split
  · omega
  split
  · omega
  split
  · omega
  · omega

/-! ### Where a call stands -/

/-- The counters of the queue. -/
def Command.IsCounter : Command → Prop
  | recordDlqMessage _ _ => True
  | recordDlqRetrySuccess => True
  | _ => False

/-- Only sends fail. -/
def Command.Possible (c : Command) (r : Except String (Answer c)) : Prop :=
  (∃ topic value, c = .send topic value) ∨ ∃ answer, r = .ok answer

/-- Nothing is left but counters. -/
def Spent (p : DlqProgram) : Prop := p.Obeys Command.Possible Command.IsCounter

section Phases

variable (data : EventData)

/-- A letter about the event, after its original send and `k` others have failed. -/
def Letter (k : ℕ) (bytes : List Byte) : Prop :=
  ∃ error timestamp, bytes = DlqMessage.toBytes ⟨"request.events", .obj data, error, k, timestamp, getRetryAfterMs k⟩

/-- It is about to send a letter. -/
def Dying (k : ℕ) (p : DlqProgram) : Prop :=
  ∃ bytes next, p = call (.send "request.events.dlq" bytes) next ∧ Letter data k bytes ∧ ∀ r, Spent (next r)

/-- It is about to date one. -/
def Stamping (k : ℕ) (p : DlqProgram) : Prop :=
  ∃ next, p = call .newDate next ∧ ∀ timestamp, Dying data k (next (.ok timestamp))

/-- It is about to send the event; if that fails, there will be a letter. -/
def Sending (k : ℕ) (p : DlqProgram) : Prop :=
  ∃ next, p = call (.send "request.events" (eventBytes data)) next ∧ Spent (next (.ok ())) ∧
    ∀ error, Stamping data k (next (.error error))

/-- It waits before that, or not. -/
def Pausing (k : ℕ) (p : DlqProgram) : Prop :=
  Sending data k p ∨ ∃ ms next, p = call (.sleep ms) next ∧ Sending data k (next (.ok ()))

/-- It is about to give up. -/
def GivingUp (p : DlqProgram) : Prop := ∃ next, p = call .recordDlqPermanentFailure next ∧ Spent (next (.ok ()))

/-- It has a letter in hand. -/
def Arriving (k : ℕ) (p : DlqProgram) : Prop :=
  ∃ next, p = call .dateNow next ∧
    ∀ now, if 3 ≤ k then GivingUp (next (.ok now)) else Pausing data (k + 1) (next (.ok now))

variable {data} {k : ℕ} {p : DlqProgram}

theorem Spent.catchAll (h : Spent p) : Spent (p.catchAll fun _ => ret ()) := Obeys.catchAll h fun _ => trivial

theorem Stamping.catchAll (h : Stamping data k p) : Stamping data k (p.catchAll fun _ => ret ()) := by
  obtain ⟨next, rfl, hnext⟩ := h
  refine ⟨_, rfl, fun timestamp => ?_⟩
  obtain ⟨bytes, last, hsend, hletter, hspent⟩ := hnext timestamp
  show Dying data k ((next (.ok timestamp)).catchAll fun _ => ret ())
  rw [hsend]
  exact ⟨bytes, _, rfl, hletter, fun r => (hspent r).catchAll⟩

theorem publishToDlq_stamping (error : String) :
    Stamping data k (publishToDlq "request.events" (.obj data) error k) := by
  refine ⟨_, rfl, fun timestamp => ⟨_, _, rfl, ⟨error, timestamp, rfl⟩, fun r => ?_⟩⟩
  cases r with
  | ok u =>
    have hcounter : Spent
        (await (.recordDlqMessage "request.events" (String.ofList (substringUnits 50 error.toList)))) :=
      obeys_command trivial
    exact hcounter.catchAll
  | error e => trivial

theorem publishRequestEvent_sending : Sending data 0 (publishRequestEvent data) :=
  ⟨_, rfl, trivial, fun _ => publishToDlq_stamping _⟩

/-- A counter does not fail. -/
theorem possible_retrySuccess {r : Except String (Answer .recordDlqRetrySuccess)}
    (h : Command.Possible .recordDlqRetrySuccess r) : r = .ok () := by
  rcases h with ⟨topic, value, heq⟩ | ⟨answer, rfl⟩
  · cases heq
  · rfl

/-- The handler sends the event again. -/
theorem resend_sending : Sending data (k + 1) (Program.catchAll (Program.catchAll (do
      await (.send "request.events" (encodeUtf8 (originalText (.obj data))))
      await .recordDlqRetrySuccess) fun retryError =>
        publishToDlq "request.events" (.obj data) (orText retryError "Retry failed") (k + 1)) fun _ => ret ()) := by
  refine ⟨_, rfl, ⟨trivial, fun r hr => ?_⟩, fun error => (publishToDlq_stamping _).catchAll⟩
  rw [possible_retrySuccess hr]
  trivial

/-- **A handler that is given a letter.** -/
theorem eachMessage_arriving (getTime : String → Option ℤ) {bytes : List Byte} (h : Letter data k bytes) :
    Arriving data k (eachMessage getTime (some bytes)) := by
  obtain ⟨error, timestamp, rfl⟩ := h
  unfold eachMessage
  simp only [DlqMessage.ofBytes_toBytes]
  refine ⟨_, rfl, fun now => ?_⟩
  by_cases hk : 3 ≤ k
  · have htest := (gives_up_iff k).mpr hk
    rw [if_pos hk]
    show GivingUp (Program.catchAll (if getRetryAfterMs k = -1 ∨ 3 ≤ k then _ else _) _)
    rw [if_pos htest]
    exact ⟨_, rfl, trivial⟩
  · have htest := mt (gives_up_iff k).mp hk
    rw [if_neg hk]
    show Pausing data (k + 1) (Program.catchAll (if getRetryAfterMs k = -1 ∨ 3 ≤ k then _ else _) _)
    rw [if_neg htest]
    unfold waitBefore
    split
    · exact .inl resend_sending
    · simp only
      split
      · exact .inr ⟨_, _, rfl, resend_sending⟩
      · exact .inl resend_sending

end Phases

end EdgeSphere.Gateway.DeadLetters
