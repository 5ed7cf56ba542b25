import EdgeSphere.Gateway.DlqService
import EdgeSphere.Library.Labelled

/-!
# What becomes of an event

Calls of `publishRequestEvent` and handlers of dead letters, interleaved at their awaits, over one broker whose
sends fail as they like.  Everything is labelled with the event that it is about; no program sees the labels.

* `System.step` — one event of the gateway; `Journey.step` — what it is for the event that it is about
  (`journey_step`);
* `Fate` — the invariant: the event is in one call, or in one letter, or its fate is settled;
* `resends_bounded` — **at most three re-sends, all of the same text, and then one permanent failure**;
* `kept_iff` — **an event is kept exactly if none of its letters is refused**.
-/

namespace EdgeSphere.Gateway.DeadLetters

open EdgeSphere.Library
open EdgeSphere.Library.Buffer
open EdgeSphere.Library.Program
open EdgeSphere.Library.Runs

/-! ### The system -/

/-- Whose call it is. -/
inductive Origin where
  | publishRequestEvent
  | subscribeAndRetry
  deriving DecidableEq, Repr

/-- A call. -/
structure Task where
  origin : Origin
  program : DlqProgram

/-- What the environment adds to a command: the time, and the message of the error if it is a send that
fails. -/
structure Turn where
  now : ℤ
  error : Option String

/-- A send or a record that has been made. -/
structure Entry where
  origin : Origin
  command : Command
  error : Option String

def respond (toISOString : ℤ → String) (turn : Turn) : (c : Command) → Except String (Answer c)
  | .send _ _ => match turn.error with
    | none => .ok ()
    | some error => .error error
  | .newDate => .ok (toISOString turn.now)
  | .dateNow => .ok turn.now
  | .sleep _ => .ok ()
  | .recordDlqMessage _ _ => .ok ()
  | .recordDlqRetrySuccess => .ok ()
  | .recordDlqPermanentFailure => .ok ()

/-- The topics that are subscribed to, `/.*\.dlq$/`. -/
def subscribed (topic : String) : Bool := ".dlq".toList.isSuffixOf topic.toList

/-- The letters that a command adds. -/
def lettersOf (turn : Turn) : Command → List (List Byte)
  | .send topic value => if subscribed topic && turn.error.isNone then [value] else []
  | _ => []

def entriesOf (origin : Origin) (turn : Turn) : Command → List Entry
  | .send topic value => [⟨origin, .send topic value, turn.error⟩]
  | .newDate => []
  | .dateNow => []
  | .sleep _ => []
  | .recordDlqMessage topic reason => [⟨origin, .recordDlqMessage topic reason, none⟩]
  | .recordDlqRetrySuccess => [⟨origin, .recordDlqRetrySuccess, none⟩]
  | .recordDlqPermanentFailure => [⟨origin, .recordDlqPermanentFailure, none⟩]

/-- The letter that a command loses. -/
def refusedBy (turn : Turn) : Command → Bool
  | .send topic _ => subscribed topic && turn.error.isSome
  | _ => false

/-- The next command of a call, if it has not ended. -/
def Task.next (t : Task) : Option Command :=
  match t.program with
  | call c _ => some c
  | _ => none

/-- The call after its next command. -/
def Task.advance (toISOString : ℤ → String) (turn : Turn) (t : Task) : Task :=
  match t.program with
  | call c next => ⟨t.origin, next (respond toISOString turn c)⟩
  | _ => t

structure System where
  events : List EventData
  tasks : List (ℕ × Task)
  dlq : List (ℕ × List Byte)
  log : List (ℕ × Entry)

def System.initial : System := ⟨[], [], [], []⟩

inductive SystemEvent where
  | publish (data : EventData)
  /-- The call at this place executes its next command. -/
  | advance (place : ℕ) (turn : Turn)
  /-- The letter at this place is handed to a handler. -/
  | receive (place : ℕ)

section System

variable (toISOString : ℤ → String) (getTime : String → Option ℤ)

def System.step (s : System) : SystemEvent → Option System
  | .publish data => some { s with
      events := s.events ++ [data]
      tasks := s.tasks ++ [(s.events.length, ⟨.publishRequestEvent, publishRequestEvent data⟩)] }
  | .advance place turn => s.tasks[place]?.bind fun (i, t) => t.next.map fun c => { s with
      tasks := s.tasks.set place (i, t.advance toISOString turn)
      dlq := s.dlq ++ (lettersOf turn c).map fun letter => (i, letter)
      log := s.log ++ (entriesOf t.origin turn c).map fun entry => (i, entry) }
  | .receive place => s.dlq[place]?.map fun (i, letter) => { s with
      tasks := s.tasks ++ [(i, ⟨.subscribeAndRetry, eachMessage getTime (some letter)⟩)]
      dlq := s.dlq.eraseIdx place }

/-- The event one of whose letters is refused by the broker. -/
def System.refuses (s : System) : SystemEvent → Option ℕ
  | .advance place turn => s.tasks[place]?.bind fun (i, t) => t.next.bind fun c =>
      if refusedBy turn c then some i else none
  | _ => none

/-! ### One event -/

/-- The calls, letters and entries about one event. -/
structure Journey where
  tasks : List Task
  dlq : List (List Byte)
  log : List Entry

def System.journey (s : System) (i : ℕ) : Journey := ⟨select i s.tasks, select i s.dlq, select i s.log⟩

inductive Move where
  | advance (place : ℕ) (turn : Turn)
  | receive (place : ℕ)

def Journey.step (j : Journey) : Move → Option Journey
  | .advance place turn => j.tasks[place]?.bind fun t => t.next.map fun c =>
    ⟨j.tasks.set place (t.advance toISOString turn), j.dlq ++ lettersOf turn c, j.log ++ entriesOf t.origin turn c⟩
  | .receive place => j.dlq[place]?.map fun letter =>
    ⟨j.tasks ++ [⟨.subscribeAndRetry, eachMessage getTime (some letter)⟩], j.dlq.eraseIdx place, j.log⟩

def Journey.refuses (j : Journey) : Move → Bool
  | .advance place turn => (j.tasks[place]?.bind Task.next).any (refusedBy turn)
  | .receive _ => false

variable {toISOString getTime}

/-- **A step of the gateway is a step of one event**, and nothing to the others. -/
theorem journey_step {s s' : System} {e : SystemEvent} (hstep : s.step toISOString getTime e = some s') (i : ℕ) :
    (∃ data, e = .publish data ∧ i = s.events.length) ∨
    (s'.journey i = s.journey i ∧ s.refuses e ≠ some i) ∨
    ∃ move, (s.journey i).step toISOString getTime move = some (s'.journey i) ∧
      ((s.journey i).refuses move = true ↔ s.refuses e = some i) := by
  cases e with
  | publish data =>
    cases hstep
    by_cases hi : i = s.events.length
    · exact .inl ⟨data, rfl, hi⟩
    · refine .inr (.inl ⟨?_, fun h => by cases h⟩)
      unfold System.journey
      rw [select_append, select_cons_of_ne (Ne.symm hi), select_nil, List.append_nil]
  | advance place turn =>
    obtain ⟨⟨j, t⟩, ht, hstep⟩ := Option.bind_eq_some_iff.mp hstep
    obtain ⟨c, hc, rfl⟩ := Option.map_eq_some_iff.mp hstep
    have hrefuses : s.refuses (.advance place turn) = if refusedBy turn c then some j else none := by
      simp only [System.refuses, ht, Option.bind_some, hc]
    by_cases hj : j = i
    · subst hj
      refine .inr (.inr ⟨.advance (placeOf j s.tasks place) turn, ?_, ?_⟩)
      · simp only [Journey.step, System.journey, select_getElem? ht, Option.bind_some, hc, Option.map_some,
          select_set ht, select_append, select_map_self]
      · simp only [Journey.refuses, System.journey, select_getElem? ht, Option.bind_some, hc, Option.any_some,
          hrefuses]
        split <;> simp_all
    · refine .inr (.inl ⟨?_, ?_⟩)
      · simp only [System.journey, select_set_of_ne ht hj, select_append, select_map_of_ne hj, List.append_nil]
      · rw [hrefuses]
        split
        · exact fun h => hj (Option.some.inj h)
        · exact fun h => by cases h
  | receive place =>
    obtain ⟨⟨j, letter⟩, hletter, rfl⟩ := Option.map_eq_some_iff.mp hstep
    by_cases hj : j = i
    · subst hj
      refine .inr (.inr ⟨.receive (placeOf j s.dlq place), ?_, ?_⟩)
      · simp only [Journey.step, System.journey, select_getElem? hletter, Option.map_some, select_append,
          select_cons_self, select_nil, select_eraseIdx hletter]
      · constructor
        · intro h
          cases h
        · intro h
          cases h
    · refine .inr (.inl ⟨?_, fun h => by cases h⟩)
      simp only [System.journey, select_append, select_cons_of_ne hj, select_nil, List.append_nil,
        select_eraseIdx_of_ne hletter hj]

end System

/-! ### The books -/

/-- A send to the topic of the events. -/
def Entry.isEvent (e : Entry) : Bool :=
  match e.command with
  | .send topic _ => decide (topic = "request.events")
  | _ => false

/-- One that `subscribeAndRetry` makes. -/
def Entry.isResend (e : Entry) : Bool := decide (e.origin = .subscribeAndRetry) && e.isEvent

def Entry.isFailedResend (e : Entry) : Bool := e.isResend && e.error.isSome

def Entry.delivers (e : Entry) : Bool := e.isEvent && e.error.isNone

def Entry.isPermanentFailure (e : Entry) : Bool := decide (e.command = .recordDlqPermanentFailure)

/-- The books of one event: how often it was sent again, and in vain, how often it was given up and delivered. -/
structure Account (data : EventData) (resends failed givenUp delivered : ℕ) (log : List Entry) : Prop where
  texts : ∀ e ∈ log, ∀ topic value, e.command = .send topic value →
    topic = "request.events.dlq" ∨ topic = "request.events" ∧ value = eventBytes data
  after : log.Pairwise fun e e' => e.delivers = true → e'.command.IsCounter
  resends : log.countP Entry.isResend = resends
  failed : log.countP Entry.isFailedResend = failed
  givenUp : log.countP Entry.isPermanentFailure = givenUp
  delivered : log.countP Entry.delivers = delivered

namespace Account

variable {data : EventData} {resends failed givenUp delivered : ℕ} {log : List Entry}

theorem nil (data : EventData) : Account data 0 0 0 0 [] :=
  ⟨fun e he => (by cases he), .nil, rfl, rfl, rfl, rfl⟩

/-- One more entry. -/
theorem snoc (h : Account data resends failed givenUp delivered log) (e : Entry)
    (htext : ∀ topic value, e.command = .send topic value →
      topic = "request.events.dlq" ∨ topic = "request.events" ∧ value = eventBytes data)
    (hafter : delivered = 0 ∨ e.command.IsCounter) :
    Account data (resends + if e.isResend then 1 else 0) (failed + if e.isFailedResend then 1 else 0)
      (givenUp + if e.isPermanentFailure then 1 else 0) (delivered + if e.delivers then 1 else 0) (log ++ [e]) where
  texts e' he' := by
    rcases List.mem_append.mp he' with hold | hnew
    · exact h.texts e' hold
    · rw [List.mem_singleton.mp hnew]
      exact htext
  after := by
    refine List.pairwise_append.mpr ⟨h.after, List.pairwise_singleton _ _, fun e' he' e'' he'' hdelivers => ?_⟩
    rw [List.mem_singleton.mp he'']
    rcases hafter with hnone | hcounter
    · exact absurd hdelivers (List.countP_eq_zero.mp (h.delivered.trans hnone) e' he')
    · exact hcounter
  resends := by rw [List.countP_append, h.resends, List.countP_singleton]
  failed := by rw [List.countP_append, h.failed, List.countP_singleton]
  givenUp := by rw [List.countP_append, h.givenUp, List.countP_singleton]
  delivered := by rw [List.countP_append, h.delivered, List.countP_singleton]

/-- An entry that is neither about the event nor gives it up. -/
theorem quiet (h : Account data resends failed givenUp delivered log) (e : Entry) (hevent : e.isEvent = false)
    (hfailure : e.isPermanentFailure = false)
    (htext : ∀ topic value, e.command = .send topic value →
      topic = "request.events.dlq" ∨ topic = "request.events" ∧ value = eventBytes data)
    (hafter : delivered = 0 ∨ e.command.IsCounter) :
    Account data resends failed givenUp delivered (log ++ [e]) := by
  have hsnoc := h.snoc e htext hafter
  simpa [Entry.isResend, Entry.isFailedResend, Entry.delivers, hevent, hfailure] using hsnoc

/-- A counter is no business of the books. -/
theorem counter (h : Account data resends failed givenUp delivered log) {c : Command} (hc : c.IsCounter)
    (origin : Origin) (turn : Turn) :
    Account data resends failed givenUp delivered (log ++ entriesOf origin turn c) := by
  cases c with
  | recordDlqMessage topic reason =>
    exact h.quiet ⟨origin, .recordDlqMessage topic reason, none⟩ rfl rfl (fun topic value heq => by cases heq)
      (.inr trivial)
  | recordDlqRetrySuccess =>
    exact h.quiet ⟨origin, .recordDlqRetrySuccess, none⟩ rfl rfl (fun topic value heq => by cases heq) (.inr trivial)
  | _ => exact absurd hc id

/-- A letter is sent. -/
theorem letter (h : Account data resends failed givenUp 0 log) (origin : Origin) (turn : Turn) (value : List Byte) :
    Account data resends failed givenUp 0 (log ++ entriesOf origin turn (.send "request.events.dlq" value)) :=
  h.quiet ⟨origin, .send "request.events.dlq" value, turn.error⟩ rfl rfl
    (fun _ _ heq => .inl (Command.send.inj heq).1.symm) (.inl rfl)

/-- The event is sent. -/
theorem event (h : Account data resends failed givenUp 0 log) (origin : Origin) (turn : Turn) :
    Account data (resends + if origin = .subscribeAndRetry then 1 else 0)
      (failed + if origin = .subscribeAndRetry ∧ turn.error.isSome = true then 1 else 0) givenUp
      (if turn.error.isNone then 1 else 0)
      (log ++ entriesOf origin turn (.send "request.events" (eventBytes data))) := by
  have hsnoc := h.snoc ⟨origin, .send "request.events" (eventBytes data), turn.error⟩
    (fun topic value heq => by cases heq; exact .inr ⟨rfl, rfl⟩) (.inl rfl)
  simpa [entriesOf, Entry.isResend, Entry.isEvent, Entry.isFailedResend, Entry.isPermanentFailure,
    Entry.delivers] using hsnoc

/-- The event is sent for the first time. -/
theorem original (h : Account data resends failed givenUp 0 log) (turn : Turn) :
    Account data resends failed givenUp (if turn.error.isNone then 1 else 0)
      (log ++ entriesOf .publishRequestEvent turn (.send "request.events" (eventBytes data))) := by
  simpa using h.event .publishRequestEvent turn

/-- The event is sent again. -/
theorem resend (h : Account data resends failed givenUp 0 log) (turn : Turn) :
    Account data (resends + 1) (failed + if turn.error.isSome then 1 else 0) givenUp
      (if turn.error.isNone then 1 else 0)
      (log ++ entriesOf .subscribeAndRetry turn (.send "request.events" (eventBytes data))) := by
  simpa using h.event .subscribeAndRetry turn

/-- The event is given up. -/
theorem giveUp (h : Account data resends failed givenUp 0 log) (origin : Origin) (turn : Turn) :
    Account data resends failed (givenUp + 1) 0 (log ++ entriesOf origin turn .recordDlqPermanentFailure) := by
  have hsnoc := h.snoc ⟨origin, .recordDlqPermanentFailure, none⟩
    (fun topic value heq => by cases heq) (.inl rfl)
  simpa [entriesOf, Entry.isResend, Entry.isEvent, Entry.isFailedResend, Entry.isPermanentFailure,
    Entry.delivers] using hsnoc

end Account

/-! ### Fates -/

section Fates

variable (data : EventData)

/-- A call that has something left to do, after `k` re-sends have failed. -/
inductive Live : ℕ → Task → Prop where
  | publishing {t} (horigin : t.origin = .publishRequestEvent) (h : Sending data 0 t.program) : Live 0 t
  | stamping {k t} (hk : k ≤ 3) (h : Stamping data k t.program) : Live k t
  | dying {k t} (hk : k ≤ 3) (h : Dying data k t.program) : Live k t
  | arriving {k t} (hk : k ≤ 3) (horigin : t.origin = .subscribeAndRetry) (h : Arriving data k t.program) : Live k t
  | pausing {k t} (hk : k < 3) (horigin : t.origin = .subscribeAndRetry) (h : Pausing data (k + 1) t.program) : Live k t
  | givingUp {t} (h : GivingUp t.program) : Live 3 t

def AllSpent (tasks : List Task) : Prop := ∀ t ∈ tasks, Spent t.program

/-- All but the one at this place. -/
def OthersSpent (place : ℕ) (tasks : List Task) : Prop :=
  ∀ place' t, place' ≠ place → tasks[place']? = some t → Spent t.program

/-- **Where an event is.**  The flag says whether a letter of it has been refused. -/
inductive Fate : Bool → Journey → Prop where
  | carried {k place t j} (hplace : j.tasks[place]? = some t) (hlive : Live data k t)
    (hothers : OthersSpent place j.tasks) (hdlq : j.dlq = []) (hbooks : Account data k k 0 0 j.log) : Fate false j
  | waiting {k letter j} (hk : k ≤ 3) (hletter : Letter data k letter) (hspent : AllSpent j.tasks)
    (hdlq : j.dlq = [letter]) (hbooks : Account data k k 0 0 j.log) : Fate false j
  | delivered {k j} (hk : k ≤ 3) (hspent : AllSpent j.tasks) (hdlq : j.dlq = [])
    (hbooks : Account data k (k - 1) 0 1 j.log) : Fate false j
  | givenUp {j} (hspent : AllSpent j.tasks) (hdlq : j.dlq = []) (hbooks : Account data 3 3 1 0 j.log) : Fate false j
  | lost {k j} (hk : k ≤ 3) (hspent : AllSpent j.tasks) (hdlq : j.dlq = [])
    (hbooks : Account data k k 0 0 j.log) : Fate true j

variable {data} {tasks : List Task} {place : ℕ} {t : Task}

theorem OthersSpent.set (h : OthersSpent place tasks) (t : Task) : OthersSpent place (tasks.set place t) := by
  intro place' t' hne ht'
  rw [List.getElem?_set_ne (Ne.symm hne)] at ht'
  exact h place' t' hne ht'

/-- Another one goes on. -/
theorem OthersSpent.set_of_ne (h : OthersSpent place tasks) {place' : ℕ} (ht : Spent t.program) :
    OthersSpent place (tasks.set place' t) := by
  intro place'' t'' hne ht''
  rw [List.getElem?_set] at ht''
  split at ht''
  · split at ht''
    · cases ht''
      exact ht
    · cases ht''
  · exact h place'' t'' hne ht''

/-- The one that had something to do is done. -/
theorem OthersSpent.allSpent_set (h : OthersSpent place tasks) (ht : Spent t.program) :
    AllSpent (tasks.set place t) := by
  intro t' ht'
  obtain ⟨place', hplace'⟩ := List.mem_iff_getElem?.mp ht'
  rw [List.getElem?_set] at hplace'
  split at hplace'
  · split at hplace'
    · cases hplace'
      exact ht
    · cases hplace'
  · rename_i hne
    exact h place' t' (Ne.symm hne) hplace'

theorem AllSpent.others (h : AllSpent tasks) : OthersSpent place tasks :=
  fun _ t' _ ht' => h t' (List.mem_of_getElem? ht')

/-- A new one. -/
theorem AllSpent.append (h : AllSpent tasks) (t : Task) : OthersSpent tasks.length (tasks ++ [t]) := by
  intro place' t' hne ht'
  by_cases hlt : place' < tasks.length
  · rw [List.getElem?_append_left hlt] at ht'
    exact h t' (List.mem_of_getElem? ht')
  · rw [List.getElem?_append_right (by omega), List.getElem?_eq_none (by rw [List.length_singleton]; omega)] at ht'
    cases ht'

section Steps

variable {toISOString : ℤ → String} {getTime : String → Option ℤ} {turn : Turn} {c : Command} {k : ℕ}

theorem next_eq {next : Except String (Answer c) → DlqProgram} (h : t.program = call c next) : t.next = some c := by
  unfold Task.next
  rw [h]

theorem advance_eq {next : Except String (Answer c) → DlqProgram} (h : t.program = call c next) :
    t.advance toISOString turn = ⟨t.origin, next (respond toISOString turn c)⟩ := by
  unfold Task.advance
  rw [h]

theorem respond_possible (toISOString : ℤ → String) (turn : Turn) (c : Command) :
    c.Possible (respond toISOString turn c) := by
  cases c with
  | send topic value => exact .inl ⟨topic, value, rfl⟩
  | _ => exact .inr ⟨_, rfl⟩

/-- A call with nothing left but counters goes on. -/
theorem spent_advance (h : Spent t.program) (hc : t.next = some c) :
    c.IsCounter ∧ Spent (t.advance toISOString turn).program := by
  cases hp : t.program with
  | ret a =>
    unfold Task.next at hc
    rw [hp] at hc
    cases hc
  | throw e =>
    unfold Task.next at hc
    rw [hp] at hc
    cases hc
  | call c' next =>
    cases (next_eq hp).symm.trans hc
    rw [hp] at h
    rw [advance_eq hp]
    exact ⟨h.1, h.2 _ (respond_possible toISOString turn c)⟩

theorem counter_letters (hc : c.IsCounter) : lettersOf turn c = [] ∧ refusedBy turn c = false := by
  cases c with
  | send topic value => exact absurd hc id
  | _ => exact ⟨rfl, rfl⟩

/-- What is about to do something, does it. -/
theorem Live.next_isSome (h : Live data k t) : ∃ c, t.next = some c := by
  cases h with
  | publishing horigin h =>
    obtain ⟨next, hp, -⟩ := h
    exact ⟨_, next_eq hp⟩
  | stamping hk h =>
    obtain ⟨next, hp, -⟩ := h
    exact ⟨_, next_eq hp⟩
  | dying hk h =>
    obtain ⟨bytes, next, hp, -⟩ := h
    exact ⟨_, next_eq hp⟩
  | arriving hk horigin h =>
    obtain ⟨next, hp, -⟩ := h
    exact ⟨_, next_eq hp⟩
  | pausing hk horigin h =>
    rcases h with ⟨next, hp, -⟩ | ⟨ms, next, hp, -⟩
    · exact ⟨_, next_eq hp⟩
    · exact ⟨_, next_eq hp⟩
  | givingUp h =>
    obtain ⟨next, hp, -⟩ := h
    exact ⟨_, next_eq hp⟩

theorem Live.le (h : Live data k t) : k ≤ 3 := by
  cases h with
  | publishing _ _ => exact Nat.zero_le 3
  | stamping hk _ => exact hk
  | dying hk _ => exact hk
  | arriving hk _ _ => exact hk
  | pausing hk _ _ => exact le_of_lt hk
  | givingUp _ => exact le_refl 3

/-- The event is sent, again or not. -/
theorem sending_step {j : Journey} (hplace : j.tasks[place]? = some t) (h : Sending data k t.program)
    (hothers : OthersSpent place j.tasks) (hdlq : j.dlq = []) (hk : k ≤ 3) (hc : t.next = some c)
    (hdone : turn.error = none → Account data k (k - 1) 0 1 (j.log ++ entriesOf t.origin turn c))
    (hagain : ∀ error, turn.error = some error → Account data k k 0 0 (j.log ++ entriesOf t.origin turn c)) :
    Fate data (refusedBy turn c) ⟨j.tasks.set place (t.advance toISOString turn), j.dlq ++ lettersOf turn c,
      j.log ++ entriesOf t.origin turn c⟩ := by
  obtain ⟨next, hp, hspent, hfail⟩ := h
  cases (next_eq hp).symm.trans hc
  obtain ⟨hbound, -⟩ := List.getElem?_eq_some_iff.mp hplace
  rw [advance_eq hp]
  cases herror : turn.error with
  | none =>
    refine .delivered hk (hothers.allSpent_set ?_) ?_ (hdone herror)
    · show Spent (next (respond toISOString turn (.send "request.events" (eventBytes data))))
      rw [respond, herror]
      exact hspent
    · rw [hdlq]
      rfl
  | some error =>
    refine .carried (List.getElem?_set_self hbound) (.stamping hk ?_) (hothers.set _) ?_ (hagain error herror)
    · show Stamping data k (next (respond toISOString turn (.send "request.events" (eventBytes data))))
      rw [respond, herror]
      exact hfail error
    · rw [hdlq]
      rfl

/-- **What is about to do something, does it.** -/
theorem Live.step {j : Journey} (hplace : j.tasks[place]? = some t) (h : Live data k t)
    (hothers : OthersSpent place j.tasks) (hdlq : j.dlq = []) (hbooks : Account data k k 0 0 j.log)
    (hc : t.next = some c) :
    Fate data (refusedBy turn c) ⟨j.tasks.set place (t.advance toISOString turn), j.dlq ++ lettersOf turn c,
      j.log ++ entriesOf t.origin turn c⟩ := by
  obtain ⟨hbound, -⟩ := List.getElem?_eq_some_iff.mp hplace
  cases h with
  | publishing horigin h =>
    have hcommand := h
    obtain ⟨next, hp, -⟩ := hcommand
    cases (next_eq hp).symm.trans hc
    have hsent := hbooks.original turn
    rw [← horigin] at hsent
    refine sending_step hplace h hothers hdlq (Nat.zero_le 3) hc (fun herror => ?_) fun error herror => ?_
    · rw [herror] at hsent
      exact hsent
    · rw [herror] at hsent
      exact hsent
  | stamping hk h =>
    obtain ⟨next, hp, hnext⟩ := h
    cases (next_eq hp).symm.trans hc
    rw [advance_eq hp, entriesOf, List.append_nil]
    exact .carried (List.getElem?_set_self hbound) (.dying hk (hnext _)) (hothers.set _) (by rw [hdlq]; rfl) hbooks
  | dying hk h =>
    obtain ⟨letter, next, hp, hletter, hspent⟩ := h
    cases (next_eq hp).symm.trans hc
    rw [advance_eq hp]
    have hspent' := hothers.allSpent_set (t := ⟨t.origin, next (respond toISOString turn _)⟩) (hspent _)
    cases herror : turn.error with
    | none =>
      have hletters : lettersOf turn (.send "request.events.dlq" letter) = [letter] := by
        rw [lettersOf, herror]
        rfl
      have hrefused : refusedBy turn (.send "request.events.dlq" letter) = false := by
        rw [refusedBy, herror]
        rfl
      rw [hrefused, hletters, hdlq]
      exact .waiting hk hletter hspent' rfl (hbooks.letter t.origin turn letter)
    | some error =>
      have hletters : lettersOf turn (.send "request.events.dlq" letter) = [] := by
        rw [lettersOf, herror]
        rfl
      have hrefused : refusedBy turn (.send "request.events.dlq" letter) = true := by
        rw [refusedBy, herror]
        rfl
      rw [hrefused, hletters, hdlq]
      exact .lost hk hspent' rfl (hbooks.letter t.origin turn letter)
  | arriving hk horigin h =>
    obtain ⟨next, hp, hnext⟩ := h
    cases (next_eq hp).symm.trans hc
    have hnow := hnext turn.now
    rw [advance_eq hp, entriesOf, List.append_nil]
    by_cases hgive : 3 ≤ k
    · rw [if_pos hgive] at hnow
      cases (by omega : k = 3)
      exact .carried (List.getElem?_set_self hbound) (.givingUp hnow) (hothers.set _) (by rw [hdlq]; rfl) hbooks
    · rw [if_neg hgive] at hnow
      exact .carried (List.getElem?_set_self hbound) (.pausing (by omega) horigin hnow) (hothers.set _)
        (by rw [hdlq]; rfl) hbooks
  | pausing hk horigin h =>
    rcases h with h | ⟨ms, next, hp, hnext⟩
    · have hcommand := h
      obtain ⟨next, hp, -⟩ := hcommand
      cases (next_eq hp).symm.trans hc
      have hsent := hbooks.resend turn
      rw [← horigin] at hsent
      refine sending_step hplace h hothers hdlq hk hc (fun herror => ?_) fun error herror => ?_
      · rw [herror] at hsent
        exact hsent
      · rw [herror] at hsent
        exact hsent
    · cases (next_eq hp).symm.trans hc
      rw [advance_eq hp, entriesOf, List.append_nil]
      exact .carried (List.getElem?_set_self hbound) (.pausing hk horigin (.inl hnext)) (hothers.set _)
        (by rw [hdlq]; rfl) hbooks
  | givingUp h =>
    obtain ⟨next, hp, hspent⟩ := h
    cases (next_eq hp).symm.trans hc
    rw [advance_eq hp]
    exact .givenUp (hothers.allSpent_set hspent) (by rw [hdlq]; rfl) (hbooks.giveUp t.origin turn)

/-- **A step of an event**: its fate is known again, and it is lost if a letter is refused. -/
theorem Fate.step {refused : Bool} {j j' : Journey} {move : Move} (h : Fate data refused j)
    (hstep : j.step toISOString getTime move = some j') : Fate data (refused || j.refuses move) j' := by
  cases move with
  | receive place =>
    obtain ⟨letter, hletter, rfl⟩ := Option.map_eq_some_iff.mp hstep
    have hnone : j.dlq ≠ [] := by
      intro hdlq
      rw [hdlq] at hletter
      cases hletter
    cases h with
    | carried _ _ _ hdlq => exact absurd hdlq hnone
    | delivered _ _ hdlq => exact absurd hdlq hnone
    | givenUp _ hdlq => exact absurd hdlq hnone
    | lost _ _ hdlq => exact absurd hdlq hnone
    | waiting hk hcarries hspent hdlq hbooks =>
      rw [hdlq] at hletter ⊢
      match place with
      | place + 1 => cases hletter
      | 0 =>
        cases hletter
        exact .carried (List.getElem?_concat_length) (.arriving hk rfl (eachMessage_arriving getTime hcarries))
          (hspent.append _) rfl hbooks
  | advance place turn =>
    obtain ⟨t, ht, hstep⟩ := Option.bind_eq_some_iff.mp hstep
    obtain ⟨c, hc, rfl⟩ := Option.map_eq_some_iff.mp hstep
    have hrefuses : j.refuses (.advance place turn) = refusedBy turn c := by
      rw [Journey.refuses, ht, Option.bind_some, hc, Option.any_some]
    rw [hrefuses]
    have hidle : Spent t.program → c.IsCounter ∧ Spent (t.advance toISOString turn).program ∧
        lettersOf turn c = [] ∧ refusedBy turn c = false := by
      intro hspent
      obtain ⟨hcounter, hspent'⟩ := spent_advance hspent hc
      exact ⟨hcounter, hspent', counter_letters hcounter⟩
    have hmem := List.mem_of_getElem? ht
    cases h with
    | @carried k place' t' _ hplace hlive hothers hdlq hbooks =>
      by_cases hsame : place = place'
      · subst hsame
        cases hplace.symm.trans ht
        exact hlive.step hplace hothers hdlq hbooks hc
      · obtain ⟨hcounter, hspent, hletters, hrefused⟩ := hidle (hothers place t hsame ht)
        rw [hrefused, hletters, List.append_nil]
        refine .carried ?_ hlive (hothers.set_of_ne hspent) hdlq (hbooks.counter hcounter t.origin turn)
        rw [List.getElem?_set_ne hsame]
        exact hplace
    | waiting hk hcarries hall hdlq hbooks =>
      obtain ⟨hcounter, hspent, hletters, hrefused⟩ := hidle (hall t hmem)
      rw [hrefused, hletters, List.append_nil]
      exact .waiting hk hcarries (hall.others.allSpent_set hspent) hdlq (hbooks.counter hcounter t.origin turn)
    | delivered hk hall hdlq hbooks =>
      obtain ⟨hcounter, hspent, hletters, hrefused⟩ := hidle (hall t hmem)
      rw [hrefused, hletters, List.append_nil]
      exact .delivered hk (hall.others.allSpent_set hspent) hdlq (hbooks.counter hcounter t.origin turn)
    | givenUp hall hdlq hbooks =>
      obtain ⟨hcounter, hspent, hletters, hrefused⟩ := hidle (hall t hmem)
      rw [hrefused, hletters, List.append_nil]
      exact .givenUp (hall.others.allSpent_set hspent) hdlq (hbooks.counter hcounter t.origin turn)
    | lost hk hall hdlq hbooks =>
      obtain ⟨hcounter, hspent, hletters, hrefused⟩ := hidle (hall t hmem)
      rw [hrefused, hletters, List.append_nil]
      exact .lost hk (hall.others.allSpent_set hspent) hdlq (hbooks.counter hcounter t.origin turn)

end Steps

end Fates

/-! ### Runs -/

section Gateway

variable {toISOString : ℤ → String} {getTime : String → Option ℤ} {es : List SystemEvent} {s : System}

/-- No letter of this event is refused. -/
def Accepted (toISOString : ℤ → String) (getTime : String → Option ℤ) (i : ℕ) (es : List SystemEvent) : Prop :=
  Throughout (System.step toISOString getTime) (fun s e => s.refuses e ≠ some i) .initial es

/-- What is known of an event: nothing has been done before it is passed, and then its fate. -/
def Known (toISOString : ℤ → String) (getTime : String → Option ℤ) (i : ℕ) (es : List SystemEvent) (s : System) :
    Prop :=
  match s.events[i]? with
  | none => s.journey i = ⟨[], [], []⟩ ∧ Accepted toISOString getTime i es
  | some data => ∃ refused, Fate data refused (s.journey i) ∧ (refused = false ↔ Accepted toISOString getTime i es)

/-- The event that a call of `publishRequestEvent` begins with. -/
theorem fate_publish (data : EventData) :
    Fate data false ⟨[⟨.publishRequestEvent, publishRequestEvent data⟩], [], []⟩ := by
  have hlive : Live data 0 ⟨.publishRequestEvent, publishRequestEvent data⟩ :=
    .publishing rfl publishRequestEvent_sending
  refine @Fate.carried data 0 0 _ _ rfl hlive (fun place t hne ht => ?_) rfl (Account.nil data)
  match place with
  | 0 => exact absurd rfl hne
  | place + 1 => cases ht

/-- A step passes at most one event more. -/
theorem events_step {s s' : System} {e : SystemEvent} (hstep : s.step toISOString getTime e = some s') (i : ℕ) :
    (∃ data, e = .publish data ∧ i = s.events.length ∧ s'.events[i]? = some data ∧
      s'.journey i = ⟨select i s.tasks ++ [⟨.publishRequestEvent, publishRequestEvent data⟩], select i s.dlq,
        select i s.log⟩) ∨ s'.events[i]? = s.events[i]? := by
  cases e with
  | publish data =>
    cases hstep
    by_cases hi : i = s.events.length
    · refine .inl ⟨data, rfl, hi, ?_, ?_⟩
      · rw [hi]
        exact List.getElem?_concat_length
      · rw [System.journey, select_append, hi, select_cons_self, select_nil]
    · refine .inr ?_
      by_cases hlt : i < s.events.length
      · exact List.getElem?_append_left hlt
      · have hlength : (s.events ++ [data]).length ≤ i := by
          rw [List.length_append, List.length_singleton]
          omega
        rw [List.getElem?_eq_none hlength, List.getElem?_eq_none (by omega)]
  | advance place turn =>
    obtain ⟨x, -, hstep⟩ := Option.bind_eq_some_iff.mp hstep
    obtain ⟨c, -, rfl⟩ := Option.map_eq_some_iff.mp hstep
    exact .inr rfl
  | receive place =>
    obtain ⟨x, -, rfl⟩ := Option.map_eq_some_iff.mp hstep
    exact .inr rfl

/-- **What is known of every event in every state that is reached.** -/
theorem known_run (hrun : run (System.step toISOString getTime) .initial es = some s) (i : ℕ) :
    Known toISOString getTime i es s := by
  refine run_induction (System.step toISOString getTime) .initial (Known toISOString getTime i) ⟨rfl, trivial⟩
    (fun es s e s' hs hknown hstep => ?_) es s hrun
  have haccepted : Accepted toISOString getTime i (es ++ [e]) ↔
      Accepted toISOString getTime i es ∧ s.refuses e ≠ some i := throughout_snoc hs
  unfold Known at hknown ⊢
  rcases events_step hstep i with ⟨data, rfl, hi, hdata, hjourney⟩ | hsame
  · -- the event is passed
    rw [hi, List.getElem?_eq_none (Nat.le_refl _), ← hi] at hknown
    obtain ⟨hempty, hbefore⟩ := hknown
    obtain ⟨htasks, hdlq, hlog⟩ := Journey.mk.inj hempty
    rw [hdata, hjourney, htasks, hdlq, hlog]
    exact ⟨false, fate_publish data, fun _ => haccepted.mpr ⟨hbefore, fun h => by cases h⟩, fun _ => rfl⟩
  · rw [hsame]
    rcases journey_step hstep i with ⟨data, rfl, hi⟩ | ⟨hjourney, hrefuses⟩ | ⟨move, hmove, hrefuses⟩
    · cases hstep
      rw [hi, List.getElem?_concat_length, List.getElem?_eq_none (Nat.le_refl _)] at hsame
      cases hsame
    · rw [hjourney, haccepted, and_iff_left hrefuses]
      exact hknown
    · cases hevent : s.events[i]? with
      | none =>
        -- nothing is to be done about an event that has not been passed
        rw [hevent] at hknown
        rw [hknown.1] at hmove
        cases move with
        | advance place turn => cases hmove
        | receive place => cases hmove
      | some data =>
        rw [hevent] at hknown
        obtain ⟨refused, hfate, hiff⟩ := hknown
        refine ⟨_, hfate.step hmove, ?_⟩
        rw [haccepted, ← hiff, Bool.or_eq_false_iff, ← Bool.not_eq_true ((s.journey i).refuses move),
          not_iff_not.mpr hrefuses]

/-- The events that a run passes. -/
def passed (es : List SystemEvent) : List EventData :=
  es.filterMap fun
    | .publish data => some data
    | _ => none

theorem events_run (hrun : run (System.step toISOString getTime) .initial es = some s) : s.events = passed es := by
  refine run_induction (System.step toISOString getTime) .initial (fun es s => s.events = passed es) rfl
    (fun es s e s' _ hs hstep => ?_) es s hrun
  unfold passed at hs ⊢
  rw [List.filterMap_append, ← hs]
  cases e with
  | publish data =>
    cases hstep
    rfl
  | advance place turn =>
    obtain ⟨x, -, hstep⟩ := Option.bind_eq_some_iff.mp hstep
    obtain ⟨c, -, rfl⟩ := Option.map_eq_some_iff.mp hstep
    exact (List.append_nil _).symm
  | receive place =>
    obtain ⟨x, -, rfl⟩ := Option.map_eq_some_iff.mp hstep
    exact (List.append_nil _).symm

theorem fate_run (hrun : run (System.step toISOString getTime) .initial es = some s) {i : ℕ} {data : EventData}
    (hdata : s.events[i]? = some data) :
    ∃ refused, Fate data refused (s.journey i) ∧ (refused = false ↔ Accepted toISOString getTime i es) := by
  have hknown := known_run hrun i
  unfold Known at hknown
  rw [hdata] at hknown
  exact hknown

end Gateway

/-- The first instant of the clock, and no other. -/
def epochText (_ : ℤ) : String := "1970-01-01T00:00:00.000Z"

def epochTime (text : String) : Option ℤ := if text = "1970-01-01T00:00:00.000Z" then some 0 else none

def sampleEvent : EventData := [("service", .str "storage"), ("status", .num (.ofInt 200))]

def succeeds : Turn := ⟨0, none⟩

def fails : Turn := ⟨0, some "broker down"⟩

/-- The send fails, and there is a letter. -/
def intoLetter : List SystemEvent :=
  [.publish sampleEvent, .advance 0 fails, .advance 0 succeeds, .advance 0 succeeds, .advance 0 succeeds]

/-- A handler takes the letter, waits, and sends the event. -/
def resent (turn : Turn) : List SystemEvent :=
  [.receive 0, .advance 1 succeeds, .advance 1 succeeds, .advance 1 turn]

/-- Every call about the event has ended, and every letter about it has been handled. -/
def Journey.AtRest (j : Journey) : Prop := j.dlq = [] ∧ ∀ t ∈ j.tasks, t.next = none

/-- **The retries of an event**, whatever is interleaved with them, if no letter is refused. -/
theorem resends_bounded (toISOString : ℤ → String) (getTime : String → Option ℤ) (es : List SystemEvent) (s : System)
    (hrun : run (System.step toISOString getTime) .initial es = some s)
    (hdlq : Throughout (System.step toISOString getTime) (fun s e => s.refuses e = none) .initial es)
    (i : ℕ) (data : EventData) (hdata : s.events[i]? = some data) :
    (s.journey i).log.countP Entry.isResend ≤ 3 ∧
    (∀ e ∈ (s.journey i).log, ∀ topic value, e.command = .send topic value →
      topic = "request.events.dlq" ∨ topic = "request.events" ∧ value = eventBytes data) ∧
    (s.journey i).log.countP Entry.isPermanentFailure ≤ 1 ∧
    (0 < (s.journey i).log.countP Entry.isPermanentFailure → (s.journey i).log.countP Entry.isFailedResend = 3) ∧
    ((s.journey i).AtRest → (s.journey i).log.countP Entry.isFailedResend = 3 →
      (s.journey i).log.countP Entry.isPermanentFailure = 1) ∧
    (s.journey i).log.Pairwise fun e e' => e.delivers = true → e'.command.IsCounter := by
  obtain ⟨refused, hfate, hiff⟩ := fate_run hrun hdata
  have haccepted : Accepted toISOString getTime i es := by
    refine hdlq.mono fun s e h heq => ?_
    rw [h] at heq
    cases heq
  cases hiff.mpr haccepted
  cases hfate with
  | carried hplace hlive hothers hempty hbooks =>
    rw [hbooks.resends, hbooks.failed, hbooks.givenUp]
    refine ⟨hlive.le, hbooks.texts, by omega, fun h => by omega, fun hrest => ?_, hbooks.after⟩
    obtain ⟨c, hc⟩ := hlive.next_isSome
    rw [hrest.2 _ (List.mem_of_getElem? hplace)] at hc
    cases hc
  | waiting hk hletter hspent hwaiting hbooks =>
    rw [hbooks.resends, hbooks.failed, hbooks.givenUp]
    refine ⟨hk, hbooks.texts, by omega, fun h => by omega, fun hrest => ?_, hbooks.after⟩
    rw [hrest.1] at hwaiting
    cases hwaiting
  | delivered hk hspent hempty hbooks =>
    rw [hbooks.resends, hbooks.failed, hbooks.givenUp]
    exact ⟨hk, hbooks.texts, by omega, fun h => by omega, fun _ h => by omega, hbooks.after⟩
  | givenUp hspent hempty hbooks =>
    rw [hbooks.resends, hbooks.failed, hbooks.givenUp]
    exact ⟨le_refl 3, hbooks.texts, le_refl 1, fun _ => rfl, fun _ _ => rfl, hbooks.after⟩

/-- A letter, and a second send that succeeds. -/
theorem resends_bounded_again :
    ∃ s, run (System.step epochText epochTime) .initial (intoLetter ++ resent succeeds) = some s ∧
      (s.journey 0).log.countP Entry.isResend ≤ 3 ∧ (s.journey 0).log.countP Entry.isPermanentFailure ≤ 1 := by
  obtain ⟨s, hs⟩ : ∃ s, run (System.step epochText epochTime) .initial (intoLetter ++ resent succeeds) = some s :=
    Option.isSome_iff_exists.mp (by decide +kernel)
  have hdata : s.events[0]? = some sampleEvent := by
    rw [events_run hs]
    rfl
  obtain ⟨hresends, -, hgivenUp, -⟩ :=
    resends_bounded epochText epochTime _ s hs (by decide +kernel) 0 sampleEvent hdata
  exact ⟨s, hs, hresends, hgivenUp⟩

/-- **No letter is refused, the second send succeeds, and its success is recorded after it.** -/
theorem success_recorded : ∃ s,
    run (System.step epochText epochTime) .initial (intoLetter ++ resent succeeds ++ [.advance 1 succeeds]) = some s ∧
      Throughout (System.step epochText epochTime) (fun s e => s.refuses e = none) .initial
        (intoLetter ++ resent succeeds ++ [.advance 1 succeeds]) ∧
      ∃ before e after, (s.journey 0).log = before ++ e :: after ∧ e.delivers = true ∧ after ≠ [] := by
  obtain ⟨s, hs, hlog⟩ := Option.map_eq_some_iff.mp (show
    (run (System.step epochText epochTime) .initial (intoLetter ++ resent succeeds ++ [.advance 1 succeeds])).map
      (fun s => (s.journey 0).log.map Entry.delivers) = some ([false, false, false] ++ [true, false]) by decide +kernel)
  refine ⟨s, hs, by decide +kernel, ?_⟩
  obtain ⟨before, rest, hsplit, -, hrest⟩ := List.map_eq_append_iff.mp hlog
  obtain ⟨e, after, rfl, hdelivers, hafter⟩ := List.map_eq_cons_iff.mp hrest
  refine ⟨before, e, after, hsplit, hdelivers, fun hnil => ?_⟩
  rw [hnil] at hafter
  cases hafter

/-- The event has been delivered, or a letter about it waits, or it has been given up. -/
def Kept (data : EventData) (j : Journey) : Prop :=
  (∃ e ∈ j.log, e.delivers = true) ∨
  (∃ letter ∈ j.dlq, ∃ m, DlqMessage.ofBytes letter = some m ∧ m.originalMessage = .obj data) ∨
  ∃ e ∈ j.log, e.isPermanentFailure = true

/-- **An event whose calls have ended is kept exactly if no letter about it has been refused.** -/
theorem kept_iff (toISOString : ℤ → String) (getTime : String → Option ℤ) (es : List SystemEvent) (s : System)
    (hrun : run (System.step toISOString getTime) .initial es = some s) (i : ℕ) (data : EventData)
    (hdata : s.events[i]? = some data) (hended : ∀ t ∈ (s.journey i).tasks, t.next = none) :
    Kept data (s.journey i) ↔
      Throughout (System.step toISOString getTime) (fun s e => s.refuses e ≠ some i) .initial es := by
  obtain ⟨refused, hfate, hiff⟩ := fate_run hrun hdata
  refine Iff.trans ?_ hiff
  cases hfate with
  | carried hplace hlive hothers hempty hbooks =>
    obtain ⟨c, hc⟩ := hlive.next_isSome
    rw [hended _ (List.mem_of_getElem? hplace)] at hc
    cases hc
  | waiting hk hletter hspent hwaiting hbooks =>
    refine iff_of_true (.inr (.inl ⟨_, by rw [hwaiting]; exact List.mem_singleton_self _, ?_⟩)) rfl
    obtain ⟨error, timestamp, rfl⟩ := hletter
    exact ⟨_, DlqMessage.ofBytes_toBytes _, rfl⟩
  | delivered hk hspent hempty hbooks =>
    refine iff_of_true (.inl ?_) rfl
    exact List.countP_pos_iff.mp (by rw [hbooks.delivered]; exact Nat.one_pos)
  | givenUp hspent hempty hbooks =>
    refine iff_of_true (.inr (.inr ?_)) rfl
    exact List.countP_pos_iff.mp (by rw [hbooks.givenUp]; exact Nat.one_pos)
  | lost hk hspent hempty hbooks =>
    refine iff_of_false ?_ (by decide)
    rintro (⟨e, he, hdelivers⟩ | ⟨letter, hletter, -⟩ | ⟨e, he, hgivenUp⟩)
    · exact List.countP_eq_zero.mp hbooks.delivered e he hdelivers
    · rw [hempty] at hletter
      cases hletter
    · exact List.countP_eq_zero.mp hbooks.givenUp e he hgivenUp

/-- A letter is waiting. -/
theorem kept_iff_waiting : ∃ s, run (System.step epochText epochTime) .initial intoLetter = some s ∧
    Kept sampleEvent (s.journey 0) := by
  obtain ⟨s, hs, htasks⟩ := Option.map_eq_some_iff.mp (show
    (run (System.step epochText epochTime) .initial intoLetter).map
      (fun s => decide (∀ t ∈ (s.journey 0).tasks, t.next = none)) = some true by decide +kernel)
  have hdata : s.events[0]? = some sampleEvent := by
    rw [events_run hs]
    rfl
  exact ⟨s, hs, (kept_iff epochText epochTime _ s hs 0 sampleEvent hdata (of_decide_eq_true htasks)).mpr
    (by decide +kernel)⟩

/-- **The second send fails, and the next letter is refused: the event is nowhere.** -/
theorem refused_letter_loses : ∃ s,
    run (System.step epochText epochTime) .initial
      (intoLetter ++ resent fails ++ [.advance 1 succeeds, .advance 1 fails]) = some s ∧
    s.events = [sampleEvent] ∧ (∀ t ∈ s.tasks, t.2.next = none) ∧ ¬ Kept sampleEvent (s.journey 0) := by
  obtain ⟨s, hs, hseen⟩ := Option.map_eq_some_iff.mp (show
    (run (System.step epochText epochTime) .initial
      (intoLetter ++ resent fails ++ [.advance 1 succeeds, .advance 1 fails])).map
        (fun s => (decide (∀ t ∈ s.tasks, t.2.next = none), (s.journey 0).dlq,
          (s.journey 0).log.any fun e => e.delivers || e.isPermanentFailure)) = some (true, [], false) by decide +kernel)
  obtain ⟨htasks, hrest⟩ := Prod.mk.inj hseen
  obtain ⟨hdlq, hlog⟩ := Prod.mk.inj hrest
  refine ⟨s, hs, events_run hs, of_decide_eq_true htasks, ?_⟩
  have hnone : ∀ e ∈ (s.journey 0).log, ¬ (e.delivers || e.isPermanentFailure) = true := List.any_eq_false.mp hlog
  rintro (⟨e, he, hdelivers⟩ | ⟨letter, hletter, -⟩ | ⟨e, he, hgivenUp⟩)
  · exact hnone e he (by rw [hdelivers, Bool.true_or])
  · rw [hdlq] at hletter
    cases hletter
  · exact hnone e he (by rw [hgivenUp, Bool.or_true])

end EdgeSphere.Gateway.DeadLetters
