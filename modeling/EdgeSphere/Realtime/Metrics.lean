import EdgeSphere.Realtime.EventsGateway

/-!
# The metrics of the last five seconds

The consumer keeps a sample of each request event that it receives, and each tick of the timer drops the samples that
are older than the window.

* `recent_eq` — **nothing that a tick counts has been dropped before**, as long as no earlier tick had a later time;
* `metrics_of_window` — what a tick publishes are the metrics of the events received in the window, with ratios
  between 0 and 1;
* `metricsOf_eq_none` — the metrics cannot be computed iff some status or latency cannot be made a number or a text;
* `crashed_iff` — **the process ends exactly at a tick that finds such an event in its window**.
-/

namespace EdgeSphere.Realtime

open EdgeSphere.Library
open EdgeSphere.Library.Buffer
open EdgeSphere.Library.Runs

/-! ### Ratios -/

/-- **A ratio is between 0 and 1.** -/
theorem ratio_between {count total : ℕ} (h : count ≤ total) : ∃ x, ratio count total = .finite x ∧ 0 ≤ x ∧ x ≤ 1 := by
  unfold ratio
  split
  · have hle : (count : ℚ) / total ≤ 1 := div_le_one_of_le₀ (Nat.cast_le.mpr h) (Nat.cast_nonneg total)
    exact Number.ofRat_between (div_nonneg (Nat.cast_nonneg count) (Nat.cast_nonneg total)) hle
  · exact ⟨0, rfl, le_rfl, zero_le_one⟩

variable {numberText : Number → List Char} {samples : List RecentRequestSample} {activeConnections : ℕ}
  {timestamp : String} {metrics : RealtimeMetrics}

theorem length_mapM {α β : Type*} {f : α → Option β} {l : List α} {l' : List β} (h : l.mapM f = some l') :
    l'.length = l.length := by
  induction l generalizing l' with
  | nil =>
    cases h
    rfl
  | cons a l ih =>
    rw [List.mapM_cons] at h
    obtain ⟨b, -, h⟩ := Option.bind_eq_some_iff.mp h
    obtain ⟨rest, hrest, h⟩ := Option.bind_eq_some_iff.mp h
    cases h
    rw [List.length_cons, List.length_cons, ih hrest]

theorem metricsOf_between (h : metricsOf numberText samples activeConnections timestamp = some metrics) :
    (∃ x, metrics.cacheHitRatio = .finite x ∧ 0 ≤ x ∧ x ≤ 1) ∧ ∃ x, metrics.errorRate = .finite x ∧ 0 ≤ x ∧ x ≤ 1 := by
  unfold metricsOf at h
  obtain ⟨statuses, hstatuses, h⟩ := Option.bind_eq_some_iff.mp h
  obtain ⟨latencySum, -, h⟩ := Option.bind_eq_some_iff.mp h
  cases h
  exact ⟨ratio_between (List.length_filter_le _ _),
    ratio_between (length_mapM hstatuses ▸ List.length_filter_le _ _)⟩

/-! ### Values that are neither a number nor a text -/

theorem toNumber_isSome (value : Json JsonNumber) : value.toNumber.isSome = value.toText.isSome := by
  cases value with
  | null => rw [Json.toText]; rfl
  | bool b => rw [Json.toText]; rfl
  | num n => rw [Json.toText]; rfl
  | str s => rw [Json.toNumber_str, Json.toText]; rfl
  | arr elems => rw [Json.toNumber_arr, Json.toText, Option.isSome_map]
  | obj fields => rw [Json.toNumber_obj, Json.toText]; split <;> rfl

/-- The metrics cannot be computed from the sample. -/
def RecentRequestSample.Unusable (r : RecentRequestSample) : Prop := r.status.toText = none ∨ r.latencyMs.toText = none

theorem mapM_isSome {α β : Type*} {f : α → Option β} {l : List α} :
    (l.mapM f).isSome = true ↔ ∀ a ∈ l, (f a).isSome = true := by
  induction l with
  | nil => simp
  | cons a l ih =>
    rw [List.mapM_cons, List.forall_mem_cons, ← ih]
    cases f a with
    | none => simp
    | some b => cases l.mapM f <;> simp

/-- **A `TypeError`** comes from one of the samples. -/
theorem metricsOf_eq_none : metricsOf numberText samples activeConnections timestamp = none ↔
    ∃ r ∈ samples, r.Unusable := by
  have hsome : (metricsOf numberText samples activeConnections timestamp).isSome = true ↔
      (samples.mapM fun r : RecentRequestSample => r.status.toNumber).isSome = true ∧
        (sum numberText (samples.map fun r => r.latencyMs)).isSome = true := by
    unfold metricsOf
    cases samples.mapM fun r : RecentRequestSample => r.status.toNumber with
    | none => simp
    | some statuses => cases sum numberText (samples.map fun r => r.latencyMs) <;> simp
  rw [← Option.not_isSome_iff_eq_none, hsome, mapM_isSome, sum_isSome]
  simp only [toNumber_isSome, List.forall_mem_map, RecentRequestSample.Unusable, ← Option.not_isSome_iff_eq_none]
  constructor
  · intro h
    by_contra hnone
    push Not at hnone
    exact h ⟨fun r hr => (hnone r hr).1, fun r hr => (hnone r hr).2⟩
  · rintro ⟨r, hr, hstatus | hlatency⟩ ⟨hstatuses, hlatencies⟩
    · exact hstatus (hstatuses r hr)
    · exact hlatency (hlatencies r hr)

/-! ### The window -/

variable {κ : Type*}

namespace Event

/-- The sample that an event adds. -/
def sample (parse : List Char → Option (Json JsonNumber)) : Event κ → Option RecentRequestSample
  | .kafkaMessage topic value now =>
    if topic = "request.events" then (value.bind fun bytes => parse (decodeUtf8 bytes)).bind (sampleOf now) else none
  | _ => none

/-- What an event leaves of the samples. -/
def trims : Event κ → List RecentRequestSample → List RecentRequestSample
  | .metricsInterval now _, samples => recent now samples
  | _, samples => samples

/-- The time of a tick. -/
def tickTime : Event κ → Option ℤ
  | .metricsInterval now _ => some now
  | _ => none

end Event

/-- The samples of the request events of a run. -/
def received (parse : List Char → Option (Json JsonNumber)) (es : List (Event κ)) : List RecentRequestSample :=
  es.filterMap (Event.sample parse)

variable {parse : List Char → Option (Json JsonNumber)} {e : Event κ} {es : List (Event κ)}

theorem received_snoc : received parse (es ++ [e]) = received parse es ++ (e.sample parse).toList := by
  unfold received
  rw [List.filterMap_append]
  cases he : e.sample parse with
  | none => rw [List.filterMap_cons_none he]; rfl
  | some r => rw [List.filterMap_cons_some he]; rfl

section Steps

variable [DecidableEq κ] {g g' : Gateway κ} {listening : Bool} {now : ℤ}

/-- What subscriptions do is no matter of the samples. -/
theorem handleSubscribe_rest (client : κ) (payload : Option (Json JsonNumber)) :
    (g.handleSubscribe client payload).recentRequests = g.recentRequests ∧
      (g.handleSubscribe client payload).crashed = g.crashed := by
  unfold Gateway.handleSubscribe
  split <;> exact ⟨rfl, rfl⟩

theorem handleUnsubscribe_rest (client : κ) (payload : Option (Json JsonNumber)) :
    (g.handleUnsubscribe client payload).recentRequests = g.recentRequests ∧
      (g.handleUnsubscribe client payload).crashed = g.crashed := by
  unfold Gateway.handleUnsubscribe
  split <;> exact ⟨rfl, rfl⟩

theorem onMessage_rest (channel message : String) :
    (g.onMessage parse channel message).recentRequests = g.recentRequests ∧
      (g.onMessage parse channel message).crashed = g.crashed := by
  unfold Gateway.onMessage
  split
  · split <;> exact ⟨rfl, rfl⟩
  · exact ⟨rfl, rfl⟩

theorem eachMessage_samples (topic : String) (value : Option (List Byte)) :
    (g.eachMessage parse topic value now).recentRequests
      = g.recentRequests ++ ((Event.kafkaMessage topic value now : Event κ).sample parse).toList ∧
    (g.eachMessage parse topic value now).crashed = g.crashed := by
  unfold Gateway.eachMessage Event.sample
  cases value with
  | none => simp
  | some bytes =>
    simp only [Option.bind_some]
    cases parse (decodeUtf8 bytes) with
    | none => simp
    | some data =>
      simp only [Option.bind_some]
      split_ifs <;> simp [Gateway.emitRequestEvent, Gateway.emitStorageEvent, Gateway.emitAlert, Gateway.emit]

theorem emitMetrics_samples (timestamp : String) :
    (g.emitMetrics numberText now timestamp).recentRequests = recent now g.recentRequests ∧
    ((g.emitMetrics numberText now timestamp).crashed = true ↔
      g.crashed = true ∨ ∃ r ∈ recent now g.recentRequests, r.Unusable) := by
  have hnone := @metricsOf_eq_none numberText (recent now g.recentRequests) g.getConnectedClientsCount timestamp
  unfold Gateway.emitMetrics
  simp only
  rw [← hnone]
  unfold Gateway.getConnectedClientsCount
  simp only
  cases metricsOf numberText (recent now g.recentRequests) g.server.online.card timestamp with
  | some metrics => exact ⟨rfl, (or_iff_left (by simp)).symm⟩
  | none => exact ⟨rfl, iff_of_true rfl (.inr rfl)⟩

/-- **The samples after a step.** -/
theorem recentRequests_step (h : step parse numberText g e = some g') :
    g'.recentRequests = e.trims g.recentRequests ++ (e.sample parse).toList := by
  obtain ⟨-, ⟨c, timestamp, rfl, -, rfl⟩ | ⟨c, rfl, -, rfl⟩ | ⟨c, payload, rfl, -, rfl⟩ |
    ⟨c, payload, rfl, -, rfl⟩ | ⟨-, ⟨topic, value, now, rfl, rfl⟩ | ⟨channel, message, rfl, rfl⟩ |
      ⟨now, timestamp, rfl, rfl⟩⟩⟩ := step_cases h
  · exact (List.append_nil _).symm
  · exact (List.append_nil _).symm
  · exact (handleSubscribe_rest c payload).1.trans (List.append_nil _).symm
  · exact (handleUnsubscribe_rest c payload).1.trans (List.append_nil _).symm
  · exact (eachMessage_samples topic value).1
  · exact (onMessage_rest channel message).1.trans (List.append_nil _).symm
  · exact (emitMetrics_samples timestamp).1.trans (List.append_nil _).symm

/-- **What ends the process.** -/
theorem crashed_step (h : step parse numberText g e = some g') : g'.crashed = true ↔
    ∃ now timestamp, e = .metricsInterval now timestamp ∧ ∃ r ∈ recent now g.recentRequests, r.Unusable := by
  obtain ⟨hcrashed, hcases⟩ := step_cases h
  have hup : ¬ g.crashed = true := by rw [hcrashed]; decide
  rcases hcases with ⟨c, timestamp, rfl, -, rfl⟩ | ⟨c, rfl, -, rfl⟩ | ⟨c, payload, rfl, -, rfl⟩ |
    ⟨c, payload, rfl, -, rfl⟩ | ⟨-, ⟨topic, value, now, rfl, rfl⟩ | ⟨channel, message, rfl, rfl⟩ |
      ⟨now, timestamp, rfl, rfl⟩⟩
  · exact iff_of_false hup (fun ⟨_, _, he, _⟩ => by cases he)
  · exact iff_of_false hup (fun ⟨_, _, he, _⟩ => by cases he)
  · exact iff_of_false (by rw [(handleSubscribe_rest c payload).2]; exact hup) (fun ⟨_, _, he, _⟩ => by cases he)
  · exact iff_of_false (by rw [(handleUnsubscribe_rest c payload).2]; exact hup) (fun ⟨_, _, he, _⟩ => by cases he)
  · exact iff_of_false (by rw [(eachMessage_samples topic value).2]; exact hup) (fun ⟨_, _, he, _⟩ => by cases he)
  · exact iff_of_false (by rw [(onMessage_rest channel message).2]; exact hup) (fun ⟨_, _, he, _⟩ => by cases he)
  · rw [(emitMetrics_samples timestamp).2, or_iff_right hup]
    constructor
    · exact fun hbad => ⟨now, timestamp, rfl, hbad⟩
    · rintro ⟨_, _, he, hbad⟩
      cases he
      exact hbad

/-! ### Runs -/

/-- The samples kept are all those from a time on that no tick has gone beyond. -/
theorem covers_of_run (hrun : run (step parse numberText) (start κ listening) es = some g) {since : ℤ}
    (hticks : ∀ t ∈ es.filterMap Event.tickTime, t - metricsWindowMs ≤ since) :
    Covers RecentRequestSample.receivedAt (received parse es) g.recentRequests since := by
  refine run_induction (step parse numberText) (start κ listening)
    (fun es g => (∀ t ∈ es.filterMap Event.tickTime, t - metricsWindowMs ≤ since) →
      Covers RecentRequestSample.receivedAt (received parse es) g.recentRequests since) ?_ ?_ es g hrun hticks
  · exact fun _ _ _ => rfl
  · intro es g e g' _ ih hstep hticks
    rw [List.filterMap_append] at hticks
    have hcovers := ih fun t ht => hticks t (List.mem_append_left _ ht)
    have htrimmed : Covers RecentRequestSample.receivedAt (received parse es) (e.trims g.recentRequests) since := by
      cases e with
      | metricsInterval now timestamp =>
        exact hcovers.trim (hticks now (List.mem_append_right _ List.mem_cons_self))
      | _ => exact hcovers
    rw [recentRequests_step hstep, received_snoc]
    cases e.sample parse with
    | none =>
      rw [Option.toList_none, List.append_nil, List.append_nil]
      exact htrimmed
    | some r => exact htrimmed.push r

/-- **A tick finds all events of its window**, if no tick before it had a later time. -/
theorem recent_eq (hrun : run (step parse numberText) (start κ listening) es = some g)
    (hclock : ∀ t ∈ es.filterMap Event.tickTime, t ≤ now) :
    recent now g.recentRequests = recent now (received parse es) :=
  covers_of_run hrun (fun t ht => Int.sub_le_sub_right (hclock t ht) _) _ le_rfl

/-- **What a tick publishes**: the metrics of the request events received in the five seconds before it and of the
sockets online, whose ratios are between 0 and 1; and it keeps no other sample. -/
theorem metrics_of_window (hrun : run (step parse numberText) (start κ listening) es = some g)
    (hclock : ∀ t ∈ es.filterMap Event.tickTime, t ≤ now) (timestamp : String) :
    (announced parse numberText g (.metricsInterval now timestamp)
      = (metricsOf numberText (recent now (received parse es)) g.getConnectedClientsCount timestamp).map fun metrics =>
          (.metrics, .metricsUpdate metrics)) ∧
    (∀ metrics, metricsOf numberText (recent now (received parse es)) g.getConnectedClientsCount timestamp
        = some metrics →
      (∃ x, metrics.cacheHitRatio = .finite x ∧ 0 ≤ x ∧ x ≤ 1) ∧
        ∃ x, metrics.errorRate = .finite x ∧ 0 ≤ x ∧ x ≤ 1) ∧
    ∀ g', step parse numberText g (.metricsInterval now timestamp) = some g' →
      g'.recentRequests = recent now (received parse es) := by
  refine ⟨?_, fun metrics => metricsOf_between, fun g' hstep => ?_⟩
  · rw [← recent_eq hrun hclock]
    rfl
  · rw [← recent_eq hrun hclock, recentRequests_step hstep]
    exact List.append_nil _

theorem metrics_of_window_one : ∃ g, run (step (fun _ => some (.obj [("cacheHit", .bool true)])) fun _ => [])
      (start ℕ true) [.kafkaMessage "request.events" (some []) 1000, .metricsInterval 6000 "now"] = some g ∧
    announced (fun _ => some (.obj [("cacheHit", .bool true)])) (fun _ => []) g (.metricsInterval 6001 "then")
      = (metricsOf (fun _ => []) [] 0 "then").map fun metrics => (.metrics, .metricsUpdate metrics) := by
  have hrun : run (step (fun _ => some (.obj [("cacheHit", .bool true)])) fun _ => []) (start ℕ true)
    [.kafkaMessage "request.events" (some []) 1000, .metricsInterval 6000 "now"] = some _ := rfl
  exact ⟨_, hrun, (metrics_of_window hrun (by decide) "then").1⟩

/-- **When the process ends**: at a tick in whose window an event was received with a status or a latency that is
neither a number nor a text, and at no other event. -/
theorem crashed_iff (hrun : run (step parse numberText) (start κ listening) es = some g)
    (hclock : (es.filterMap Event.tickTime).Pairwise (· ≤ ·)) :
    g.crashed = true ↔ ∃ before now timestamp, es = before ++ [.metricsInterval now timestamp] ∧
      ∃ r ∈ recent now (received parse before), r.Unusable := by
  rcases List.eq_nil_or_concat es with rfl | ⟨before, e, rfl⟩
  · cases hrun
    exact iff_of_false Bool.false_ne_true fun ⟨before, now, timestamp, hsplit, _⟩ => by simp at hsplit
  · rw [List.concat_eq_append] at hrun hclock ⊢
    obtain ⟨m, hm, hstep⟩ := (run_snoc_eq_some ..).mp hrun
    rw [crashed_step hstep]
    constructor
    · rintro ⟨now, timestamp, rfl, hbad⟩
      rw [List.filterMap_append, List.pairwise_append] at hclock
      refine ⟨before, now, timestamp, rfl, ?_⟩
      rw [← recent_eq hm fun t ht => hclock.2.2 t ht now List.mem_cons_self]
      exact hbad
    · rintro ⟨before', now, timestamp, hsplit, hbad⟩
      obtain ⟨rfl, hlast⟩ := List.append_inj' hsplit rfl
      cases hlast
      rw [List.filterMap_append, List.pairwise_append] at hclock
      refine ⟨now, timestamp, rfl, ?_⟩
      rw [recent_eq hm fun t ht => hclock.2.2 t ht now List.mem_cons_self]
      exact hbad

theorem crashed_one : ∃ g, run (step (fun _ => some (.obj [("status", .obj [("toString", .null)])])) fun _ => [])
    (start ℕ true) [.kafkaMessage "request.events" (some []) 1000, .metricsInterval 6000 "now"] = some g ∧
      g.crashed = true := by
  have hrun : run (step (fun _ => some (.obj [("status", .obj [("toString", .null)])])) fun _ => []) (start ℕ true)
    [.kafkaMessage "request.events" (some []) 1000, .metricsInterval 6000 "now"] = some _ := rfl
  refine ⟨_, hrun, (crashed_iff hrun (by decide)).mpr ⟨[.kafkaMessage "request.events" (some []) 1000], 6000, "now",
    rfl, _, List.mem_cons_self, .inl ?_⟩⟩
  show Json.toText (.obj [("toString", .null)]) = none
  rw [Json.toText]
  rfl

end Steps

end EdgeSphere.Realtime
