import FlowKernel.ReactorSteps

/-!
# Latency statistics

The three latency windows, over any linear order, and what `get_critical_stats`,
`get_normal_stats` and `get_background_stats` report of them. `record_latency` and the part of
`reset_stats` that clears the windows hold `latency_mutex_`, as the getters do, so calls are
taken one after another. The products with 0.95 and 0.99 are exact, and the average, a sum of
floating-point numbers, is left out.
-/

namespace FlowKernel.LatencyStats

open Foundation
open Reactor (Stats Latencies latencyWindowSize pushLatency record_latency)

universe u
variable {α : Type u}

/-- A call that changes the windows. -/
inductive Call (α : Type u) where
  | record_latency (priority : TopicPriority) (latency_us : α)
  | reset_stats
deriving DecidableEq

/-- What a call makes of the windows. -/
def call (latencies : Latencies α) : Call α → Latencies α
  | .record_latency priority latency_us => record_latency latencies priority latency_us
  | .reset_stats => .empty

/-- Calls one after another, from empty windows. -/
def run (calls : List (Call α)) : Latencies α :=
  calls.foldl call .empty

/-- What a getter reports of a channel. -/
structure ChannelStats (α : Type u) where
  processed : U64
  dropped : U64
  p95_latency_us : α
  p99_latency_us : α
deriving DecidableEq

section Getters

variable [LinearOrder α]

/-- `sorted[std::min(static_cast<size_t>(sorted.size() * quantile), sorted.size() - 1)]`. -/
def readQuantile (sorted : List α) (percent : Nat) : Option α :=
  sorted[quantileIndex sorted.length percent]?

variable [Zero α]

/-- The body that the three getters share. A read behind the end is `none`. -/
def channelStats (processed dropped : U64) (window : List α) : Option (ChannelStats α) :=
  if window.isEmpty then some ⟨processed, dropped, 0, 0⟩
  else do
    let sorted := ascending window
    let p95 ← readQuantile sorted 95
    let p99 ← readQuantile sorted 99
    return ⟨processed, dropped, p95, p99⟩

/-- The report on the CRITICAL channel. -/
def get_critical_stats (stats : Stats) (latencies : Latencies α) : Option (ChannelStats α) :=
  channelStats stats.critical_processed stats.critical_dropped latencies.critical

/-- The report on the NORMAL channel. -/
def get_normal_stats (stats : Stats) (latencies : Latencies α) : Option (ChannelStats α) :=
  channelStats stats.normal_processed stats.normal_dropped latencies.normal

/-- The report on the BACKGROUND channel. -/
def get_background_stats (stats : Stats) (latencies : Latencies α) : Option (ChannelStats α) :=
  channelStats stats.background_processed stats.background_dropped latencies.background

end Getters

/-- The latency that a call records for a channel. -/
def Call.latency? (priority : TopicPriority) : Call α → Option α
  | .record_latency channel latency_us => if channel = priority then some latency_us else none
  | .reset_stats => none

/-- The call clears the windows. -/
def Call.resets : Call α → Bool
  | .record_latency _ _ => false
  | .reset_stats => true

/-- The latencies recorded for a channel since the last reset, oldest first. -/
def recorded (priority : TopicPriority) (calls : List (Call α)) : List α :=
  (calls.rtakeWhile fun call => !call.resets).filterMap (Call.latency? priority)

/-- Behind a reset nothing has been recorded. -/
theorem recorded_reset (priority : TopicPriority) (calls : List (Call α)) :
    recorded priority (calls ++ [.reset_stats]) = [] := by
  simp [recorded, Call.resets]

/-- A latency is recorded for its own channel. -/
theorem recorded_record (priority channel : TopicPriority) (calls : List (Call α))
    (latency_us : α) : recorded priority (calls ++ [.record_latency channel latency_us]) =
      recorded priority calls ++ if channel = priority then [latency_us] else [] := by
  unfold recorded
  rw [List.rtakeWhile_concat_pos _ _ _ rfl, List.filterMap_append]
  by_cases same : channel = priority <;> simp [Call.latency?, same]

/-- The last call comes on top of the others. -/
theorem run_snoc (calls : List (Call α)) (last : Call α) :
    run (calls ++ [last]) = call (run calls) last :=
  List.foldl_concat ..

/-- Recording for a channel leaves the other two windows alone. -/
theorem window_record_latency (latencies : Latencies α) (priority channel : TopicPriority)
    (latency_us : α) : (record_latency latencies channel latency_us).window priority =
      if channel = priority then pushLatency (latencies.window priority) latency_us
      else latencies.window priority := by
  cases channel <;> cases priority <;> rfl

/-- Every window is the end of what was recorded for its channel. -/
theorem window_run (priority : TopicPriority) (calls : List (Call α)) :
    (run calls).window priority = (recorded priority calls).rtake latencyWindowSize := by
  induction calls using List.reverseRecOn with
  | nil =>
    have none_ : recorded priority ([] : List (Call α)) = [] := rfl
    rw [none_, List.rtake_nil]
    cases priority <;> rfl
  | append_singleton calls last inductionHypothesis =>
    rw [run_snoc]
    cases last with
    | reset_stats =>
      rw [recorded_reset, List.rtake_nil]
      cases priority <;> rfl
    | record_latency channel latency_us =>
      rw [call, window_record_latency, recorded_record, inductionHypothesis]
      split
      · exact slide_rtake ..
      · rw [List.append_nil]

section Reports

variable [LinearOrder α]

/-- A report on a window: the reads are in range, and the two quantiles are what their names
say. -/
structure Reports (window : List α) (report : Option (ChannelStats α)) : Prop where
  indices : window ≠ [] → quantileIndex window.length 95 < window.length ∧
    quantileIndex window.length 99 < window.length
  quantiles : window ≠ [] → ∃ stats, report = some stats ∧
    IsQuantile 95 window stats.p95_latency_us ∧ IsQuantile 99 window stats.p99_latency_us ∧
      stats.p95_latency_us ≤ stats.p99_latency_us

/-- The read is in range, and what it finds has its rank. -/
theorem readQuantile_eq_some {window : List α} (nonempty : window ≠ []) {percent : Nat}
    (whole : percent ≤ 100) : ∃ value, readQuantile (ascending window) percent = some value ∧
      (ascending window)[quantileIndex window.length percent]? = some value ∧
      IsQuantile percent window value := by
  have length : (ascending window).length = window.length := (ascending_perm window).length_eq
  have bound : quantileIndex window.length percent < (ascending window).length := by
    rw [length]
    exact quantileIndex_lt percent (List.length_pos_iff.mpr nonempty)
  have here := List.getElem?_eq_getElem bound
  refine ⟨_, ?_, here, isQuantile_of_index whole here⟩
  rw [readQuantile, length, here]

/-- The index grows with the percentage. -/
theorem quantileIndex_mono (length : Nat) {percent later : Nat} (ordered : percent ≤ later) :
    quantileIndex length percent ≤ quantileIndex length later := by
  have product : length * percent ≤ length * later := Nat.mul_le_mul_left _ ordered
  unfold quantileIndex
  omega

variable [Zero α]

/-- The body of the getters reports on its window. -/
theorem channelStats_reports (processed dropped : U64) (window : List α) :
    Reports window (channelStats processed dropped window) where
  indices nonempty :=
    have positive := List.length_pos_iff.mpr nonempty
    ⟨quantileIndex_lt 95 positive, quantileIndex_lt 99 positive⟩
  quantiles := by
    intro nonempty
    obtain ⟨p95, read95, here95, quantile95⟩ :=
      readQuantile_eq_some nonempty (show 95 ≤ 100 by decide)
    obtain ⟨p99, read99, here99, quantile99⟩ :=
      readQuantile_eq_some nonempty (show 99 ≤ 100 by decide)
    have ordered := sorted_getElem?_le (ascending_sorted window)
      (quantileIndex_mono window.length (show 95 ≤ 99 by decide)) here95 here99
    refine ⟨⟨processed, dropped, p95, p99⟩, ?_, quantile95, quantile99, ordered⟩
    simp [channelStats, nonempty, read95, read99]

/-- The report does not depend on the order of the window. -/
theorem channelStats_perm (processed dropped : U64) {window other : List α}
    (same : window.Perm other) :
    channelStats processed dropped window = channelStats processed dropped other := by
  have empty : window.isEmpty = other.isEmpty := by
    rw [Bool.eq_iff_iff, List.isEmpty_iff, List.isEmpty_iff]
    constructor
    · rintro rfl
      exact List.nil_perm.mp same
    · rintro rfl
      exact List.perm_nil.mp same
  rw [channelStats, channelStats, empty, ascending_eq_of_perm same]

/-- What a getter reports after a sequence of calls. -/
structure Summarises (priority : TopicPriority) (calls : List (Call α))
    (getter : Latencies α → Option (ChannelStats α)) : Prop where
  window : (run calls).window priority =
    (recorded priority calls).rtake (min (recorded priority calls).length 1000)
  reports : Reports ((run calls).window priority) (getter (run calls))
  order : ∀ other : Latencies α, ((run calls).window priority).Perm (other.window priority) →
    getter (run calls) = getter other

/-- The statistics of the three channels, after any calls. -/
theorem windows_summarised (stats : Stats) (calls : List (Call α)) :
    Summarises .critical calls (get_critical_stats stats) ∧
      Summarises .normal calls (get_normal_stats stats) ∧
      Summarises .background calls (get_background_stats stats) := by
  have windows : ∀ priority, (run calls).window priority =
      (recorded priority calls).rtake (min (recorded priority calls).length 1000) := by
    intro priority
    rw [rtake_min_length]
    exact window_run priority calls
  refine ⟨⟨windows _, ?_, ?_⟩, ⟨windows _, ?_, ?_⟩, ⟨windows _, ?_, ?_⟩⟩
  · exact channelStats_reports ..
  · exact fun other same => channelStats_perm _ _ same
  · exact channelStats_reports ..
  · exact fun other same => channelStats_perm _ _ same
  · exact channelStats_reports ..
  · exact fun other same => channelStats_perm _ _ same

end Reports

section Reactor

universe v
variable {κ : Type v} {config : Reactor.Config κ} {s next : Reactor.State κ}

/-- The windows are those of some sequence of calls. -/
def Recorded (s : Reactor.State κ) : Prop :=
  ∃ calls, s.latencies = run calls

namespace Recorded

/-- One more latency is one more call. -/
theorem record (recorded : Recorded s) (priority : TopicPriority) (latency : Int)
    (kept : next.latencies = record_latency s.latencies priority latency) :
    Recorded next := by
  obtain ⟨calls, same⟩ := recorded
  refine ⟨calls ++ [.record_latency priority latency], ?_⟩
  rw [kept, same, run_snoc]
  rfl

/-- Cleared windows are those of no calls. -/
theorem reset (cleared : next.latencies = .empty) : Recorded next :=
  ⟨[], by rw [cleared]; rfl⟩

/-- A step that records nothing. -/
theorem keep (recorded : Recorded s) (kept : next.latencies = s.latencies) : Recorded next := by
  rwa [Recorded, kept]

/-- The reactor changes the windows by recording only. -/
theorem access {answers : Reactor.Answers} (recorded : Recorded s)
    (access : Reactor.Access config s answers s.reactor next) : Recorded next := by
  generalize s.reactor = pc at access
  cases access with
  | dispatchCritical | dispatchNormal => exact recorded.record _ _ rfl
  | @dispatchSlot _ _ sample =>
    exact recorded.record .background (answers.now - sample.put_time) rfl
  | _ => exact recorded.keep rfl

/-- `reset_stats` clears the windows as a whole. -/
theorem resetStep {order : List U64} (recorded : Recorded s)
    (stepped : Reactor.resetStep s order = some next) : Recorded next := by
  unfold Reactor.resetStep at stepped
  split at stepped
  all_goals try split at stepped
  all_goals first | (obtain rfl := Option.some.inj stepped) | simp at stepped
  all_goals first | exact recorded.keep rfl | exact reset rfl

end Recorded

/-- The windows of a run of the reactor are those the statistics are about. -/
theorem reachable_recorded (reached : (Reactor.machine config).Reachable s) : Recorded s := by
  refine Machine.invariant Recorded ⟨[], rfl⟩ ?_ reached
  intro before action after _ recorded stepped
  cases Reactor.step_transition stepped with
  | access access => exact recorded.access access
  | resetStep stepped => exact recorded.resetStep stepped
  | reset => exact .reset rfl
  | receive idle known outcome =>
    cases outcome <;> exact recorded.keep rfl
  | _ => exact recorded.keep rfl

end Reactor

end FlowKernel.LatencyStats
