import FlowKernel.Meters

/-!
# The counters between two resets

As long as `reset_stats()` runs between two cycles and nothing that is counted
reaches 2^64, the counters and the channels together account for every frame at
each cycle boundary, and no difference that `handle_events` forms is negative. The
data callbacks run at any point of a cycle.

The drop counters are balanced meters. Each processed counter, together with the
count that a cycle still holds in a local variable, is the ledger's.
-/

namespace FlowKernel.Reactor

open Foundation

universe u
variable {κ : Type u}

/-- One value for each channel. -/
def perPriority {α : Type*} (critical normal background : α) : TopicPriority → α
  | .critical => critical
  | .normal => normal
  | .background => background

/-- The processed counter of a channel. -/
def Stats.processed (stats : Stats) : TopicPriority → U64 :=
  perPriority stats.critical_processed stats.normal_processed stats.background_processed

/-- The dispatches of a channel, by the history. -/
def Ledger.dispatched (ledger : Ledger) : TopicPriority → Nat :=
  perPriority ledger.critical ledger.normal ledger.background

/-- The dispatches of the running cycle that are not charged to a counter yet. -/
def ReactorPc.counted : ReactorPc → TopicPriority → U64
  | .pop critical normal | .dispatch critical normal _ | .addCriticalProcessed critical normal =>
      perPriority critical normal 0
  | .addNormalProcessed _ normal => perPriority 0 normal 0
  | .drain _ background | .dispatchSlot _ background _ | .addBackgroundProcessed background =>
      perPriority 0 0 background
  | _ => perPriority 0 0 0

/-- Every dispatch since the last reset is charged to the counter of the frame's own
priority, or about to be. -/
def Processed (config : Config κ) (s : State κ) : Prop :=
  ∀ priority, (s.stats.processed priority).toNat + (s.reactor.counted priority).toNat =
    (ledger config s.log).dispatched priority

/-- Nothing that is counted has reached 2^64. -/
structure Countable (config : Config κ) (s : State κ) : Prop extends Fits s where
  dispatched : ∀ priority, (ledger config s.log).dispatched priority < 2 ^ 64

/-- Accesses of a `reset_stats()` that runs beside a cycle. -/
def Action.interferes : Action → Bool
  | .beginReset | .resetStep _ => true
  | _ => false

/-- Runs whose resets fall between two cycles and whose counts stay below 2^64. -/
def Undisturbed (config : Config κ) (s : State κ) (action : Action) : Prop :=
  action.interferes = false ∧ ∀ next, step config s action = some next → Countable config next

/-- Events that record a dispatch or start the ledger anew. -/
def Event.dispatches : Event κ → Bool
  | .dispatched _ | .slotDispatched _ _ | .reset _ _ => true
  | _ => false

variable {config : Config κ} {s next : State κ}

/-- An undisturbed step can be accounted for. -/
theorem Undisturbed.accountable {action : Action} (permitted : Undisturbed config s action) :
    Accountable config s action := by
  refine ⟨?_, fun next stepped => (permitted.2 next stepped).toFits⟩
  have apart := permitted.1
  cases action with
  | resetStep order => simp [Action.interferes] at apart
  | _ => trivial

/-- Other events are no dispatches. -/
theorem ledger_dispatched {log events : List (Event κ)}
    (other : ∀ event ∈ events, event.dispatches = false) :
    (ledger config (log ++ events)).dispatched = (ledger config log).dispatched := by
  apply ledger_kept Ledger.dispatched
  intro event member book
  have kept := other event member
  cases event with
  | offered priority sample pushed => cases pushed <;> rfl
  | slot hash operation => cases operation <;> rfl
  | dispatched call => simp [Event.dispatches] at kept
  | slotDispatched hash call => simp [Event.dispatches] at kept
  | reset pending full => simp [Event.dispatches] at kept
  | _ => rfl

/-- A step that dispatches nothing. -/
theorem Processed.noted (processed : Processed config s) {events : List (Event κ)}
    (log : next.log = s.log ++ events) (other : ∀ event ∈ events, event.dispatches = false)
    (stats : next.stats.processed = s.stats.processed)
    (counted : next.reactor.counted = s.reactor.counted) : Processed config next := by
  intro priority
  rw [stats, counted, log, ledger_dispatched other]
  exact processed priority

/-- A step that records nothing. -/
theorem Processed.kept (processed : Processed config s) (log : next.log = s.log)
    (stats : next.stats.processed = s.stats.processed)
    (counted : next.reactor.counted = s.reactor.counted) : Processed config next :=
  processed.noted (log.trans (List.append_nil _).symm) (by simp) stats counted

section Charging

/-- The index leads to a handler of the frame's own priority. -/
theorem priorityOf_found
    (distinct : (config.registrations.map fun call => fnv1a_hash call.path).Nodup)
    {frame : Frame} {source target : Handler κ} {index : Nat}
    (received : config.Source frame source)
    (found : config.registry.find source.path_hash = some (index, target)) :
    config.priorityOf frame = some target.priority := by
  obtain ⟨_, registration, present, rfl⟩ := find_source distinct received found
  rw [Config.priorityOf, present]
  rfl

/-- Moving a local count into its counter loses nothing below 2^64. -/
theorem charged {counter count : U64} {total : Nat}
    (sum : counter.toNat + count.toNat = total) (small : total < 2 ^ 64) :
    (counter + count).toNat + (0 : U64).toNat = total := by
  rw [BitVec.toNat_add_of_lt (sum ▸ small)]
  exact sum

/-- A dispatch is counted in the local variable of its priority. -/
theorem Processed.count (processed : Processed config s) {own : TopicPriority}
    (entry : ∀ priority, (ledger config next.log).dispatched priority =
      (ledger config s.log).dispatched priority + if priority = own then 1 else 0)
    (stats : next.stats.processed = s.stats.processed)
    (counted : ∀ priority, next.reactor.counted priority =
      s.reactor.counted priority + if priority = own then 1 else 0)
    (small : ∀ priority, (ledger config next.log).dispatched priority < 2 ^ 64) :
    Processed config next := by
  intro priority
  have before := processed priority
  have bounded := small priority
  have one : (1 : U64).toNat = 1 := rfl
  rw [entry] at bounded ⊢
  rw [stats, counted]
  by_cases same : priority = own
  · simp only [if_pos same] at bounded ⊢
    rw [BitVec.toNat_add_of_lt (by omega), one]
    omega
  · simpa [if_neg same] using before

/-- Every access of `handle_events` keeps the processed counters in step with the
ledger. -/
theorem access_processed
    (distinct : (config.registrations.map fun call => fnv1a_hash call.path).Nodup)
    (sourced : Sourced config s.channels) (processed : Processed config s)
    (small : ∀ priority, (ledger config next.log).dispatched priority < 2 ^ 64)
    {answers : Answers} (access : Access config s answers s.reactor next) :
    Processed config next := by
  obtain ⟨running, started, contexts, queue, dropped, cache, stats, latencies, sessions, wakeup,
    callbacks, stops, resetting, reactor, log⟩ := s
  cases access with
  | armFirst | arm | enter | emptied | pop | unindexed | startDrain | drained | visitEmpty | visit
  | unindexedSlot => exact processed.noted rfl (by simp [Event.dispatches]) rfl rfl
  | @dispatchCritical critical normal cs index handler found urgent =>
    obtain ⟨source, received, hash, -⟩ := sourced.hand cs rfl
    rw [hash] at found
    have own := priorityOf_found distinct received found
    refine @Processed.count _ _ _ _ processed .critical ?_ rfl ?_ small
    · intro priority
      simp only [State.record, ledger_append, List.foldl_cons, List.foldl_nil, Ledger.add, own,
        urgent, if_true]
      cases priority <;> rfl
    · rintro (_ | _ | _) <;> simp [ReactorPc.counted, perPriority, State.record]
  | @dispatchNormal critical normal cs index handler found other =>
    obtain ⟨source, received, hash, queued⟩ := sourced.hand cs rfl
    rw [hash] at found
    have own := priorityOf_found distinct received found
    have same : source.priority = handler.priority :=
      Option.some.inj ((priorityOf_source received).symm.trans own)
    have normal : handler.priority = .normal := by
      cases priority : handler.priority with
      | critical => exact absurd priority other
      | normal => rfl
      | background => exact absurd (same.trans priority) queued
    refine @Processed.count _ _ _ _ processed .normal ?_ rfl ?_ small
    · intro priority
      simp only [State.record, ledger_append, List.foldl_cons, List.foldl_nil, Ledger.add, own,
        normal]
      cases priority <;> rfl
    · rintro (_ | _ | _) <;> simp [ReactorPc.counted, perPriority, State.record]
  | addCriticalProcessed =>
    intro priority
    cases priority with
    | critical => exact charged (processed .critical) (small .critical)
    | normal => exact processed .normal
    | background => exact processed .background
  | addNormalProcessed =>
    intro priority
    cases priority with
    | critical => exact processed .critical
    | normal => exact charged (processed .normal) (small .normal)
    | background => exact processed .background
  | dispatchSlot =>
    refine @Processed.count _ _ _ _ processed .background ?_ rfl ?_ small
    · intro priority
      simp only [State.record, ledger_append, List.foldl_cons, List.foldl_nil, Ledger.add]
      cases priority <;> rfl
    · rintro (_ | _ | _) <;> simp [ReactorPc.counted, perPriority, State.record]
  | addBackgroundProcessed =>
    intro priority
    cases priority with
    | critical => exact processed .critical
    | normal => exact processed .normal
    | background => exact charged (processed .background) (small .background)
  | _ => exact processed.kept rfl rfl rfl

end Charging

section Balancing

/-- Data callbacks dispatch nothing. -/
theorem receive_processed (processed : Processed config s) {thread : Nat} {ctx : CallbackContext}
    {frame : Frame} {now : TimePoint} (outcome : Callback config s thread ctx frame now next) :
    Processed config next := by
  cases outcome with
  | ignored => exact processed
  | accepted => exact processed.noted rfl (by simp [Event.dispatches]) rfl rfl
  | rejected => exact processed.noted rfl (by simp [Event.dispatches]) rfl rfl
  | put => exact processed.noted rfl (by simp [Event.dispatches]) rfl rfl
  | unslotted => exact processed.noted rfl (by simp [Event.dispatches]) rfl rfl

/-- An undisturbed step keeps the processed counters in balance. -/
theorem step_processed
    (distinct : (config.registrations.map fun call => fnv1a_hash call.path).Nodup)
    (sourced : Sourced config s.channels) (processed : Processed config s)
    (countable : Countable config next) {action : Action} (apart : action.interferes = false)
    (stepped : step config s action = some next) : Processed config next := by
  cases step_transition stepped with
  | receive idle known outcome => exact receive_processed processed outcome
  | write => exact processed.kept rfl rfl rfl
  | stop | stopWrite => exact processed.noted rfl (by simp [Event.dispatches]) rfl rfl
  | access access => exact access_processed distinct sourced processed countable.dispatched access
  | beginReset | resetStep => simp [Action.interferes] at apart
  | reset here =>
    intro priority
    simp only [reset_stats, State.record, here, ledger_append, List.foldl_cons, List.foldl_nil,
      Ledger.add]
    cases priority <;> rfl

/-- In every undisturbed run the processed counters are in balance. -/
theorem reachable_processed
    (distinct : (config.registrations.map fun call => fnv1a_hash call.path).Nodup)
    (reached : (machine config).ReachableWithin (Undisturbed config) s) : Processed config s :=
  Machine.invariant_within (Processed config) (fun priority => by cases priority <;> rfl)
    (fun _ _ _ met processed permitted stepped =>
      step_processed distinct (reachable_sourced met.reachable) processed
        (permitted.2 _ stepped) permitted.1 stepped) reached

/-- Both drop counters have published, or are about to publish, every loss behind
their baselines. -/
theorem reachable_balanced
    (reached : (machine config).ReachableWithin (Undisturbed config) s) :
    (s.queueMeter config).Balanced ∧ (s.backgroundMeter config).Balanced := by
  refine Machine.invariant_within
    (fun s => (s.queueMeter config).Balanced ∧ (s.backgroundMeter config).Balanced) ⟨rfl, rfl⟩ ?_
    reached
  intro before action after met balanced permitted stepped
  have metered := reachable_metered (met.weaken fun _ _ => Undisturbed.accountable)
  have whole : ∀ order, action ≠ .resetStep order := by
    rintro order rfl
    exact absurd permitted.1 (by simp [Action.interferes])
  have steps := step_meters (reachable_counted met.reachable) metered
    (permitted.2 _ stepped).toFits whole stepped
  exact ⟨DeltaMeter.balanced_step metered.queue balanced.1 steps.queue,
    DeltaMeter.balanced_step metered.background balanced.2 steps.background⟩

end Balancing

/-- Between two cycles, or behind the last. -/
def ReactorPc.boundary : ReactorPc → Bool
  | .loopTest | .returned => true
  | _ => false

/-- What the counters say at a cycle boundary about the frames since the last reset. -/
structure Balance (config : Config κ) (s : State κ) : Prop where
  queue : (ledger config s.log).offered + (ledger config s.log).pending =
    s.stats.critical_processed.toNat + s.stats.normal_processed.toNat +
      s.stats.critical_dropped.toNat + s.stats.normal_dropped.toNat + s.critical_queue.length +
        (s.dropped - s.stats.last_queue_dropped).toNat
  slots : ∀ order : List U64, order.Perm s.background_cache.keys →
    (ledger config s.log).puts + (ledger config s.log).full =
      s.stats.background_processed.toNat + s.stats.background_dropped.toNat +
        s.background_cache.full s.background_cache.keys +
          (s.background_cache.get_total_dropped order - s.stats.last_bg_dropped).toNat
  critical : s.stats.critical_processed.toNat = (ledger config s.log).critical
  normal : s.stats.normal_processed.toNat = (ledger config s.log).normal

/-- The balance at cycle boundaries, and at every moment that no subtraction of
`handle_events` is about to wrap. -/
structure AccountingContract (config : Config κ) (s : State κ) : Prop where
  balance : s.reactor.boundary = true → Balance config s
  queueDifference : ∀ current, s.reactor = .readLast current →
    s.stats.last_queue_dropped ≤ current
  backgroundDifference : ∀ current, s.reactor = .readLastBg current →
    s.stats.last_bg_dropped ≤ current
  shareDifference : ∀ new c_drop, s.reactor = .addNormalDropped new c_drop → c_drop ≤ new

/-- At a boundary no frame is in hand and nothing waits to be charged. -/
structure ReactorPc.AtRest (pc : ReactorPc) : Prop where
  hand : pc.hand = none
  slotHand : pc.slotHand = none
  queuePhase : pc.queuePhase = .publishing 0
  backgroundPhase : ∀ cache, pc.backgroundPhase cache = .publishing 0
  counted : ∀ priority, pc.counted priority = 0

/-- At a boundary no count is under way. -/
theorem ReactorPc.at_rest {pc : ReactorPc} (boundary : pc.boundary = true) : pc.AtRest := by
  cases pc with
  | loopTest => exact ⟨rfl, rfl, rfl, fun _ => rfl, fun priority => by cases priority <;> rfl⟩
  | returned => exact ⟨rfl, rfl, rfl, fun _ => rfl, fun priority => by cases priority <;> rfl⟩
  | _ => simp [ReactorPc.boundary] at boundary

/-- At every boundary the counters balance. -/
theorem reachable_balance
    (distinct : (config.registrations.map fun call => fnv1a_hash call.path).Nodup)
    (reached : (machine config).ReachableWithin (Undisturbed config) s)
    (boundary : s.reactor.boundary = true) : Balance config s := by
  have rest := ReactorPc.at_rest boundary
  have metered := reachable_metered (reached.weaken fun _ _ => Undisturbed.accountable)
  have counted := reachable_counted reached.reachable
  have tallied : Tallied config s.channels := reachable_tallied reached.reachable
  obtain ⟨queueBalanced, backgroundBalanced⟩ := reachable_balanced reached
  have charged : ∀ priority, (s.stats.processed priority).toNat =
      (ledger config s.log).dispatched priority := by
    intro priority
    rw [← reachable_processed distinct reached priority, rest.counted]
    rfl
  have critical : s.stats.critical_processed.toNat = (ledger config s.log).critical :=
    charged .critical
  have normal : s.stats.normal_processed.toNat = (ledger config s.log).normal := charged .normal
  have background : s.stats.background_processed.toNat = (ledger config s.log).background :=
    charged .background
  refine ⟨?_, ?_, critical, normal⟩
  · have sound := metered.queue
    have flow := tallied.queue
    simp only [DeltaMeter.Sound, DeltaMeter.Balanced, State.queueMeter,
      rest.queuePhase] at sound queueBalanced
    simp only [State.channels, rest.hand, Option.toList_none, List.length_nil] at flow
    rw [BitVec.toNat_sub_of_le (BitVec.le_def.mpr sound.2)]
    omega
  · intro order listed
    have sound := metered.background
    have flow := tallied.slots
    have total := total_dropped counted metered.fits listed
    simp only [DeltaMeter.Sound, DeltaMeter.Balanced, State.backgroundMeter,
      rest.backgroundPhase] at sound backgroundBalanced
    simp only [State.channels, rest.slotHand, Option.toList_none, List.length_nil] at flow
    rw [BitVec.toNat_sub_of_le (BitVec.le_def.mpr (total ▸ sound.2)), total]
    omega

/-- In every run of handlers with pairwise distinct path hashes, whose data callbacks
may interrupt a cycle at any point, and whose resets do not. -/
theorem accounting_contract
    (distinct : (config.registrations.map fun call => fnv1a_hash call.path).Nodup)
    (reached : (machine config).ReachableWithin (Undisturbed config) s) :
    AccountingContract config s := by
  have metered := reachable_metered (reached.weaken fun _ _ => Undisturbed.accountable)
  exact
    { balance := reachable_balance distinct reached
      queueDifference := metered.queue_difference
      backgroundDifference := metered.background_difference
      shareDifference := by
        intro new c_drop here
        have share := metered.proportioned
        rwa [Proportioned, here] at share }

section Runs

/-- The history can be counted. -/
instance (config : Config κ) (s : State κ) : Decidable (Countable config s) :=
  decidable_of_iff (Fits s ∧ (ledger config s.log).critical < 2 ^ 64 ∧
      (ledger config s.log).normal < 2 ^ 64 ∧ (ledger config s.log).background < 2 ^ 64)
    ⟨fun ⟨fits, critical, normal, background⟩ =>
        ⟨fits, fun priority => by cases priority <;> assumption⟩,
      fun countable => ⟨countable.toFits, countable.dispatched .critical,
        countable.dispatched .normal, countable.dispatched .background⟩⟩

/-- One step's share in being undisturbed, as a check of a replay. -/
def undisturbed (config : Config κ) (_ : State κ) (action : Action) (after : State κ) : Bool :=
  !action.interferes && decide (Countable config after)

/-- What the check accepts meets the condition. -/
theorem undisturbed_of_check {action : Action} (stepped : step config s action = some next)
    (passed : undisturbed config s action next = true) : Undisturbed config s action := by
  obtain ⟨apart, countable⟩ := Bool.and_eq_true_iff.mp passed
  refine ⟨by simpa using apart, ?_⟩
  intro after again
  obtain rfl := Option.some.inj (stepped.symm.trans again)
  exact of_decide_eq_true countable

/-- A cycle, a reset that finds a frame in the queue and one in the slot, and a cycle
interrupted by a costmap and an E-Stop, with two more costmaps behind it. -/
def countedRun : List Action :=
  defaultTurns 10 ++
    [.receive 0 0 0 estopPath emptyMessage 5, .receive 1 2 1 costmapPath emptyMessage 6,
      .receive 1 2 2 costmapPath emptyMessage 7] ++ defaultTurns 23 ++
    [.receive 2 1 3 telemetryPath emptyMessage 8, .receive 1 2 4 costmapPath emptyMessage 9,
      .reset [fnv1a_hash costmapPath]] ++ defaultTurns 5 ++
    [.receive 1 2 5 costmapPath emptyMessage 10, .receive 3 0 6 estopPath emptyMessage 11] ++
    defaultTurns 20 ++
    [.receive 1 2 7 costmapPath emptyMessage 12, .receive 1 2 8 costmapPath emptyMessage 13]

/-- A run with an overwrite and a frame that is pending. -/
theorem countedRun_contract :
    ∃ s, (machine defaultConfig).execWithin (undisturbed defaultConfig) (init TopicPriority)
        countedRun = some s ∧
      s.reactor.boundary = true ∧ (ledger defaultConfig s.log).pending = 1 ∧
        (ledger defaultConfig s.log).puts = 3 ∧ s.stats.background_dropped.toNat = 1 ∧
          AccountingContract defaultConfig s := by
  have distinct : (defaultConfig.registrations.map fun call => fnv1a_hash call.path).Nodup := by
    decide +kernel
  have outcome : ((machine defaultConfig).execWithin (undisturbed defaultConfig)
      (init TopicPriority) countedRun).map (fun s =>
        (s.reactor.boundary, (ledger defaultConfig s.log).pending,
          (ledger defaultConfig s.log).puts, s.stats.background_dropped.toNat)) =
      some (true, 1, 3, 1) := by
    decide +kernel
  obtain ⟨s, ran, seen⟩ := Option.map_eq_some_iff.mp outcome
  simp only [Prod.mk.injEq] at seen
  obtain ⟨boundary, pending, puts, dropped⟩ := seen
  have reached := Machine.ReachableWithin.exec (fun _ _ _ => undisturbed_of_check) .start ran
  exact ⟨s, ran, boundary, pending, puts, dropped, accounting_contract distinct reached⟩

end Runs

end FlowKernel.Reactor
