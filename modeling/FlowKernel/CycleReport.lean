import FlowKernel.HandleEvents
import FlowKernel.HandlerStatuses

/-!
# What a call of `handle_events` does

Read off the function: an undisturbed call invokes the callback of every queued frame, in
the order of the queue, and then that of every full slot; it counts what it invoked, charges
what was dropped since the last call, and leaves the queue and the slots empty.
-/

namespace FlowKernel.Reactor

open Foundation

universe u
variable {κ : Type u}

/-- The invocation that a sample of the queue leads to. -/
def Config.poppedCall (config : Config κ) (cs : CriticalSample) : Option (Call κ) :=
  (config.registry.find cs.handler_hash).map fun (index, handler) =>
    queueCall index handler cs.payload

/-- The same for a sample from a slot. -/
def Config.drained (config : Config κ) (sample : HeldSample Frame) : Option (Call κ) :=
  (config.registry.find sample.handler_hash).map fun (index, handler) =>
    slotCall index handler sample.payload

/-- The invocations of a list that a channel is charged with. -/
def tally (priority : TopicPriority) (calls : List (Call κ)) : U64 :=
  BitVec.ofNat 64 (calls.countP fun call => call.processed = priority)

/-- What an undisturbed call makes of the state it is called in. -/
structure CycleReport (config : Config κ) (s after : State κ) : Prop where
  invoked : ∃ order : List U64, order.Perm s.background_cache.keys ∧
    calls after.log = calls s.log ++ (s.critical_queue.filterMap config.poppedCall ++
      (order.filterMap fun hash => (s.background_cache.slots hash).held).filterMap config.drained)
  queue : after.critical_queue = []
  slots : ∀ hash ∈ s.background_cache.keys,
    after.background_cache.slots hash = { s.background_cache.slots hash with held := none }
  processed : ∀ priority, after.stats.processed priority = s.stats.processed priority +
    tally priority ((calls after.log).drop (calls s.log).length)
  last : after.stats.critical_count_last =
      tally .critical (s.critical_queue.filterMap config.poppedCall) ∧
    after.stats.normal_count_last = tally .normal (s.critical_queue.filterMap config.poppedCall)
  rejected : after.stats.last_queue_dropped = s.dropped ∧
    after.stats.critical_dropped + after.stats.normal_dropped =
      s.stats.critical_dropped + s.stats.normal_dropped +
        (s.dropped - s.stats.last_queue_dropped)
  overwritten : after.stats.last_bg_dropped =
      s.background_cache.get_total_dropped s.background_cache.keys ∧
    after.stats.background_dropped = s.stats.background_dropped +
      (s.background_cache.get_total_dropped s.background_cache.keys - s.stats.last_bg_dropped)
  kept : after = { s with
    critical_queue := after.critical_queue
    background_cache := after.background_cache
    stats := after.stats
    latencies := after.latencies
    wakeup := after.wakeup
    log := after.log }

variable {config : Config κ} {loop : Loop κ}

/-- A count that begins at zero. -/
theorem from_zero (count : U64) : 0 + count = count :=
  BitVec.zero_add count

/-- No calls, no count. -/
theorem tally_nil (priority : TopicPriority) : tally priority ([] : List (Call κ)) = 0#64 :=
  rfl

/-- The count of two parts. -/
theorem tally_append (priority : TopicPriority) (left right : List (Call κ)) :
    tally priority (left ++ right) = tally priority left + tally priority right := by
  rw [tally, List.countP_append, BitVec.ofNat_add, tally, tally]

/-- The count of a call and of those behind it. -/
theorem tally_cons (priority : TopicPriority) (call : Call κ) (calls : List (Call κ)) :
    tally priority (call :: calls) = tally priority [call] + tally priority calls :=
  tally_append priority [call] calls

/-- The calls end in that of the last event. -/
theorem calls_snoc (log : List (Event κ)) (event : Event κ) :
    calls (log ++ [event]) = calls log ++ event.call.toList := by
  rw [calls_append]
  cases event <;> rfl

/-- A queued frame that the index does not find is passed over. -/
theorem dispatch_silent {cs : CriticalSample} (silent : config.poppedCall cs = none) :
    loop.dispatch config cs = { loop with state := loop.state.record [.unindexed cs.payload] } :=
  Loop.dispatch_unindexed (Option.map_eq_none_iff.mp silent)

/-- Otherwise its invocation is counted for the channel of its handler. -/
theorem dispatch_invoked {cs : CriticalSample} {call : Call κ}
    (queued : config.poppedCall cs = some call) : ∃ latencies,
      loop.dispatch config cs =
        { loop with
          state := { loop.state with latencies := latencies }.record [.dispatched call]
          readings := loop.readings.tail
          critical_count := loop.critical_count + tally .critical [call]
          normal_count := loop.normal_count + tally .normal [call] } := by
  obtain ⟨⟨index, handler⟩, found, rfl⟩ := Option.map_eq_some_iff.mp queued
  refine ⟨record_latency loop.state.latencies handler.priority
    (loop.readings.head - cs.enqueue_time), ?_⟩
  by_cases urgent : handler.priority = .critical
  · rw [Loop.dispatch_critical found urgent]
    simp [queueCall, urgent, tally]
  · rw [Loop.dispatch_normal found urgent]
    simp [queueCall, urgent, tally]

/-- The loop over the queue: what it invokes and counts, and that it touches nothing else. -/
theorem popAll_report (config : Config κ) (queue : List CriticalSample) (loop : Loop κ)
    (here : loop.state.critical_queue = queue) :
    ∃ latencies log readings,
      loop.popAll config queue =
        { loop with
          state := { loop.state with critical_queue := [], latencies := latencies, log := log }
          readings := readings
          critical_count :=
            loop.critical_count + tally .critical (queue.filterMap config.poppedCall)
          normal_count := loop.normal_count + tally .normal (queue.filterMap config.poppedCall) } ∧
      calls log = calls loop.state.log ++ queue.filterMap config.poppedCall := by
  induction queue generalizing loop with
  | nil =>
    refine ⟨loop.state.latencies, loop.state.log ++ [.emptied], loop.readings, ?_, ?_⟩
    · simp only [Loop.popAll, State.record, List.filterMap_nil, tally_nil, BitVec.add_zero]
      rw [← here]
    · rw [calls_snoc]
      rfl
  | cons cs rest inductionHypothesis =>
    let popped : Loop κ :=
      { loop with state := { loop.state with critical_queue := rest }.record [.popped cs] }
    cases queued : config.poppedCall cs with
    | none =>
      have passed : popped.dispatch config cs = _ := dispatch_silent queued
      obtain ⟨latencies, log, readings, same, invoked⟩ :=
        inductionHypothesis (popped.dispatch config cs) (by rw [passed]; rfl)
      refine ⟨latencies, log, readings, same.trans ?_, invoked.trans ?_⟩
      · rw [List.filterMap_cons_none queued, passed]
        rfl
      · rw [List.filterMap_cons_none queued, passed]
        change calls (loop.state.log ++ [.popped cs] ++ [.unindexed cs.payload]) ++ _ = _
        rw [calls_snoc, calls_snoc, List.append_assoc, List.append_assoc]
        rfl
    | some call =>
      obtain ⟨measured, passed⟩ := @dispatch_invoked _ _ popped _ _ queued
      obtain ⟨latencies, log, readings, same, invoked⟩ :=
        inductionHypothesis (popped.dispatch config cs) (by rw [passed]; rfl)
      refine ⟨latencies, log, readings, same.trans ?_, invoked.trans ?_⟩
      · rw [List.filterMap_cons_some queued, tally_cons .critical, tally_cons .normal,
          ← BitVec.add_assoc, ← BitVec.add_assoc, passed]
        rfl
      · rw [List.filterMap_cons_some queued, passed]
        change calls (loop.state.log ++ [.popped cs] ++ [.dispatched call]) ++ _ = _
        rw [calls_snoc, calls_snoc, List.append_assoc, List.append_assoc]
        rfl

/-- A slot without a handler calls nothing. -/
theorem dispatchSlot_silent {sample : HeldSample Frame} (silent : config.drained sample = none) :
    loop.dispatchSlot config sample =
      { loop with state := loop.state.record [.unindexed sample.payload] } :=
  Loop.dispatchSlot_unindexed (Option.map_eq_none_iff.mp silent)

/-- A slot with a handler makes its call. -/
theorem dispatchSlot_invoked {sample : HeldSample Frame} {call : Call κ}
    (drained : config.drained sample = some call) : ∃ latencies,
      loop.dispatchSlot config sample =
        { loop with
          state := { loop.state with latencies := latencies }.record
            [.slotDispatched sample.handler_hash call]
          readings := loop.readings.tail
          background_count := loop.background_count + tally .background [call] } := by
  obtain ⟨⟨index, handler⟩, found, rfl⟩ := Option.map_eq_some_iff.mp drained
  refine ⟨record_latency loop.state.latencies .background
    (loop.readings.head - sample.put_time), ?_⟩
  rw [Loop.dispatchSlot_indexed found]
  simp [slotCall, tally]

/-- The drain: what it invokes and counts, and that it touches nothing else. -/
theorem drainAll_report (config : Config κ) (todo : List U64) (loop : Loop κ) :
    ∃ latencies log readings,
      loop.drainAll config todo =
        { loop with
          state := { loop.state with
            background_cache := (loop.state.background_cache.drain todo).2
            latencies := latencies
            log := log }
          readings := readings
          background_count := loop.background_count + tally .background
            ((loop.state.background_cache.drain todo).1.filterMap config.drained) } ∧
      calls log = calls loop.state.log ++
        (loop.state.background_cache.drain todo).1.filterMap config.drained := by
  induction todo generalizing loop with
  | nil =>
    refine ⟨loop.state.latencies, loop.state.log ++ [.drained], loop.readings, ?_, ?_⟩
    · simp only [Loop.drainAll, State.record, LatestSampleCache.drain, List.filterMap_nil,
        tally_nil, BitVec.add_zero]
    · rw [calls_snoc]
      rfl
  | cons hash todo inductionHypothesis =>
    let visited := loop.visited hash
    cases taken : (loop.state.background_cache.slots hash).take.1 with
    | none =>
      have yields : (loop.state.background_cache.drain (hash :: todo)).1 =
          (visited.state.background_cache.drain todo).1 := by
        change (loop.state.background_cache.slots hash).take.1.toList ++ _ = _
        rw [taken]
        rfl
      obtain ⟨latencies, log, readings, same, invoked⟩ := inductionHypothesis visited
      refine ⟨latencies, log, readings, ?_, ?_⟩
      · rw [Loop.drainAll_empty taken, yields]
        exact same
      · rw [yields]
        refine invoked.trans ?_
        change calls (loop.state.log ++ [_]) ++ _ = _
        rw [calls_snoc, List.append_assoc]
        rfl
    | some sample =>
      have yields : (loop.state.background_cache.drain (hash :: todo)).1 =
          sample :: (visited.state.background_cache.drain todo).1 := by
        change (loop.state.background_cache.slots hash).take.1.toList ++ _ = _
        rw [taken]
        rfl
      cases drained : config.drained sample with
      | none =>
        have passed : visited.dispatchSlot config sample = _ := dispatchSlot_silent drained
        obtain ⟨latencies, log, readings, same, invoked⟩ :=
          inductionHypothesis (visited.dispatchSlot config sample)
        refine ⟨latencies, log, readings, ?_, ?_⟩
        · rw [Loop.drainAll_full taken, yields, List.filterMap_cons_none drained]
          refine same.trans ?_
          rw [passed]
          rfl
        · rw [yields, List.filterMap_cons_none drained]
          refine invoked.trans ?_
          rw [passed]
          change calls (loop.state.log ++ [_] ++ [.unindexed sample.payload]) ++ _ = _
          rw [calls_snoc, calls_snoc, List.append_assoc, List.append_assoc]
          rfl
      | some call =>
        obtain ⟨measured, passed⟩ := @dispatchSlot_invoked _ _ visited _ _ drained
        obtain ⟨latencies, log, readings, same, invoked⟩ :=
          inductionHypothesis (visited.dispatchSlot config sample)
        refine ⟨latencies, log, readings, ?_, ?_⟩
        · rw [Loop.drainAll_full taken, yields, List.filterMap_cons_some drained,
            tally_cons .background, ← BitVec.add_assoc]
          refine same.trans ?_
          rw [passed]
          rfl
        · rw [yields, List.filterMap_cons_some drained]
          refine invoked.trans ?_
          rw [passed]
          change calls (loop.state.log ++ [_] ++ [.slotDispatched sample.handler_hash call]) ++ _ =
            _
          rw [calls_snoc, calls_snoc, List.append_assoc, List.append_assoc]
          rfl

/-- The wait touches the port alone. -/
theorem await_report (sqe : Bool) (s : State κ) :
    ∃ wakeup log, s.await sqe = { s with wakeup := wakeup, log := log } ∧
      calls log = calls s.log := by
  unfold State.await
  split
  · refine ⟨_, _, rfl, ?_⟩
    change calls (s.log ++ [.armed sqe]) = _
    rw [calls_snoc]
    exact List.append_nil _
  · exact ⟨_, _, rfl, rfl⟩

/-- The overwrites stay counted when the slots are emptied. -/
theorem get_total_dropped_drain (cache : LatestSampleCache Frame) (todo order : List U64) :
    (cache.drain todo).2.get_total_dropped order = cache.get_total_dropped order := by
  have same : ∀ hash, ((cache.drain todo).2.slots hash).drop_count =
      (cache.slots hash).drop_count := by
    intro hash
    rw [LatestSampleCache.slots_drain]
    split <;> rfl
  simp only [LatestSampleCache.get_total_dropped, same]

/-- The counters of BACKGROUND after a call. -/
def reportDrained (stats : Stats) (background_count bg_current_dropped : U64) : Stats :=
  { stats with
    background_processed := stats.background_processed + background_count
    last_bg_dropped := bg_current_dropped
    background_dropped := stats.background_dropped + (bg_current_dropped - stats.last_bg_dropped) }

/-- What the drain of a call leaves and counts. -/
theorem background_report (config : Config κ) (around : Surroundings)
    (readings : Stream' TimePoint) (s : State κ) :
    ∃ latencies wakeup log,
      background config around readings s = { s with
        background_cache := (s.background_cache.drain around.drain).2
        stats := reportDrained s.stats
          (tally .background ((s.background_cache.drain around.drain).1.filterMap config.drained))
          (s.background_cache.get_total_dropped around.sum)
        latencies := latencies
        wakeup := wakeup
        log := log } ∧
      calls log =
        calls s.log ++ (s.background_cache.drain around.drain).1.filterMap config.drained := by
  obtain ⟨latencies, drained, _, walked, invoked⟩ := drainAll_report config around.drain
    { state := s.record [.drainStarted], readings, critical_count := 0, normal_count := 0,
      background_count := 0 }
  rw [background, walk, walked]
  dsimp only
  rw [from_zero]
  obtain ⟨wakeup, log, awaited, quiet⟩ := @await_report κ around.sqe
    { s with
      background_cache := (s.background_cache.drain around.drain).2
      stats := reportDrained s.stats
        (tally .background ((s.background_cache.drain around.drain).1.filterMap config.drained))
        (s.background_cache.get_total_dropped around.sum)
      latencies := latencies
      log := drained }
  refine ⟨latencies, wakeup, log, ?_, ?_⟩
  · rw [← awaited, finish]
    dsimp only
    rw [get_total_dropped_drain]
    rfl
  · refine quiet.trans (invoked.trans ?_)
    change calls (s.log ++ [.drainStarted]) ++ _ = _
    rw [calls_snoc]
    simp [Event.call, State.record]

/-- What a call leaves and counts. -/
theorem handle_events_eq (config : Config κ) (around : Surroundings) (s : State κ) :
    ∃ latencies wakeup log,
      handle_events config around s.called = { s with
        critical_queue := []
        background_cache := (s.background_cache.drain around.drain).2
        stats := reportDrained
          (processed (syncDropped s.stats s.dropped)
            (tally .critical (s.critical_queue.filterMap config.poppedCall))
            (tally .normal (s.critical_queue.filterMap config.poppedCall)))
          (tally .background ((s.background_cache.drain around.drain).1.filterMap config.drained))
          (s.background_cache.get_total_dropped around.sum)
        latencies := latencies
        wakeup := wakeup
        log := log } ∧
      calls log = calls s.log ++ (s.critical_queue.filterMap config.poppedCall ++
        (s.background_cache.drain around.drain).1.filterMap config.drained) := by
  let begun : State κ := { s.called with stats := syncDropped s.stats s.dropped }
  obtain ⟨measured, popped, readings, looped, queued⟩ := popAll_report config s.critical_queue
    { state := begun, readings := around.readings, critical_count := 0, normal_count := 0,
      background_count := 0 } rfl
  let counted : State κ := { begun with
    critical_queue := []
    latencies := measured
    log := popped
    stats := processed begun.stats (tally .critical (s.critical_queue.filterMap config.poppedCall))
      (tally .normal (s.critical_queue.filterMap config.poppedCall)) }
  obtain ⟨latencies, wakeup, log, drained, invoked⟩ :=
    background_report config around readings counted
  have whole : handle_events config around s.called =
      background config around readings counted := by
    change Reactor.counted config around (Loop.popAll config s.critical_queue
      { state := begun, readings := around.readings, critical_count := 0, normal_count := 0,
        background_count := 0 }) = _
    rw [looped, Reactor.counted]
    dsimp only
    rw [from_zero, from_zero]
  refine ⟨latencies, wakeup, log, whole.trans drained, ?_⟩
  have begins : calls begun.log = calls s.log := by
    change calls (s.log ++ [.cycleStarted]) = _
    rw [calls_snoc]
    exact List.append_nil _
  rw [invoked, ← List.append_assoc, ← begins]
  exact congrArg (· ++ _) queued

/-- A share and its rest are the whole. -/
theorem share_total (critical normal new share : U64) :
    critical + share + (normal + (new - share)) = critical + normal + new := by
  have back : share + (new - share) = new := by rw [BitVec.add_comm, BitVec.sub_add_cancel]
  calc critical + share + (normal + (new - share))
      = critical + normal + (share + (new - share)) := by ac_rfl
    _ = critical + normal + new := by rw [back]

/-- What one channel is charged alone is the whole. -/
theorem spill_total (critical normal new : U64) :
    critical + new + normal = critical + normal + new := by
  ac_rfl

/-- Whatever the split, the two channels together are charged with the new drops. -/
theorem charge_eq (stats : Stats) (new_dropped : U64) :
    ∃ critical normal,
      charge stats new_dropped =
        { stats with critical_dropped := critical, normal_dropped := normal } ∧
      critical + normal = stats.critical_dropped + stats.normal_dropped + new_dropped := by
  unfold charge
  dsimp only
  split
  · exact ⟨_, _, rfl, share_total _ _ _ _⟩
  · exact ⟨_, stats.normal_dropped, rfl, spill_total _ _ _⟩

/-- The new drops are charged to the two channels, whole. -/
theorem syncDropped_eq (stats : Stats) (current : U64) :
    ∃ critical normal,
      syncDropped stats current = { stats with
        last_queue_dropped := current, critical_dropped := critical, normal_dropped := normal } ∧
      critical + normal =
        stats.critical_dropped + stats.normal_dropped + (current - stats.last_queue_dropped) := by
  unfold syncDropped
  dsimp only
  split
  · exact charge_eq { stats with last_queue_dropped := current } _
  next none_new =>
    have same : current - stats.last_queue_dropped = 0 := by bv_omega
    exact ⟨stats.critical_dropped, stats.normal_dropped, rfl, by rw [same]; exact
      (BitVec.add_zero _).symm⟩

/-- The frames of the queue are not charged to BACKGROUND, and the others to it alone. -/
theorem tally_queued (queue : List CriticalSample) :
    tally .background (queue.filterMap config.poppedCall) = 0#64 := by
  have none_ : (queue.filterMap config.poppedCall).countP
      (fun call => call.processed = .background) = 0 := by
    refine List.countP_eq_zero.mpr fun call member => ?_
    obtain ⟨cs, _, queued⟩ := List.mem_filterMap.mp member
    obtain ⟨⟨index, handler⟩, _, rfl⟩ := Option.map_eq_some_iff.mp queued
    simp only [queueCall]
    split <;> simp
  rw [tally, none_]

/-- What comes from a slot counts as BACKGROUND. -/
theorem tally_drained (priority : TopicPriority) (samples : List (HeldSample Frame))
    (queued : priority ≠ .background) :
    tally priority (samples.filterMap config.drained) = 0#64 := by
  have none_ : (samples.filterMap config.drained).countP
      (fun call => call.processed = priority) = 0 := by
    refine List.countP_eq_zero.mpr fun call member => ?_
    obtain ⟨sample, _, drained⟩ := List.mem_filterMap.mp member
    obtain ⟨⟨index, handler⟩, _, rfl⟩ := Option.map_eq_some_iff.mp drained
    simp [slotCall, queued.symm]
  rw [tally, none_]

/-- The sum over the slots does not depend on the order of the walk. -/
theorem get_total_dropped_perm (cache : LatestSampleCache Frame) {left right : List U64}
    (same : left.Perm right) : cache.get_total_dropped left = cache.get_total_dropped right := by
  have swap : ∀ hash ∈ left, ∀ found ∈ left, ∀ total : U64,
      total + (cache.slots hash).drop_count + (cache.slots found).drop_count =
        total + (cache.slots found).drop_count + (cache.slots hash).drop_count :=
    fun _ _ _ _ _ => spill_total _ _ _
  exact same.foldl_eq' swap 0

/-- A call reports what it has done. -/
theorem handle_events_report (config : Config κ) {around : Surroundings} {s : State κ}
    (covers : around.Covers s) : CycleReport config s (handle_events config around s.called) := by
  obtain ⟨latencies, wakeup, log, same, invoked⟩ := handle_events_eq config around s
  obtain ⟨critical, normal, synced, total⟩ := syncDropped_eq s.stats s.dropped
  have distinct : around.drain.Nodup := covers.1.nodup_iff.mpr s.background_cache.distinct
  rw [same]
  rw [LatestSampleCache.yields_drain _ distinct] at invoked ⊢
  rw [synced]
  refine
    { invoked := ⟨around.drain, covers.1, invoked⟩
      queue := rfl
      slots := ?_
      processed := ?_
      last := ⟨rfl, rfl⟩
      rejected := ⟨rfl, total⟩
      overwritten := ?_
      kept := rfl }
  · intro hash member
    have visited : hash ∈ around.drain := covers.1.mem_iff.mpr member
    dsimp only
    rw [LatestSampleCache.slots_drain, if_pos visited]
    rfl
  · intro priority
    rw [invoked, List.drop_left, tally_append]
    cases priority with
    | critical =>
      rw [tally_drained .critical _ (by decide), BitVec.add_zero]
      rfl
    | normal =>
      rw [tally_drained .normal _ (by decide), BitVec.add_zero]
      rfl
    | background =>
      rw [tally_queued, BitVec.zero_add]
      rfl
  · dsimp only [reportDrained, processed]
    rw [get_total_dropped_perm _ covers.2]
    exact ⟨rfl, rfl⟩

/-- Every undisturbed call of `handle_events` invokes the callbacks of the queued frames in
their order and then those of the full slots, each once; every counter of processed frames
grows by what was invoked of its channel; the drops since the last call are charged, to
CRITICAL and NORMAL together and to BACKGROUND; and the queue and the slots are left empty. -/
theorem cycle_report (config : Config κ) (s after : State κ) (whole : WholeCycle config s after) :
    CycleReport config s after := by
  obtain ⟨_, around, covers, rfl⟩ := handle_events_iff.mp whole
  exact handle_events_report config covers

/-- An E-Stop is queued and a costmap is in its slot when a cycle begins. -/
def pendingRun : List Action :=
  defaultTurns 10 ++ [.receive 1 0 0 estopPath emptyMessage 0,
    .receive 2 2 1 costmapPath emptyMessage 0]

/-- A call with a frame in the queue. -/
theorem pendingRun_report :
    ∃ s after, (machine defaultConfig).Reachable s ∧ WholeCycle defaultConfig s after ∧
      s.critical_queue.length = 1 ∧ CycleReport defaultConfig s after := by
  have outcome : ((machine defaultConfig).exec (init TopicPriority) pendingRun).map
      (fun s => (s.reactor, s.running, s.critical_queue.length)) =
        some (.loopTest, true, 1) := by
    decide +kernel
  obtain ⟨s, ran, seen⟩ := Option.map_eq_some_iff.mp outcome
  simp only [Prod.mk.injEq] at seen
  obtain ⟨here, running, pending⟩ := seen
  obtain ⟨after, whole⟩ := cycle_exists defaultConfig here running
  exact ⟨s, after, Machine.reachable_of_exec ran, whole, pending,
    cycle_report defaultConfig s after whole⟩

end FlowKernel.Reactor
