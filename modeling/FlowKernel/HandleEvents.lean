import Mathlib.Data.Stream.Init
import FlowKernel.Cycle

/-!
# `handle_events` as one function

`handle_events` written without interruption, statement by statement, as a function of the
state it is called in and of what the environment answers. A cycle of the machine during
which no other thread intervenes computes this function. So what such a cycle does to the
counters, the queue, the slots and the port can be read off the function.
-/

namespace FlowKernel.Reactor

open Foundation

universe u
variable {κ : Type u}

/-- What the environment answers during one call: the clock at the dispatches, one after
another, the orders of the two walks over the map of slots, and whether an SQE is free. -/
structure Surroundings where
  readings : Stream' TimePoint
  drain : List U64
  sum : List U64
  sqe : Bool

/-- The locals of the two loops, with the clock readings to come. -/
structure Loop (κ : Type u) where
  state : State κ
  readings : Stream' TimePoint
  critical_count : U64
  normal_count : U64
  background_count : U64

/-- `new_dropped` frames, of which `c_drop` are charged to CRITICAL. -/
def chargeShare (stats : Stats) (new_dropped c_drop : U64) : Stats :=
  { stats with
    critical_dropped := stats.critical_dropped + c_drop
    normal_dropped := stats.normal_dropped + (new_dropped - c_drop) }

/-- The share of CRITICAL is what the last call dispatched of it, of all it dispatched. -/
def charge (stats : Stats) (new_dropped : U64) : Stats :=
  let total := stats.critical_count_last + stats.normal_count_last
  if total > 0 then chargeShare stats new_dropped (new_dropped * stats.critical_count_last / total)
  else { stats with critical_dropped := stats.critical_dropped + new_dropped }

/-- The drops of the queue since the last call. -/
def syncDropped (stats : Stats) (current_dropped : U64) : Stats :=
  let new_dropped := current_dropped - stats.last_queue_dropped
  let stats := { stats with last_queue_dropped := current_dropped }
  if new_dropped > 0 then charge stats new_dropped else stats

namespace Loop

variable (config : Config κ) (loop : Loop κ)

/-- The body of the loop over the queue. -/
def dispatch (cs : CriticalSample) : Loop κ :=
  match config.registry.find cs.handler_hash with
  | none => { loop with state := loop.state.record [.unindexed cs.payload] }
  | some (index, handler) =>
      let latencies := record_latency loop.state.latencies handler.priority
        (loop.readings.head - cs.enqueue_time)
      if handler.priority = .critical then
        { loop with
          state := { loop.state with latencies := latencies }.record
            [.dispatched { index, callback := handler.callback, latency := handler.priority,
                           processed := .critical, frame := cs.payload }]
          readings := loop.readings.tail
          critical_count := loop.critical_count + 1 }
      else
        { loop with
          state := { loop.state with latencies := latencies }.record
            [.dispatched { index, callback := handler.callback, latency := handler.priority,
                           processed := .normal, frame := cs.payload }]
          readings := loop.readings.tail
          normal_count := loop.normal_count + 1 }

/-- `while (critical_queue_.pop(cs))`. -/
def popAll : List CriticalSample → Loop κ → Loop κ
  | [], loop => { loop with state := loop.state.record [.emptied] }
  | cs :: rest, loop =>
      popAll rest (dispatch config
        { loop with state := { loop.state with critical_queue := rest }.record [.popped cs] } cs)

/-- The body of the consumer that `drain` calls. -/
def dispatchSlot (sample : HeldSample Frame) : Loop κ :=
  match config.registry.find sample.handler_hash with
  | none => { loop with state := loop.state.record [.unindexed sample.payload] }
  | some (index, handler) =>
      { loop with
        state := { loop.state with
          latencies := record_latency loop.state.latencies .background
            (loop.readings.head - sample.put_time) }.record
              [.slotDispatched sample.handler_hash
                { index, callback := handler.callback, latency := .background,
                  processed := .background, frame := sample.payload }]
        readings := loop.readings.tail
        background_count := loop.background_count + 1 }

/-- `take` of a slot. -/
def visited (hash : U64) : Loop κ :=
  let slot := loop.state.background_cache.slots hash
  { loop with
    state := (loop.state.setSlot hash slot.take.2).record [.slot hash slot.takeEvent] }

/-- `drain`. -/
def drainAll : List U64 → Loop κ → Loop κ
  | [], loop => { loop with state := loop.state.record [.drained] }
  | hash :: todo, loop =>
      match (loop.state.background_cache.slots hash).take.1 with
      | none => drainAll todo (loop.visited hash)
      | some sample => drainAll todo (dispatchSlot config (loop.visited hash) sample)

section Branches

variable {config : Config κ} {loop : Loop κ} {cs : CriticalSample} {sample : HeldSample Frame}
  {index : Nat} {handler : Handler κ} {hash : U64} {todo : List U64}

/-- A sample whose hash is unknown is skipped. -/
theorem dispatch_unindexed (missing : config.registry.find cs.handler_hash = none) :
    loop.dispatch config cs =
      { loop with state := loop.state.record [.unindexed cs.payload] } := by
  simp only [dispatch, missing]

/-- A CRITICAL sample is called and counted. -/
theorem dispatch_critical (found : config.registry.find cs.handler_hash = some (index, handler))
    (urgent : handler.priority = .critical) :
    loop.dispatch config cs =
      { loop with
        state := { loop.state with
          latencies := record_latency loop.state.latencies handler.priority
            (loop.readings.head - cs.enqueue_time) }.record
              [.dispatched { index, callback := handler.callback, latency := handler.priority,
                             processed := .critical, frame := cs.payload }]
        readings := loop.readings.tail
        critical_count := loop.critical_count + 1 } := by
  simp only [dispatch, found, if_pos urgent]

/-- Any other sample from the queue is called and counted as NORMAL. -/
theorem dispatch_normal (found : config.registry.find cs.handler_hash = some (index, handler))
    (other : ¬ handler.priority = .critical) :
    loop.dispatch config cs =
      { loop with
        state := { loop.state with
          latencies := record_latency loop.state.latencies handler.priority
            (loop.readings.head - cs.enqueue_time) }.record
              [.dispatched { index, callback := handler.callback, latency := handler.priority,
                             processed := .normal, frame := cs.payload }]
        readings := loop.readings.tail
        normal_count := loop.normal_count + 1 } := by
  simp only [dispatch, found, if_neg other]

/-- A slot whose hash is unknown is skipped. -/
theorem dispatchSlot_unindexed (missing : config.registry.find sample.handler_hash = none) :
    loop.dispatchSlot config sample =
      { loop with state := loop.state.record [.unindexed sample.payload] } := by
  simp only [dispatchSlot, missing]

/-- What a slot held is called and counted. -/
theorem dispatchSlot_indexed
    (found : config.registry.find sample.handler_hash = some (index, handler)) :
    loop.dispatchSlot config sample =
      { loop with
        state := { loop.state with
          latencies := record_latency loop.state.latencies .background
            (loop.readings.head - sample.put_time) }.record
              [.slotDispatched sample.handler_hash
                { index, callback := handler.callback, latency := .background,
                  processed := .background, frame := sample.payload }]
        readings := loop.readings.tail
        background_count := loop.background_count + 1 } := by
  simp only [dispatchSlot, found]

/-- The drain passes an empty slot. -/
theorem drainAll_empty (nothing : (loop.state.background_cache.slots hash).take.1 = none) :
    loop.drainAll config (hash :: todo) = (loop.visited hash).drainAll config todo := by
  simp only [drainAll, nothing]

/-- The drain takes what a slot holds. -/
theorem drainAll_full (taken : (loop.state.background_cache.slots hash).take.1 = some sample) :
    loop.drainAll config (hash :: todo) =
      ((loop.visited hash).dispatchSlot config sample).drainAll config todo := by
  simp only [drainAll, taken]

end Branches

end Loop

namespace State

/-- `arm_poll_eventfd`. -/
def rearm (sqe : Bool) (s : State κ) : State κ :=
  { s with wakeup := if sqe then s.wakeup.arm else s.wakeup }.record [.armed sqe]

/-- The wait for a completion, which may end at its timeout. -/
def await (sqe : Bool) (s : State κ) : State κ :=
  if 0 < s.wakeup.cqes then { s with wakeup := s.wakeup.read.seen }.rearm sqe else s

/-- The overwritten frames since the last call are charged to BACKGROUND. -/
def syncBackground (bg_current_dropped : U64) (s : State κ) : State κ :=
  { s with stats := { s.stats with
      last_bg_dropped := bg_current_dropped
      background_dropped :=
        s.stats.background_dropped + (bg_current_dropped - s.stats.last_bg_dropped) } }

end State

section Calls

variable (config : Config κ) (around : Surroundings)

/-- From the end of `drain` on. -/
def finish (background_count : U64) (s : State κ) : State κ :=
  let s := { s with stats := { s.stats with
    background_processed := s.stats.background_processed + background_count } }
  (s.syncBackground (s.background_cache.get_total_dropped around.sum)).await around.sqe

/-- The walk over the slots that are left, and what follows it. -/
def walk (todo : List U64) (loop : Loop κ) : State κ :=
  let drained := loop.drainAll config todo
  finish around drained.background_count drained.state

/-- From the beginning of `drain` on. -/
def background (readings : Stream' TimePoint) (s : State κ) : State κ :=
  walk config around around.drain
    { state := s.record [.drainStarted], readings, critical_count := 0, normal_count := 0,
      background_count := 0 }

/-- The counters after the loop over the queue. -/
def processed (stats : Stats) (critical_count normal_count : U64) : Stats :=
  { stats with
    critical_processed := stats.critical_processed + critical_count
    normal_processed := stats.normal_processed + normal_count
    critical_count_last := critical_count
    normal_count_last := normal_count }

/-- From the end of the loop over the queue on. -/
def counted (loop : Loop κ) : State κ :=
  background config around loop.readings { loop.state with
    stats := processed loop.state.stats loop.critical_count loop.normal_count }

/-- From a test of the loop over the queue on. -/
def queue (critical_count normal_count : U64) (s : State κ) : State κ :=
  counted config around (Loop.popAll config s.critical_queue
    { state := s, readings := around.readings, critical_count, normal_count,
      background_count := 0 })

/-- One call of `handle_events`, statement by statement. -/
def handle_events (s : State κ) : State κ :=
  queue config around 0 0 { s with stats := syncDropped s.stats s.dropped }

/-- What is left of the call at an access, as a function of the state there. -/
def remainder : ReactorPc → State κ → State κ
  | .loadDropped, s => handle_events config around s
  | .readLast current, s => queue config around 0 0 { s with stats := syncDropped s.stats current }
  | .storeLast current new, s =>
      let stats := { s.stats with last_queue_dropped := current }
      queue config around 0 0 { s with stats := if new > 0 then charge stats new else stats }
  | .readCriticalLast new, s => queue config around 0 0 { s with stats := charge s.stats new }
  | .readNormalLast new critical, s =>
      let total := critical + s.stats.normal_count_last
      queue config around 0 0 { s with
        stats :=
          if total > 0 then chargeShare s.stats new (new * s.stats.critical_count_last / total)
          else { s.stats with critical_dropped := s.stats.critical_dropped + new } }
  | .split new total, s =>
      queue config around 0 0 { s with
        stats := chargeShare s.stats new (new * s.stats.critical_count_last / total) }
  | .addCriticalDropped new c_drop, s =>
      queue config around 0 0 { s with stats := chargeShare s.stats new c_drop }
  | .addNormalDropped new c_drop, s =>
      queue config around 0 0 { s with
        stats := { s.stats with normal_dropped := s.stats.normal_dropped + (new - c_drop) } }
  | .addAllDropped new, s =>
      queue config around 0 0 { s with
        stats := { s.stats with critical_dropped := s.stats.critical_dropped + new } }
  | .pop critical normal, s => queue config around critical normal s
  | .dispatch critical normal cs, s =>
      counted config around (Loop.popAll config s.critical_queue (Loop.dispatch config
        { state := s, readings := around.readings, critical_count := critical,
          normal_count := normal, background_count := 0 } cs))
  | .addCriticalProcessed critical normal, s =>
      background config around around.readings { s with stats := processed s.stats critical normal }
  | .addNormalProcessed critical normal, s =>
      background config around around.readings { s with
        stats := { s.stats with
          normal_processed := s.stats.normal_processed + normal
          critical_count_last := critical
          normal_count_last := normal } }
  | .storeCriticalLast critical normal, s =>
      background config around around.readings { s with
        stats := { s.stats with critical_count_last := critical, normal_count_last := normal } }
  | .storeNormalLast normal, s =>
      background config around around.readings { s with
        stats := { s.stats with normal_count_last := normal } }
  | .startDrain, s => background config around around.readings s
  | .drain todo background_count, s =>
      walk config around todo
        { state := s, readings := around.readings, critical_count := 0, normal_count := 0,
          background_count }
  | .dispatchSlot todo background_count sample, s =>
      walk config around todo (Loop.dispatchSlot config
        { state := s, readings := around.readings, critical_count := 0, normal_count := 0,
          background_count } sample)
  | .addBackgroundProcessed background_count, s => finish around background_count s
  | .startSum, s =>
      (s.syncBackground (s.background_cache.get_total_dropped around.sum)).await around.sqe
  | .sumSlots todo total, s =>
      (s.syncBackground (todo.foldl
        (fun total hash => total + (s.background_cache.slots hash).drop_count) total)).await
          around.sqe
  | .readLastBg current, s => (s.syncBackground current).await around.sqe
  | .storeLastBg current new, s =>
      { s with stats := { s.stats with
        last_bg_dropped := current
        background_dropped := s.stats.background_dropped + new } }.await around.sqe
  | .addBackgroundDropped new, s =>
      { s with stats := { s.stats with
        background_dropped := s.stats.background_dropped + new } }.await around.sqe
  | .wait, s => s.await around.sqe
  | .readEventfd, s => { s with wakeup := s.wakeup.read.seen }.rearm around.sqe
  | .cqeSeen, s => { s with wakeup := s.wakeup.seen }.rearm around.sqe
  | .arm, s => s.rearm around.sqe
  | _, s => s

/-- The state in which the call will end. -/
def outcome (s : State κ) : State κ :=
  remainder config around s.reactor { s with reactor := .loopTest }

end Calls

variable {config : Config κ} {s next after : State κ} {answers : Answers}

/-- The two walks cover the map. -/
def Surroundings.Covers (around : Surroundings) (s : State κ) : Prop :=
  around.drain.Perm s.background_cache.keys ∧ around.sum.Perm s.background_cache.keys

/-- What the environment had answered and was going to answer before an access. -/
def Surroundings.earlier (config : Config κ) (around : Surroundings) (answers : Answers) :
    ReactorPc → Surroundings
  | .dispatch _ _ cs =>
      match config.registry.find cs.handler_hash with
      | none => around
      | some _ => { around with readings := .cons answers.now around.readings }
  | .dispatchSlot _ _ sample =>
      match config.registry.find sample.handler_hash with
      | none => around
      | some _ => { around with readings := .cons answers.now around.readings }
  | .startDrain => { around with drain := answers.order }
  | .startSum => { around with sum := answers.order }
  | .arm => { around with sqe := answers.sqe }
  | _ => around

/-- An access inside a call leaves the end of the call as it was, for what the environment
has answered to it and is going to answer. -/
theorem access_outcome (access : Access config s answers s.reactor next)
    (inside : s.reactor.cycling = true) (around : Surroundings) :
    outcome config (around.earlier config answers s.reactor) s = outcome config around next := by
  obtain ⟨running, started, contexts, queue, dropped, cache, stats, latencies, sessions, wakeup,
    callbacks, stops, resetting, reactor, log⟩ := s
  cases access with
  | storeRunning | allocated | allocate | passOver | subscribed | subscribe | skip | armFirst
  | enter | leave => exact absurd inside Bool.false_ne_true
  | emptied empty =>
    obtain rfl : queue = [] := empty
    rfl
  | pop front =>
    obtain rfl : queue = _ := front
    rfl
  | storeGrown grown =>
    unfold outcome
    dsimp only [remainder]
    rw [if_pos grown]
    rfl
  | storeSame same =>
    unfold outcome
    dsimp only [remainder]
    rw [if_neg same]
    rfl
  | divide charged =>
    unfold outcome
    dsimp only [remainder]
    rw [if_pos charged]
    rfl
  | undivided idle =>
    unfold outcome
    dsimp only [remainder]
    rw [if_neg idle]
    rfl
  | unindexed missing =>
    unfold outcome
    dsimp only [remainder, Surroundings.earlier]
    rw [Loop.dispatch_unindexed missing, missing]
    rfl
  | dispatchCritical found urgent =>
    unfold outcome
    dsimp only [remainder, Surroundings.earlier]
    rw [Loop.dispatch_critical found urgent, found]
    rfl
  | dispatchNormal found other =>
    unfold outcome
    dsimp only [remainder, Surroundings.earlier]
    rw [Loop.dispatch_normal found other, found]
    rfl
  | visitEmpty nothing =>
    unfold outcome
    dsimp only [remainder, walk]
    rw [Loop.drainAll_empty nothing]
    rfl
  | visit taken =>
    unfold outcome
    dsimp only [remainder, walk]
    rw [Loop.drainAll_full taken]
    rfl
  | unindexedSlot missing =>
    unfold outcome
    dsimp only [remainder, Surroundings.earlier]
    rw [Loop.dispatchSlot_unindexed missing, missing]
    rfl
  | dispatchSlot found =>
    unfold outcome
    dsimp only [remainder, Surroundings.earlier]
    rw [Loop.dispatchSlot_indexed found, found]
    rfl
  | wake completed =>
    unfold outcome
    dsimp only [remainder, State.await]
    rw [if_pos completed]
    rfl
  | timeout quiet =>
    unfold outcome
    dsimp only [remainder, State.await]
    rw [if_neg quiet]
  | _ => rfl

/-- The answers before a step cover the state before it. -/
theorem covers_earlier (access : Access config s answers s.reactor next)
    (inside : s.reactor.cycling = true) {around : Surroundings} (covers : around.Covers next) :
    (around.earlier config answers s.reactor).Covers s := by
  obtain ⟨running, started, contexts, queue, dropped, cache, stats, latencies, sessions, wakeup,
    callbacks, stops, resetting, reactor, log⟩ := s
  cases access with
  | storeRunning | allocated | allocate | passOver | subscribed | subscribe | skip | armFirst
  | enter | leave => exact absurd inside Bool.false_ne_true
  | startDrain listed => exact ⟨listed, covers.2⟩
  | startSum listed => exact ⟨covers.1, listed⟩
  | unindexed missing | unindexedSlot missing =>
    simp only [Surroundings.earlier, missing]
    exact covers
  | dispatchCritical found | dispatchNormal found | dispatchSlot found =>
    simp only [Surroundings.earlier, found]
    exact covers
  | _ => exact covers

/-- A call under way began with `running_` set. -/
theorem Cycling.alive (begun : Cycling config s after) : s.running = true := by
  induction begun with
  | enter _ running => exact running
  | more _ _ _ inductionHypothesis => exact inductionHypothesis

/-- Where a call begins, with the event of the test before it. -/
def State.called (s : State κ) : State κ :=
  s.record [.cycleStarted]

/-- A state at the test is as it is. -/
theorem State.at_test (here : s.reactor = .loopTest) : { s with reactor := .loopTest } = s := by
  obtain ⟨running, started, contexts, queue, dropped, cache, stats, latencies, sessions, wakeup,
    callbacks, stops, resetting, reactor, log⟩ := s
  obtain rfl : reactor = .loopTest := here
  rfl

/-- What is left of a call at its beginning is the call. -/
theorem called_outcome (config : Config κ) (around : Surroundings) (here : s.reactor = .loopTest) :
    outcome config around ({ s with reactor := .loadDropped }.record [.cycleStarted]) =
      handle_events config around s.called := by
  conv_rhs => rw [← State.at_test here]
  rfl

/-- What is left of a call under way ends as the call from its beginning. -/
theorem cycling_outcome (begun : Cycling config s after) {around : Surroundings}
    (covers : around.Covers after) :
    ∃ first : Surroundings, first.Covers s ∧
      handle_events config first s.called = outcome config around after := by
  induction begun generalizing around with
  | enter here running stepped =>
    obtain rfl := enter_cycle here running stepped
    exact ⟨around, covers, (called_outcome config around here).symm⟩
  | more begun inside stepped inductionHypothesis =>
    have access := reactorStep_access stepped
    obtain ⟨first, covered, whole⟩ := inductionHypothesis (covers_earlier access inside covers)
    exact ⟨first, covered, whole.trans (access_outcome access inside around)⟩

/-- What the environment answers to an access. -/
def Surroundings.reply (around : Surroundings) (pc : ReactorPc) : Answers where
  now := around.readings.head
  declared := true
  sqe := around.sqe
  order := if pc = .startDrain then around.drain else around.sum

/-- What it is going to answer after an access. -/
def Surroundings.later (config : Config κ) (around : Surroundings) : ReactorPc → Surroundings
  | .dispatch _ _ cs =>
      match config.registry.find cs.handler_hash with
      | none => around
      | some _ => { around with readings := around.readings.tail }
  | .dispatchSlot _ _ sample =>
      match config.registry.find sample.handler_hash with
      | none => around
      | some _ => { around with readings := around.readings.tail }
  | _ => around

/-- Answering a step and taking the answer back. -/
theorem earlier_later (around : Surroundings) (pc : ReactorPc) :
    (around.later config pc).earlier config (around.reply pc) pc = around := by
  cases pc with
  | dispatch critical normal cs =>
    simp only [Surroundings.later, Surroundings.earlier]
    cases found : config.registry.find cs.handler_hash with
    | none => rfl
    | some target =>
      have whole : Stream'.cons around.readings.head around.readings.tail = around.readings :=
        Stream'.eta _
      simp only [Surroundings.reply, whole]
  | dispatchSlot todo background_count sample =>
    simp only [Surroundings.later, Surroundings.earlier]
    cases found : config.registry.find sample.handler_hash with
    | none => rfl
    | some target =>
      have whole : Stream'.cons around.readings.head around.readings.tail = around.readings :=
        Stream'.eta _
      simp only [Surroundings.reply, whole]
  | _ => rfl

/-- The orders of the walks stay. -/
theorem later_orders (around : Surroundings) (pc : ReactorPc) :
    (around.later config pc).drain = around.drain ∧ (around.later config pc).sum = around.sum := by
  unfold Surroundings.later
  split
  · split <;> exact ⟨rfl, rfl⟩
  · split <;> exact ⟨rfl, rfl⟩
  · exact ⟨rfl, rfl⟩

/-- Inside a call the map of slots stays as it is. -/
theorem access_keys (access : Access config s answers s.reactor next)
    (inside : s.reactor.cycling = true) :
    next.background_cache.keys = s.background_cache.keys := by
  obtain ⟨running, started, contexts, queue, dropped, cache, stats, latencies, sessions, wakeup,
    callbacks, stops, resetting, reactor, log⟩ := s
  cases access with
  | storeRunning | allocated | allocate | passOver | subscribed | subscribe | skip | armFirst
  | enter | leave => exact absurd inside Bool.false_ne_true
  | _ => rfl

/-- The answers behind a step cover the state behind it. -/
theorem covers_later (access : Access config s answers s.reactor next)
    (inside : s.reactor.cycling = true) {around : Surroundings} (covers : around.Covers s) :
    (around.later config s.reactor).Covers next := by
  obtain ⟨drain, sum⟩ := @later_orders _ config around s.reactor
  rw [Surroundings.Covers, drain, sum, access_keys access inside]
  exact covers

/-- What the environment is going to answer is a possible answer. -/
theorem reply_possible (config : Config κ) (inside : s.reactor.cycling = true)
    {around : Surroundings} (covers : around.Covers s) :
    ∃ next, reactorStep config s (around.reply s.reactor) = some next := by
  cases here : s.reactor with
  | storeRunning | preAllocate | subscribe | armFirst | loopTest | returned =>
    simp [here, ReactorPc.cycling] at inside
  | startDrain =>
    simp only [reactorStep, here, Surroundings.reply, if_pos covers.1, if_true]
    exact ⟨_, rfl⟩
  | startSum =>
    simp only [reactorStep, here, Surroundings.reply, reduceCtorEq, if_false, if_pos covers.2]
    exact ⟨_, rfl⟩
  | pop critical normal =>
    simp only [reactorStep, here]
    split <;> exact ⟨_, rfl⟩
  | dispatch critical normal cs =>
    simp only [reactorStep, here]
    split
    · exact ⟨_, rfl⟩
    · split <;> exact ⟨_, rfl⟩
  | drain todo background_count =>
    cases todo with
    | nil =>
      simp only [reactorStep, here]
      exact ⟨_, rfl⟩
    | cons hash todo =>
      simp only [reactorStep, here]
      split <;> exact ⟨_, rfl⟩
  | dispatchSlot todo background_count sample =>
    simp only [reactorStep, here]
    split <;> exact ⟨_, rfl⟩
  | sumSlots todo total =>
    cases todo <;>
    · simp only [reactorStep, here]
      exact ⟨_, rfl⟩
  | wait =>
    simp only [reactorStep, here]
    split <;> exact ⟨_, rfl⟩
  | _ =>
    simp only [reactorStep, here]
    exact ⟨_, rfl⟩

/-- Every outcome is reached. The induction is on a bound of the accesses that are left. -/
theorem outcome_reached (bound : Nat) {around : Surroundings} (begun : Cycling config s after)
    (inside : after.reactor.cycling = true) (covers : around.Covers after)
    (within : after.work < bound) : WholeCycle config s (outcome config around after) := by
  induction bound generalizing after around with
  | zero => simp at within
  | succ bound inductionHypothesis =>
    obtain ⟨next, stepped⟩ := reply_possible config inside covers
    have access := reactorStep_access stepped
    have kept := access_outcome access inside (around.later config after.reactor)
    rw [earlier_later] at kept
    have step := reactorStep_cycle inside stepped
    have further : Cycling config s next := .more begun inside stepped
    rw [kept]
    by_cases ended : next.reactor = .loopTest
    · have last : outcome config (around.later config after.reactor) next = next := by
        rw [outcome, ended]
        exact State.at_test ended
      rw [last]
      exact ⟨further, ended⟩
    · have less : next.work < after.work := step.progress ended
      exact inductionHypothesis further (step.cycling.resolve_right ended)
        (covers_later access inside covers) (by omega)

/-- The undisturbed calls of `handle_events` of the machine are exactly the calls of the
function: every such call of the machine ends where the function does for what the
environment answered, and every outcome of the function is one of the machine. -/
theorem handle_events_iff : WholeCycle config s after ↔
    (s.reactor = .loopTest ∧ s.running = true) ∧ ∃ around : Surroundings,
      around.Covers s ∧ after = handle_events config around s.called := by
  constructor
  · rintro ⟨begun, ended⟩
    have last : ∀ around : Surroundings, outcome config around after = after := by
      intro around
      rw [outcome, ended]
      exact State.at_test ended
    let around : Surroundings :=
      { readings := .const 0, drain := after.background_cache.keys,
        sum := after.background_cache.keys, sqe := true }
    obtain ⟨first, covers, whole⟩ :=
      @cycling_outcome _ _ _ _ begun around ⟨List.Perm.refl _, List.Perm.refl _⟩
    exact ⟨⟨begun.here, begun.alive⟩, first, covers, (whole.trans (last around)).symm⟩
  · rintro ⟨⟨here, running⟩, around, covers, rfl⟩
    have stepped : reactorStep config s (around.reply s.reactor) =
        some ({ s with reactor := .loadDropped }.record [.cycleStarted]) := by
      simp [reactorStep, here, running]
    have reached := outcome_reached _ (.enter here running stepped) rfl covers
      (Nat.lt_succ_self _)
    rwa [called_outcome config around here] at reached

end FlowKernel.Reactor
