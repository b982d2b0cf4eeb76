import FlowKernel.Foundation.Machine
import FlowKernel.Foundation.BoundedFifo
import FlowKernel.Foundation.OneShotPoll
import FlowKernel.Foundation.OrderStatistic
import FlowKernel.LatestCache
import FlowKernel.Routing

/-!
# The reactor and the threads around it

One `run()` of `DataFlowReactor` with its handlers registered beforehand, any
number of Zenoh threads inside `zenoh_data_callback`, any number of `stop()`
calls, and a UI thread that calls `reset_stats()`. `handle_events` and
`reset_stats` are cut into their loads and stores of shared variables; a program
counter holds the locals the remaining code reads.

A data callback is two steps: everything up to its push or put, and the write to
`wakeup_fd_`. The push is one operation of a bounded buffer, which the ring queue
refines, and `put` and `take` are operations under the slot's lock.

The environment answers through the actions: the frames, the clock, whether a
submission entry is free, whether a subscription is declared, and in which order
the map of slots is walked. The FlatBuffers verifier and the key expression
parser are parameters.
-/

namespace FlowKernel.Reactor

open Foundation

universe u
variable {κ : Type u}

/-- A received frame: its payload, and where it came from. The reactor reads the
payload only; the rest lets a statement name the frame. -/
structure Frame where
  registration : Nat
  serial : Nat
  key : Bytes
  payload : Bytes
deriving DecidableEq

/-- A queued sample: the hash of its handler, the frame, and when it was queued. -/
structure CriticalSample where
  handler_hash : U64
  payload : Frame
  enqueue_time : TimePoint
deriving DecidableEq

/-- The context that a subscription hands to its callback. Its pointers lead to
the reactor's own members. -/
structure CallbackContext where
  handler_hash : U64
  priority : TopicPriority
  registration : Nat
deriving DecidableEq

/-- `MPSCQueue<CriticalSample, 512>` holds one item less than its capacity. -/
def queueLimit : Nat := 511

/-- `LATENCY_WINDOW_SIZE`. -/
def latencyWindowSize : Nat := 1000

/-- The counters of the three channels, and what the last cycle left for the next. -/
structure Stats where
  critical_processed : U64
  critical_dropped : U64
  normal_processed : U64
  normal_dropped : U64
  background_processed : U64
  background_dropped : U64
  critical_count_last : U64
  normal_count_last : U64
  last_queue_dropped : U64
  last_bg_dropped : U64
deriving DecidableEq

/-- The three windows of latencies, whose unit does not matter. -/
structure Latencies (α : Type u) where
  critical : List α
  normal : List α
  background : List α
deriving DecidableEq

/-- One invocation of a handler's callback: the handler found, the channel whose
latency window is charged, and the channel whose processed counter is. -/
structure Call (κ : Type u) where
  index : Nat
  callback : κ
  latency : TopicPriority
  processed : TopicPriority
  frame : Frame

/-- What the statements about runs speak of. No step reads the log. -/
inductive Event (κ : Type u) where
  | received (priority : TopicPriority) (frame : Frame)
  | offered (priority : TopicPriority) (sample : CriticalSample) (pushed : Bool)
  | slot (hash : U64) (operation : LatestRegister.Event Frame)
  | unslotted (frame : Frame)
  | popped (sample : CriticalSample)
  | emptied
  | dispatched (call : Call κ)
  | slotDispatched (hash : U64) (call : Call κ)
  | unindexed (frame : Frame)
  | cycleStarted
  | drainStarted
  | drained
  | armed (submitted : Bool)
  | stopping (afterRun : Bool)
  | stopped (afterRun : Bool)
  | reset (pending full : Nat)

/-- The next access of `run()`, through `handle_events` and `arm_poll_eventfd`. -/
inductive ReactorPc where
  | storeRunning
  | preAllocate (i : Nat)
  | subscribe (i : Nat)
  | armFirst
  | loopTest
  | loadDropped
  | readLast (current : U64)
  | storeLast (current new : U64)
  | readCriticalLast (new : U64)
  | readNormalLast (new critical : U64)
  | split (new total : U64)
  | addCriticalDropped (new c_drop : U64)
  | addNormalDropped (new c_drop : U64)
  | addAllDropped (new : U64)
  | pop (critical normal : U64)
  | dispatch (critical normal : U64) (cs : CriticalSample)
  | addCriticalProcessed (critical normal : U64)
  | addNormalProcessed (critical normal : U64)
  | storeCriticalLast (critical normal : U64)
  | storeNormalLast (normal : U64)
  | startDrain
  | drain (todo : List U64) (background : U64)
  | dispatchSlot (todo : List U64) (background : U64) (sample : HeldSample Frame)
  | addBackgroundProcessed (background : U64)
  | startSum
  | sumSlots (todo : List U64) (total : U64)
  | readLastBg (current : U64)
  | storeLastBg (current new : U64)
  | addBackgroundDropped (new : U64)
  | wait
  | readEventfd
  | cqeSeen
  | arm
  | returned
deriving DecidableEq

/-- The next access of a running `reset_stats()`. -/
inductive ResetPc where
  | idle
  | criticalProcessed
  | criticalDropped
  | normalProcessed
  | normalDropped
  | backgroundProcessed
  | backgroundDropped
  | loadDropped
  | storeLast (current : U64)
  | sumSlots (todo : List U64) (total : U64)
  | criticalLast
  | normalLast
  | latencies
deriving DecidableEq

/-- A data callback between its push and its write to `wakeup_fd_`. -/
inductive CallbackPc where
  | idle
  | write (frame : Frame)
deriving DecidableEq

/-- A `stop()` between its two accesses. It may have begun before `run()` set
`running_`, or after. -/
inductive StopPc where
  | idle
  | write (afterRun : Bool)
deriving DecidableEq

/-- The reactor with everything it shares, and where each thread is in it. -/
structure State (κ : Type u) where
  running : Bool
  started : Bool
  contexts : List CallbackContext
  critical_queue : List CriticalSample
  dropped : U64
  background_cache : LatestSampleCache Frame
  stats : Stats
  latencies : Latencies Int
  session_last_seen : Bytes → Option TimePoint
  wakeup : OneShotPoll.Port
  callbacks : Nat → CallbackPc
  stops : Nat → StopPc
  resetting : ResetPc
  reactor : ReactorPc
  log : List (Event κ)

/-- What is fixed before `run()`, and the foreign code it relies on: the
FlatBuffers verifier and `z_keyexpr_from_str`. -/
structure Config (κ : Type u) where
  registrations : List (Registration κ)
  verify : Bytes → Bool
  keyexpr : Bytes → Bool

/-- What the registrations leave behind. -/
def Config.registry (config : Config κ) : Registry κ :=
  Registry.registerAll config.registrations

/-- The environment's answers to one step of the reactor. -/
structure Answers where
  now : TimePoint
  declared : Bool
  sqe : Bool
  order : List U64

/-- A step of one of the threads, with the answers of the environment. -/
inductive Action where
  | receive (thread context serial : Nat) (key payload : Bytes) (now : TimePoint)
  | callback (thread : Nat)
  | stop (thread : Nat)
  | stopWrite (thread : Nat)
  | reactor (answers : Answers)
  | beginReset
  | resetStep (order : List U64)
  | reset (order : List U64)

/-- All counters start at zero. -/
def Stats.zero : Stats where
  critical_processed := 0
  critical_dropped := 0
  normal_processed := 0
  normal_dropped := 0
  background_processed := 0
  background_dropped := 0
  critical_count_last := 0
  normal_count_last := 0
  last_queue_dropped := 0
  last_bg_dropped := 0

section Latencies

variable {α : Type u}

/-- Nothing has been recorded. -/
def Latencies.empty : Latencies α where
  critical := []
  normal := []
  background := []

/-- The window of a channel. -/
def Latencies.window (latencies : Latencies α) : TopicPriority → List α
  | .critical => latencies.critical
  | .normal => latencies.normal
  | .background => latencies.background

/-- `push_back`, then `pop_front` if the window has grown too long. -/
def pushLatency (window : List α) (latency_us : α) : List α :=
  slide latencyWindowSize window latency_us

/-- A latency goes into the window of its channel. -/
def record_latency (latencies : Latencies α) (priority : TopicPriority) (latency_us : α) :
    Latencies α :=
  match priority with
  | .critical => { latencies with critical := pushLatency latencies.critical latency_us }
  | .normal => { latencies with normal := pushLatency latencies.normal latency_us }
  | .background => { latencies with background := pushLatency latencies.background latency_us }

end Latencies

/-- The constructed reactor, `run()` about to begin. -/
def init (κ : Type u) : State κ where
  running := false
  started := false
  contexts := []
  critical_queue := []
  dropped := 0
  background_cache := .empty
  stats := .zero
  latencies := .empty
  session_last_seen := fun _ => none
  wakeup := { counter := 0, polls := 0, cqes := 0 }
  callbacks := fun _ => .idle
  stops := fun _ => .idle
  resetting := .idle
  reactor := .storeRunning
  log := []

namespace State

variable (s : State κ)

/-- Some more events. -/
def record (events : List (Event κ)) : State κ :=
  { s with log := s.log ++ events }

/-- A callback goes on. -/
def setCallback (thread : Nat) (pc : CallbackPc) : State κ :=
  { s with callbacks := Function.update s.callbacks thread pc }

/-- A call of `stop()` goes on. -/
def setStop (thread : Nat) (pc : StopPc) : State κ :=
  { s with stops := Function.update s.stops thread pc }

/-- A slot gets another content. -/
def setSlot (hash : U64) (slot : LatestSampleSlot Frame) : State κ :=
  { s with background_cache := s.background_cache.setSlot hash slot }

end State

/-- The robot a key belongs to: everything before the first slash at or behind
position six. -/
def robot_id (key : Bytes) : Option Bytes :=
  if key.length > 0 then
    ((key.drop 6).idxOf? 47).map fun offset => key.take (6 + offset)
  else none

/-- The robot of a key has been seen. -/
def seenSession (sessions : Bytes → Option TimePoint) (key : Bytes) (now : TimePoint) :
    Bytes → Option TimePoint :=
  match robot_id key with
  | some robot => Function.update sessions robot (some now)
  | none => sessions

/-- `zenoh_data_callback` up to its push or put. A rejected push leaves the queue
alone and counts; a pushed CRITICAL frame still has its wakeup to write. -/
def zenoh_data_callback (config : Config κ) (s : State κ) (thread : Nat) (ctx : CallbackContext)
    (frame : Frame) (now : TimePoint) : State κ :=
  if frame.payload.length = 0 then s
  else if ¬ config.verify frame.payload then s
  else
    let s := { s with session_last_seen := seenSession s.session_last_seen frame.key now }
    if ctx.priority ≠ .background then
      let cs : CriticalSample :=
        { handler_hash := ctx.handler_hash, payload := frame, enqueue_time := now }
      let outcome := BoundedFifo.push queueLimit s.critical_queue cs
      let s := s.record [.received ctx.priority frame, .offered ctx.priority cs outcome.1]
      if outcome.1 then
        if ctx.priority = .critical then
          { s with critical_queue := outcome.2 }.setCallback thread (.write frame)
        else { s with critical_queue := outcome.2 }
      else { s with dropped := s.dropped + 1 }
    else
      match s.background_cache.get_slot_fast ctx.handler_hash with
      | some slot =>
          (s.setSlot ctx.handler_hash (slot.put ctx.handler_hash frame now)).record
            [.received ctx.priority frame, .slot ctx.handler_hash (slot.putEvent frame)]
      | none => s.record [.received ctx.priority frame, .unslotted frame]

/-- The sample that a data callback builds. -/
def sampleOf (ctx : CallbackContext) (frame : Frame) (now : TimePoint) : CriticalSample where
  handler_hash := ctx.handler_hash
  payload := frame
  enqueue_time := now

/-- The five ways a data callback can end. -/
inductive Callback (config : Config κ) (s : State κ) (thread : Nat) (ctx : CallbackContext)
    (frame : Frame) (now : TimePoint) : State κ → Prop
  | ignored (unfit : frame.payload.length = 0 ∨ config.verify frame.payload = false) :
      Callback config s thread ctx frame now s
  | accepted {callbacks : Nat → CallbackPc} (queued : ctx.priority ≠ .background)
      (room : s.critical_queue.length < queueLimit)
      (waking : callbacks =
        if ctx.priority = .critical then Function.update s.callbacks thread (.write frame)
        else s.callbacks) :
      Callback config s thread ctx frame now { s with
        session_last_seen := seenSession s.session_last_seen frame.key now
        critical_queue := s.critical_queue ++ [sampleOf ctx frame now]
        callbacks := callbacks
        log := s.log ++ [.received ctx.priority frame,
          .offered ctx.priority (sampleOf ctx frame now) true] }
  | rejected (queued : ctx.priority ≠ .background)
      (full : ¬ s.critical_queue.length < queueLimit) :
      Callback config s thread ctx frame now { s with
        session_last_seen := seenSession s.session_last_seen frame.key now
        dropped := s.dropped + 1
        log := s.log ++ [.received ctx.priority frame,
          .offered ctx.priority (sampleOf ctx frame now) false] }
  | put (cached : ctx.priority = .background)
      (present : ctx.handler_hash ∈ s.background_cache.keys) :
      Callback config s thread ctx frame now { s with
        session_last_seen := seenSession s.session_last_seen frame.key now
        background_cache := s.background_cache.setSlot ctx.handler_hash
          ((s.background_cache.slots ctx.handler_hash).put ctx.handler_hash frame now)
        log := s.log ++ [.received ctx.priority frame, .slot ctx.handler_hash
          ((s.background_cache.slots ctx.handler_hash).putEvent frame)] }
  | unslotted (cached : ctx.priority = .background)
      (absent : ctx.handler_hash ∉ s.background_cache.keys) :
      Callback config s thread ctx frame now { s with
        session_last_seen := seenSession s.session_last_seen frame.key now
        log := s.log ++ [.received ctx.priority frame, .unslotted frame] }

/-- A callback ends in one of these ways. -/
theorem callback_cases (config : Config κ) (s : State κ) (thread : Nat) (ctx : CallbackContext)
    (frame : Frame) (now : TimePoint) :
    Callback config s thread ctx frame now
      (zenoh_data_callback config s thread ctx frame now) := by
  unfold zenoh_data_callback
  split
  next empty => exact .ignored (.inl empty)
  split
  next refused => exact .ignored (.inr (by simpa using refused))
  split
  next queued =>
    by_cases room : s.critical_queue.length < queueLimit
    · simp only [BoundedFifo.push, if_pos room, if_true]
      split
      next critical => exact .accepted queued room (if_pos critical).symm
      next other => exact .accepted queued room (if_neg other).symm
    · simp only [BoundedFifo.push, if_neg room, Bool.false_eq_true, if_false]
      exact .rejected queued room
  next cached =>
    have background : ctx.priority = .background := by simpa using cached
    simp only [LatestSampleCache.get_slot_fast]
    by_cases present : ctx.handler_hash ∈ s.background_cache.keys
    · simp only [if_pos present]
      exact .put background present
    · simp only [if_neg present]
      exact .unslotted background present

/-- One access of `run()`. The step is undefined only where a loop over the map of
slots is given an order that does not list the map's keys, and after the end. -/
def reactorStep (config : Config κ) (s : State κ) (answers : Answers) : Option (State κ) :=
  match s.reactor with
  | .storeRunning =>
      some { s with running := true, started := true, contexts := [], reactor := .preAllocate 0 }
  | .preAllocate i =>
      match config.registry.handlers[i]? with
      | none => some { s with reactor := .subscribe 0 }
      | some handler =>
          if handler.priority = .background then
            some { s with
              background_cache := s.background_cache.pre_allocate handler.path_hash
              reactor := .preAllocate (i + 1) }
          else some { s with reactor := .preAllocate (i + 1) }
  | .subscribe i =>
      match config.registry.handlers[i]? with
      | none => some { s with reactor := .armFirst }
      | some handler =>
          if config.keyexpr handler.path ∧ answers.declared then
            some { s with
              contexts := s.contexts ++
                [{ handler_hash := handler.path_hash, priority := handler.priority,
                   registration := i }]
              reactor := .subscribe (i + 1) }
          else some { s with reactor := .subscribe (i + 1) }
  | .armFirst | .arm =>
      some ({ s with
        wakeup := if answers.sqe then s.wakeup.arm else s.wakeup
        reactor := .loopTest }.record [.armed answers.sqe])
  | .loopTest =>
      if s.running then some ({ s with reactor := .loadDropped }.record [.cycleStarted])
      else some { s with reactor := .returned }
  | .loadDropped => some { s with reactor := .readLast s.dropped }
  | .readLast current =>
      some { s with reactor := .storeLast current (current - s.stats.last_queue_dropped) }
  | .storeLast current new =>
      some { s with
        stats := { s.stats with last_queue_dropped := current }
        reactor := if new > 0 then .readCriticalLast new else .pop 0 0 }
  | .readCriticalLast new =>
      some { s with reactor := .readNormalLast new s.stats.critical_count_last }
  | .readNormalLast new critical =>
      let total := critical + s.stats.normal_count_last
      some { s with reactor := if total > 0 then .split new total else .addAllDropped new }
  | .split new total =>
      some { s with
        reactor := .addCriticalDropped new (new * s.stats.critical_count_last / total) }
  | .addCriticalDropped new c_drop =>
      some { s with
        stats := { s.stats with critical_dropped := s.stats.critical_dropped + c_drop }
        reactor := .addNormalDropped new c_drop }
  | .addNormalDropped new c_drop =>
      some { s with
        stats := { s.stats with normal_dropped := s.stats.normal_dropped + (new - c_drop) }
        reactor := .pop 0 0 }
  | .addAllDropped new =>
      some { s with
        stats := { s.stats with critical_dropped := s.stats.critical_dropped + new }
        reactor := .pop 0 0 }
  | .pop critical normal =>
      match BoundedFifo.pop s.critical_queue with
      | none => some ({ s with reactor := .addCriticalProcessed critical normal }.record [.emptied])
      | some (cs, rest) =>
          some ({ s with critical_queue := rest, reactor := .dispatch critical normal cs }.record
            [.popped cs])
  | .dispatch critical normal cs =>
      match config.registry.find cs.handler_hash with
      | none => some ({ s with reactor := .pop critical normal }.record [.unindexed cs.payload])
      | some (index, handler) =>
          let latencies := record_latency s.latencies handler.priority
            (answers.now - cs.enqueue_time)
          if handler.priority = .critical then
            some ({ s with latencies := latencies, reactor := .pop (critical + 1) normal }.record
              [.dispatched { index, callback := handler.callback, latency := handler.priority,
                             processed := .critical, frame := cs.payload }])
          else
            some ({ s with latencies := latencies, reactor := .pop critical (normal + 1) }.record
              [.dispatched { index, callback := handler.callback, latency := handler.priority,
                             processed := .normal, frame := cs.payload }])
  | .addCriticalProcessed critical normal =>
      some { s with
        stats := { s.stats with critical_processed := s.stats.critical_processed + critical }
        reactor := .addNormalProcessed critical normal }
  | .addNormalProcessed critical normal =>
      some { s with
        stats := { s.stats with normal_processed := s.stats.normal_processed + normal }
        reactor := .storeCriticalLast critical normal }
  | .storeCriticalLast critical normal =>
      some { s with
        stats := { s.stats with critical_count_last := critical }
        reactor := .storeNormalLast normal }
  | .storeNormalLast normal =>
      some { s with
        stats := { s.stats with normal_count_last := normal }
        reactor := .startDrain }
  | .startDrain =>
      if answers.order.Perm s.background_cache.keys then
        some ({ s with reactor := .drain answers.order 0 }.record [.drainStarted])
      else none
  | .drain [] background =>
      some ({ s with reactor := .addBackgroundProcessed background }.record [.drained])
  | .drain (hash :: todo) background =>
      let slot := s.background_cache.slots hash
      let taken := slot.take
      let s := (s.setSlot hash taken.2).record [.slot hash slot.takeEvent]
      match taken.1 with
      | none => some { s with reactor := .drain todo background }
      | some sample => some { s with reactor := .dispatchSlot todo background sample }
  | .dispatchSlot todo background sample =>
      match config.registry.find sample.handler_hash with
      | none =>
          some ({ s with reactor := .drain todo background }.record [.unindexed sample.payload])
      | some (index, handler) =>
          some ({ s with
            latencies := record_latency s.latencies .background (answers.now - sample.put_time)
            reactor := .drain todo (background + 1) }.record
              [.slotDispatched sample.handler_hash
                { index, callback := handler.callback, latency := .background,
                  processed := .background, frame := sample.payload }])
  | .addBackgroundProcessed background =>
      some { s with
        stats := { s.stats with background_processed := s.stats.background_processed + background }
        reactor := .startSum }
  | .startSum =>
      if answers.order.Perm s.background_cache.keys then
        some { s with reactor := .sumSlots answers.order 0 }
      else none
  | .sumSlots [] total => some { s with reactor := .readLastBg total }
  | .sumSlots (hash :: todo) total =>
      some { s with
        reactor := .sumSlots todo (total + (s.background_cache.slots hash).drop_count) }
  | .readLastBg current =>
      some { s with reactor := .storeLastBg current (current - s.stats.last_bg_dropped) }
  | .storeLastBg current new =>
      some { s with
        stats := { s.stats with last_bg_dropped := current }
        reactor := .addBackgroundDropped new }
  | .addBackgroundDropped new =>
      some { s with
        stats := { s.stats with background_dropped := s.stats.background_dropped + new }
        reactor := .wait }
  | .wait =>
      -- with no completion pending the wait ends at its timeout
      if 0 < s.wakeup.cqes then some { s with reactor := .readEventfd }
      else some { s with reactor := .loopTest }
  -- every request is submitted with the tag of the eventfd, so every completion has it
  | .readEventfd => some { s with wakeup := s.wakeup.read, reactor := .cqeSeen }
  | .cqeSeen => some { s with wakeup := s.wakeup.seen, reactor := .arm }
  | .returned => none

/-- One access of `reset_stats()`. -/
def resetStep (s : State κ) (order : List U64) : Option (State κ) :=
  match s.resetting with
  | .idle => none
  | .criticalProcessed =>
      some { s with
        stats := { s.stats with critical_processed := 0 }, resetting := .criticalDropped }
  | .criticalDropped =>
      some { s with
        stats := { s.stats with critical_dropped := 0 }, resetting := .normalProcessed }
  | .normalProcessed =>
      some { s with
        stats := { s.stats with normal_processed := 0 }, resetting := .normalDropped }
  | .normalDropped =>
      some { s with
        stats := { s.stats with normal_dropped := 0 }, resetting := .backgroundProcessed }
  | .backgroundProcessed =>
      some { s with
        stats := { s.stats with background_processed := 0 }, resetting := .backgroundDropped }
  | .backgroundDropped =>
      some { s with
        stats := { s.stats with background_dropped := 0 }, resetting := .loadDropped }
  | .loadDropped => some { s with resetting := .storeLast s.dropped }
  | .storeLast current =>
      if order.Perm s.background_cache.keys then
        some { s with
          stats := { s.stats with last_queue_dropped := current }, resetting := .sumSlots order 0 }
      else none
  | .sumSlots [] total =>
      some { s with stats := { s.stats with last_bg_dropped := total }, resetting := .criticalLast }
  | .sumSlots (hash :: todo) total =>
      some { s with
        resetting := .sumSlots todo (total + (s.background_cache.slots hash).drop_count) }
  | .criticalLast =>
      some { s with stats := { s.stats with critical_count_last := 0 }, resetting := .normalLast }
  | .normalLast =>
      some { s with stats := { s.stats with normal_count_last := 0 }, resetting := .latencies }
  | .latencies => some { s with latencies := .empty, resetting := .idle }

/-- `reset_stats()` without interruption. -/
def reset_stats (s : State κ) (order : List U64) : State κ :=
  { s with
    stats :=
      { Stats.zero with
        last_queue_dropped := s.dropped
        last_bg_dropped := s.background_cache.get_total_dropped order }
    latencies := .empty }.record
      [.reset s.critical_queue.length (s.background_cache.full s.background_cache.keys)]

/-- A data callback, an access of the reactor, a `stop()` or a `reset_stats()` goes on. -/
def step (config : Config κ) (s : State κ) : Action → Option (State κ)
  | .receive thread context serial key payload now =>
      match s.callbacks thread, s.contexts[context]? with
      | .idle, some ctx =>
          some (zenoh_data_callback config s thread ctx
            { registration := ctx.registration, serial, key, payload } now)
      | _, _ => none
  | .callback thread =>
      match s.callbacks thread with
      | .write _ => some ({ s with wakeup := s.wakeup.write }.setCallback thread .idle)
      | .idle => none
  | .stop thread =>
      match s.stops thread with
      | .idle =>
          some (({ s with running := false }.setStop thread (.write s.started)).record
            [.stopping s.started])
      | .write _ => none
  | .stopWrite thread =>
      match s.stops thread with
      | .write afterRun =>
          some (({ s with wakeup := s.wakeup.write }.setStop thread .idle).record
            [.stopped afterRun])
      | .idle => none
  | .reactor answers => reactorStep config s answers
  | .beginReset =>
      match s.resetting with
      | .idle => some { s with resetting := .criticalProcessed }
      | _ => none
  | .resetStep order => resetStep s order
  | .reset order =>
      if s.reactor = .loopTest ∧ s.resetting = .idle ∧ order.Perm s.background_cache.keys then
        some (reset_stats s order)
      else none

/-- One `run()` with everything around it. -/
def machine (config : Config κ) : Machine (State κ) Action where
  start := init κ
  step := step config

section Shipped

/-- The bytes of a path. -/
def ascii (chars : List Char) : Bytes :=
  chars.map fun char => UInt8.ofNat char.toNat

/-- The CRITICAL handler of the shipped configuration. -/
def estopPath : Bytes :=
  ascii ['r', 'o', 'b', 'o', 't', '/', '*', '/', 'c', 'm', 'd', '/', 'e', 's', 't', 'o', 'p']

/-- The NORMAL handler of the shipped configuration. -/
def telemetryPath : Bytes :=
  ascii ['r', 'o', 'b', 'o', 't', '/', 'u', 'a', 'v', '0', '/', 't', 'e', 'l', 'e', 'm', 'e', 't',
    'r', 'y']

/-- The BACKGROUND handler of the shipped configuration. -/
def costmapPath : Bytes :=
  ascii ['r', 'o', 'b', 'o', 't', '/', '*', '/', 'c', 'o', 's', 't', 'm', 'a', 'p']

/-- The handlers of `config/default.yaml`. The callbacks that `main` registers
differ in the priority they capture. -/
def defaultRegistrations : List (Registration TopicPriority) :=
  [{ path := estopPath, priority := .critical, callback := .critical },
    { path := telemetryPath, priority := .normal, callback := .normal },
    { path := costmapPath, priority := .background, callback := .background }]

/-- The smallest `RobotMessage` buffer: a root table without fields. -/
def emptyMessage : Bytes := [8, 0, 0, 0, 4, 0, 4, 0, 4, 0, 0, 0]

/-- A program with the given handlers, whose traffic consists of empty messages. -/
def plainConfig (registrations : List (Registration κ)) : Config κ where
  registrations := registrations
  verify := fun payload => payload = emptyMessage
  keyexpr := fun _ => true

/-- The shipped handlers, with a verifier that accepts one message. -/
def defaultConfig : Config TopicPriority :=
  plainConfig defaultRegistrations

/-- `count` accesses of `run()` under an environment that refuses nothing and walks
the map of slots in the given order. -/
def turns (order : List U64) (count : Nat) : List Action :=
  List.replicate count (.reactor { now := 0, declared := true, sqe := true, order })

/-- The same for the shipped configuration, whose map holds one slot. -/
def defaultTurns (count : Nat) : List Action :=
  turns [fnv1a_hash costmapPath] count

end Shipped

end FlowKernel.Reactor
