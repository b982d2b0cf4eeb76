import FlowKernel.ReactorSteps

/-!
# The path of a frame through the two channels

A coarser view of the reactor: the queue, the slots, the frame that the reactor
has in hand, and what the log records about them. Counters, latencies, sessions,
the eventfd and the threads' remaining accesses are left out, so most steps of
the reactor do not move this view at all. Every step of the reactor is one step
of the view, or none.

Results about where frames go are proved of this view, with one case for each
thing that can happen to a frame.
-/

namespace FlowKernel.Reactor

open Foundation

universe u
variable {κ : Type u}

/-- How far `run()` has prepared the subscriptions. -/
inductive Stage where
  | fresh
  | allocating (i : Nat)
  | subscribing (i : Nat)
  | serving

/-- How far `run()` has come with slots and subscriptions. -/
def ReactorPc.stage : ReactorPc → Stage
  | .storeRunning => .fresh
  | .preAllocate i => .allocating i
  | .subscribe i => .subscribing i
  | _ => .serving

/-- A sample that has been popped and not dispatched yet. -/
def ReactorPc.hand : ReactorPc → Option CriticalSample
  | .dispatch _ _ cs => some cs
  | _ => none

/-- A sample that has been taken from its slot and not dispatched yet. -/
def ReactorPc.slotHand : ReactorPc → Option (HeldSample Frame)
  | .dispatchSlot _ _ sample => some sample
  | _ => none

/-- The slots that a running drain still has to visit. -/
def ReactorPc.todo : ReactorPc → Option (List U64)
  | .drain todo _ | .dispatchSlot todo _ _ => some todo
  | _ => none

/-- The cycle has found the queue empty. -/
def ReactorPc.emptied : ReactorPc → Bool
  | .addCriticalProcessed _ _ | .addNormalProcessed _ _ | .storeCriticalLast _ _
  | .storeNormalLast _ | .startDrain | .drain _ _ | .dispatchSlot _ _ _
  | .addBackgroundProcessed _ | .startSum | .sumSlots _ _ | .readLastBg _ | .storeLastBg _ _
  | .addBackgroundDropped _ | .wait | .readEventfd | .cqeSeen | .arm => true
  | _ => false

/-- What frames pass through, and what the statements about frames need besides. -/
structure Channels (κ : Type u) where
  contexts : List CallbackContext
  critical_queue : List CriticalSample
  dropped : U64
  background_cache : LatestSampleCache Frame
  stage : Stage
  hand : Option CriticalSample
  slotHand : Option (HeldSample Frame)
  todo : Option (List U64)
  emptied : Bool
  log : List (Event κ)

/-- That part of a state. -/
def State.channels (s : State κ) : Channels κ where
  contexts := s.contexts
  critical_queue := s.critical_queue
  dropped := s.dropped
  background_cache := s.background_cache
  stage := s.reactor.stage
  hand := s.reactor.hand
  slotHand := s.reactor.slotHand
  todo := s.reactor.todo
  emptied := s.reactor.emptied
  log := s.log

/-- Events that say nothing about frames or cycles. -/
def Event.plain : Event κ → Bool
  | .stopping _ | .stopped _ => true
  | _ => false

/-- The invocation of the handler that the index yields for a queue sample. -/
def queueCall (index : Nat) (handler : Handler κ) (frame : Frame) : Call κ where
  index := index
  callback := handler.callback
  latency := handler.priority
  processed := if handler.priority = .critical then .critical else .normal
  frame := frame

/-- The same for a sample from a slot. -/
def slotCall (index : Nat) (handler : Handler κ) (frame : Frame) : Call κ where
  index := index
  callback := handler.callback
  latency := .background
  processed := .background
  frame := frame

/-- What can happen to the channels in one step. -/
inductive ChannelStep (config : Config κ) : Channels κ → Channels κ → Prop
  | silent {c : Channels κ} : ChannelStep config c c
  | rest {c : Channels κ} : ChannelStep config c { c with emptied := false }
  | note {c : Channels κ} {event : Event κ} (plain : event.plain = true) :
      ChannelStep config c { c with log := c.log ++ [event] }
  | reset {c : Channels κ} (free : c.hand = none) (idle : c.slotHand = none) :
      ChannelStep config c { c with
        log := c.log ++ [.reset c.critical_queue.length
          (c.background_cache.full c.background_cache.keys)] }
  | begin {c : Channels κ} (stage : c.stage = .fresh) :
      ChannelStep config c { c with contexts := [], stage := .allocating 0 }
  | allocate {c : Channels κ} {i : Nat} {handler : Handler κ} (stage : c.stage = .allocating i)
      (next : config.registry.handlers[i]? = some handler)
      (cached : handler.priority = .background) :
      ChannelStep config c { c with
        background_cache := c.background_cache.pre_allocate handler.path_hash
        stage := .allocating (i + 1) }
  | passOver {c : Channels κ} {i : Nat} {handler : Handler κ} (stage : c.stage = .allocating i)
      (next : config.registry.handlers[i]? = some handler)
      (queued : handler.priority ≠ .background) :
      ChannelStep config c { c with stage := .allocating (i + 1) }
  | allocated {c : Channels κ} {i : Nat} (stage : c.stage = .allocating i)
      (done : config.registry.handlers[i]? = none) :
      ChannelStep config c { c with stage := .subscribing 0 }
  | subscribe {c : Channels κ} {i : Nat} {handler : Handler κ} (stage : c.stage = .subscribing i)
      (next : config.registry.handlers[i]? = some handler)
      (valid : config.keyexpr handler.path = true) :
      ChannelStep config c { c with
        contexts := c.contexts ++
          [{ handler_hash := handler.path_hash, priority := handler.priority, registration := i }]
        stage := .subscribing (i + 1) }
  | skip {c : Channels κ} {i : Nat} (stage : c.stage = .subscribing i) :
      ChannelStep config c { c with stage := .subscribing (i + 1) }
  | subscribed {c : Channels κ} {i : Nat} (stage : c.stage = .subscribing i) :
      ChannelStep config c { c with stage := .serving }
  | armed {c : Channels κ} {submitted : Bool} :
      ChannelStep config c { c with emptied := false, log := c.log ++ [.armed submitted] }
  | cycle {c : Channels κ} (fresh : c.emptied = false) :
      ChannelStep config c { c with log := c.log ++ [.cycleStarted] }
  | accept {c : Channels κ} {ctx : CallbackContext} {sample : CriticalSample}
      (known : ctx ∈ c.contexts) (hash : sample.handler_hash = ctx.handler_hash)
      (origin : sample.payload.registration = ctx.registration)
      (queued : ctx.priority ≠ .background) (room : c.critical_queue.length < queueLimit) :
      ChannelStep config c { c with
        critical_queue := c.critical_queue ++ [sample]
        log := c.log ++
          [.received ctx.priority sample.payload, .offered ctx.priority sample true] }
  | reject {c : Channels κ} {ctx : CallbackContext} {sample : CriticalSample}
      (known : ctx ∈ c.contexts) (origin : sample.payload.registration = ctx.registration)
      (queued : ctx.priority ≠ .background) (full : ¬ c.critical_queue.length < queueLimit) :
      ChannelStep config c { c with
        dropped := c.dropped + 1
        log := c.log ++
          [.received ctx.priority sample.payload, .offered ctx.priority sample false] }
  | put {c : Channels κ} {ctx : CallbackContext} {frame : Frame} {now : TimePoint}
      (known : ctx ∈ c.contexts) (origin : frame.registration = ctx.registration)
      (cached : ctx.priority = .background)
      (present : ctx.handler_hash ∈ c.background_cache.keys) :
      ChannelStep config c { c with
        background_cache := c.background_cache.setSlot ctx.handler_hash
          ((c.background_cache.slots ctx.handler_hash).put ctx.handler_hash frame now)
        log := c.log ++ [.received ctx.priority frame, .slot ctx.handler_hash
          ((c.background_cache.slots ctx.handler_hash).putEvent frame)] }
  | unslotted {c : Channels κ} {ctx : CallbackContext} {frame : Frame}
      (known : ctx ∈ c.contexts) (origin : frame.registration = ctx.registration)
      (cached : ctx.priority = .background)
      (absent : ctx.handler_hash ∉ c.background_cache.keys) :
      ChannelStep config c { c with
        log := c.log ++ [.received ctx.priority frame, .unslotted frame] }
  | pop {c : Channels κ} {cs : CriticalSample} {rest : List CriticalSample}
      (free : c.hand = none) (pending : c.emptied = false)
      (front : c.critical_queue = cs :: rest) :
      ChannelStep config c { c with
        critical_queue := rest, hand := some cs, log := c.log ++ [.popped cs] }
  | emptied {c : Channels κ} (free : c.hand = none) (empty : c.critical_queue = []) :
      ChannelStep config c { c with emptied := true, log := c.log ++ [.emptied] }
  | dispatch {c : Channels κ} {cs : CriticalSample} {index : Nat} {handler : Handler κ}
      {call : Call κ} (held : c.hand = some cs) (pending : c.emptied = false)
      (found : config.registry.find cs.handler_hash = some (index, handler))
      (invoked : call = queueCall index handler cs.payload) :
      ChannelStep config c { c with hand := none, log := c.log ++ [.dispatched call] }
  | unindexed {c : Channels κ} {cs : CriticalSample} (held : c.hand = some cs)
      (missing : config.registry.find cs.handler_hash = none) :
      ChannelStep config c { c with hand := none, log := c.log ++ [.unindexed cs.payload] }
  | startDrain {c : Channels κ} {order : List U64} (serving : c.stage = .serving)
      (listed : order.Perm c.background_cache.keys) :
      ChannelStep config c { c with todo := some order, log := c.log ++ [.drainStarted] }
  | visit {c : Channels κ} {hash : U64} {todo : List U64} {taken : Option (HeldSample Frame)}
      (free : c.slotHand = none) (next : c.todo = some (hash :: todo))
      (found : taken = (c.background_cache.slots hash).held) :
      ChannelStep config c { c with
        background_cache := c.background_cache.setSlot hash (c.background_cache.slots hash).take.2
        slotHand := taken
        todo := some todo
        log := c.log ++ [.slot hash (c.background_cache.slots hash).takeEvent] }
  | slotDispatch {c : Channels κ} {sample : HeldSample Frame} {index : Nat} {handler : Handler κ}
      (held : c.slotHand = some sample) (settled : c.emptied = true)
      (found : config.registry.find sample.handler_hash = some (index, handler)) :
      ChannelStep config c { c with
        slotHand := none
        log := c.log ++ [.slotDispatched sample.handler_hash
          (slotCall index handler sample.payload)] }
  | unindexedSlot {c : Channels κ} {sample : HeldSample Frame} (held : c.slotHand = some sample)
      (missing : config.registry.find sample.handler_hash = none) :
      ChannelStep config c { c with slotHand := none, log := c.log ++ [.unindexed sample.payload] }
  | drained {c : Channels κ} (free : c.slotHand = none) (done : c.todo = some []) :
      ChannelStep config c { c with todo := none, log := c.log ++ [.drained] }

variable {config : Config κ} {s after : State κ}

/-- A data callback moves one frame into a channel, counts it, or ignores it. -/
theorem receive_channels {thread : Nat} {ctx : CallbackContext} {frame : Frame} {now : TimePoint}
    (known : ctx ∈ s.contexts) (origin : frame.registration = ctx.registration)
    (outcome : Callback config s thread ctx frame now after) :
    ChannelStep config s.channels after.channels := by
  cases outcome with
  | ignored => exact .silent
  | accepted queued room => exact .accept known rfl origin queued room
  | rejected queued full =>
    exact @ChannelStep.reject _ config s.channels ctx (sampleOf ctx frame now) known origin queued
      full
  | put cached present => exact .put known origin cached present
  | unslotted cached absent => exact .unslotted known origin cached absent

/-- Every access of `run()` is at most one step of the view. -/
theorem access_channels {answers : Answers} (access : Access config s answers s.reactor after) :
    ChannelStep config s.channels after.channels := by
  obtain ⟨running, started, contexts, queue, dropped, cache, stats, latencies, sessions, wakeup,
    callbacks, stops, resetting, reactor, log⟩ := s
  cases access with
  | storeRunning => exact .begin rfl
  | allocated done => exact .allocated rfl done
  | allocate next cached => exact .allocate rfl next cached
  | passOver next queued => exact .passOver rfl next queued
  | subscribed => exact .subscribed rfl
  | subscribe next valid => exact .subscribe rfl next valid
  | skip => exact .skip rfl
  | armFirst | arm => exact .armed
  | enter => exact .cycle rfl
  | emptied empty => exact .emptied rfl empty
  | pop front => exact .pop rfl rfl front
  | unindexed missing => exact .unindexed rfl missing
  | dispatchCritical found urgent =>
    exact .dispatch rfl rfl found (by simp [queueCall, urgent])
  | dispatchNormal found other =>
    exact .dispatch rfl rfl found (by simp [queueCall, other])
  | startDrain listed => exact .startDrain rfl listed
  | drained => exact .drained rfl rfl
  | visitEmpty nothing => exact .visit rfl rfl nothing.symm
  | visit taken => exact .visit rfl rfl taken.symm
  | unindexedSlot missing => exact .unindexedSlot rfl missing
  | dispatchSlot found => exact .slotDispatch rfl rfl found
  | timeout => exact .rest
  | _ => exact .silent

/-- The view is a faithful abstraction: each step of the reactor and of the
threads around it is a step of the channels. -/
theorem step_channels {action : Action} (stepped : step config s action = some after) :
    ChannelStep config s.channels after.channels := by
  cases step_transition stepped with
  | receive idle known outcome =>
    exact receive_channels (List.mem_of_getElem? known) rfl outcome
  | write | beginReset => exact .silent
  | stop | stopWrite => exact .note rfl
  | access access => exact access_channels access
  | resetStep stepped =>
    obtain ⟨stats, latencies, resetting, rfl⟩ := resetStep_frame stepped
    exact .silent
  | reset here =>
    exact .reset (by simp [State.channels, here, ReactorPc.hand])
      (by simp [State.channels, here, ReactorPc.slotHand])

/-- An invariant of the channels, proved for each thing that can happen to a
frame, holds of the channels of every reachable state. -/
theorem channels_invariant (Inv : Channels κ → Prop) (initially : Inv (init κ).channels)
    (preserved : ∀ before next, Inv before → ChannelStep config before next → Inv next)
    (reached : (machine config).Reachable s) : Inv s.channels :=
  Machine.invariant (fun s => Inv s.channels) initially
    (fun before _ next _ holds stepped =>
      preserved before.channels next.channels holds (step_channels stepped)) reached

end FlowKernel.Reactor
