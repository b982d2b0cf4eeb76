import FlowKernel.Sources

/-!
# The wakeup protocol

A second coarse view of the reactor: the run flag, the eventfd with its polls, the
threads that still owe a write to it, and the part of its loop the reactor is in.
What the loop does with frames, beyond taking them from the queue, is left out.
Every step of the reactor and of the threads is a step of this protocol, or none.
-/

namespace FlowKernel.Reactor

open Foundation OneShotPoll

universe u
variable {κ : Type u}

/-- The parts of `run()`, as far as the eventfd is concerned. -/
inductive Phase where
  | fresh
  | preparing
  | looping
  | taking
  | listening
  | reading
  | seeing
  | arming
  | returned
deriving DecidableEq

/-- How far `run()` has come. -/
def ReactorPc.phase : ReactorPc → Phase
  | .storeRunning => .fresh
  | .preAllocate _ | .subscribe _ | .armFirst => .preparing
  | .loopTest => .looping
  | .loadDropped | .readLast _ | .storeLast _ _ | .readCriticalLast _ | .readNormalLast _ _
  | .split _ _ | .addCriticalDropped _ _ | .addNormalDropped _ _ | .addAllDropped _ | .pop _ _
  | .dispatch _ _ _ => .taking
  | .addCriticalProcessed _ _ | .addNormalProcessed _ _ | .storeCriticalLast _ _
  | .storeNormalLast _ | .startDrain | .drain _ _ | .dispatchSlot _ _ _
  | .addBackgroundProcessed _ | .startSum | .sumSlots _ _ | .readLastBg _ | .storeLastBg _ _
  | .addBackgroundDropped _ | .wait => .listening
  | .readEventfd => .reading
  | .cqeSeen => .seeing
  | .arm => .arming
  | .returned => .returned

/-- What the wakeup and the stop of the reactor consist of. -/
structure Signals (κ : Type u) where
  running : Bool
  started : Bool
  critical_queue : List CriticalSample
  wakeup : Port
  callbacks : Nat → CallbackPc
  stops : Nat → StopPc
  phase : Phase
  log : List (Event κ)

/-- That part of a state. -/
def State.signals (s : State κ) : Signals κ where
  running := s.running
  started := s.started
  critical_queue := s.critical_queue
  wakeup := s.wakeup
  callbacks := s.callbacks
  stops := s.stops
  phase := s.reactor.phase
  log := s.log

/-- Events of `stop()`, of `arm_poll_eventfd()` and of the loop test. -/
def Event.signal : Event κ → Bool
  | .armed _ | .stopping _ | .stopped _ | .cycleStarted => true
  | _ => false

/-- The frame was received under a CRITICAL handler. -/
def Config.Urgent (config : Config κ) (frame : Frame) : Prop :=
  ∃ source, config.Source frame source ∧ source.priority = .critical

/-- One step of the protocol. `events` are what a step records that is of no
concern here. -/
inductive SignalStep (config : Config κ) : Signals κ → Signals κ → Prop
  | silent {c : Signals κ} : SignalStep config c c
  | note {c : Signals κ} {events : List (Event κ)}
      (other : ∀ event ∈ events, event.signal = false) :
      SignalStep config c { c with log := c.log ++ events }
  | begin {c : Signals κ} (phase : c.phase = .fresh) :
      SignalStep config c { c with running := true, started := true, phase := .preparing }
  | armed {c : Signals κ} {submitted : Bool} (phase : c.phase = .preparing ∨ c.phase = .arming) :
      SignalStep config c { c with
        wakeup := if submitted then c.wakeup.arm else c.wakeup
        phase := .looping
        log := c.log ++ [.armed submitted] }
  | enter {c : Signals κ} (phase : c.phase = .looping) (running : c.running = true) :
      SignalStep config c { c with phase := .taking, log := c.log ++ [.cycleStarted] }
  | leave {c : Signals κ} (phase : c.phase = .looping) :
      SignalStep config c { c with phase := .returned }
  | take {c : Signals κ} {cs : CriticalSample} {rest : List CriticalSample}
      (phase : c.phase = .taking) (front : c.critical_queue = cs :: rest) :
      SignalStep config c { c with critical_queue := rest, log := c.log ++ [.popped cs] }
  | listen {c : Signals κ} (phase : c.phase = .taking) (empty : c.critical_queue = []) :
      SignalStep config c { c with phase := .listening, log := c.log ++ [.emptied] }
  | timeout {c : Signals κ} (phase : c.phase = .listening) (quiet : ¬ 0 < c.wakeup.cqes) :
      SignalStep config c { c with phase := .looping }
  | wake {c : Signals κ} (phase : c.phase = .listening) (completed : 0 < c.wakeup.cqes) :
      SignalStep config c { c with phase := .reading }
  | read {c : Signals κ} (phase : c.phase = .reading) :
      SignalStep config c { c with wakeup := c.wakeup.read, phase := .seeing }
  | seen {c : Signals κ} (phase : c.phase = .seeing) :
      SignalStep config c { c with wakeup := c.wakeup.seen, phase := .arming }
  | accept {c : Signals κ} {thread : Nat} {sample : CriticalSample}
      {callbacks : Nat → CallbackPc} {events : List (Event κ)}
      (idle : c.callbacks thread = .idle)
      (other : ∀ event ∈ events, event.signal = false)
      (others : ∀ found, found ≠ thread → callbacks found = c.callbacks found)
      (owing : config.Urgent sample.payload → callbacks thread = .write sample.payload) :
      SignalStep config c { c with
        critical_queue := c.critical_queue ++ [sample]
        callbacks := callbacks
        log := c.log ++ events }
  | write {c : Signals κ} {thread : Nat} {frame : Frame} (owing : c.callbacks thread = .write frame) :
      SignalStep config c { c with
        wakeup := c.wakeup.write, callbacks := Function.update c.callbacks thread .idle }
  | stopping {c : Signals κ} {thread : Nat} (idle : c.stops thread = .idle) :
      SignalStep config c { c with
        running := false
        stops := Function.update c.stops thread (.write c.started)
        log := c.log ++ [.stopping c.started] }
  | stopped {c : Signals κ} {thread : Nat} {afterRun : Bool}
      (owing : c.stops thread = .write afterRun) :
      SignalStep config c { c with
        wakeup := c.wakeup.write
        stops := Function.update c.stops thread .idle
        log := c.log ++ [.stopped afterRun] }

variable {config : Config κ} {s after : State κ}

/-- A callback up to its push is a step of the protocol. -/
theorem receive_signals (sourced : Sourced config s.channels) {thread : Nat}
    {ctx : CallbackContext} {frame : Frame} {now : TimePoint} (idle : s.callbacks thread = .idle)
    (known : ctx ∈ s.contexts) (origin : frame.registration = ctx.registration)
    (outcome : Callback config s thread ctx frame now after) :
    SignalStep config s.signals after.signals := by
  cases outcome with
  | ignored => exact .silent
  | @accepted callbacks queued room waking =>
    refine @SignalStep.accept _ config s.signals thread (sampleOf ctx frame now) callbacks _ idle
      (by simp [Event.signal]) ?_ ?_
    · intro found other
      rw [waking]
      split
      · exact Function.update_of_ne other _ _
      · rfl
    · rintro ⟨source, received, critical⟩
      obtain ⟨_, registered, _, priority⟩ := sourced.origin known origin
      obtain rfl : source = _ := Option.some.inj (received.1.symm.trans registered.1)
      rw [waking, if_pos (priority.trans critical), Function.update_self]
      rfl
  | rejected => exact .note (by simp [Event.signal])
  | put => exact .note (by simp [Event.signal])
  | unslotted => exact .note (by simp [Event.signal])

/-- Every access of `run()` is a step of the protocol. -/
theorem access_signals {answers : Answers} (access : Access config s answers s.reactor after) :
    SignalStep config s.signals after.signals := by
  obtain ⟨running, started, contexts, queue, dropped, cache, stats, latencies, sessions, wakeup,
    callbacks, stops, resetting, reactor, log⟩ := s
  cases access with
  | storeRunning => exact .begin rfl
  | armFirst => exact .armed (.inl rfl)
  | arm => exact .armed (.inr rfl)
  | enter alive => exact .enter rfl alive
  | leave => exact .leave rfl
  | emptied empty => exact .listen rfl empty
  | pop front => exact .take rfl front
  | unindexed | dispatchCritical | dispatchNormal | startDrain | drained | visitEmpty | visit
  | unindexedSlot | dispatchSlot => exact .note (by simp [Event.signal])
  | wake completed => exact .wake rfl completed
  | timeout quiet => exact .timeout rfl quiet
  | readEventfd => exact .read rfl
  | cqeSeen => exact .seen rfl
  | _ => exact .silent

/-- The protocol is a faithful abstraction of the reactor and its threads. -/
theorem step_signals (sourced : Sourced config s.channels) {action : Action}
    (stepped : step config s action = some after) :
    SignalStep config s.signals after.signals := by
  cases step_transition stepped with
  | receive idle known outcome =>
    exact receive_signals sourced idle (List.mem_of_getElem? known) rfl outcome
  | write owing => exact .write owing
  | stop idle => exact .stopping idle
  | stopWrite owing => exact .stopped owing
  | access access => exact access_signals access
  | beginReset => exact .silent
  | resetStep stepped =>
    obtain ⟨stats, latencies, resetting, rfl⟩ := resetStep_frame stepped
    exact .silent
  | reset => exact .note (by simp [Event.signal])

/-- An invariant of the protocol holds of every reachable state. -/
theorem signals_invariant (Inv : Signals κ → Prop) (initially : Inv (init κ).signals)
    (preserved : ∀ before next, Inv before → SignalStep config before next → Inv next)
    (reached : (machine config).Reachable s) : Inv s.signals :=
  Machine.invariant (fun s => Inv s.signals) initially
    (fun before _ next met holds stepped => preserved before.signals next.signals holds
      (step_signals (reachable_sourced met) stepped)) reached

end FlowKernel.Reactor
