import FlowKernel.Reactor

/-!
# What one step can do

`run()` and `handle_events` proceed one access at a time, next to the data callbacks,
`stop()` and `reset_stats()`, and most statements about them look at every step in turn.
The steps are listed here once, each with the tests it has passed and the state it leaves,
so that such a statement is a case analysis with no computation in it.
-/

namespace FlowKernel.Reactor

open Foundation

universe u
variable {κ : Type u}

/-- The accesses that the reactor thread can make from each of its program counters. -/
inductive Access (config : Config κ) (s : State κ) (answers : Answers) :
    ReactorPc → State κ → Prop
  | storeRunning : Access config s answers .storeRunning
      { s with running := true, started := true, contexts := [], reactor := .preAllocate 0 }
  | allocated {i : Nat} (done : config.registry.handlers[i]? = none) :
      Access config s answers (.preAllocate i) { s with reactor := .subscribe 0 }
  | allocate {i : Nat} {handler : Handler κ} (next : config.registry.handlers[i]? = some handler)
      (cached : handler.priority = .background) :
      Access config s answers (.preAllocate i)
        { s with
          background_cache := s.background_cache.pre_allocate handler.path_hash
          reactor := .preAllocate (i + 1) }
  | passOver {i : Nat} {handler : Handler κ} (next : config.registry.handlers[i]? = some handler)
      (queued : handler.priority ≠ .background) :
      Access config s answers (.preAllocate i) { s with reactor := .preAllocate (i + 1) }
  | subscribed {i : Nat} (done : config.registry.handlers[i]? = none) :
      Access config s answers (.subscribe i) { s with reactor := .armFirst }
  | subscribe {i : Nat} {handler : Handler κ} (next : config.registry.handlers[i]? = some handler)
      (valid : config.keyexpr handler.path = true) (declared : answers.declared = true) :
      Access config s answers (.subscribe i)
        { s with
          contexts := s.contexts ++
            [{ handler_hash := handler.path_hash, priority := handler.priority, registration := i }]
          reactor := .subscribe (i + 1) }
  | skip {i : Nat} {handler : Handler κ} (next : config.registry.handlers[i]? = some handler)
      (refused : ¬ (config.keyexpr handler.path = true ∧ answers.declared = true)) :
      Access config s answers (.subscribe i) { s with reactor := .subscribe (i + 1) }
  | armFirst : Access config s answers .armFirst
      ({ s with
        wakeup := if answers.sqe then s.wakeup.arm else s.wakeup
        reactor := .loopTest }.record [.armed answers.sqe])
  | enter (running : s.running = true) : Access config s answers .loopTest
      ({ s with reactor := .loadDropped }.record [.cycleStarted])
  | leave (stopped : ¬ s.running = true) :
      Access config s answers .loopTest { s with reactor := .returned }
  | loadDropped : Access config s answers .loadDropped { s with reactor := .readLast s.dropped }
  | readLast {current : U64} : Access config s answers (.readLast current)
      { s with reactor := .storeLast current (current - s.stats.last_queue_dropped) }
  | storeGrown {current new : U64} (grown : new > 0) :
      Access config s answers (.storeLast current new)
        { s with
          stats := { s.stats with last_queue_dropped := current }
          reactor := .readCriticalLast new }
  | storeSame {current new : U64} (same : ¬ new > 0) :
      Access config s answers (.storeLast current new)
        { s with stats := { s.stats with last_queue_dropped := current }, reactor := .pop 0 0 }
  | readCriticalLast {new : U64} : Access config s answers (.readCriticalLast new)
      { s with reactor := .readNormalLast new s.stats.critical_count_last }
  | divide {new critical : U64} (charged : critical + s.stats.normal_count_last > 0) :
      Access config s answers (.readNormalLast new critical)
        { s with reactor := .split new (critical + s.stats.normal_count_last) }
  | undivided {new critical : U64} (idle : ¬ critical + s.stats.normal_count_last > 0) :
      Access config s answers (.readNormalLast new critical)
        { s with reactor := .addAllDropped new }
  | split {new total : U64} : Access config s answers (.split new total)
      { s with
        reactor := .addCriticalDropped new (new * s.stats.critical_count_last / total) }
  | addCriticalDropped {new c_drop : U64} : Access config s answers (.addCriticalDropped new c_drop)
      { s with
        stats := { s.stats with critical_dropped := s.stats.critical_dropped + c_drop }
        reactor := .addNormalDropped new c_drop }
  | addNormalDropped {new c_drop : U64} : Access config s answers (.addNormalDropped new c_drop)
      { s with
        stats := { s.stats with normal_dropped := s.stats.normal_dropped + (new - c_drop) }
        reactor := .pop 0 0 }
  | addAllDropped {new : U64} : Access config s answers (.addAllDropped new)
      { s with
        stats := { s.stats with critical_dropped := s.stats.critical_dropped + new }
        reactor := .pop 0 0 }
  | emptied {critical normal : U64} (empty : s.critical_queue = []) :
      Access config s answers (.pop critical normal)
        ({ s with reactor := .addCriticalProcessed critical normal }.record [.emptied])
  | pop {critical normal : U64} {cs : CriticalSample} {rest : List CriticalSample}
      (front : s.critical_queue = cs :: rest) :
      Access config s answers (.pop critical normal)
        ({ s with critical_queue := rest, reactor := .dispatch critical normal cs }.record
          [.popped cs])
  | unindexed {critical normal : U64} {cs : CriticalSample}
      (missing : config.registry.find cs.handler_hash = none) :
      Access config s answers (.dispatch critical normal cs)
        ({ s with reactor := .pop critical normal }.record [.unindexed cs.payload])
  | dispatchCritical {critical normal : U64} {cs : CriticalSample} {index : Nat}
      {handler : Handler κ} (found : config.registry.find cs.handler_hash = some (index, handler))
      (urgent : handler.priority = .critical) :
      Access config s answers (.dispatch critical normal cs)
        ({ s with
          latencies := record_latency s.latencies handler.priority (answers.now - cs.enqueue_time)
          reactor := .pop (critical + 1) normal }.record
            [.dispatched { index, callback := handler.callback, latency := handler.priority,
                           processed := .critical, frame := cs.payload }])
  | dispatchNormal {critical normal : U64} {cs : CriticalSample} {index : Nat}
      {handler : Handler κ} (found : config.registry.find cs.handler_hash = some (index, handler))
      (other : ¬ handler.priority = .critical) :
      Access config s answers (.dispatch critical normal cs)
        ({ s with
          latencies := record_latency s.latencies handler.priority (answers.now - cs.enqueue_time)
          reactor := .pop critical (normal + 1) }.record
            [.dispatched { index, callback := handler.callback, latency := handler.priority,
                           processed := .normal, frame := cs.payload }])
  | addCriticalProcessed {critical normal : U64} :
      Access config s answers (.addCriticalProcessed critical normal)
        { s with
          stats := { s.stats with critical_processed := s.stats.critical_processed + critical }
          reactor := .addNormalProcessed critical normal }
  | addNormalProcessed {critical normal : U64} :
      Access config s answers (.addNormalProcessed critical normal)
        { s with
          stats := { s.stats with normal_processed := s.stats.normal_processed + normal }
          reactor := .storeCriticalLast critical normal }
  | storeCriticalLast {critical normal : U64} :
      Access config s answers (.storeCriticalLast critical normal)
        { s with
          stats := { s.stats with critical_count_last := critical }
          reactor := .storeNormalLast normal }
  | storeNormalLast {normal : U64} : Access config s answers (.storeNormalLast normal)
      { s with
        stats := { s.stats with normal_count_last := normal }
        reactor := .startDrain }
  | startDrain (listed : answers.order.Perm s.background_cache.keys) :
      Access config s answers .startDrain
        ({ s with reactor := .drain answers.order 0 }.record [.drainStarted])
  | drained {background : U64} : Access config s answers (.drain [] background)
      ({ s with reactor := .addBackgroundProcessed background }.record [.drained])
  | visitEmpty {hash : U64} {todo : List U64} {background : U64}
      (nothing : (s.background_cache.slots hash).take.1 = none) :
      Access config s answers (.drain (hash :: todo) background)
        { (s.setSlot hash (s.background_cache.slots hash).take.2).record
            [.slot hash (s.background_cache.slots hash).takeEvent] with
          reactor := .drain todo background }
  | visit {hash : U64} {todo : List U64} {background : U64} {sample : HeldSample Frame}
      (taken : (s.background_cache.slots hash).take.1 = some sample) :
      Access config s answers (.drain (hash :: todo) background)
        { (s.setSlot hash (s.background_cache.slots hash).take.2).record
            [.slot hash (s.background_cache.slots hash).takeEvent] with
          reactor := .dispatchSlot todo background sample }
  | unindexedSlot {todo : List U64} {background : U64} {sample : HeldSample Frame}
      (missing : config.registry.find sample.handler_hash = none) :
      Access config s answers (.dispatchSlot todo background sample)
        ({ s with reactor := .drain todo background }.record [.unindexed sample.payload])
  | dispatchSlot {todo : List U64} {background : U64} {sample : HeldSample Frame} {index : Nat}
      {handler : Handler κ}
      (found : config.registry.find sample.handler_hash = some (index, handler)) :
      Access config s answers (.dispatchSlot todo background sample)
        ({ s with
          latencies := record_latency s.latencies .background (answers.now - sample.put_time)
          reactor := .drain todo (background + 1) }.record
            [.slotDispatched sample.handler_hash
              { index, callback := handler.callback, latency := .background,
                processed := .background, frame := sample.payload }])
  | addBackgroundProcessed {background : U64} :
      Access config s answers (.addBackgroundProcessed background)
        { s with
          stats :=
            { s.stats with background_processed := s.stats.background_processed + background }
          reactor := .startSum }
  | startSum (listed : answers.order.Perm s.background_cache.keys) :
      Access config s answers .startSum { s with reactor := .sumSlots answers.order 0 }
  | summed {total : U64} :
      Access config s answers (.sumSlots [] total) { s with reactor := .readLastBg total }
  | sumSlot {hash : U64} {todo : List U64} {total : U64} :
      Access config s answers (.sumSlots (hash :: todo) total)
        { s with
          reactor := .sumSlots todo (total + (s.background_cache.slots hash).drop_count) }
  | readLastBg {current : U64} : Access config s answers (.readLastBg current)
      { s with reactor := .storeLastBg current (current - s.stats.last_bg_dropped) }
  | storeLastBg {current new : U64} : Access config s answers (.storeLastBg current new)
      { s with
        stats := { s.stats with last_bg_dropped := current }
        reactor := .addBackgroundDropped new }
  | addBackgroundDropped {new : U64} : Access config s answers (.addBackgroundDropped new)
      { s with
        stats := { s.stats with background_dropped := s.stats.background_dropped + new }
        reactor := .wait }
  | wake (completed : 0 < s.wakeup.cqes) :
      Access config s answers .wait { s with reactor := .readEventfd }
  | timeout (quiet : ¬ 0 < s.wakeup.cqes) :
      Access config s answers .wait { s with reactor := .loopTest }
  | readEventfd : Access config s answers .readEventfd
      { s with wakeup := s.wakeup.read, reactor := .cqeSeen }
  | cqeSeen : Access config s answers .cqeSeen { s with wakeup := s.wakeup.seen, reactor := .arm }
  | arm : Access config s answers .arm
      ({ s with
        wakeup := if answers.sqe then s.wakeup.arm else s.wakeup
        reactor := .loopTest }.record [.armed answers.sqe])

variable {config : Config κ} {s next : State κ} {answers : Answers}

/-- A step of the reactor thread is one of these accesses. -/
theorem reactorStep_access (stepped : reactorStep config s answers = some next) :
    Access config s answers s.reactor next := by
  obtain ⟨running, started, contexts, queue, dropped, cache, stats, latencies, sessions, wakeup,
    callbacks, stops, resetting, reactor, log⟩ := s
  cases reactor with
  | returned => simp [reactorStep] at stepped
  | preAllocate i =>
    simp only [reactorStep] at stepped
    split at stepped
    next done =>
      obtain rfl := Option.some.inj stepped
      exact .allocated done
    next handler next =>
      split at stepped
      next cached =>
        obtain rfl := Option.some.inj stepped
        exact .allocate next cached
      next queued =>
        obtain rfl := Option.some.inj stepped
        exact .passOver next queued
  | subscribe i =>
    simp only [reactorStep] at stepped
    split at stepped
    next done =>
      obtain rfl := Option.some.inj stepped
      exact .subscribed done
    next handler next =>
      split at stepped
      next declared =>
        obtain rfl := Option.some.inj stepped
        exact .subscribe next declared.1 declared.2
      next refused =>
        obtain rfl := Option.some.inj stepped
        exact .skip next refused
  | loopTest =>
    simp only [reactorStep] at stepped
    split at stepped
    next running =>
      obtain rfl := Option.some.inj stepped
      exact .enter running
    next stopped =>
      obtain rfl := Option.some.inj stepped
      exact .leave stopped
  | storeLast current new =>
    simp only [reactorStep] at stepped
    split at stepped
    next grown =>
      obtain rfl := Option.some.inj stepped
      exact .storeGrown grown
    next same =>
      obtain rfl := Option.some.inj stepped
      exact .storeSame same
  | readNormalLast new critical =>
    simp only [reactorStep] at stepped
    split at stepped
    next charged =>
      obtain rfl := Option.some.inj stepped
      exact .divide charged
    next idle =>
      obtain rfl := Option.some.inj stepped
      exact .undivided idle
  | pop critical normal =>
    cases queue with
    | nil =>
      obtain rfl := Option.some.inj stepped
      exact .emptied rfl
    | cons cs rest =>
      obtain rfl := Option.some.inj stepped
      exact .pop rfl
  | dispatch critical normal cs =>
    simp only [reactorStep] at stepped
    split at stepped
    next missing =>
      obtain rfl := Option.some.inj stepped
      exact .unindexed missing
    next index handler found =>
      split at stepped
      next urgent =>
        obtain rfl := Option.some.inj stepped
        exact .dispatchCritical found urgent
      next other =>
        obtain rfl := Option.some.inj stepped
        exact .dispatchNormal found other
  | startDrain =>
    simp only [reactorStep] at stepped
    split at stepped
    next listed =>
      obtain rfl := Option.some.inj stepped
      exact .startDrain listed
    next => simp at stepped
  | drain todo background =>
    cases todo with
    | nil =>
      obtain rfl := Option.some.inj stepped
      exact .drained
    | cons hash todo =>
      simp only [reactorStep] at stepped
      split at stepped
      next nothing =>
        obtain rfl := Option.some.inj stepped
        exact .visitEmpty nothing
      next sample taken =>
        obtain rfl := Option.some.inj stepped
        exact .visit taken
  | dispatchSlot todo background sample =>
    simp only [reactorStep] at stepped
    split at stepped
    next missing =>
      obtain rfl := Option.some.inj stepped
      exact .unindexedSlot missing
    next index handler found =>
      obtain rfl := Option.some.inj stepped
      exact .dispatchSlot found
  | startSum =>
    simp only [reactorStep] at stepped
    split at stepped
    next listed =>
      obtain rfl := Option.some.inj stepped
      exact .startSum listed
    next => simp at stepped
  | sumSlots todo total =>
    cases todo with
    | nil =>
      obtain rfl := Option.some.inj stepped
      exact .summed
    | cons hash todo =>
      obtain rfl := Option.some.inj stepped
      exact .sumSlot
  | wait =>
    simp only [reactorStep] at stepped
    split at stepped
    next completed =>
      obtain rfl := Option.some.inj stepped
      exact .wake completed
    next quiet =>
      obtain rfl := Option.some.inj stepped
      exact .timeout quiet
  | _ =>
    obtain rfl := Option.some.inj stepped
    constructor

/-- A reset touches the statistics only. -/
theorem resetStep_frame {order : List U64} (stepped : resetStep s order = some next) :
    ∃ stats latencies resetting,
      next = { s with stats := stats, latencies := latencies, resetting := resetting } := by
  obtain ⟨running, started, contexts, queue, dropped, cache, stats, latencies, sessions, wakeup,
    callbacks, stops, resetting, reactor, log⟩ := s
  cases resetting with
  | idle => simp [resetStep] at stepped
  | storeLast current =>
    simp only [resetStep] at stepped
    split at stepped
    · obtain rfl := Option.some.inj stepped
      exact ⟨_, _, _, rfl⟩
    · simp at stepped
  | sumSlots todo total =>
    cases todo with
    | nil =>
      obtain rfl := Option.some.inj stepped
      exact ⟨_, _, _, rfl⟩
    | cons hash todo =>
      obtain rfl := Option.some.inj stepped
      exact ⟨_, _, _, rfl⟩
  | _ =>
    obtain rfl := Option.some.inj stepped
    exact ⟨_, _, _, rfl⟩

/-- What each action can do. -/
inductive Transition (config : Config κ) (s : State κ) : Action → State κ → Prop
  | receive {thread context serial : Nat} {key payload : Bytes} {now : TimePoint}
      {ctx : CallbackContext} {next : State κ} (idle : s.callbacks thread = .idle)
      (known : s.contexts[context]? = some ctx)
      (outcome : Callback config s thread ctx
        { registration := ctx.registration, serial, key, payload } now next) :
      Transition config s (.receive thread context serial key payload now) next
  | write {thread : Nat} {frame : Frame} (owing : s.callbacks thread = .write frame) :
      Transition config s (.callback thread)
        ({ s with wakeup := s.wakeup.write }.setCallback thread .idle)
  | stop {thread : Nat} (idle : s.stops thread = .idle) :
      Transition config s (.stop thread)
        (({ s with running := false }.setStop thread (.write s.started)).record
          [.stopping s.started])
  | stopWrite {thread : Nat} {afterRun : Bool} (owing : s.stops thread = .write afterRun) :
      Transition config s (.stopWrite thread)
        (({ s with wakeup := s.wakeup.write }.setStop thread .idle).record [.stopped afterRun])
  | access {answers : Answers} {next : State κ} (access : Access config s answers s.reactor next) :
      Transition config s (.reactor answers) next
  | beginReset (idle : s.resetting = .idle) :
      Transition config s .beginReset { s with resetting := .criticalProcessed }
  | resetStep {order : List U64} {next : State κ} (stepped : resetStep s order = some next) :
      Transition config s (.resetStep order) next
  | reset {order : List U64} (here : s.reactor = .loopTest) (idle : s.resetting = .idle)
      (listed : order.Perm s.background_cache.keys) :
      Transition config s (.reset order) (reset_stats s order)

/-- Every step of the reactor is one of the transitions. -/
theorem step_transition {action : Action} (stepped : step config s action = some next) :
    Transition config s action next := by
  cases action with
  | receive thread context serial key payload now =>
    simp only [step] at stepped
    split at stepped
    next ctx idle known =>
      obtain rfl := Option.some.inj stepped
      exact .receive idle known (callback_cases _ _ _ _ _ _)
    next => simp at stepped
  | callback thread =>
    simp only [step] at stepped
    split at stepped
    next frame owing =>
      obtain rfl := Option.some.inj stepped
      exact .write owing
    next => simp at stepped
  | stop thread =>
    simp only [step] at stepped
    split at stepped
    next idle =>
      obtain rfl := Option.some.inj stepped
      exact .stop idle
    next => simp at stepped
  | stopWrite thread =>
    simp only [step] at stepped
    split at stepped
    next afterRun owing =>
      obtain rfl := Option.some.inj stepped
      exact .stopWrite owing
    next => simp at stepped
  | reactor answers => exact .access (reactorStep_access stepped)
  | beginReset =>
    simp only [step] at stepped
    split at stepped
    next idle =>
      obtain rfl := Option.some.inj stepped
      exact .beginReset idle
    next => simp at stepped
  | resetStep order => exact .resetStep stepped
  | reset order =>
    simp only [step] at stepped
    split at stepped
    next boundary =>
      obtain rfl := Option.some.inj stepped
      exact .reset boundary.1 boundary.2.1 boundary.2.2
    next => simp at stepped

end FlowKernel.Reactor
