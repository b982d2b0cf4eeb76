import FlowKernel.Sources

/-!
# One undisturbed call of `handle_events`

A cycle during which nothing else happens ends, whatever the environment answers:
every access lowers a bound on the work that is left. It dispatches the frames
that were queued when it began, in their order, leaves the queue empty and
accepts nothing.
-/

namespace FlowKernel.Reactor

open Foundation

universe u
variable {κ : Type u}

/-- Program counters inside `handle_events`. -/
def ReactorPc.cycling : ReactorPc → Bool
  | .storeRunning | .preAllocate _ | .subscribe _ | .armFirst | .loopTest | .returned => false
  | _ => true

/-- An upper bound on the accesses left in a cycle, given the lengths of the queue
and of the map of slots. -/
def ReactorPc.work (queue slots : Nat) : ReactorPc → Nat
  | .arm => 1
  | .cqeSeen => 2
  | .readEventfd => 3
  | .wait => 4
  | .addBackgroundDropped _ => 5
  | .storeLastBg _ _ => 6
  | .readLastBg _ => 7
  | .sumSlots todo _ => todo.length + 8
  | .startSum => slots + 9
  | .addBackgroundProcessed _ => slots + 10
  | .drain todo _ => slots + 2 * todo.length + 11
  | .dispatchSlot todo _ _ => slots + 2 * todo.length + 12
  | .startDrain => 3 * slots + 12
  | .storeNormalLast _ => 3 * slots + 13
  | .storeCriticalLast _ _ => 3 * slots + 14
  | .addNormalProcessed _ _ => 3 * slots + 15
  | .addCriticalProcessed _ _ => 3 * slots + 16
  | .pop _ _ => 3 * slots + 2 * queue + 17
  | .dispatch _ _ _ | .addAllDropped _ | .addNormalDropped _ _ => 3 * slots + 2 * queue + 18
  | .addCriticalDropped _ _ => 3 * slots + 2 * queue + 19
  | .split _ _ => 3 * slots + 2 * queue + 20
  | .readNormalLast _ _ => 3 * slots + 2 * queue + 21
  | .readCriticalLast _ => 3 * slots + 2 * queue + 22
  | .storeLast _ _ => 3 * slots + 2 * queue + 23
  | .readLast _ => 3 * slots + 2 * queue + 24
  | .loadDropped => 3 * slots + 2 * queue + 25
  | .storeRunning | .preAllocate _ | .subscribe _ | .armFirst | .loopTest | .returned => 0

/-- The most steps that the cycle under way has before it. -/
def State.work (s : State κ) : Nat :=
  s.reactor.work s.critical_queue.length s.background_cache.keys.length

/-- Events of the data callbacks. -/
def Event.arrives : Event κ → Bool
  | .received _ _ | .offered _ _ _ => true
  | _ => false

/-- What an access inside a cycle leaves alone, and that it makes progress. -/
structure CycleStep (s after : State κ) : Prop where
  running : after.running = s.running
  contexts : after.contexts = s.contexts
  callbacks : after.callbacks = s.callbacks
  queue : after.critical_queue <:+ s.critical_queue
  emptied : after.reactor.emptied = true ∨ after.reactor = .loopTest →
    s.reactor.emptied = true ∨ s.critical_queue = []
  log : ∃ events, after.log = s.log ++ events ∧ ∀ event ∈ events, event.arrives = false
  cycling : after.reactor.cycling = true ∨ after.reactor = .loopTest
  progress : after.reactor ≠ .loopTest → after.work < s.work

variable {config : Config κ} {s after : State κ}

/-- Accesses that only log, and that change nothing the rest of the cycle depends on. -/
theorem CycleStep.noted {events : List (Event κ)} (running : after.running = s.running)
    (contexts : after.contexts = s.contexts) (callbacks : after.callbacks = s.callbacks)
    (queue : after.critical_queue = s.critical_queue) (log : after.log = s.log ++ events)
    (other : ∀ event ∈ events, event.arrives = false)
    (emptied : after.reactor.emptied = true → s.reactor.emptied = true)
    (cycling : after.reactor.cycling = true) (progress : after.work < s.work) :
    CycleStep s after where
  running := running
  contexts := contexts
  callbacks := callbacks
  queue := queue ▸ List.suffix_rfl
  emptied := by
    rintro (later | ended)
    · exact .inl (emptied later)
    · rw [ended] at cycling
      exact absurd cycling Bool.false_ne_true
  log := ⟨events, log, other⟩
  cycling := .inl cycling
  progress := fun _ => progress

/-- An access that handles no frame. -/
theorem CycleStep.silent (running : after.running = s.running)
    (contexts : after.contexts = s.contexts) (callbacks : after.callbacks = s.callbacks)
    (queue : after.critical_queue = s.critical_queue) (log : after.log = s.log)
    (emptied : after.reactor.emptied = true → s.reactor.emptied = true)
    (cycling : after.reactor.cycling = true) (progress : after.work < s.work) :
    CycleStep s after :=
  .noted running contexts callbacks queue (log.trans (List.append_nil _).symm) (by simp) emptied
    cycling progress

/-- Every access inside a cycle is a step of it. -/
theorem reactorStep_cycle {answers : Answers} (inside : s.reactor.cycling = true)
    (stepped : reactorStep config s answers = some after) : CycleStep s after := by
  have access := reactorStep_access stepped
  obtain ⟨running, started, contexts, queue, dropped, cache, stats, latencies, sessions, wakeup,
    callbacks, stops, resetting, reactor, log⟩ := s
  cases access with
  | storeRunning | allocated | allocate | passOver | subscribed | subscribe | skip | armFirst
  | enter | leave => exact absurd inside Bool.false_ne_true
  | storeSame | undivided =>
    exact .silent rfl rfl rfl rfl rfl id rfl (by simp only [State.work, ReactorPc.work]; omega)
  | emptied empty =>
    obtain rfl : queue = [] := empty
    exact
      { running := rfl
        contexts := rfl
        callbacks := rfl
        queue := List.suffix_rfl
        emptied := fun _ => .inr rfl
        log := ⟨_, rfl, by simp [Event.arrives]⟩
        cycling := .inl rfl
        progress := fun _ => Nat.lt_succ_self _ }
  | pop front =>
    obtain rfl : queue = _ := front
    exact
      { running := rfl
        contexts := rfl
        callbacks := rfl
        queue := List.suffix_cons _ _
        emptied := by
          rintro (emptied | ended)
          · exact absurd emptied Bool.false_ne_true
          · simp [State.record] at ended
        log := ⟨_, rfl, by simp [Event.arrives]⟩
        cycling := .inl rfl
        progress := fun _ => Nat.lt_succ_self _ }
  | unindexed | dispatchCritical | dispatchNormal | drained | unindexedSlot | dispatchSlot =>
    exact .noted rfl rfl rfl rfl rfl (by simp [Event.arrives]) id rfl (Nat.lt_succ_self _)
  | startDrain listed =>
    refine .noted rfl rfl rfl rfl rfl (by simp [Event.arrives]) id rfl ?_
    have lengths : answers.order.length = cache.keys.length := listed.length_eq
    simp only [State.work, State.record, ReactorPc.work]
    omega
  | visitEmpty | visit =>
    refine .noted rfl rfl rfl rfl rfl (by simp [Event.arrives]) id rfl ?_
    simp only [State.work, State.record, State.setSlot, LatestSampleCache.setSlot,
      ReactorPc.work, List.length_cons]
    omega
  | startSum listed =>
    refine .silent rfl rfl rfl rfl rfl id rfl ?_
    have lengths : answers.order.length = cache.keys.length := listed.length_eq
    simp only [State.work, ReactorPc.work]
    omega
  | timeout =>
    exact ⟨rfl, rfl, rfl, List.suffix_rfl, fun _ => .inl rfl, ⟨[], by simp, by simp⟩, .inr rfl,
      by simp⟩
  | arm =>
    exact ⟨rfl, rfl, rfl, List.suffix_rfl, fun _ => .inl rfl, ⟨_, rfl, by simp [Event.arrives]⟩,
      .inr rfl, by simp [State.record]⟩
  | _ => exact .silent rfl rfl rfl rfl rfl id rfl (Nat.lt_succ_self _)

/-- States met by a cycle that began at `s`, with the reactor alone. -/
inductive Cycling (config : Config κ) (s : State κ) : State κ → Prop
  | enter {next : State κ} {answers : Answers} (here : s.reactor = .loopTest)
      (running : s.running = true) (stepped : reactorStep config s answers = some next) :
      Cycling config s next
  | more {mid next : State κ} {answers : Answers} (begun : Cycling config s mid)
      (inside : mid.reactor.cycling = true)
      (stepped : reactorStep config mid answers = some next) : Cycling config s next

/-- A call of `handle_events`, from one test of `running_` to the next. -/
def WholeCycle (config : Config κ) (s after : State κ) : Prop :=
  Cycling config s after ∧ after.reactor = .loopTest

/-- A cycle begins at the test. -/
theorem Cycling.here (begun : Cycling config s after) : s.reactor = .loopTest := by
  induction begun with
  | enter here => exact here
  | more _ _ _ inductionHypothesis => exact inductionHypothesis

/-- What a cycle has done so far. -/
structure CycleEffect (s after : State κ) : Prop where
  running : after.running = s.running
  contexts : after.contexts = s.contexts
  callbacks : after.callbacks = s.callbacks
  emptied : after.reactor.emptied = true ∨ after.reactor = .loopTest → after.critical_queue = []
  log : ∃ events, after.log = s.log ++ events ∧ ∀ event ∈ events, event.arrives = false
  cycling : after.reactor.cycling = true ∨ after.reactor = .loopTest

/-- The test lets the reactor into a cycle. -/
theorem enter_cycle {answers : Answers} (here : s.reactor = .loopTest)
    (running : s.running = true) (stepped : reactorStep config s answers = some after) :
    after = { s with reactor := .loadDropped }.record [.cycleStarted] := by
  simp only [reactorStep, here, if_pos running] at stepped
  exact (Option.some.inj stepped).symm

/-- What a cycle under way has done so far. -/
theorem cycle_effect (begun : Cycling config s after) : CycleEffect s after := by
  induction begun with
  | enter here running stepped =>
    rw [enter_cycle here running stepped]
    exact
      { running := rfl
        contexts := rfl
        callbacks := rfl
        emptied := by
          rintro (emptied | ended)
          · exact absurd emptied Bool.false_ne_true
          · simp [State.record] at ended
        log := ⟨_, rfl, by simp [Event.arrives]⟩
        cycling := .inl rfl }
  | @more mid next answers begun inside stepped effect =>
    have step := reactorStep_cycle inside stepped
    obtain ⟨events, log, quiet⟩ := effect.log
    obtain ⟨latest, extended, still⟩ := step.log
    exact
      { running := step.running.trans effect.running
        contexts := step.contexts.trans effect.contexts
        callbacks := step.callbacks.trans effect.callbacks
        emptied := by
          intro later
          have empty : mid.critical_queue = [] :=
            (step.emptied later).elim (fun settled => effect.emptied (.inl settled)) id
          exact List.suffix_nil.mp (empty ▸ step.queue)
        log := by
          refine ⟨events ++ latest, by rw [extended, log, List.append_assoc], ?_⟩
          intro event member
          rcases List.mem_append.mp member with old | new
          · exact quiet event old
          · exact still event new
        cycling := step.cycling }

/-- A cycle is part of a run. -/
theorem cycle_reachable (reached : (machine config).Reachable s)
    (begun : Cycling config s after) : (machine config).Reachable after := by
  induction begun with
  | @enter next answers here running stepped => exact reached.after (.reactor answers) stepped
  | @more mid next answers begun inside stepped reachable =>
    exact reachable.after (.reactor answers) stepped

/-- Inside a cycle the reactor is never stuck: walking the map as it is will do. -/
theorem step_possible (config : Config κ) (inside : s.reactor.cycling = true) :
    ∃ answers after, reactorStep config s answers = some after := by
  refine ⟨{ now := 0, declared := true, sqe := true, order := s.background_cache.keys }, ?_⟩
  obtain ⟨running, started, contexts, queue, dropped, cache, stats, latencies, sessions, wakeup,
    callbacks, stops, resetting, reactor, log⟩ := s
  cases reactor with
  | pop critical normal =>
    cases queue with
    | nil => exact ⟨_, rfl⟩
    | cons cs rest => exact ⟨_, rfl⟩
  | dispatch critical normal cs =>
    simp only [reactorStep]
    split
    · exact ⟨_, rfl⟩
    · split
      · exact ⟨_, rfl⟩
      · exact ⟨_, rfl⟩
  | startDrain => simp [reactorStep]
  | drain todo background =>
    cases todo with
    | nil => exact ⟨_, rfl⟩
    | cons hash todo =>
      simp only [reactorStep]
      split
      · exact ⟨_, rfl⟩
      · exact ⟨_, rfl⟩
  | dispatchSlot todo background sample =>
    simp only [reactorStep]
    split
    · exact ⟨_, rfl⟩
    · exact ⟨_, rfl⟩
  | startSum => simp [reactorStep]
  | sumSlots todo total =>
    cases todo with
    | nil => exact ⟨_, rfl⟩
    | cons hash todo => exact ⟨_, rfl⟩
  | wait =>
    simp only [reactorStep]
    split
    · exact ⟨_, rfl⟩
    · exact ⟨_, rfl⟩
  | storeRunning => exact absurd inside Bool.false_ne_true
  | preAllocate i => exact absurd inside Bool.false_ne_true
  | subscribe i => exact absurd inside Bool.false_ne_true
  | armFirst => exact absurd inside Bool.false_ne_true
  | loopTest => exact absurd inside Bool.false_ne_true
  | returned => exact absurd inside Bool.false_ne_true
  | _ => exact ⟨_, rfl⟩

/-- A cycle that has begun comes to its end. -/
theorem cycle_ends (bound : Nat) (begun : Cycling config s after)
    (inside : after.reactor.cycling = true) (within : after.work < bound) :
    ∃ last, WholeCycle config s last := by
  induction bound generalizing after with
  | zero => simp at within
  | succ bound inductionHypothesis =>
    obtain ⟨answers, next, stepped⟩ := step_possible config inside
    have step := reactorStep_cycle inside stepped
    have further : Cycling config s next := .more begun inside stepped
    by_cases ended : next.reactor = .loopTest
    · exact ⟨next, further, ended⟩
    · have less : next.work < after.work := step.progress ended
      exact inductionHypothesis further (step.cycling.resolve_right ended) (by omega)

/-- While the reactor is not stopped, every test of `running_` begins a cycle that
ends, unless another thread intervenes. -/
theorem cycle_exists (config : Config κ) (here : s.reactor = .loopTest)
    (running : s.running = true) : ∃ after, WholeCycle config s after := by
  have stepped : reactorStep config s { now := 0, declared := true, sqe := true, order := [] } =
      some ({ s with reactor := .loadDropped }.record [.cycleStarted]) := by
    simp [reactorStep, here, running]
  exact cycle_ends _ (.enter here running stepped) rfl (Nat.lt_succ_self _)

end FlowKernel.Reactor
