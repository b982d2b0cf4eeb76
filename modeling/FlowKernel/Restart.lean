import FlowKernel.Stopping
import FlowKernel.Wakeup

/-!
# Running a reactor more than once

One reactor on which `register_handler`, `run()` and `stop()` are called again and
again. A background subscriber stays declared until the session closes and keeps the
pointer it was given; a poll request stays in the ring until it completes. So what a
`run()` has declared and armed outlives it, while the next `run()` frees the contexts,
declares every subscription again and arms again.

Contexts have an identity here, given in the order of their allocation. Callbacks of
subscriptions whose context is freed have no defined behaviour and are no steps.
-/

namespace FlowKernel.Restart

open Foundation Reactor OneShotPoll

universe u
variable {κ : Type u}

/-- A declared background subscriber: the context it points to, and the handler it
was declared for. -/
structure Subscription where
  context : Nat
  handler : Nat
deriving DecidableEq

/-- A reactor between and during its runs: its members, the contexts that
`contexts_` owns, and the subscribers of the session. -/
structure State (κ : Type u) where
  registrations : List (Registration κ)
  core : Reactor.State κ
  owned : List Nat
  live : List Subscription
  allocated : Nat

/-- `register_handler` and `run` are calls on the reactor's thread, between its
runs; a step of `run()` or of another thread is an action of the reactor. -/
inductive Action (κ : Type u) where
  | register_handler (registration : Registration κ)
  | run
  | reactor (action : Reactor.Action)

/-- The reactor after its construction; `config` has the handlers registered so far
and the foreign code. -/
def init (config : Config κ) : State κ where
  registrations := config.registrations
  core := { Reactor.init κ with reactor := .returned }
  owned := []
  live := []
  allocated := 0

/-- The handlers registered by now. -/
def State.config (config : Config κ) (s : State κ) : Config κ :=
  { config with registrations := s.registrations }

/-- The loop of `run()` over the handlers has got to this one, and declares it. -/
def declares (config : Config κ) (s : Reactor.State κ) : Reactor.Action → Option Nat
  | .reactor answers =>
      match s.reactor with
      | .subscribe i =>
          match config.registry.handlers[i]? with
          | some handler => if config.keyexpr handler.path ∧ answers.declared then some i else none
          | none => none
      | _ => none
  | _ => none

/-- The first statement of `run()` is followed by `contexts_.clear()`. -/
def clears (s : Reactor.State κ) : Reactor.Action → Bool
  | .reactor _ => s.reactor = .storeRunning
  | _ => false

/-- What a step of the reactor does to the contexts and the subscribers. -/
def State.follow (config : Config κ) (s : State κ) (action : Reactor.Action)
    (core : Reactor.State κ) : State κ :=
  match declares (s.config config) s.core action with
  | some handler =>
      { s with
        core := core
        owned := s.owned ++ [s.allocated]
        live := s.live ++ [{ context := s.allocated, handler }]
        allocated := s.allocated + 1 }
  | none => { s with core := core, owned := if clears s.core action then [] else s.owned }

/-- A registration between two runs, a further `run()`, or a step of the reactor. -/
def step (config : Config κ) (s : State κ) : Action κ → Option (State κ)
  | .register_handler registration =>
      if s.core.reactor = .returned then
        some { s with registrations := s.registrations ++ [registration] }
      else none
  | .run =>
      if s.core.reactor = .returned then
        some { s with core := { s.core with reactor := .storeRunning } }
      else none
  | .reactor action =>
      (Reactor.step (s.config config) s.core action).map (s.follow config action)

/-- Any number of runs of one reactor. -/
def machine (config : Config κ) : Machine (State κ) (Action κ) where
  start := init config
  step := step config

/-- Inside the loop of `run()`. -/
def State.looping (s : State κ) : Bool :=
  match s.core.reactor.phase with
  | .fresh | .preparing | .returned => false
  | _ => true

/-- The handler exists and its key expression is valid. -/
def valid (config : Config κ) (index : Nat) : Bool :=
  config.registry.handlers[index]?.any fun handler => config.keyexpr handler.path

/-- The live subscriptions of a handler. -/
def State.subscriptions (s : State κ) (index : Nat) : Nat :=
  s.live.countP fun subscription => subscription.handler = index

/-- What a running loop needs from what was declared and armed. -/
structure RestartContract (config : Config κ) (s : State κ) : Prop where
  owned : ∀ subscription ∈ s.live, subscription.context ∈ s.owned
  single : ∀ index, valid (s.config config) index = true → s.subscriptions index = 1
  polls : s.core.wakeup.polls ≤ 1

/-- The contract holds in every running loop, however often `run()` is called. -/
def RestartLaw (config : Config κ) : Prop :=
  ∀ s, (machine config).Reachable s → s.looping = true → RestartContract config s

/-- `run()` is called with no subscription live and no poll outstanding or completion
pending, and no declaration of a valid key expression is refused. -/
def Fresh (config : Config κ) (s : State κ) : Action κ → Prop
  | .run => s.live = [] ∧ s.core.wakeup.watches = 0
  | .reactor action => ∀ index answers, action = .reactor answers →
      s.core.reactor = .subscribe index → valid (s.config config) index = true →
        answers.declared = true
  | .register_handler _ => True

section Watching

variable {config : Config κ} {c after : Signals κ} {s next : Reactor.State κ}

/-- At most one poll is outstanding or completed, and none where the next one is
about to be submitted. -/
structure Watched (c : Signals κ) : Prop where
  bounded : c.wakeup.watches ≤ c.phase.watches
  completed : c.phase = .reading ∨ c.phase = .seeing → 0 < c.wakeup.cqes

/-- A write adds no watch. -/
theorem Watched.write (watched : Watched c) (wakeup : after.wakeup = c.wakeup.write)
    (phase : after.phase = c.phase) : Watched after where
  bounded := by
    rw [wakeup, phase, Port.watches_write]
    exact watched.bounded
  completed := by
    rw [wakeup, phase]
    intro here
    exact Nat.lt_of_lt_of_le (watched.completed here) (Nat.le_add_right _ _)

/-- A step that leaves the eventfd and the phase alone adds none. -/
theorem Watched.kept (watched : Watched c) (wakeup : after.wakeup = c.wakeup)
    (phase : after.phase = c.phase) : Watched after where
  bounded := by
    rw [wakeup, phase]
    exact watched.bounded
  completed := by
    rw [wakeup, phase]
    exact watched.completed

/-- Every step of the protocol keeps the watches within their bound. -/
theorem watched_step (watched : Watched c) (step : SignalStep config c after) :
    Watched after := by
  have bounded := watched.bounded
  have completed := watched.completed
  cases step with
  | silent => exact watched
  | note => exact watched.kept rfl rfl
  | accept => exact watched.kept rfl rfl
  | stopping => exact watched.kept rfl rfl
  | take => exact watched.kept rfl rfl
  | write => exact watched.write rfl rfl
  | stopped => exact watched.write rfl rfl
  | begin phase => exact ⟨by simpa [phase, Phase.watches] using bounded, by simp⟩
  | @armed submitted phase =>
    refine ⟨?_, by simp⟩
    have idle : c.wakeup.watches = 0 := by
      rcases phase with preparing | arming
      · simpa [preparing, Phase.watches] using bounded
      · simpa [arming, Phase.watches] using bounded
    cases submitted with
    | true => simp [Phase.watches, idle]
    | false => simp [Phase.watches, idle]
  | enter phase => exact ⟨by simpa [phase, Phase.watches] using bounded, by simp⟩
  | leave phase => exact ⟨by simpa [phase, Phase.watches] using bounded, by simp⟩
  | listen phase => exact ⟨by simpa [phase, Phase.watches] using bounded, by simp⟩
  | timeout phase => exact ⟨by simpa [phase, Phase.watches] using bounded, by simp⟩
  | wake phase pending => exact ⟨by simpa [phase, Phase.watches] using bounded, fun _ => pending⟩
  | read phase =>
    exact ⟨by simpa [phase, Phase.watches] using bounded, fun _ => completed (.inl phase)⟩
  | seen phase =>
    have consumed := Port.watches_seen (completed (.inr phase))
    refine ⟨?_, by simp⟩
    simp only [phase, Phase.watches] at bounded ⊢
    omega

/-- No step of the reactor or of a thread around it loses the bound. -/
theorem watched_reactor (watched : Watched s.signals) {action : Reactor.Action}
    (stepped : Reactor.step config s action = some next) : Watched next.signals := by
  cases Reactor.step_transition stepped with
  | receive idle known outcome =>
    cases outcome with
    | _ => exact watched.kept rfl rfl
  | write | stopWrite => exact watched.write rfl rfl
  | access access => exact watched_step watched (access_signals access)
  | resetStep stepped =>
    obtain ⟨stats, latencies, resetting, rfl⟩ := resetStep_frame stepped
    exact watched
  | stop | beginReset | reset => exact watched.kept rfl rfl

end Watching

section Subscribing

variable {config : Config κ} {s next : State κ} {core : Reactor.State κ}

/-- The loop over the handlers has dealt with this one. -/
def declared : Stage → Nat → Bool
  | .fresh, _ | .allocating _, _ => false
  | .subscribing next, index => index < next
  | .serving, _ => true

/-- While `run()` runs, its subscriptions are the only ones and their contexts are
owned. -/
structure Ready (config : Config κ) (s : State κ) : Prop where
  owned : s.core.reactor ≠ .returned → ∀ subscription ∈ s.live, subscription.context ∈ s.owned
  single : s.core.reactor ≠ .returned → ∀ index, s.subscriptions index =
    if declared s.core.reactor.stage index && valid (s.config config) index then 1 else 0
  watched : Watched s.core.signals

/-- Before the first run nothing is declared. -/
theorem ready_init : Ready config (init config) where
  owned := by simp [init]
  single := by simp [init]
  watched := ⟨Nat.zero_le _, by simp [init, Reactor.State.signals, ReactorPc.phase]⟩

/-- A step that declares nothing and frees nothing. -/
theorem follow_other {action : Reactor.Action}
    (undeclared : declares (s.config config) s.core action = none)
    (kept : clears s.core action = false) : s.follow config action core = { s with core } := by
  simp [State.follow, undeclared, kept]

/-- A step that declares what the run needs, or nothing. -/
theorem Ready.other (ready : Ready config s) (watched : Watched core.signals)
    (running : s.core.reactor ≠ .returned ∨ core.reactor = .returned)
    (same : s.core.reactor ≠ .returned → ∀ index, valid (s.config config) index = true →
      declared core.reactor.stage index = declared s.core.reactor.stage index) :
    Ready config { s with core } where
  owned := by
    intro runs
    exact ready.owned (running.resolve_right runs)
  single := by
    intro runs index
    have agree : (declared core.reactor.stage index && valid (s.config config) index) =
        (declared s.core.reactor.stage index && valid (s.config config) index) := by
      by_cases known : valid (s.config config) index = true
      · rw [same (running.resolve_right runs) index known]
      · simp [known]
    exact (ready.single (running.resolve_right runs) index).trans (by rw [← agree]; rfl)
  watched := watched

/-- `run()` declares a subscription for the next handler. -/
theorem Ready.declare (ready : Ready config s) (watched : Watched core.signals) {index : Nat}
    (here : s.core.reactor = .subscribe index) (there : core.reactor = .subscribe (index + 1))
    (known : valid (s.config config) index = true) :
    Ready config { s with
      core := core
      owned := s.owned ++ [s.allocated]
      live := s.live ++ [{ context := s.allocated, handler := index }]
      allocated := s.allocated + 1 } where
  owned := by
    intro _ subscription member
    rcases List.mem_append.mp member with old | new
    · exact List.mem_append_left _ (ready.owned (by simp [here]) subscription old)
    · obtain rfl := List.mem_singleton.mp new
      simp
  single := by
    intro _ found
    have before := ready.single (by simp [here]) found
    simp only [here, ReactorPc.stage, declared, State.subscriptions] at before
    change List.countP _ (s.live ++ _) =
      if declared core.reactor.stage found && valid (s.config config) found then 1 else 0
    simp only [List.countP_append, there, ReactorPc.stage, declared]
    by_cases same : found = index
    · subst same
      simp [before, known]
    · have earlier : found < index + 1 ↔ found < index := by omega
      simp [before, Ne.symm same, earlier]
  watched := watched

/-- A run that serves goes on serving. -/
theorem stage_serving {c after : Channels κ} (step : ChannelStep config c after)
    (serving : c.stage = .serving) : after.stage = .serving := by
  cases step with
  | begin stage | allocate stage | passOver stage | allocated stage | subscribe stage
  | skip stage =>
    rw [serving] at stage
    simp at stage
  | subscribed => rfl
  | _ => exact serving

/-- A valid index is that of a handler. -/
theorem valid_lt {index : Nat} (known : valid config index = true) :
    index < config.registry.handlers.length := by
  by_contra beyond
  simp [valid, List.getElem?_eq_none (Nat.le_of_not_lt beyond)] at known

/-- One turn of the loop over the handlers. -/
theorem ready_subscribe (ready : Ready config s) (watched : Watched core.signals) {index : Nat}
    {answers : Answers} (allowed : Fresh config s (.reactor (.reactor answers)))
    (here : s.core.reactor = .subscribe index)
    (stepped : Reactor.step (s.config config) s.core (.reactor answers) = some core) :
    Ready config (s.follow config (.reactor answers) core) := by
  have kept : clears s.core (.reactor answers) = false := by simp [clears, here]
  cases found : (s.config config).registry.handlers[index]? with
  | none =>
    have there : core.reactor = .armFirst := by
      simp only [Reactor.step, reactorStep, here, found] at stepped
      obtain rfl := Option.some.inj stepped
      rfl
    rw [follow_other (by simp [declares, here, found]) kept]
    apply ready.other watched (.inl (by simp [here]))
    intro _ earlier known
    have inside : earlier < index :=
      Nat.lt_of_lt_of_le (valid_lt known) (List.getElem?_eq_none_iff.mp found)
    simp [here, there, ReactorPc.stage, declared, inside]
  | some handler =>
    have there : core.reactor = .subscribe (index + 1) := by
      simp only [Reactor.step, reactorStep, here, found] at stepped
      split at stepped
      · obtain rfl := Option.some.inj stepped
        rfl
      · obtain rfl := Option.some.inj stepped
        rfl
    by_cases accepted : (s.config config).keyexpr handler.path ∧ answers.declared
    · have new : declares (s.config config) s.core (.reactor answers) = some index := by
        simp [declares, here, found, accepted]
      have known : valid (s.config config) index = true := by
        simp [valid, found, accepted.1]
      simp only [State.follow, new]
      exact ready.declare watched here there known
    · have invalid : valid (s.config config) index = false := by
        by_contra known
        rw [Bool.not_eq_false] at known
        refine accepted ⟨by simpa [valid, found] using known, ?_⟩
        exact allowed index answers rfl here known
      rw [follow_other (by simp [declares, here, found, accepted]) kept]
      apply ready.other watched (.inl (by simp [here]))
      intro _ earlier known
      have other : earlier ≠ index := by
        rintro rfl
        rw [invalid] at known
        exact Bool.false_ne_true known
      have same : earlier < index + 1 ↔ earlier < index := by omega
      simp [here, there, ReactorPc.stage, declared, same]

/-- A step of `run()` or of another thread. -/
theorem ready_reactor (ready : Ready config s) {action : Reactor.Action}
    (allowed : Fresh config s (.reactor action))
    (stepped : Reactor.step (s.config config) s.core action = some core) :
    Ready config (s.follow config action core) := by
  have watched := watched_reactor ready.watched stepped
  by_cases own : ∃ answers, action = .reactor answers
  · obtain ⟨answers, rfl⟩ := own
    have moved := access_channels (reactorStep_access stepped)
    cases here : s.core.reactor with
    | storeRunning =>
      have nothing : s.live = [] := by
        apply List.eq_nil_iff_forall_not_mem.mpr
        intro subscription member
        have none := ready.single (by simp [here]) subscription.handler
        simp only [here, ReactorPc.stage, declared, State.subscriptions] at none
        simp only [Bool.false_and, Bool.false_eq_true, if_false, List.countP_eq_zero] at none
        exact none subscription member (by simp)
      have there : core.reactor = .preAllocate 0 := by
        simp only [Reactor.step, reactorStep, here] at stepped
        obtain rfl := Option.some.inj stepped
        rfl
      have followed : s.follow config (.reactor answers) core = { s with core, owned := [] } := by
        simp [State.follow, declares, clears, here]
      rw [followed]
      refine ⟨by simp [nothing], ?_, watched⟩
      intro _ index
      simp [State.subscriptions, nothing, there, ReactorPc.stage, declared]
    | preAllocate i =>
      have access := reactorStep_access stepped
      rw [here] at access
      have there : core.reactor = .subscribe 0 ∨ core.reactor = .preAllocate (i + 1) := by
        cases access with
        | allocated => exact .inl rfl
        | allocate | passOver => exact .inr rfl
      rw [follow_other (by simp [declares, here]) (by simp [clears, here])]
      apply ready.other watched (.inl (by simp [here]))
      intro _ index _
      rcases there with subscribing | allocating
      · simp [here, subscribing, ReactorPc.stage, declared]
      · simp [here, allocating, ReactorPc.stage, declared]
    | subscribe i =>
      exact ready_subscribe ready watched allowed here stepped
    | returned =>
      simp [Reactor.step, reactorStep, here] at stepped
    | _ =>
      rw [follow_other (by simp [declares, here]) (by simp [clears, here])]
      apply ready.other watched (.inl (by simp [here]))
      intro _ index _
      have serving : core.reactor.stage = .serving :=
        stage_serving moved (by simp [Reactor.State.channels, here, ReactorPc.stage])
      rw [serving, here]
      rfl
  · have undeclared : declares (s.config config) s.core action = none := by
      cases action with
      | reactor answers => exact absurd ⟨answers, rfl⟩ own
      | _ => rfl
    have kept : clears s.core action = false := by
      cases action with
      | reactor answers => exact absurd ⟨answers, rfl⟩ own
      | _ => rfl
    have still : core.reactor = s.core.reactor :=
      step_reactor (fun answers same => own ⟨answers, same⟩) stepped
    rw [follow_other undeclared kept]
    apply ready.other watched
    · rw [still]
      exact (em _).symm
    · intro _ index _
      rw [still]

/-- A step that meets the condition keeps the contexts in their places. -/
theorem ready_step (ready : Ready config s) {action : Action κ} (allowed : Fresh config s action)
    (stepped : step config s action = some next) : Ready config next := by
  cases action with
  | register_handler registration =>
    simp only [step] at stepped
    split at stepped
    next returned =>
      obtain rfl := Option.some.inj stepped
      exact ⟨fun runs => absurd returned runs, fun runs => absurd returned runs, ready.watched⟩
    next => simp at stepped
  | run =>
    obtain ⟨nothing, unwatched⟩ := allowed
    simp only [step] at stepped
    split at stepped
    next returned =>
      obtain rfl := Option.some.inj stepped
      refine ⟨?_, ?_, ?_⟩
      · simp [nothing]
      · simp [nothing, State.subscriptions, ReactorPc.stage, declared]
      · exact ⟨Nat.le_of_eq unwatched, by simp [Reactor.State.signals, ReactorPc.phase]⟩
    next => simp at stepped
  | reactor action =>
    obtain ⟨core, moved, rfl⟩ := Option.map_eq_some_iff.mp stepped
    exact ready_reactor ready allowed moved

/-- In every run of fresh starts the contexts are those of the live subscribers. -/
theorem reachable_ready (reached : (machine config).ReachableWithin (Fresh config) s) :
    Ready config s :=
  Machine.invariant_within (Ready config) ready_init
    (fun _ _ _ _ ready allowed stepped => ready_step ready allowed stepped) reached

/-- In every sequence of `register_handler`, `run()` and `stop()` calls in which every
`run()` begins with nothing declared and nothing armed, and Zenoh refuses no
declaration of a valid key expression: in the loop every live subscription has its
context, every handler with a valid key expression has one live subscription, and at
most one poll is outstanding. -/
theorem restart_contract (reached : (machine config).ReachableWithin (Fresh config) s)
    (looping : s.looping = true) : RestartContract config s := by
  have ready := reachable_ready reached
  have running : s.core.reactor ≠ .returned := by
    intro returned
    simp [State.looping, returned, ReactorPc.phase] at looping
  have serving : s.core.reactor.stage = .serving := by
    cases here : s.core.reactor with
    | storeRunning | preAllocate | subscribe =>
      simp [State.looping, here, ReactorPc.phase] at looping
    | _ => rfl
  refine ⟨ready.owned running, ?_, ?_⟩
  · intro index known
    simpa [serving, declared, known] using ready.single running index
  · have bounded := ready.watched.bounded
    have one : s.core.signals.phase.watches ≤ 1 := by
      unfold Phase.watches
      split <;> omega
    simp only [Reactor.State.signals, Port.watches] at bounded one
    omega

end Subscribing

section Restarting

variable {config : Config κ} {s next later : State κ}

/-- Some live subscription points to a context that is no longer owned. -/
def Stale (s : State κ) : Prop :=
  ∃ subscription ∈ s.live, subscription.context ∉ s.owned ∧ subscription.context < s.allocated

/-- What has been freed stays freed. -/
theorem stale_follow (stale : Stale s) (action : Reactor.Action) (core : Reactor.State κ) :
    Stale (s.follow config action core) := by
  obtain ⟨subscription, member, lost, old⟩ := stale
  unfold State.follow
  split
  · refine ⟨subscription, List.mem_append_left _ member, ?_, Nat.lt_succ_of_lt old⟩
    simp only [List.mem_append, List.mem_singleton, not_or]
    exact ⟨lost, Nat.ne_of_lt old⟩
  · refine ⟨subscription, member, ?_, old⟩
    split
    · exact List.not_mem_nil
    · exact lost

/-- No step gives back a context that was freed. -/
theorem stale_step (stale : Stale s) {action : Action κ}
    (stepped : step config s action = some next) : Stale next := by
  cases action with
  | register_handler registration =>
    simp only [step] at stepped
    split at stepped
    · obtain rfl := Option.some.inj stepped
      exact stale
    · simp at stepped
  | run =>
    simp only [step] at stepped
    split at stepped
    · obtain rfl := Option.some.inj stepped
      exact stale
    · simp at stepped
  | reactor action =>
    obtain ⟨core, _, rfl⟩ := Option.map_eq_some_iff.mp stepped
    exact stale_follow stale action core

/-- Identities of contexts are given out in order. -/
theorem reachable_allocated (reached : (machine config).Reachable s) :
    ∀ subscription ∈ s.live, subscription.context < s.allocated := by
  apply Machine.invariant
    (fun s => ∀ subscription ∈ s.live, subscription.context < s.allocated) _ _ reached
  · simp [machine, init]
  · intro before action after _ earlier stepped
    cases action with
    | register_handler registration =>
      simp only [machine, step] at stepped
      split at stepped
      · obtain rfl := Option.some.inj stepped
        exact earlier
      · simp at stepped
    | run =>
      simp only [machine, step] at stepped
      split at stepped
      · obtain rfl := Option.some.inj stepped
        exact earlier
      · simp at stepped
    | reactor action =>
      obtain ⟨core, _, rfl⟩ := Option.map_eq_some_iff.mp stepped
      unfold State.follow
      split
      · intro subscription member
        rcases List.mem_append.mp member with old | new
        · exact Nat.lt_succ_of_lt (earlier subscription old)
        · obtain rfl := List.mem_singleton.mp new
          exact Nat.lt_succ_self _
      · exact earlier

/-- A `run()` that begins with a live subscription breaks the contract for good: it
frees the context, and no later step gives it back. -/
theorem restart_breaks (reached : (machine config).Reachable s)
    (here : s.core.reactor = .storeRunning) (live : s.live ≠ []) {answers : Answers}
    (stepped : step config s (.reactor (.reactor answers)) = some next)
    {schedule : List (Action κ)} (ran : (machine config).exec next schedule = some later) :
    ¬ RestartContract config later := by
  have stale : Stale next := by
    obtain ⟨core, _, rfl⟩ := Option.map_eq_some_iff.mp stepped
    obtain ⟨subscription, member⟩ := List.exists_mem_of_ne_nil s.live live
    refine ⟨subscription, ?_⟩
    simpa [State.follow, declares, clears, here] using
      And.intro member (reachable_allocated reached subscription member)
  have remains : Stale later :=
    Machine.exec_preserves Stale (fun _ _ _ stale stepped => stale_step stale stepped) stale ran
  intro contract
  obtain ⟨subscription, member, lost, _⟩ := remains
  exact lost (contract.owned subscription member)

/-- One step's share in a fresh start, as a check of a replay. -/
def fresh (config : Config κ) (s : State κ) (action : Action κ) (_ : State κ) : Bool :=
  match action with
  | .run => s.live.isEmpty && s.core.wakeup.watches = 0
  | .reactor (.reactor answers) =>
      match s.core.reactor with
      | .subscribe index => !valid (s.config config) index || answers.declared
      | _ => true
  | _ => true

/-- What the check accepts meets the condition. -/
theorem fresh_of_check {action : Action κ} (passed : fresh config s action next = true) :
    Fresh config s action := by
  cases action with
  | register_handler => trivial
  | run => simpa [fresh, Fresh] using passed
  | reactor action =>
    rintro index answers rfl here known
    simpa [fresh, here, known] using passed

/-- So many accesses of `run()`. -/
def runTurns (count : Nat) : List (Action TopicPriority) :=
  (defaultTurns count).map .reactor

/-- The shipped handlers, and another telemetry path, registered before the only
run. -/
def singleRun : List (Action TopicPriority) :=
  [.register_handler { path := telemetryPath, priority := .normal, callback := .normal }, .run] ++
    runTurns 20

/-- One run, with the shipped handlers. -/
theorem singleRun_contract :
    ∃ s, (machine defaultConfig).execWithin (fresh defaultConfig) (init defaultConfig) singleRun =
        some s ∧
      s.looping = true ∧ s.live.length = 4 ∧ RestartContract defaultConfig s := by
  have outcome : ((machine defaultConfig).execWithin (fresh defaultConfig) (init defaultConfig)
      singleRun).map (fun s => (s.looping, s.live.length)) = some (true, 4) := by
    decide +kernel
  obtain ⟨s, ran, seen⟩ := Option.map_eq_some_iff.mp outcome
  simp only [Prod.mk.injEq] at seen
  obtain ⟨looping, live⟩ := seen
  have reached := Machine.ReachableWithin.exec (fun _ _ _ _ passed => fresh_of_check passed)
    .start ran
  exact ⟨s, ran, looping, live, restart_contract reached looping⟩

/-- The shipped reactor runs, is stopped at its first wait, and runs again. -/
def secondRun : List (Action TopicPriority) :=
  [.run] ++ runTurns 29 ++ [.reactor (.stop 0), .reactor (.stopWrite 0)] ++ runTurns 5 ++
    [.run] ++ runTurns 10

/-- In the second loop the first handler has two subscriptions, of which one points
to a freed context, and two polls are outstanding. -/
theorem secondRun_breaks : ¬ RestartLaw defaultConfig := by
  have outcome : ((machine defaultConfig).exec (init defaultConfig) secondRun).map (fun s =>
      (s.looping, s.owned, s.live.map Subscription.context, s.subscriptions 0,
        s.core.wakeup.polls)) =
      some (true, [3, 4, 5], [0, 1, 2, 3, 4, 5], 2, 2) := by
    decide +kernel
  obtain ⟨s, ran, seen⟩ := Option.map_eq_some_iff.mp outcome
  simp only [Prod.mk.injEq] at seen
  obtain ⟨looping, _, _, _, polls⟩ := seen
  intro law
  have contract := law s (Machine.reachable_of_exec ran) looping
  have bounded := contract.polls
  omega

end Restarting

end FlowKernel.Restart
