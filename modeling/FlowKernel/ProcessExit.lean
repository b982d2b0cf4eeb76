import FlowKernel.ProcessLifetimes
import FlowKernel.RunEnd

/-!
# The end of the process

When `main` waits for the reactor to end, in `join()` after the terminal interface has
returned or inside `run()` itself, the process comes to its end just if some `stop()` has
stored false after the first store of `run()`. The threads of the process then bring it to
its exit, and no resource is left. Otherwise it waits until a signal comes, whatever else
happens: the `stop()` that `main` calls before it joins may itself have come too early.
-/

namespace FlowKernel.Process

open Foundation Reactor

/-- `main` waits for `run()` to return. -/
def MainPc.awaits : MainPc → Bool
  | .joinReactor | .runReactor => true
  | _ => false

/-- A step of the process, as opposed to a signal, a callback or an event of the terminal. -/
def Action.internal : Action → Bool
  | .main _ | .reactor _ | .tui (.ui _) | .tui (.refresh _) => true
  | _ => false

/-- The beginning of the handler of SIGINT or SIGTERM. -/
def Action.signals : Action → Bool
  | .signal _ => true
  | _ => false

/-- How the wait of `main` ends. -/
structure ExitContract (setup : Setup) (s : State) : Prop where
  exits : Heeded s.core.log → ∃ actions final, (∀ action ∈ actions, action.internal = true) ∧
    (machine setup).exec s actions = some final ∧ final.main = .exited (.ok ()) ∧ final.held = []
  waits : ¬ Heeded s.core.log → ∀ actions final, (∀ action ∈ actions, action.signals = false) →
    (machine setup).exec s actions = some final → final.main = s.main

/-- `main` has stored in its `stop()` and not written yet. -/
def MainPc.owes : MainPc → Bool
  | .stopWrite | .destroyReactor .stopWrite _ => true
  | _ => false

/-- The thread of the reactor, and the `stop()` that `main` is in. -/
structure Waiting (s : State) : Prop where
  finished : s.thread = .finished → s.core.reactor = .returned
  owing : s.main.owes = true → ∃ afterRun, s.core.stops 0 = .write afterRun
  idle : s.main ≠ .killed → s.main.owes = false → s.core.stops 0 = .idle

variable {setup : Setup} {s next : State}

/-- Nobody has begun a `stop()`. -/
theorem waiting_init : Waiting init where
  finished := by simp [init]
  owing := by simp [init, MainPc.owes]
  idle := fun _ _ => rfl

/-- The other threads leave the `stop()` of `main` alone. -/
theorem Waiting.aside (waiting : Waiting s) (aside : Aside setup s next) : Waiting next where
  finished := by
    intro finished
    rcases aside.thread with same | ⟨_, returned, same⟩
    · have returned := waiting.finished (same.symm.trans finished)
      rcases aside.core with kept | ⟨action, stepped, plain, _⟩
      · rw [kept]
        exact returned
      · rcases action.reactor_or_other with ⟨answers, rfl⟩ | others
        · simp [Reactor.step, reactorStep, returned] at stepped
        · exact (step_reactor others stepped).trans returned
    · rw [same]
      exact returned
  owing := by
    intro owes
    obtain ⟨afterRun, owing⟩ := waiting.owing (aside.main ▸ owes)
    refine ⟨afterRun, ?_⟩
    rcases aside.core with kept | ⟨action, stepped, plain, mine⟩
    · rw [kept]
      exact owing
    · exact (stops_aside (plain 0) mine stepped).trans owing
  idle := by
    intro live calm
    have idle := waiting.idle (aside.main ▸ live) (aside.main ▸ calm)
    rcases aside.core with kept | ⟨action, stepped, plain, mine⟩
    · rw [kept]
      exact idle
    · exact (stops_aside (plain 0) mine stepped).trans idle

/-- `main` goes on without its `stop()`. -/
theorem Waiting.moved (waiting : Waiting s) (core : next.core = s.core)
    (thread : next.thread = .finished → s.thread = .finished) (live : s.main ≠ .killed)
    (calm : s.main.owes = false) (still : next.main.owes = false) : Waiting next where
  finished := by
    rw [core]
    exact fun finished => waiting.finished (thread finished)
  owing := by simp [still]
  idle := by
    rw [core]
    exact fun _ _ => waiting.idle live calm

/-- `main` stores in its `stop()` and owes the write. -/
theorem Waiting.stored (waiting : Waiting s) {core : Reactor.State TopicPriority}
    (stepped : Reactor.step setup.reactor s.core (.stop 0) = some core) (coreEq : next.core = core)
    (thread : next.thread = s.thread) (owes : next.main.owes = true) : Waiting next where
  finished := by
    rw [coreEq, thread]
    exact fun finished => (step_reactor (by simp) stepped).trans (waiting.finished finished)
  owing := by
    rw [coreEq]
    cases step_transition stepped with
    | stop => exact fun _ => ⟨_, by simp [Reactor.State.setStop, Reactor.State.record]; rfl⟩
  idle := by simp [owes]

/-- `main` writes, and owes nothing. -/
theorem Waiting.written (waiting : Waiting s) {core : Reactor.State TopicPriority}
    (stepped : Reactor.step setup.reactor s.core (.stopWrite 0) = some core)
    (coreEq : next.core = core) (thread : next.thread = s.thread)
    (still : next.main.owes = false) : Waiting next where
  finished := by
    rw [coreEq, thread]
    exact fun finished => (step_reactor (by simp) stepped).trans (waiting.finished finished)
  owing := by simp [still]
  idle := by
    rw [coreEq]
    cases step_transition stepped with
    | stopWrite => exact fun _ _ => by simp [Reactor.State.setStop, Reactor.State.record]

/-- The constructor starts no thread and stops nothing. -/
theorem construct_still (answer : Answer) (stage : Stage) :
    (constructStep s answer stage).thread = s.thread ∧
      (constructStep s answer stage).main.owes = false := by
  cases stage with
  | dropKeyexpr declared => cases declared <;> exact ⟨rfl, rfl⟩
  | _ =>
    simp only [constructStep]
    split <;> exact ⟨rfl, rfl⟩

/-- A step of `main` keeps its `stop()` in order. -/
theorem main_waiting (waiting : Waiting s) {answer : Answer}
    (stepped : mainStep setup s answer = some next) : Waiting next := by
  cases main_cases stepped with
  | @construct stage here =>
    obtain ⟨core, _⟩ := @construct_frames s answer stage
    obtain ⟨thread, calm⟩ := @construct_still s answer stage
    exact waiting.moved core (thread ▸ id) (by simp [here]) (by rw [here]; rfl) calm
  | spawn here =>
    exact waiting.moved rfl (by simp [State.goto]) (by simp [here]) (by rw [here]; rfl) rfl
  | stop here touched =>
    obtain ⟨core, stored, rfl⟩ := touch_eq touched
    exact waiting.stored stored rfl rfl rfl
  | write here touched =>
    obtain ⟨core, written, rfl⟩ := touch_eq touched
    exact waiting.written written rfl rfl rfl
  | destroy here there called =>
    exact waiting.moved rfl id (by simp [here]) (by rw [here]; rfl) (by simp only [here]; rfl)
  | @destruct pc outcome _ here stepped =>
    cases pc with
    | idle =>
      obtain ⟨core, stored, rfl⟩ := Option.map_eq_some_iff.mp stepped
      exact waiting.stored stored rfl rfl rfl
    | stopWrite =>
      obtain ⟨core, written, rfl⟩ := Option.map_eq_some_iff.mp stepped
      exact waiting.written written rfl rfl rfl
    | _ =>
      obtain rfl := Option.some.inj stepped
      exact waiting.moved rfl id (by simp [here]) (by rw [here]; rfl) rfl
  | load here | fail here | escape here | publish here | install here | register here | showTui here
  | hideTui here | makeTui here | unspawned here | left here | terminate here | join here
  | destroyed here | finish here =>
    exact waiting.moved rfl id (by simp [here]) (by rw [here]; rfl) rfl

/-- Every step of the process keeps the `stop()` of `main` in order. -/
theorem step_waiting (waiting : Waiting s) {action : Action}
    (stepped : step setup s action = some next) : Waiting next := by
  cases action with
  | main answer => exact main_waiting waiting stepped
  | signal k =>
    rcases signal_cases stepped with ⟨_, rfl⟩ | rfl | touched
    · exact ⟨waiting.finished, by simp [State.goto, MainPc.owes], by simp [State.goto]⟩
    · exact waiting
    · obtain ⟨core, stopped, rfl⟩ := touch_eq touched
      have mine : core.stops 0 = s.core.stops 0 := stops_aside (by simp) (by simp) stopped
      refine ⟨?_, ?_, ?_⟩
      · exact fun finished => (step_reactor (by simp) stopped).trans (waiting.finished finished)
      · rw [mine]
        exact waiting.owing
      · rw [mine]
        exact waiting.idle
  | _ => exact waiting.aside (step_aside (by simp) (by simp) stepped)

/-- In every run the reactor's thread ends behind `run()`, and `main` owes a write just
inside its `stop()`. -/
theorem reachable_waiting (reached : (machine setup).Reachable s) : Waiting s := by
  apply Machine.invariant Waiting waiting_init _ reached
  exact fun _ _ _ _ waiting stepped => step_waiting waiting stepped

/-- What is left of `~TUIApp`. -/
def closing : Tui.UiPc → Nat
  | .constructed | .returned => 5
  | .stop _ => 4
  | .exit _ => 3
  | .joinable _ => 2
  | .join _ => 1
  | _ => 0

/-- What is left of the destructor of the reactor, and the return after it. -/
def unbuilt : Teardown.DestructorPc → Nat
  | .idle => 8
  | .stopWrite => 7
  | .closeEventfd => 6
  | .exitRing => 5
  | .dropPublisher => 4
  | .closeSession => 3
  | .dropSession => 2
  | .done => 1

/-- The most steps before the exit, if the threads of the process are left alone. -/
def remaining (setup : Setup) (s : State) : Nat :=
  match s.main with
  | .joinReactor =>
      11 + s.core.ending setup.reactor + (if s.thread = .finished then 0 else 1) +
        s.tui.refresh.remaining setup.handlers + closing s.tui.ui
  | .runReactor => 9 + s.core.ending setup.reactor
  | .destroyTui _ => 9 + s.tui.refresh.remaining setup.handlers + closing s.tui.ui
  | .destroyReactor pc _ => unbuilt pc
  | _ => 0

/-- `main` is on its way to a clean exit. -/
def Exiting (s : State) : Prop :=
  match s.main with
  | .joinReactor | .runReactor => Heeded s.core.log
  | .destroyTui outcome | .destroyReactor _ outcome | .exited outcome => outcome = .ok ()
  | _ => False

/-- One step of the process that is a step towards its exit. -/
def Nears (setup : Setup) (s : State) : Prop :=
  ∃ action next, action.internal = true ∧ step setup s action = some next ∧ Exiting next ∧
    remaining setup next < remaining setup s

/-- The getters always report. -/
theorem channelStats_total (processed dropped : U64) (window : List Int) :
    ∃ stats, LatencyStats.channelStats processed dropped window = some stats := by
  by_cases empty : window = []
  · subst empty
    exact ⟨_, rfl⟩
  · obtain ⟨stats, same, _⟩ :=
      (LatencyStats.channelStats_reports processed dropped window).quantiles empty
    exact ⟨stats, same⟩

/-- The refresh thread finds in the reactor what it goes on with. -/
theorem refresh_reads (setup : Setup) (core : Reactor.State TopicPriority) {tui : Tui.State}
    (started : tui.refresh ≠ .absent) (unended : tui.refresh ≠ .ended)
    (free : tui.refresh = .lock → tui.data_mutex_ = none) :
    ∃ reading next, reads setup core tui.refresh reading = true ∧
      Tui.refreshStep setup.handlers tui reading = some next := by
  cases here : tui.refresh with
  | absent => exact absurd here started
  | ended => exact absurd here unended
  | test | unlock | sleep => exact ⟨.nothing, _, rfl, by simp [Tui.refreshStep, here]; rfl⟩
  | lock => exact ⟨.nothing, _, rfl, by simp only [Tui.refreshStep, here, free here]; rfl⟩
  | processed channel =>
    exact ⟨.counter (core.stats.processed channel), _, by simp [reads], by
      simp only [Tui.refreshStep, here, Tui.collect]
      rfl⟩
  | dropped channel processed =>
    exact ⟨.counter (dropped core.stats channel), _, by simp [reads], by
      simp only [Tui.refreshStep, here, Tui.collect]
      rfl⟩
  | latencies channel processed dropped =>
    obtain ⟨stats, same⟩ := channelStats_total processed dropped
      (core.latencies.window channel)
    exact ⟨.window (core.latencies.window channel), _, by simp [reads], by
      simp only [Tui.refreshStep, here, Tui.collect, same]
      rfl⟩
  | sessions => exact ⟨.sessions [], _, rfl, by simp only [Tui.refreshStep, here, Tui.collect]; rfl⟩
  | statuses statuses =>
    by_cases room : statuses.length < setup.handlers
    · refine ⟨.status (handlerStatus core.stats (setup.reactor.registry.handlers.get
        ⟨statuses.length, room⟩)), _, ?_, by
          simp only [Tui.refreshStep, here, Tui.collect, if_pos room]
          rfl⟩
      simp only [reads, List.get_eq_getElem, decide_eq_true_eq]
      rw [List.getElem?_eq_getElem room]
      rfl
    · exact ⟨.nothing, _, rfl, by
        simp only [Tui.refreshStep, here, Tui.collect, if_neg room]
        rfl⟩
  | uptime => exact ⟨.uptime 0, _, rfl, by simp only [Tui.refreshStep, here, Tui.collect]; rfl⟩
  | post => exact ⟨.nothing, _, rfl, by simp only [Tui.refreshStep, here, Tui.collect]; rfl⟩

/-- `run()` is on its way to its end. -/
theorem run_nears (reached : (machine setup).Reachable s) (heeded : Heeded s.core.log)
    (unended : s.core.reactor ≠ .returned)
    (turning : s.thread = .running ∧ s.main = .joinReactor ∨ s.main = .runReactor) :
    Nears setup s := by
  have stopped := stopped_of_heeded (core_reachable reached) heeded
  obtain ⟨answers, core, stepped⟩ := run_possible setup.reactor unended
  have accessed : Reactor.step setup.reactor s.core (.reactor answers) = some core := stepped
  obtain ⟨_, lower⟩ := access_ending stopped stepped
  have still : Heeded core.log := (heeded_other (by simp) accessed).mpr heeded
  refine ⟨.reactor answers, { s with
    core := core
    uses := s.uses ++ [s.main.use .reactor] }, rfl, ?_⟩
  rcases turning with ⟨up, here⟩ | here
  · refine ⟨?_, ?_, ?_⟩
    · simp [step, State.touch, accessed, here, up, unended, MainPc.ended]
    · simpa [Exiting, here] using still
    · simp only [remaining, here]
      omega
  · refine ⟨?_, ?_, ?_⟩
    · simp [step, State.touch, accessed, here, unended, MainPc.ended]
    · simpa [Exiting, here] using still
    · simp only [remaining, here]
      omega

/-- While `main` joins the reactor's thread, a step brings it nearer. -/
theorem join_nears (reached : (machine setup).Reachable s) (here : s.main = .joinReactor)
    (heeded : Heeded s.core.log) : Nears setup s := by
  have rest := (reachable_staged reached).fits
  rw [here] at rest
  have waiting := reachable_waiting reached
  by_cases returned : s.core.reactor = .returned
  · by_cases finished : s.thread = .finished
    · refine ⟨.main ⟨true, ""⟩, s.goto (.destroyTui (.ok ())), rfl, ?_, rfl, ?_⟩
      · simp [step, mainStep, here, finished]
      · simp only [remaining, here, State.goto]
        omega
    · have up : s.thread = .running := by
        cases thread : s.thread with
        | absent => exact absurd thread rest.1
        | running => rfl
        | finished => exact absurd thread finished
      refine ⟨.reactor ⟨0, true, true, []⟩, { s with thread := .finished }, rfl, ?_, ?_, ?_⟩
      · simp [step, here, up, returned, MainPc.ended]
      · simpa [Exiting, here] using heeded
      · simp [remaining, here, finished]
  · have up : s.thread = .running := by
      cases thread : s.thread with
      | absent => exact absurd thread rest.1
      | running => rfl
      | finished => exact absurd (waiting.finished thread) returned
    exact run_nears reached heeded returned (.inl ⟨up, here⟩)

/-- A step of `~TUIApp`. -/
theorem ui_nears {tui : Tui.State} (here : s.main = .destroyTui (.ok ()))
    (begun : s.tui.ui ≠ .constructed) (calm : s.tui.ui ≠ .reset)
    (stepped : Tui.uiStep s.tui true = some tui) (refresh : tui.refresh = s.tui.refresh)
    (lower : closing tui.ui < closing s.tui.ui) : Nears setup s := by
  refine ⟨.tui (.ui true), { s with tui := tui }, rfl, ?_, ?_, ?_⟩
  · simp [step, tuiStep, Tui.step, here, begun, calm, stepped, MainPc.ended]
  · simp [Exiting, here]
  · simp only [remaining, here, refresh]
    omega

/-- The step that `main` itself takes in `~TUIApp`: into it, or out of it. -/
theorem call_nears {tui : Tui.State} (here : s.main = .destroyTui (.ok ()))
    (alive : s.tui.ui ≠ .destroyed)
    (called : Tui.step setup.handlers s.tui .destroy = some tui)
    (refresh : tui.refresh = s.tui.refresh) (lower : closing tui.ui < closing s.tui.ui) :
    Nears setup s := by
  refine ⟨.main ⟨true, ""⟩, { s with tui := tui }, rfl, ?_, ?_, ?_⟩
  · simp [step, mainStep, here, alive, called]
  · simp [Exiting, here]
  · simp only [remaining, here, refresh]
    omega

/-- While `main` waits in `join()` the refresh thread gets on. -/
theorem refresh_nears (reached : (machine setup).Reachable s)
    (here : s.main = .destroyTui (.ok ())) {caller : Tui.Caller} (ui : s.tui.ui = .join caller)
    (unended : s.tui.refresh ≠ .ended) : Nears setup s := by
  have tuiReached := tui_reachable reached
  have sync := Tui.reachable_synchronised tuiReached
  have joining := Tui.reachable_joining tuiReached
  obtain ⟨started, _⟩ := joining.waiting caller ui
  have free : s.tui.refresh = .lock → s.tui.data_mutex_ = none := by
    intro locking
    have unheld : s.tui.data_mutex_ ≠ some .refresh := by
      simp [sync.refresh, locking, Tui.RefreshPc.holds, Tui.RefreshPc.collecting]
    have undrawn : s.tui.data_mutex_ ≠ some .ui := by simp [sync.ui, ui, Tui.UiPc.holds]
    cases owner : s.tui.data_mutex_ with
    | none => rfl
    | some thread =>
      cases thread with
      | ui => exact absurd owner undrawn
      | refresh => exact absurd owner unheld
  obtain ⟨reading, tui, found, stepped⟩ := refresh_reads setup s.core started unended free
  have stopped : s.tui.running_ = false := joining.stopped (by rw [ui]; rfl)
  have lower := Tui.refresh_remaining stopped (Tui.refresh_cases stepped)
  have same : tui.ui = s.tui.ui := by
    cases Tui.refresh_cases stepped <;> rfl
  refine ⟨.tui (.refresh reading), { s with
    tui := tui
    uses :=
      if getting s.tui.refresh then s.uses ++ [s.main.use .refresh] else s.uses }, rfl, ?_, ?_, ?_⟩
  · simp [step, tuiStep, Tui.step, here, found, stepped, MainPc.ended]
  · simp [Exiting, here]
  · simp only [remaining, here, same]
    omega

/-- In the destructor of the terminal interface a step brings `main` nearer. -/
theorem destroyTui_nears (reached : (machine setup).Reachable s)
    (here : s.main = .destroyTui (.ok ())) : Nears setup s := by
  have rest := (reachable_staged reached).fits
  rw [here] at rest
  obtain ⟨_, leave, _⟩ := rest
  cases ui : s.tui.ui with
  | constructed | returned =>
    have called : Tui.step setup.handlers s.tui .destroy =
        some { s.tui with ui := .stop .destructor } := by
      simp [Tui.step, ui]
    exact call_nears here (by simp [ui]) called rfl (by simp [ui, closing])
  | stop caller =>
    have stepped : Tui.uiStep s.tui true =
        some { s.tui with running_ := false, ui := .exit caller } := by
      simp [Tui.uiStep, ui]
    exact ui_nears here (by simp [ui]) (by simp [ui]) stepped rfl (by simp [ui, closing])
  | exit caller =>
    have stepped : Tui.uiStep s.tui true = some { s.tui with ui := .joinable caller } := by
      simp [Tui.uiStep, ui]
    exact ui_nears here (by simp [ui]) (by simp [ui]) stepped rfl (by simp [ui, closing])
  | joinable caller =>
    by_cases live : s.tui.refresh ≠ .absent ∧ s.tui.joined = false
    · have stepped : Tui.uiStep s.tui true = some { s.tui with ui := .join caller } := by
        simp only [Tui.uiStep, ui, if_pos live]
      exact ui_nears here (by simp [ui]) (by simp [ui]) stepped rfl (by simp [ui, closing])
    · have stepped : Tui.uiStep s.tui true = some { s.tui with ui := caller.next } := by
        simp only [Tui.uiStep, ui, if_neg live]
      exact ui_nears here (by simp [ui]) (by simp [ui]) stepped rfl
        (by cases caller <;> simp [ui, closing, Tui.Caller.next])
  | join caller =>
    by_cases ended : s.tui.refresh = .ended
    · have stepped : Tui.uiStep s.tui true =
          some ({ s.tui with joined := true, ui := caller.next }.record .joined) := by
        simp only [Tui.uiStep, ui, if_pos ended]
      exact ui_nears here (by simp [ui]) (by simp [ui]) stepped rfl
        (by cases caller <;> simp [ui, closing, Tui.Caller.next, Tui.State.record])
    · exact refresh_nears reached here ui ended
  | destroyed =>
    refine ⟨.main ⟨true, ""⟩, s.goto (.destroyReactor .idle (.ok ())), rfl, ?_, rfl, ?_⟩
    · simp [step, mainStep, here, ui]
    · simp only [remaining, here, State.goto, unbuilt]
      omega
  | _ => simp [ui, leaving] at leave

/-- Where `main` is after a step of the destructor. -/
def following (outcome : Outcome) : Teardown.DestructorPc → MainPc
  | .idle => .destroyReactor .stopWrite outcome
  | .stopWrite => .destroyReactor .closeEventfd outcome
  | .closeEventfd => .destroyReactor .exitRing outcome
  | .exitRing => .destroyReactor .dropPublisher outcome
  | .dropPublisher => .destroyReactor .closeSession outcome
  | .closeSession => .destroyReactor .dropSession outcome
  | .dropSession => .destroyReactor .done outcome
  | .done => .exited outcome

/-- The destructor of the reactor goes on. -/
theorem destructor_possible (reached : (machine setup).Reachable s) {outcome : Outcome}
    {pc : Teardown.DestructorPc} (here : s.main = .destroyReactor pc outcome) :
    ∃ next, destructorStep setup s outcome pc = some next ∧ next.main = following outcome pc := by
  have waiting := reachable_waiting reached
  cases pc with
  | idle =>
    have idle := waiting.idle (by simp [here]) (by rw [here]; rfl)
    simp only [destructorStep, Reactor.step, idle]
    exact ⟨_, rfl, rfl⟩
  | stopWrite =>
    obtain ⟨afterRun, owing⟩ := waiting.owing (by rw [here]; rfl)
    simp only [destructorStep, Reactor.step, owing]
    exact ⟨_, rfl, rfl⟩
  | _ => exact ⟨_, rfl, rfl⟩

/-- In the destructor of the reactor a step brings `main` nearer. -/
theorem destructor_nears (reached : (machine setup).Reachable s) {pc : Teardown.DestructorPc}
    (here : s.main = .destroyReactor pc (.ok ())) : Nears setup s := by
  obtain ⟨next, stepped, later⟩ := destructor_possible reached here
  refine ⟨.main ⟨true, ""⟩, next, rfl, ?_, ?_, ?_⟩
  · simpa [step, mainStep, here] using stepped
  · cases pc <;> simp [Exiting, later, following]
  · cases pc <;> simp [remaining, here, later, following, unbuilt]

/-- On its way to the exit some step brings `main` nearer. -/
theorem exiting_nears (reached : (machine setup).Reachable s) (exiting : Exiting s)
    (unended : s.main ≠ .exited (.ok ())) : Nears setup s := by
  cases here : s.main with
  | joinReactor =>
    have heeded : Heeded s.core.log := by simpa [Exiting, here] using exiting
    exact join_nears reached here heeded
  | runReactor =>
    have heeded : Heeded s.core.log := by simpa [Exiting, here] using exiting
    by_cases returned : s.core.reactor = .returned
    · refine ⟨.main ⟨true, ""⟩, s.goto (.destroyReactor .idle (.ok ())), rfl, ?_, rfl, ?_⟩
      · simp [step, mainStep, here, returned]
      · simp only [remaining, here, State.goto, unbuilt]
        omega
    · exact run_nears reached heeded returned (.inr here)
  | destroyTui outcome =>
    obtain rfl : outcome = .ok () := by simpa [Exiting, here] using exiting
    exact destroyTui_nears reached here
  | destroyReactor pc outcome =>
    obtain rfl : outcome = .ok () := by simpa [Exiting, here] using exiting
    exact destructor_nears reached here
  | exited outcome =>
    obtain rfl : outcome = .ok () := by simpa [Exiting, here] using exiting
    exact absurd here unended
  | _ => simp [Exiting, here] at exiting

/-- Until a signal comes `main` waits, and no `stop()` is heeded. -/
theorem step_awaits (reached : (machine setup).Reachable s) (awaits : s.main.awaits = true)
    (unheeded : ¬ Heeded s.core.log) {action : Action} (unsignalled : action.signals = false)
    (stepped : step setup s action = some next) :
    next.main = s.main ∧ ¬ Heeded next.core.log := by
  have unreturned : s.core.reactor ≠ .returned :=
    mt (reachable_returned (core_reachable reached)) unheeded
  by_cases other : ∀ answer, action ≠ .main answer
  · have silent : ∀ k, action ≠ .signal k := by
      rintro k rfl
      simp [Action.signals] at unsignalled
    have aside := step_aside other silent stepped
    refine ⟨aside.main, ?_⟩
    rcases aside.core with same | ⟨taken, moved, plain, _⟩
    · rw [same]
      exact unheeded
    · rw [heeded_other plain moved]
      exact unheeded
  · simp only [ne_eq, not_forall, not_not] at other
    obtain ⟨answer, rfl⟩ := other
    have unfinished : s.thread ≠ .finished := mt (reachable_waiting reached).finished unreturned
    cases here : s.main with
    | joinReactor => simp [step, mainStep, here, unfinished] at stepped
    | runReactor => simp [step, mainStep, here, unreturned] at stepped
    | _ => simp [here, MainPc.awaits] at awaits

/-- While `main` waits for the reactor: if a `stop()` has stored false after the first store
of `run()`, the threads of the process bring it to a clean exit with nothing held; if none
has, `main` waits through every run without a signal. -/
theorem exit_contract (reached : (machine setup).Reachable s) (awaits : s.main.awaits = true) :
    ExitContract setup s where
  exits := by
    intro heeded
    have exiting : Exiting s := by
      cases here : s.main with
      | joinReactor | runReactor => simpa [Exiting, here] using heeded
      | _ => simp [here, MainPc.awaits] at awaits
    have progress : ∀ state : State, (machine setup).Reachable state ∧ Exiting state →
        ¬ state.main = .exited (.ok ()) → ∃ action after, action.internal = true ∧
          (machine setup).step state action = some after ∧
            ((machine setup).Reachable after ∧ Exiting after) ∧
              remaining setup after < remaining setup state := by
      rintro state ⟨met, exiting⟩ unended
      obtain ⟨action, after, internal, stepped, still, lower⟩ :=
        exiting_nears met exiting unended
      exact ⟨action, after, internal, stepped, ⟨met.after action stepped, still⟩, lower⟩
    obtain ⟨actions, final, internal, replayed, ⟨met, _⟩, ended, _⟩ :=
      Machine.exec_completes _ (fun s : State => s.main = .exited (.ok ()))
        (fun action : Action => action.internal = true) (remaining setup) progress
        ⟨reached, exiting⟩
    have held := (reachable_staged met).held (by simp [ended])
    rw [ended] at held
    exact ⟨actions, final, internal, replayed, ended, held⟩
  waits := by
    intro unheeded actions final quiet replayed
    induction actions generalizing s with
    | nil =>
      have same : s = final := Option.some.inj replayed
      rw [same]
    | cons action rest inductionHypothesis =>
      obtain ⟨next, stepped, tail⟩ := Option.bind_eq_some_iff.mp replayed
      obtain ⟨here, still⟩ := step_awaits reached awaits unheeded
        (quiet action List.mem_cons_self) stepped
      have later := inductionHypothesis (reached.after action stepped) (here ▸ awaits) still
        (fun found member => quiet found (List.mem_cons_of_mem _ member)) tail
      exact later.trans here

section Shipped

/-- The key Q is pressed before the thread of the reactor has come to the first store. -/
def hastyRun : List Action :=
  mains 16 ++ uis 2 ++ [.tui (.key 'q')] ++ uis 3 ++ [.tui (.refresh .nothing)] ++ uis 1 ++
    [.tui .leave] ++ mains 3 ++ turns 20

/-- `main` waits in its join, with `running_` set again. -/
theorem hastyRun_waits :
    ∃ s, (machine shippedSetup).Reachable s ∧ s.main = .joinReactor ∧ s.core.running = true ∧
      ExitContract shippedSetup s := by
  have outcome : ((machine shippedSetup).exec init hastyRun).map
      (fun s => (s.main, s.core.running)) = some (.joinReactor, true) := by
    decide +kernel
  obtain ⟨s, ran, seen⟩ := Option.map_eq_some_iff.mp outcome
  simp only [Prod.mk.injEq] at seen
  obtain ⟨waiting, running⟩ := seen
  have reached := Machine.reachable_of_exec ran
  exact ⟨s, reached, waiting, running, exit_contract reached (by rw [waiting]; rfl)⟩

end Shipped

end FlowKernel.Process
