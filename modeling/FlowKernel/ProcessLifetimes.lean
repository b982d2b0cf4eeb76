import FlowKernel.Process

/-!
# Threads and resources of the process

Wherever `main` is, the threads that have been started, the part of the terminal interface
that is under way and the resources that are held are determined. So no thread of the
process accesses the reactor before it is complete or after its destruction has begun, and
what is released was held. A callback can come while the reactor is being destroyed, until
`z_close` has returned. Only the signal handler can come later: it stays installed, and
`g_reactor` is not reset.
-/

namespace FlowKernel.Process

open Foundation Reactor

/-- What is held before a step of the constructor. -/
def Stage.holds : Stage → List Resource
  | .zenohConfig | .session => []
  | .keyexpr => [.session]
  | .publisher | .dropKeyexpr false => [.session, .keyexpr]
  | .dropKeyexpr true => [.session, .keyexpr, .publisher]
  | .ring => [.session, .publisher]
  | .eventfd => [.session, .publisher, .ring]

/-- What an exception of the constructor leaves behind. -/
def Failure.leaked : Failure → List Resource
  | .keyexpr | .publisher => [.session]
  | .ring => [.session, .publisher]
  | .eventfd => [.session, .publisher, .ring]
  | .load | .zenohConfig | .session | .thread => []

/-- What an outcome of `main` leaves behind. -/
def Outcome.leaked : Outcome → List Resource
  | .ok () => []
  | .error fatal => fatal.failure.leaked

/-- What a complete reactor holds. -/
def complete : List Resource :=
  [.session, .publisher, .ring, .eventfd]

/-- What is held before a step of the destructor. -/
def destructing : Teardown.DestructorPc → List Resource
  | .idle | .stopWrite | .closeEventfd => complete
  | .exitRing => [.session, .publisher, .ring]
  | .dropPublisher => [.session, .publisher]
  | .closeSession | .dropSession => [.session]
  | .done => []

/-- What is held, where `main` is. -/
def MainPc.holds : MainPc → List Resource
  | .load | .uncaught _ | .killed => []
  | .construct stage => stage.holds
  | .destroyReactor pc _ => destructing pc
  | .exited outcome => outcome.leaked
  | _ => complete

/-- `~TUIApp` is about to run, or running, or has run. -/
def leaving : Tui.UiPc → Bool
  | .constructed | .returned | .stop .destructor | .exit .destructor | .joinable .destructor
  | .join .destructor | .destroyed => true
  | _ => false

/-- The destructors run without an exception, or after the one that `reactor_thread` threw. -/
def Unwinds : Outcome → Prop
  | .ok () => True
  | .error fatal => fatal.failure = .thread

/-- The refresh thread has not begun or has ended. -/
def Still (refresh : Tui.RefreshPc) : Prop :=
  refresh = .absent ∨ refresh = .ended

/-- The other threads, where `main` is. -/
def Fits (thread : ThreadPc) (ui : Tui.UiPc) (refresh : Tui.RefreshPc) : MainPc → Prop
  | .tui => thread ≠ .absent
  | .stopReactor | .stopWrite | .joinReactor => thread ≠ .absent ∧ ui = .returned
  | .destroyTui outcome => thread ≠ .running ∧ leaving ui = true ∧ Unwinds outcome
  | .destroyReactor _ outcome => thread ≠ .running ∧ Still refresh ∧ Unwinds outcome
  | .exited _ => thread ≠ .running ∧ Still refresh
  | .terminated => thread ≠ .absent ∧ ui = .threw
  | .killed => True
  | _ => thread = .absent ∧ ui = .constructed ∧ refresh = .absent

/-- Who may access the reactor when. -/
def Use.Allowed : Use → Prop
  | .used _ => True
  | .closing thread => thread = .zenoh ∨ ∃ k, thread = .signal k
  | .dangled thread => ∃ k, thread = .signal k

/-- The threads and the resources fit to where `main` is. -/
structure Staged (s : State) : Prop where
  fits : Fits s.thread s.tui.ui s.tui.refresh s.main
  held : s.main ≠ .killed → s.held = s.main.holds
  accesses : ∀ use ∈ s.uses, use.Allowed

/-- What holds of the reactor and its threads in every state of the process. -/
structure LifetimeContract (setup : Setup) (s : State) : Prop where
  accesses : ∀ use ∈ s.uses, use.Allowed
  complete : s.main.alive = true → s.held = complete
  exited : ∀ outcome, s.main = .exited outcome →
    s.held = outcome.leaked ∧ s.thread ≠ .running ∧ Still s.tui.refresh
  terminated : s.main = .terminated → s.tui.ui = .threw
  uncaught : ∀ what, s.main = .uncaught what →
    setup.loaded.1 = .threw what ∧ s.held = [] ∧ s.thread = .absent ∧ s.tui.refresh = .absent

variable {setup : Setup} {s next : State}

/-- The process runs the reactor and the terminal interface as they are. -/
structure Frames (setup : Setup) (s next : State) : Prop where
  core : next.core = s.core ∨ ∃ action, Reactor.step setup.reactor s.core action = some next.core
  tui : next.tui = s.tui ∨ ∃ action, Tui.step setup.handlers s.tui action = some next.tui

/-- A step of another thread than `main`, and not of the handler of a signal. -/
structure Aside (setup : Setup) (s next : State) : Prop where
  main : next.main = s.main
  core : next.core = s.core ∨ ∃ action, Reactor.step setup.reactor s.core action = some next.core ∧
    (∀ thread, action ≠ .stop thread) ∧ action ≠ .stopWrite 0
  tui : next.tui = s.tui ∨ ∃ action, Tui.step setup.handlers s.tui action = some next.tui
  thread : next.thread = s.thread ∨
    next.thread = .finished ∧ s.core.reactor = .returned ∧ next.core = s.core

/-- A step of another thread runs the machines as they are. -/
theorem Aside.frames (aside : Aside setup s next) : Frames setup s next :=
  ⟨aside.core.imp_right fun ⟨action, stepped, _⟩ => ⟨action, stepped⟩, aside.tui⟩

/-- A step that moves neither machine. -/
theorem Frames.same (core : next.core = s.core) (tui : next.tui = s.tui) : Frames setup s next :=
  ⟨.inl core, .inl tui⟩

/-- An access is a step of the reactor, and is noted. -/
theorem touch_eq {thread : Thread} {action : Reactor.Action}
    (touched : s.touch setup thread action = some next) :
    ∃ core, Reactor.step setup.reactor s.core action = some core ∧ next = { s with
      core := core
      uses := s.uses ++ [s.main.use thread] } := by
  obtain ⟨core, stepped, rfl⟩ := Option.map_eq_some_iff.mp touched
  exact ⟨core, stepped, rfl⟩

/-- An access is a step of the reactor. -/
theorem touch_frames {thread : Thread} {action : Reactor.Action}
    (touched : s.touch setup thread action = some next) : Frames setup s next := by
  obtain ⟨core, stepped, rfl⟩ := touch_eq touched
  exact ⟨.inr ⟨action, stepped⟩, .inl rfl⟩

/-- The constructor runs before either machine. -/
theorem construct_frames (answer : Answer) (stage : Stage) :
    (constructStep s answer stage).core = s.core ∧ (constructStep s answer stage).tui = s.tui := by
  cases stage with
  | dropKeyexpr declared => cases declared <;> exact ⟨rfl, rfl⟩
  | _ =>
    simp only [constructStep]
    split <;> exact ⟨rfl, rfl⟩

/-- The destructor accesses the reactor with the steps of `stop()` only. -/
theorem destructor_frames {outcome : Outcome} {pc : Teardown.DestructorPc}
    (stepped : destructorStep setup s outcome pc = some next) : Frames setup s next := by
  cases pc with
  | idle | stopWrite =>
    obtain ⟨core, moved, rfl⟩ := Option.map_eq_some_iff.mp stepped
    exact ⟨.inr ⟨_, moved⟩, .inl rfl⟩
  | _ =>
    obtain rfl := Option.some.inj stepped
    exact .same rfl rfl

/-- What a step of `main` does. The steps of the constructor and of the destructor are as
they are there. -/
inductive MainStep (setup : Setup) (answer : Answer) (s : State) : State → Prop
  | load (here : s.main = .load) (loaded : setup.loaded.1 = .returned true) :
      MainStep setup answer s (s.goto (.construct .zenohConfig))
  | fail (here : s.main = .load) (unloaded : setup.loaded.1 = .returned false) :
      MainStep setup answer s (s.throw .load answer)
  | escape {what : String} (here : s.main = .load) (threw : setup.loaded.1 = .threw what) :
      MainStep setup answer s (s.goto (.uncaught what))
  | construct {stage : Stage} (here : s.main = .construct stage) :
      MainStep setup answer s (constructStep s answer stage)
  | publish (here : s.main = .publish) :
      MainStep setup answer s ({ s with g_reactor := true }.goto .install)
  | install (here : s.main = .install) :
      MainStep setup answer s ({ s with installed := true }.goto (.register 0))
  | register {i : Nat} (here : s.main = .register i) (more : i < setup.handlers) :
      MainStep setup answer s (s.goto (.register (i + 1)))
  | showTui {i : Nat} (here : s.main = .register i) (all : ¬ i < setup.handlers)
      (enabled : setup.settings.tui_.enabled = true) :
      MainStep setup answer s (s.goto .makeTui)
  | hideTui {i : Nat} (here : s.main = .register i) (all : ¬ i < setup.handlers)
      (disabled : ¬ setup.settings.tui_.enabled = true) :
      MainStep setup answer s (s.goto .runReactor)
  | makeTui (here : s.main = .makeTui) : MainStep setup answer s (s.goto .spawnReactor)
  | spawn (here : s.main = .spawnReactor) (created : answer.ok = true) :
      MainStep setup answer s ({ s with thread := .running }.goto .tui)
  | unspawned (here : s.main = .spawnReactor) (refused : ¬ answer.ok = true) :
      MainStep setup answer s
        (s.goto (.destroyTui (.error { failure := .thread, reason := answer.reason })))
  | left (here : s.main = .tui) (returned : s.tui.ui = .returned) :
      MainStep setup answer s (s.goto .stopReactor)
  | terminate (here : s.main = .tui) (threw : s.tui.ui = .threw) :
      MainStep setup answer s (s.goto .terminated)
  | stop {mid : State} (here : s.main = .stopReactor)
      (touched : s.touch setup .main (.stop 0) = some mid) :
      MainStep setup answer s (mid.goto .stopWrite)
  | write {mid : State} (here : s.main = .stopWrite)
      (touched : s.touch setup .main (.stopWrite 0) = some mid) :
      MainStep setup answer s (mid.goto .joinReactor)
  | join (here : s.main = .joinReactor) (finished : s.thread = .finished) :
      MainStep setup answer s (s.goto (.destroyTui (.ok ())))
  | destroyed {outcome : Outcome} (here : s.main = .destroyTui outcome)
      (gone : s.tui.ui = .destroyed) :
      MainStep setup answer s (s.goto (.destroyReactor .idle outcome))
  | destroy {outcome : Outcome} {tui : Tui.State} (here : s.main = .destroyTui outcome)
      (there : s.tui.ui ≠ .destroyed)
      (called : Tui.step setup.handlers s.tui .destroy = some tui) :
      MainStep setup answer s { s with tui := tui }
  | finish (here : s.main = .runReactor) (returned : s.core.reactor = .returned) :
      MainStep setup answer s (s.goto (.destroyReactor .idle (.ok ())))
  | destruct {pc : Teardown.DestructorPc} {outcome : Outcome} {next : State}
      (here : s.main = .destroyReactor pc outcome)
      (stepped : destructorStep setup s outcome pc = some next) : MainStep setup answer s next

/-- Every step of `main` is one of these. -/
theorem main_cases {answer : Answer} (stepped : mainStep setup s answer = some next) :
    MainStep setup answer s next := by
  cases here : s.main with
  | load =>
    simp only [mainStep, here] at stepped
    split at stepped
    next loaded => exact Option.some.inj stepped ▸ .load here loaded
    next unloaded => exact Option.some.inj stepped ▸ .fail here unloaded
    next threw => exact Option.some.inj stepped ▸ .escape here threw
  | construct stage =>
    simp only [mainStep, here] at stepped
    exact Option.some.inj stepped ▸ .construct here
  | publish =>
    simp only [mainStep, here] at stepped
    exact Option.some.inj stepped ▸ .publish here
  | install =>
    simp only [mainStep, here] at stepped
    exact Option.some.inj stepped ▸ .install here
  | register i =>
    simp only [mainStep, here] at stepped
    split at stepped
    next more => exact Option.some.inj stepped ▸ .register here more
    next all =>
      split at stepped
      next enabled => exact Option.some.inj stepped ▸ .showTui here all enabled
      next disabled => exact Option.some.inj stepped ▸ .hideTui here all disabled
  | makeTui =>
    simp only [mainStep, here] at stepped
    exact Option.some.inj stepped ▸ .makeTui here
  | spawnReactor =>
    simp only [mainStep, here] at stepped
    split at stepped
    next created => exact Option.some.inj stepped ▸ .spawn here created
    next refused => exact Option.some.inj stepped ▸ .unspawned here refused
  | tui =>
    simp only [mainStep, here] at stepped
    split at stepped
    next returned => exact Option.some.inj stepped ▸ .left here returned
    next threw => exact Option.some.inj stepped ▸ .terminate here threw
    next => simp at stepped
  | stopReactor =>
    simp only [mainStep, here] at stepped
    obtain ⟨mid, touched, rfl⟩ := Option.map_eq_some_iff.mp stepped
    exact .stop here touched
  | stopWrite =>
    simp only [mainStep, here] at stepped
    obtain ⟨mid, touched, rfl⟩ := Option.map_eq_some_iff.mp stepped
    exact .write here touched
  | joinReactor =>
    simp only [mainStep, here] at stepped
    split at stepped
    next finished => exact Option.some.inj stepped ▸ .join here finished
    next => simp at stepped
  | destroyTui outcome =>
    simp only [mainStep, here] at stepped
    split at stepped
    next gone => exact Option.some.inj stepped ▸ .destroyed here gone
    next there =>
      obtain ⟨tui, called, rfl⟩ := Option.map_eq_some_iff.mp stepped
      rw [← here]
      exact .destroy here there called
  | runReactor =>
    simp only [mainStep, here] at stepped
    split at stepped
    next returned => exact Option.some.inj stepped ▸ .finish here returned
    next => simp at stepped
  | destroyReactor pc outcome =>
    simp only [mainStep, here] at stepped
    exact .destruct here stepped
  | exited | uncaught | terminated | killed => simp [mainStep, here] at stepped

/-- `main` moves the two machines by steps of theirs only. -/
theorem main_frames {answer : Answer} (stepped : mainStep setup s answer = some next) :
    Frames setup s next := by
  cases main_cases stepped with
  | @construct stage here =>
    obtain ⟨core, tui⟩ := @construct_frames s answer stage
    exact .same core tui
  | stop here touched | write here touched =>
    obtain ⟨core, tui⟩ := touch_frames touched
    exact ⟨core, tui⟩
  | destroy here there called => exact ⟨.inl rfl, .inr ⟨_, called⟩⟩
  | destruct here stepped => exact destructor_frames stepped
  | _ => exact .same rfl rfl

/-- Of the process the terminal interface changes its own part, and begins a reset. -/
theorem tuiStep_eq {action : Tui.Action} (stepped : tuiStep setup s action = some next) :
    ∃ tui core uses, Tui.step setup.handlers s.tui action = some tui ∧
      (core = s.core ∨ Reactor.step setup.reactor s.core .beginReset = some core) ∧
        next = { s with tui := tui, core := core, uses := uses } := by
  cases action with
  | refresh reading =>
    simp only [tuiStep] at stepped
    split at stepped
    · obtain ⟨tui, moved, rfl⟩ := Option.map_eq_some_iff.mp stepped
      exact ⟨tui, _, _, moved, .inl rfl, rfl⟩
    · simp at stepped
  | ui created =>
    simp only [tuiStep] at stepped
    split at stepped
    · simp at stepped
    split at stepped
    · obtain ⟨tui, moved, rfl⟩ := Option.map_eq_some_iff.mp stepped
      exact ⟨tui, _, _, moved, .inl rfl, rfl⟩
    · split at stepped
      · simp at stepped
      · obtain ⟨tui, moved, rfl⟩ := Option.map_eq_some_iff.mp stepped
        exact ⟨tui, _, _, moved, .inl rfl, rfl⟩
    · simp at stepped
  | key char =>
    simp only [tuiStep] at stepped
    split at stepped
    · obtain ⟨tui, moved, later⟩ := Option.bind_eq_some_iff.mp stepped
      split at later
      · obtain ⟨core, begun, rfl⟩ := touch_eq later
        exact ⟨tui, core, _, moved, .inr begun, rfl⟩
      · exact ⟨tui, _, _, moved, .inl rfl, (Option.some.inj later).symm⟩
    · simp at stepped
  | draw | leave | fail =>
    simp only [tuiStep] at stepped
    split at stepped
    · obtain ⟨tui, moved, rfl⟩ := Option.map_eq_some_iff.mp stepped
      exact ⟨tui, _, _, moved, .inl rfl, rfl⟩
    · simp at stepped
  | destroy => simp [tuiStep] at stepped

/-- An access of another thread that is no `stop()`. -/
theorem touch_aside {thread : Thread} {action : Reactor.Action}
    (touched : s.touch setup thread action = some next)
    (plain : ∀ thread, action ≠ .stop thread) (mine : action ≠ .stopWrite 0) :
    Aside setup s next := by
  obtain ⟨core, stepped, rfl⟩ := touch_eq touched
  exact ⟨rfl, .inr ⟨action, stepped, plain, mine⟩, .inl rfl, .inl rfl⟩

/-- Whatever is neither `main` nor the handler of a signal stays aside. -/
theorem step_aside {action : Action} (other : ∀ answer, action ≠ .main answer)
    (unsignalled : ∀ k, action ≠ .signal k) (stepped : step setup s action = some next) :
    Aside setup s next := by
  cases action with
  | main answer => exact absurd rfl (other answer)
  | reactor answers =>
    simp only [step] at stepped
    split at stepped
    · simp at stepped
    split at stepped
    next returned =>
      split at stepped
      · exact Option.some.inj stepped ▸ ⟨rfl, .inl rfl, .inl rfl, .inr ⟨rfl, returned, rfl⟩⟩
      · simp at stepped
    next =>
      split at stepped
      · exact touch_aside stepped (by simp) (by simp)
      · simp at stepped
  | tui action =>
    simp only [step] at stepped
    split at stepped
    · simp at stepped
    · obtain ⟨tui, core, uses, moved, begun, rfl⟩ := tuiStep_eq stepped
      exact ⟨rfl, begun.imp_right fun begun => ⟨_, begun, by simp, by simp⟩, .inr ⟨_, moved⟩,
        .inl rfl⟩
  | reset order =>
    simp only [step] at stepped
    split at stepped
    · exact touch_aside stepped (by simp) (by simp)
    · simp at stepped
  | data action =>
    cases action with
    | receive | callback =>
      simp only [step] at stepped
      split at stepped
      · exact touch_aside stepped (by simp) (by simp)
      · simp at stepped
    | _ => simp [step] at stepped
  | liveliness =>
    simp only [step] at stepped
    split at stepped
    · exact Option.some.inj stepped ▸ ⟨rfl, .inl rfl, .inl rfl, .inl rfl⟩
    · simp at stepped
  | signal k => exact absurd rfl (unsignalled k)
  | signalWrite k =>
    simp only [step] at stepped
    split at stepped
    · simp at stepped
    · exact touch_aside stepped (by simp) (by simp)

/-- A signal ends the process, has nothing to stop, or begins a `stop()`. -/
theorem signal_cases {k : Nat} (stepped : step setup s (.signal k) = some next) :
    (s.installed = false ∧ next = s.goto .killed) ∨ next = s ∨
      s.touch setup (.signal k) (.stop (k + 1)) = some next := by
  simp only [step, signalStep] at stepped
  split at stepped
  · simp at stepped
  split at stepped
  · split at stepped
    · exact .inr (.inr stepped)
    · exact .inr (.inl (Option.some.inj stepped).symm)
  next quiet => exact .inl ⟨by simpa using quiet, (Option.some.inj stepped).symm⟩

/-- Every step of the process moves the two machines by steps of theirs only. -/
theorem step_frames {action : Action} (stepped : step setup s action = some next) :
    Frames setup s next := by
  cases action with
  | main answer => exact main_frames stepped
  | signal k =>
    rcases signal_cases stepped with ⟨_, rfl⟩ | rfl | touched
    · exact .same rfl rfl
    · exact .same rfl rfl
    · exact touch_frames touched
  | _ => exact (step_aside (by simp) (by simp) stepped).frames

/-- Every run of the process is a run of its reactor. -/
theorem core_reachable (reached : (machine setup).Reachable s) :
    (Reactor.machine setup.reactor).Reachable s.core := by
  induction reached with
  | start => exact .start
  | next _ _ stepped inductionHypothesis =>
    rcases (step_frames stepped).core with same | ⟨taken, moved⟩
    · rw [same]
      exact inductionHypothesis
    · exact inductionHypothesis.after taken moved

/-- Every run of the process is a run of its terminal interface. -/
theorem tui_reachable (reached : (machine setup).Reachable s) :
    (Tui.machine setup.handlers).Reachable s.tui := by
  induction reached with
  | start => exact .start
  | next _ _ stepped inductionHypothesis =>
    rcases (step_frames stepped).tui with same | ⟨taken, moved⟩
    · rw [same]
      exact inductionHypothesis
    · exact inductionHypothesis.after taken moved

/-- Before `main` loads the configuration nothing is held. -/
theorem staged_init : Staged init where
  fits := ⟨rfl, rfl, rfl⟩
  held := fun _ => rfl
  accesses := by simp [init]

/-- While the reactor is complete every thread may access it. -/
theorem allowed_of_alive {main : MainPc} (alive : main.alive = true) (thread : Thread) :
    (main.use thread).Allowed := by
  simp [MainPc.use, alive, Use.Allowed]

/-- A callback accesses the reactor while the session is open. -/
theorem allowed_of_open {main : MainPc} (sessionOpen : main.sessionOpen = true) :
    (main.use .zenoh).Allowed := by
  unfold MainPc.use
  split
  · trivial
  · exact .inl rfl

/-- The handler of a signal may come at any time. -/
theorem allowed_signal (main : MainPc) (k : Nat) : (main.use (.signal k)).Allowed := by
  unfold MainPc.use
  split
  · trivial
  · split
    · exact .inr ⟨k, rfl⟩
    · exact ⟨k, rfl⟩

/-- One more access that is allowed. -/
theorem Staged.accessed (staged : Staged s) {use : Use} (allowed : use.Allowed) :
    ∀ found ∈ s.uses ++ [use], found.Allowed := by
  intro found member
  rcases List.mem_append.mp member with before | now
  · exact staged.accesses found before
  · rw [List.mem_singleton.mp now]
    exact allowed

/-- A step of the reactor by a thread that may access it. -/
theorem Staged.touched (staged : Staged s) {thread : Thread} {action : Reactor.Action}
    (allowed : (s.main.use thread).Allowed)
    (touched : s.touch setup thread action = some next) : Staged next := by
  obtain ⟨core, _, rfl⟩ := touch_eq touched
  exact ⟨staged.fits, staged.held, staged.accessed allowed⟩

/-- A step of the terminal interface while `main` stays where it is. -/
theorem Staged.shown (staged : Staged s) {tui : Tui.State}
    (fits : Fits s.thread tui.ui tui.refresh s.main) : Staged { s with tui := tui } :=
  ⟨fits, staged.held, staged.accesses⟩

/-- Before the terminal interface nothing else runs. -/
theorem Fits.idle {thread : ThreadPc} {ui : Tui.UiPc} {refresh : Tui.RefreshPc}
    (alone : thread = .absent ∧ ui = .constructed ∧ refresh = .absent) :
    thread ≠ .running ∧ Still refresh := by
  obtain ⟨rfl, _, rfl⟩ := alone
  exact ⟨by simp, .inl rfl⟩

/-- An exception of the constructor leaves what it has acquired. -/
theorem throw_staged (staged : Staged s) {stage : Stage} (here : s.main = .construct stage)
    {failure : Failure} (answer : Answer) {held : List Resource} (left : held = failure.leaked) :
    Staged ({ s with held := held }.throw failure answer) := by
  have alone := staged.fits
  rw [here] at alone
  exact ⟨Fits.idle alone, fun _ => left, staged.accesses⟩

/-- Each step of the constructor acquires or releases what its stage says. -/
theorem construct_staged (staged : Staged s) {stage : Stage} (here : s.main = .construct stage)
    (answer : Answer) : Staged (constructStep s answer stage) := by
  have alone := staged.fits
  have held := staged.held (by rw [here]; simp)
  rw [here] at alone held
  cases stage with
  | zenohConfig =>
    simp only [constructStep]
    split
    · exact ⟨alone, fun _ => held, staged.accesses⟩
    · exact throw_staged staged here answer held
  | session =>
    simp only [constructStep]
    split
    · refine ⟨alone, fun _ => ?_, staged.accesses⟩
      rw [State.acquire, State.goto, held]
      rfl
    · exact throw_staged staged here answer held
  | keyexpr =>
    simp only [constructStep]
    split
    · refine ⟨alone, fun _ => ?_, staged.accesses⟩
      rw [State.acquire, State.goto, held]
      rfl
    · exact throw_staged staged here answer held
  | publisher =>
    simp only [constructStep]
    split
    · refine ⟨alone, fun _ => ?_, staged.accesses⟩
      rw [State.acquire, State.goto, held]
      rfl
    · exact ⟨alone, fun _ => held, staged.accesses⟩
  | dropKeyexpr declared =>
    cases declared with
    | true =>
      refine ⟨alone, fun _ => ?_, staged.accesses⟩
      rw [constructStep, if_pos rfl, State.release, State.goto, held]
      rfl
    | false =>
      refine throw_staged staged here answer ?_
      rw [held]
      rfl
  | ring =>
    simp only [constructStep]
    split
    · refine ⟨alone, fun _ => ?_, staged.accesses⟩
      rw [State.acquire, State.goto, held]
      rfl
    · exact throw_staged staged here answer held
  | eventfd =>
    simp only [constructStep]
    split
    · refine ⟨alone, fun _ => ?_, staged.accesses⟩
      rw [State.acquire, State.goto, held]
      rfl
    · exact throw_staged staged here answer held

/-- Each step of the destructor releases what is held. -/
theorem destructor_staged (staged : Staged s) {outcome : Outcome} {pc : Teardown.DestructorPc}
    (here : s.main = .destroyReactor pc outcome)
    (stepped : destructorStep setup s outcome pc = some next) : Staged next := by
  have rest := staged.fits
  have held := staged.held (by rw [here]; simp)
  rw [here] at rest held
  cases pc with
  | idle | stopWrite =>
    obtain ⟨core, _, rfl⟩ := Option.map_eq_some_iff.mp stepped
    exact ⟨rest, fun _ => held, staged.accesses⟩
  | closeEventfd | exitRing | dropPublisher | dropSession =>
    obtain rfl := Option.some.inj stepped
    refine ⟨rest, fun _ => ?_, staged.accesses⟩
    rw [State.release, State.goto, held]
    rfl
  | closeSession =>
    obtain rfl := Option.some.inj stepped
    exact ⟨rest, fun _ => held, staged.accesses⟩
  | done =>
    obtain rfl := Option.some.inj stepped
    obtain ⟨ended, still, unwinds⟩ := rest
    refine ⟨⟨ended, still⟩, fun _ => ?_, staged.accesses⟩
    rw [State.goto, held]
    cases outcome with
    | ok => rfl
    | error fatal => exact (congrArg Failure.leaked unwinds).symm

/-- `~TUIApp` goes on, or it has run. -/
theorem leaving_step {handlers : Nat} {tui after : Tui.State} {created : Bool}
    (begun : tui.ui ≠ .constructed) (leave : leaving tui.ui = true)
    (stepped : Tui.step handlers tui (.ui created) = some after) : leaving after.ui = true := by
  cases here : tui.ui with
  | constructed => exact absurd here begun
  | stop caller | exit caller | join caller | joinable caller =>
    cases caller with
    | key => simp [here, leaving] at leave
    | destructor =>
      simp only [Tui.step, Tui.uiStep, here] at stepped
      try split at stepped
      all_goals first
        | exact Option.some.inj stepped ▸ rfl
        | simp at stepped
  | returned | destroyed => simp [Tui.step, Tui.uiStep, here] at stepped
  | _ => simp [here, leaving] at leave

/-- `main` goes on, and no resource is acquired or released. -/
theorem Staged.moved (staged : Staged s) {main : MainPc} {thread : ThreadPc}
    {g_reactor installed : Bool} (live : s.main ≠ .killed)
    (fits : Fits thread s.tui.ui s.tui.refresh main) (held : main.holds = s.main.holds) :
    Staged { s with
      main := main, thread := thread, g_reactor := g_reactor, installed := installed } :=
  ⟨fits, fun _ => (staged.held live).trans held.symm, staged.accesses⟩

/-- A step of `main` keeps the threads and the resources in place. -/
theorem main_staged (joining : Tui.Joining s.tui) (staged : Staged s) {answer : Answer}
    (stepped : mainStep setup s answer = some next) : Staged next := by
  have rest := staged.fits
  cases main_cases stepped with
  | load here =>
    have held := staged.held (by rw [here]; simp)
    rw [here] at rest held
    exact ⟨rest, fun _ => held, staged.accesses⟩
  | fail here =>
    have held := staged.held (by rw [here]; simp)
    rw [here] at rest held
    exact ⟨Fits.idle rest, fun _ => held, staged.accesses⟩
  | escape here =>
    rw [here] at rest
    exact staged.moved (by simp [here]) rest (by rw [here]; rfl)
  | construct here => exact construct_staged staged here answer
  | publish here | install here | register here | showTui here | hideTui here | makeTui here =>
    rw [here] at rest
    exact staged.moved (by simp [here]) rest (by rw [here]; rfl)
  | spawn here => exact staged.moved (by simp [here]) (by simp [Fits]) (by rw [here]; rfl)
  | unspawned here =>
    rw [here] at rest
    obtain ⟨absent, fresh, _⟩ := rest
    exact staged.moved (by simp [here]) ⟨by simp [absent], by rw [fresh]; rfl, rfl⟩
      (by rw [here]; rfl)
  | left here ended | terminate here ended =>
    rw [here] at rest
    exact staged.moved (by simp [here]) ⟨rest, ended⟩ (by rw [here]; rfl)
  | stop here touched | write here touched =>
    have kept := staged.touched (allowed_of_alive (by rw [here]; rfl) _) touched
    obtain ⟨core, _, rfl⟩ := touch_eq touched
    have fits := kept.fits
    dsimp only at fits
    rw [here] at fits
    exact kept.moved (by simp [here]) fits (by simp only [here]; rfl)
  | join here finished =>
    rw [here] at rest
    exact staged.moved (by simp [here]) ⟨by simp [finished], by rw [rest.2]; rfl, trivial⟩
      (by rw [here]; rfl)
  | destroyed here gone =>
    rw [here] at rest
    obtain ⟨ended, _, unwinds⟩ := rest
    have still : Still s.tui.refresh := (joining.destroyed gone).imp_right joining.joined
    exact staged.moved (by simp [here]) ⟨ended, still, unwinds⟩ (by rw [here]; rfl)
  | destroy here there called =>
    have held := staged.held (by rw [here]; simp)
    rw [here] at rest held
    obtain ⟨ended, _, unwinds⟩ := rest
    simp only [Tui.step] at called
    split at called
    · obtain rfl := Option.some.inj called
      refine ⟨?_, fun _ => staged.held (by rw [here]; simp), staged.accesses⟩
      rw [here]
      exact ⟨ended, rfl, unwinds⟩
    · simp at called
  | finish here returned =>
    rw [here] at rest
    obtain ⟨ended, still⟩ := Fits.idle rest
    exact staged.moved (by simp [here]) ⟨ended, still, trivial⟩ (by rw [here]; rfl)
  | destruct here stepped => exact destructor_staged staged here stepped

/-- Inside a getter the reactor is complete. -/
theorem Staged.alive (staged : Staged s) (running : s.main.ended = false)
    (inside : getting s.tui.refresh = true) : s.main.alive = true := by
  have rest := staged.fits
  have moving : ¬ Still s.tui.refresh := by
    rintro (absent | ended)
    · simp [absent, getting] at inside
    · simp [ended, getting] at inside
  cases here : s.main with
  | load | construct =>
    rw [here] at rest
    exact absurd (Fits.idle rest).2 moving
  | destroyReactor =>
    rw [here] at rest
    exact absurd rest.2.1 moving
  | exited | uncaught | terminated | killed => simp [here, MainPc.ended] at running
  | _ => rfl

/-- While the refresh thread runs nothing is said of where it is. -/
theorem Fits.refreshed {thread : ThreadPc} {ui : Tui.UiPc} {refresh : Tui.RefreshPc}
    {main : MainPc} (fits : Fits thread ui refresh main) (moving : ¬ Still refresh)
    (after : Tui.RefreshPc) : Fits thread ui after main := by
  cases main with
  | tui | stopReactor | stopWrite | joinReactor | destroyTui | terminated | killed => exact fits
  | destroyReactor => exact absurd fits.2.1 moving
  | exited => exact absurd fits.2 moving
  | _ => exact absurd (Fits.idle fits).2 moving

/-- So does a step of the refresh thread, which reads only a complete reactor. -/
theorem refresh_staged (staged : Staged s) (running : s.main.ended = false)
    {reading : Tui.Reading} (stepped : tuiStep setup s (.refresh reading) = some next) :
    Staged next := by
  simp only [tuiStep] at stepped
  split at stepped
  · obtain ⟨tui, moved, rfl⟩ := Option.map_eq_some_iff.mp stepped
    have moving : ¬ Still s.tui.refresh := by
      rintro (still | still) <;> simp [Tui.step, Tui.refreshStep, still] at moved
    have same : tui.ui = s.tui.ui := by
      cases Tui.refresh_cases moved <;> rfl
    refine ⟨same ▸ staged.fits.refreshed moving _, staged.held, ?_⟩
    dsimp only
    split
    next inside => exact staged.accessed (allowed_of_alive (staged.alive running inside) _)
    next => exact staged.accesses
  · simp at stepped

/-- So does a step of the terminal interface. -/
theorem tui_staged (staged : Staged s) (running : s.main.ended = false) {action : Tui.Action}
    (stepped : tuiStep setup s action = some next) : Staged next := by
  cases action with
  | refresh reading => exact refresh_staged staged running stepped
  | ui created =>
    simp only [tuiStep] at stepped
    split at stepped
    · simp at stepped
    split at stepped
    next here =>
      obtain ⟨tui, moved, rfl⟩ := Option.map_eq_some_iff.mp stepped
      have rest := staged.fits
      rw [here] at rest
      exact staged.shown (by rw [here]; exact rest)
    next outcome here =>
      split at stepped
      · simp at stepped
      next begun =>
        obtain ⟨tui, moved, rfl⟩ := Option.map_eq_some_iff.mp stepped
        have rest := staged.fits
        rw [here] at rest
        refine staged.shown ?_
        rw [here]
        exact ⟨rest.1, leaving_step begun rest.2.1 moved, rest.2.2⟩
    · simp at stepped
  | key char =>
    simp only [tuiStep] at stepped
    split at stepped
    next here =>
      obtain ⟨tui, moved, later⟩ := Option.bind_eq_some_iff.mp stepped
      have rest := staged.fits
      rw [here] at rest
      have kept : Staged { s with tui := tui } := staged.shown (by rw [here]; exact rest)
      split at later
      · exact kept.touched (allowed_of_alive (by simp only [here]; rfl) _) later
      · exact Option.some.inj later ▸ kept
    next => simp at stepped
  | draw | leave | fail =>
    simp only [tuiStep] at stepped
    split at stepped
    next here =>
      obtain ⟨tui, moved, rfl⟩ := Option.map_eq_some_iff.mp stepped
      have rest := staged.fits
      rw [here] at rest
      exact staged.shown (by rw [here]; exact rest)
    next => simp at stepped
  | destroy => simp [tuiStep] at stepped

/-- Where `run()` goes on the reactor is complete. -/
theorem Staged.running (staged : Staged s) (running : s.main.ended = false)
    (up : s.thread = .running ∨ s.main = .runReactor) : s.main.alive = true := by
  have rest := staged.fits
  rcases up with up | here
  · cases here : s.main with
    | load | construct =>
      rw [here] at rest
      exact absurd up (Fits.idle rest).1
    | destroyReactor =>
      rw [here] at rest
      exact absurd up rest.1
    | exited | uncaught | terminated | killed => simp [here, MainPc.ended] at running
    | _ => rfl
  · rw [here]
    rfl

/-- The end of the reactor's thread fits wherever its run did. -/
theorem Fits.finished {ui : Tui.UiPc} {refresh : Tui.RefreshPc} {main : MainPc}
    (fits : Fits .running ui refresh main) : Fits .finished ui refresh main := by
  cases main with
  | tui => simp [Fits]
  | stopReactor | stopWrite | joinReactor | terminated => exact ⟨by simp, fits.2⟩
  | killed => trivial
  | destroyTui | destroyReactor | exited => exact absurd rfl fits.1
  | _ => exact absurd rfl (Fits.idle fits).1

/-- Every step of the process keeps the threads and the resources in place. -/
theorem step_staged (joining : Tui.Joining s.tui) (staged : Staged s) {action : Action}
    (stepped : step setup s action = some next) : Staged next := by
  cases action with
  | main answer => exact main_staged joining staged stepped
  | reactor answers =>
    simp only [step] at stepped
    split at stepped
    · simp at stepped
    next running =>
      split at stepped
      · split at stepped
        next up =>
          have fits := staged.fits
          rw [up] at fits
          exact Option.some.inj stepped ▸ ⟨fits.finished, staged.held, staged.accesses⟩
        next => simp at stepped
      split at stepped
      next inside =>
        have alive := staged.running (Bool.not_eq_true _ ▸ running) inside
        exact staged.touched (allowed_of_alive alive _) stepped
      next => simp at stepped
  | tui action =>
    simp only [step] at stepped
    split at stepped
    · simp at stepped
    next running => exact tui_staged staged (Bool.not_eq_true _ ▸ running) stepped
  | reset order =>
    simp only [step] at stepped
    split at stepped
    next here => exact staged.touched (allowed_of_alive (by rw [here.1]; rfl) _) stepped
    next => simp at stepped
  | data action =>
    cases action with
    | receive | callback =>
      simp only [step] at stepped
      split at stepped
      next sessionOpen => exact staged.touched (allowed_of_open sessionOpen) stepped
      next => simp at stepped
    | _ => simp [step] at stepped
  | liveliness =>
    simp only [step] at stepped
    split at stepped
    next subscribed =>
      have allowed := allowed_of_open subscribed.1
      exact Option.some.inj stepped ▸ ⟨staged.fits, staged.held, staged.accessed allowed⟩
    next => simp at stepped
  | signal k =>
    rcases signal_cases stepped with ⟨_, rfl⟩ | rfl | touched
    · exact ⟨trivial, by simp [State.goto], staged.accesses⟩
    · exact staged
    · exact staged.touched (allowed_signal _ k) touched
  | signalWrite k =>
    simp only [step] at stepped
    split at stepped
    · simp at stepped
    · exact staged.touched (allowed_signal _ k) stepped

/-- In every run the threads and the resources fit to where `main` is. -/
theorem reachable_staged (reached : (machine setup).Reachable s) : Staged s := by
  apply Machine.invariant Staged staged_init _ reached
  intro before action after met staged stepped
  exact step_staged (Tui.reachable_joining (tui_reachable met)) staged stepped

/-- A complete reactor holds all of its resources. -/
theorem MainPc.holds_of_alive {main : MainPc} (alive : main.alive = true) :
    main.holds = complete := by
  cases main <;> first | rfl | simp [MainPc.alive] at alive

/-- A joinable thread is met only after `TUIApp::run` has thrown. -/
theorem MainPc.terminated_fits {main : MainPc} {thread : ThreadPc} {ui : Tui.UiPc}
    {refresh : Tui.RefreshPc} (fits : Fits thread ui refresh main) (here : main = .terminated) :
    ui = .threw := by
  subst here
  exact fits.2

/-- No other step of `main` ends in an exception that nothing catches. -/
theorem main_uncaught {answer : Answer} {what : String}
    (stepped : mainStep setup s answer = some next) (escaped : next.main = .uncaught what) :
    setup.loaded.1 = .threw what := by
  cases main_cases stepped with
  | escape here threw =>
    obtain rfl := MainPc.uncaught.inj escaped
    exact threw
  | @construct stage here =>
    cases stage with
    | dropKeyexpr declared =>
      cases declared <;> simp [constructStep, State.throw, State.goto] at escaped
    | _ =>
      simp only [constructStep] at escaped
      split at escaped <;> simp [State.throw, State.goto] at escaped
  | @destruct pc outcome _ here stepped =>
    cases pc with
    | idle | stopWrite =>
      obtain ⟨core, _, rfl⟩ := Option.map_eq_some_iff.mp stepped
      simp [State.goto] at escaped
    | _ =>
      obtain rfl := Option.some.inj stepped
      simp [State.goto] at escaped
  | destroy here there called => simp [here] at escaped
  | _ => simp [State.throw, State.goto] at escaped

/-- In every run the exception that leaves `main` is that of `exists`. -/
theorem reachable_uncaught (reached : (machine setup).Reachable s) {what : String} :
    s.main = .uncaught what → setup.loaded.1 = .threw what := by
  refine Machine.invariant (fun s => s.main = .uncaught what → setup.loaded.1 = .threw what)
    (by simp [machine, init]) ?_ reached
  intro before action after _ threw stepped escaped
  change step setup before action = some after at stepped
  cases action with
  | main answer => exact main_uncaught stepped escaped
  | signal k =>
    rcases signal_cases stepped with ⟨_, rfl⟩ | rfl | touched
    · simp [State.goto] at escaped
    · exact threw escaped
    · obtain ⟨core, _, rfl⟩ := touch_eq touched
      exact threw escaped
  | _ =>
    have aside := step_aside (by simp) (by simp) stepped
    exact threw (aside.main ▸ escaped)

/-- In every state of the process: who accesses the reactor when, what is held, which
threads are left at the exit, and which exceptions nothing catches. -/
theorem lifetime_contract (reached : (machine setup).Reachable s) : LifetimeContract setup s := by
  have staged := reachable_staged reached
  refine ⟨staged.accesses, ?_, ?_, fun here => MainPc.terminated_fits staged.fits here, ?_⟩
  · intro alive
    have live : s.main ≠ .killed := by
      intro killed
      simp [killed, MainPc.alive] at alive
    rw [staged.held live, MainPc.holds_of_alive alive]
  · intro outcome here
    have fits := staged.fits
    have held := staged.held (by simp [here])
    rw [here] at fits held
    exact ⟨held, fits⟩
  · intro what here
    have fits := staged.fits
    have held := staged.held (by simp [here])
    rw [here] at fits held
    exact ⟨reachable_uncaught reached here, held, fits.1, fits.2.2⟩

section Shipped

/-- The shipped handlers, under the terminal interface. -/
def shippedSetup : Setup where
  config_path := "kernel.yaml"
  loaded := (.returned true, { Launch.shippedConfig with tui_ := {} })
  verify := Launch.acceptsEmpty
  keyexpr := fun _ => true

/-- Steps of `main` whose calls succeed. -/
def mains (count : Nat) : List Action :=
  List.replicate count (.main { ok := true, reason := "" })

/-- Steps of the reactor with the answers of a calm system. -/
def turns (count : Nat) : List Action :=
  (Reactor.defaultTurns count).filterMap fun
    | .reactor answers => some (.reactor answers)
    | _ => none

/-- Steps of the terminal interface that create their thread. -/
def uis (count : Nat) : List Action :=
  List.replicate count (.tui (.ui true))

/-- The terminal interface and the reactor have been started. -/
def startedRun : List Action :=
  mains 16 ++ uis 2 ++ turns 20

/-- The key Q, while the handler of a signal is between its store and its write. A
liveliness callback publishes when the destructor of the reactor has begun, and the write
comes when the session is gone. -/
def shutdownRun : List Action :=
  startedRun ++ [.signal 0, .tui (.key 'q')] ++ uis 3 ++ [.tui (.refresh .nothing)] ++ uis 1 ++
    [.tui .leave] ++ mains 3 ++ turns 15 ++ mains 2 ++ uis 3 ++ mains 2 ++ [.liveliness] ++
      mains 6 ++ [.signalWrite 0] ++ mains 1

/-- The run shows a callback during the destructor, and a signal behind it. -/
theorem shutdownRun_contract :
    ∃ s, (machine shippedSetup).Reachable s ∧ s.main = .exited (.ok ()) ∧
      .closing .zenoh ∈ s.uses ∧ .dangled (.signal 0) ∈ s.uses ∧
        LifetimeContract shippedSetup s := by
  have outcome : ((machine shippedSetup).exec init shutdownRun).map (fun s =>
      (s.main, decide (.closing .zenoh ∈ s.uses), decide (.dangled (.signal 0) ∈ s.uses))) =
        some (.exited (.ok ()), true, true) := by
    decide +kernel
  obtain ⟨s, ran, seen⟩ := Option.map_eq_some_iff.mp outcome
  simp only [Prod.mk.injEq, decide_eq_true_eq] at seen
  obtain ⟨exited, closing, late⟩ := seen
  have reached := Machine.reachable_of_exec ran
  exact ⟨s, reached, exited, closing, late, lifetime_contract reached⟩

end Shipped

end FlowKernel.Process
