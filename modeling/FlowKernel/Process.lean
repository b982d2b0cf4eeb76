import FlowKernel.Launch
import FlowKernel.Teardown
import FlowKernel.TuiQuit

/-!
# The process

`main` of `main.cpp` with the constructor and the destructor of the reactor, the thread
that runs the reactor under the terminal interface, the terminal interface itself, and the
handler of SIGINT and SIGTERM. `main` constructs the reactor, publishes its address for
the signal handler, registers the handlers, and then either runs the reactor or shows the
terminal interface while another thread runs it. It joins that thread and ends the
objects in the reverse order of their construction.

The reactor and the terminal interface are the machines they are elsewhere; what a getter
yields is now read off the reactor. `std::filesystem::exists`, the constructor of a
`std::thread` and the loop of the terminal library may throw. The data and liveliness
callbacks go on until `z_close` returns; which resources they find closed then is the
subject of the teardown.
-/

namespace FlowKernel.Process

open Foundation Reactor

/-- What the constructor acquires. -/
inductive Resource where
  | session
  | keyexpr
  | publisher
  | ring
  | eventfd
deriving DecidableEq

/-- Why `main` returns 1. -/
inductive Failure where
  | load
  | zenohConfig
  | session
  | keyexpr
  | publisher
  | ring
  | eventfd
  | thread
deriving DecidableEq

/-- A failure, with the text that the library or the system gives for it. -/
structure Fatal where
  failure : Failure
  reason : String
deriving DecidableEq

/-- How `main` ends: well, or with a failure. -/
abbrev Outcome := Except Fatal Unit

/-- What the process is started with: what `Config::load` makes of the file under its path,
and the foreign code. -/
structure Setup where
  config_path : String
  loaded : Configuration.Loading × Configuration.Config
  verify : Bytes → Bool
  keyexpr : Bytes → Bool

/-- `what()` of the exception, as the constructor composes it. -/
def Fatal.what (estop_publish_path : String) (fatal : Fatal) : String :=
  match fatal.failure with
  | .zenohConfig => "Failed to initialize Zenoh config"
  | .session => "Failed to open Zenoh session"
  | .keyexpr => "Invalid E-Stop keyexpr: " ++ estop_publish_path
  | .publisher => "Failed to declare E-Stop publisher"
  | .ring => "io_uring init failed: " ++ fatal.reason
  | .eventfd => "eventfd failed: " ++ fatal.reason
  | .load | .thread => fatal.reason

namespace Setup

variable (setup : Setup)

/-- The configuration that `load` leaves. -/
def settings : Configuration.Config :=
  setup.loaded.2

/-- The reactor that `main` constructs and registers the handlers with. -/
def reactor : Reactor.Config TopicPriority :=
  Launch.reactorConfig setup.settings setup.verify setup.keyexpr

/-- The size of `handlers_`. -/
def handlers : Nat :=
  setup.reactor.registry.handlers.length

/-- The exit code, and the last line that is logged. -/
def exit : Outcome → Nat × String
  | .ok () => (0, "FlowKernel exited cleanly")
  | .error fatal =>
      match fatal.failure with
      | .load => (1, "Failed to load config from: " ++ setup.config_path)
      | _ => (1, "Fatal: " ++ fatal.what setup.settings.liveliness_.estop_publish_path)

end Setup

/-- The next step of the constructor. The key expression is dropped whether the publisher
has been declared or not. -/
inductive Stage where
  | zenohConfig
  | session
  | keyexpr
  | publisher
  | dropKeyexpr (declared : Bool)
  | ring
  | eventfd
deriving DecidableEq

/-- Where `main` is. `tui` is inside `TUIApp::run`, and `destroyTui` and `destroyReactor`
are the destructors, with the outcome that `main` is going to return. Two exceptions end in
`std::terminate`: one that no `try` of `main` is around (`uncaught`), and one that meets a
joinable thread (`terminated`). -/
inductive MainPc where
  | load
  | construct (stage : Stage)
  | publish
  | install
  | register (i : Nat)
  | makeTui
  | spawnReactor
  | tui
  | stopReactor
  | stopWrite
  | joinReactor
  | destroyTui (outcome : Outcome)
  | runReactor
  | destroyReactor (pc : Teardown.DestructorPc) (outcome : Outcome)
  | exited (outcome : Outcome)
  | uncaught (what : String)
  | terminated
  | killed
deriving DecidableEq

/-- The reactor's constructor has returned and its destructor has not begun. -/
def MainPc.alive : MainPc → Bool
  | .publish | .install | .register _ | .makeTui | .spawnReactor | .tui | .stopReactor
  | .stopWrite | .joinReactor | .destroyTui _ | .runReactor => true
  | _ => false

/-- The process has ended. -/
def MainPc.ended : MainPc → Bool
  | .exited _ | .uncaught _ | .terminated | .killed => true
  | _ => false

/-- The reactor's constructor has returned, and `z_close` has not. -/
def MainPc.sessionOpen : MainPc → Bool
  | .destroyReactor pc _ => pc.sessionOpen
  | main => main.alive

/-- `reactor_thread`. -/
inductive ThreadPc where
  | absent
  | running
  | finished
deriving DecidableEq

/-- Who accesses the reactor; `zenoh` are the threads that run its callbacks. -/
inductive Thread where
  | main
  | reactor
  | refresh
  | zenoh
  | signal (k : Nat)
deriving DecidableEq

/-- An access to the reactor: while it is complete, while its destructor has not got past
`z_close`, and before or after both. -/
inductive Use where
  | used (thread : Thread)
  | closing (thread : Thread)
  | dangled (thread : Thread)
deriving DecidableEq

/-- An access by a thread, where `main` is. -/
def MainPc.use (main : MainPc) (thread : Thread) : Use :=
  if main.alive then .used thread
  else if main.sessionOpen then .closing thread
  else .dangled thread

/-- The two machines, where `main` and the reactor's thread are, what is held, and the
accesses. -/
structure State where
  core : Reactor.State TopicPriority
  tui : Tui.State
  main : MainPc
  thread : ThreadPc
  g_reactor : Bool
  installed : Bool
  held : List Resource
  uses : List Use

/-- The answer of a call that may fail, with its reason. -/
structure Answer where
  ok : Bool
  reason : String

/-- `data` are the steps of the data callbacks, `liveliness` is the publication by a
liveliness callback, and `reset` is the next access of the `reset_stats()` that the key R
calls. -/
inductive Action where
  | main (answer : Answer)
  | reactor (answers : Answers)
  | tui (action : Tui.Action)
  | reset (order : List U64)
  | data (action : Reactor.Action)
  | liveliness
  | signal (k : Nat)
  | signalWrite (k : Nat)

/-- `main` has been entered. -/
def init : State where
  core := Reactor.init TopicPriority
  tui := Tui.init
  main := .load
  thread := .absent
  g_reactor := false
  installed := false
  held := []
  uses := []

namespace State

variable (s : State)

/-- `main` goes on. -/
def goto (main : MainPc) : State :=
  { s with main := main }

/-- One more resource is held. -/
def acquire (resource : Resource) : State :=
  { s with held := s.held ++ [resource] }

/-- A resource is given up. -/
def release (resource : Resource) : State :=
  { s with held := s.held.erase resource }

/-- A step of the reactor, which accesses its members. -/
def touch (setup : Setup) (thread : Thread) (action : Reactor.Action) : Option State :=
  (Reactor.step setup.reactor s.core action).map fun core =>
    { s with core := core, uses := s.uses ++ [s.main.use thread] }

end State

/-- An exception in the constructor: its destructor does not run. -/
def State.throw (s : State) (failure : Failure) (answer : Answer) : State :=
  s.goto (.exited (.error { failure := failure, reason := answer.reason }))

/-- One step of the constructor. -/
def constructStep (s : State) (answer : Answer) : Stage → State
  | .zenohConfig =>
      if answer.ok then s.goto (.construct .session) else s.throw .zenohConfig answer
  | .session =>
      if answer.ok then (s.acquire .session).goto (.construct .keyexpr)
      else s.throw .session answer
  | .keyexpr =>
      if answer.ok then (s.acquire .keyexpr).goto (.construct .publisher)
      else s.throw .keyexpr answer
  | .publisher =>
      if answer.ok then (s.acquire .publisher).goto (.construct (.dropKeyexpr true))
      else s.goto (.construct (.dropKeyexpr false))
  | .dropKeyexpr declared =>
      if declared then (s.release .keyexpr).goto (.construct .ring)
      else (s.release .keyexpr).throw .publisher answer
  | .ring =>
      if answer.ok then (s.acquire .ring).goto (.construct .eventfd) else s.throw .ring answer
  | .eventfd =>
      if answer.ok then (s.acquire .eventfd).goto .publish else s.throw .eventfd answer

/-- One step of the destructor. Its first two statements are `stop()`. -/
def destructorStep (setup : Setup) (s : State) (outcome : Outcome) :
    Teardown.DestructorPc → Option State
  | .idle =>
      (Reactor.step setup.reactor s.core (.stop 0)).map fun core =>
        { s with core := core }.goto (.destroyReactor .stopWrite outcome)
  | .stopWrite =>
      (Reactor.step setup.reactor s.core (.stopWrite 0)).map fun core =>
        { s with core := core }.goto (.destroyReactor .closeEventfd outcome)
  | .closeEventfd => some ((s.release .eventfd).goto (.destroyReactor .exitRing outcome))
  | .exitRing => some ((s.release .ring).goto (.destroyReactor .dropPublisher outcome))
  | .dropPublisher => some ((s.release .publisher).goto (.destroyReactor .closeSession outcome))
  | .closeSession => some (s.goto (.destroyReactor .dropSession outcome))
  | .dropSession => some ((s.release .session).goto (.destroyReactor .done outcome))
  | .done => some (s.goto (.exited outcome))

/-- The next step of `main`. Where the terminal interface or the reactor has the thread,
the step follows once that has returned. -/
def mainStep (setup : Setup) (s : State) (answer : Answer) : Option State :=
  match s.main with
  | .load =>
      match setup.loaded.1 with
      | .returned true => some (s.goto (.construct .zenohConfig))
      | .returned false => some (s.throw .load answer)
      -- the `try` of `main` begins behind the call
      | .threw what => some (s.goto (.uncaught what))
  | .construct stage => some (constructStep s answer stage)
  | .publish => some ({ s with g_reactor := true }.goto .install)
  | .install => some ({ s with installed := true }.goto (.register 0))
  | .register i =>
      if i < setup.handlers then some (s.goto (.register (i + 1)))
      else if setup.settings.tui_.enabled then some (s.goto .makeTui)
      else some (s.goto .runReactor)
  | .makeTui => some (s.goto .spawnReactor)
  | .spawnReactor =>
      if answer.ok then some ({ s with thread := .running }.goto .tui)
      else some (s.goto (.destroyTui (.error { failure := .thread, reason := answer.reason })))
  | .tui =>
      match s.tui.ui with
      | .returned => some (s.goto .stopReactor)
      -- unwinding meets `reactor_thread`, which is joinable
      | .threw => some (s.goto .terminated)
      | _ => none
  | .stopReactor => (s.touch setup .main (.stop 0)).map fun s => s.goto .stopWrite
  | .stopWrite => (s.touch setup .main (.stopWrite 0)).map fun s => s.goto .joinReactor
  | .joinReactor => if s.thread = .finished then some (s.goto (.destroyTui (.ok ()))) else none
  | .destroyTui outcome =>
      if s.tui.ui = .destroyed then some (s.goto (.destroyReactor .idle outcome))
      else (Tui.step setup.handlers s.tui .destroy).map fun tui => { s with tui := tui }
  | .runReactor =>
      if s.core.reactor = .returned then some (s.goto (.destroyReactor .idle (.ok ()))) else none
  | .destroyReactor pc outcome => destructorStep setup s outcome pc
  | .exited _ | .uncaught _ | .terminated | .killed => none

/-- The dropped counter of a channel. -/
def dropped (stats : Stats) : TopicPriority → U64
  | .critical => stats.critical_dropped
  | .normal => stats.normal_dropped
  | .background => stats.background_dropped

/-- The reading is what the getter finds in the reactor. The list of `get_sessions` and
the clock are left to the environment. -/
def reads (setup : Setup) (core : Reactor.State TopicPriority) :
    Tui.RefreshPc → Tui.Reading → Bool
  | .processed channel, .counter value => value = core.stats.processed channel
  | .dropped channel _, .counter value => value = dropped core.stats channel
  | .latencies channel _ _, .window latencies =>
      latencies = core.latencies.window channel
  | .statuses statuses, .status status =>
      (setup.reactor.registry.handlers[statuses.length]?).map (handlerStatus core.stats) =
        some status
  | _, _ => true

/-- The refresh thread is inside one of the reactor's getters. -/
def getting : Tui.RefreshPc → Bool
  | .processed _ | .dropped _ _ | .latencies _ _ _ | .sessions | .statuses _ | .uptime => true
  | _ => false

/-- A step of the terminal interface. Its destructor is called by `main`. -/
def tuiStep (setup : Setup) (s : State) (action : Tui.Action) : Option State :=
  match action with
  | .refresh reading =>
      if reads setup s.core s.tui.refresh reading then
        (Tui.step setup.handlers s.tui action).map fun tui =>
          { s with
            tui := tui
            uses :=
              if getting s.tui.refresh then s.uses ++ [s.main.use .refresh] else s.uses }
      else none
  | .ui _ =>
      if s.tui.ui = .reset ∧ s.core.resetting ≠ .idle then none
      else
        match s.main with
        | .tui => (Tui.step setup.handlers s.tui action).map fun tui => { s with tui := tui }
        | .destroyTui _ =>
            -- `run()` is not called here
            if s.tui.ui = .constructed then none
            else (Tui.step setup.handlers s.tui action).map fun tui => { s with tui := tui }
        | _ => none
  | .key _ =>
      if s.main = .tui then
        (Tui.step setup.handlers s.tui action).bind fun tui =>
          if tui.ui = .reset then { s with tui := tui }.touch setup .main .beginReset
          else some { s with tui := tui }
      else none
  | .draw | .leave | .fail =>
      if s.main = .tui then
        (Tui.step setup.handlers s.tui action).map fun tui => { s with tui := tui }
      else none
  | .destroy => none

/-- The handler of SIGINT and SIGTERM. Before it is installed they end the process. The
thread numbers of its `stop()` calls begin at 1, and `main` is thread 0. -/
def signalStep (setup : Setup) (s : State) (k : Nat) : Option State :=
  if s.main.ended then none
  else if s.installed then
    if s.g_reactor then s.touch setup (.signal k) (.stop (k + 1)) else some s
  else some (s.goto .killed)

/-- A step of `main` or of another thread, a callback, or a signal. -/
def step (setup : Setup) (s : State) : Action → Option State
  | .main answer => mainStep setup s answer
  | .reactor answers =>
      if s.main.ended then none
      else if s.core.reactor = .returned then
        if s.thread = .running then some { s with thread := .finished } else none
      else if s.thread = .running ∨ s.main = .runReactor then
        s.touch setup .reactor (.reactor answers)
      else none
  | .tui action => if s.main.ended then none else tuiStep setup s action
  | .reset order =>
      if s.main = .tui ∧ s.tui.ui = .reset then s.touch setup .main (.resetStep order) else none
  | .data action =>
      match action with
      | .receive .. | .callback _ =>
          if s.main.sessionOpen then s.touch setup .zenoh action else none
      | _ => none
  | .liveliness =>
      if s.main.sessionOpen ∧ Teardown.subscribed s.core.reactor ∧
          setup.keyexpr (Launch.bytes setup.settings.liveliness_.key) then
        some { s with uses := s.uses ++ [s.main.use .zenoh] }
      else none
  | .signal k => signalStep setup s k
  | .signalWrite k =>
      if s.main.ended then none else s.touch setup (.signal k) (.stopWrite (k + 1))

/-- The process, with its threads interleaved in any way. -/
def machine (setup : Setup) : Machine State Action where
  start := init
  step := step setup

end FlowKernel.Process
