import Mathlib.Algebra.Ring.Int.Defs
import FlowKernel.Foundation.History
import FlowKernel.Foundation.Machine
import FlowKernel.HandlerStatuses
import FlowKernel.LatencyStats
import FlowKernel.Sessions

/-!
# The terminal interface

`TUIApp` of `tui_app.cpp`: the refresh thread, which copies the reactor's statistics to
the screen's data under `data_mutex_`, and the thread that runs the event loop, renders
the four panels under the same mutex, and stops the refresh thread.

`refresh_data` is cut into its accesses to the reactor, and a panel is rendered one entry
at a time. What the accesses yield is the environment's choice here. The loop of the
terminal library is its events: a frame is drawn, a key is pressed, or the loop returns,
which it does after `Exit` and may do for reasons of its own, or throws. The average
latencies are left out, and the uptime is a difference of clock readings.
-/

namespace FlowKernel.Tui

open Foundation
open LatencyStats (ChannelStats channelStats)
open Reactor (HandlerStatus)
open Sessions (SessionInfo)

/-- The data that `refresh_data` stores and the panels read. -/
structure Screen where
  critical_stats_ : ChannelStats Int := ⟨0, 0, 0, 0⟩
  normal_stats_ : ChannelStats Int := ⟨0, 0, 0, 0⟩
  background_stats_ : ChannelStats Int := ⟨0, 0, 0, 0⟩
  sessions_ : List SessionInfo := []
  handlers_ : List HandlerStatus := []
  uptime_seconds_ : Int := 0
deriving DecidableEq

/-- The statistics of a channel are stored. -/
def Screen.setStats (screen : Screen) (channel : TopicPriority) (stats : ChannelStats Int) :
    Screen :=
  match channel with
  | .critical => { screen with critical_stats_ := stats }
  | .normal => { screen with normal_stats_ := stats }
  | .background => { screen with background_stats_ := stats }

/-- The panels that read the data. The footer does not. -/
inductive Panel where
  | header
  | channels
  | sessions
  | handlers
deriving DecidableEq

/-- An entry of a panel. -/
inductive Cell where
  | uptime (uptime_seconds : Int)
  | channel (priority : TopicPriority) (stats : ChannelStats Int)
  | session (info : SessionInfo)
  | handler (status : HandlerStatus)
deriving DecidableEq

/-- What a panel shows of the data, in the order in which it reads it. -/
def Screen.cells (screen : Screen) : Panel → List Cell
  | .header => [.uptime screen.uptime_seconds_]
  | .channels =>
      [.channel .critical screen.critical_stats_, .channel .normal screen.normal_stats_,
        .channel .background screen.background_stats_]
  | .sessions => screen.sessions_.map .session
  | .handlers => screen.handlers_.map .handler

/-- What an access to the reactor yields: a counter, a latency window, the list of
`get_sessions`, an entry of `get_handler_statuses`, the uptime, or nothing. -/
inductive Reading where
  | counter (value : U64)
  | window (latencies : List Int)
  | sessions (sessions : List SessionInfo)
  | status (status : HandlerStatus)
  | uptime (uptime_seconds : Int)
  | nothing
deriving DecidableEq

/-- Where the refresh thread is, with the locals of the getter it is in. -/
inductive RefreshPc where
  | absent
  | test
  | lock
  | processed (channel : TopicPriority)
  | dropped (channel : TopicPriority) (processed : U64)
  | latencies (channel : TopicPriority) (processed dropped : U64)
  | sessions
  | statuses (statuses : List HandlerStatus)
  | uptime
  | post
  | unlock
  | sleep
  | ended
deriving DecidableEq

/-- Who called `stop()`: the handler of a key, or the destructor. -/
inductive Caller where
  | key
  | destructor
deriving DecidableEq

/-- Where the thread of the event loop is. `run()` begins with its store, `loop` is
between two events, and `exit`, `joinable` and `join` are inside `stop()`. -/
inductive UiPc where
  | constructed
  | spawn
  | loop
  | lock (panel : Panel)
  | render (panel : Panel) (cells : List Cell)
  | unlock (panel : Panel)
  | reset
  | stop (caller : Caller)
  | exit (caller : Caller)
  | joinable (caller : Caller)
  | join (caller : Caller)
  | returned
  | threw
  | destroyed
deriving DecidableEq

/-- Who has `data_mutex_`. -/
inductive Owner where
  | ui
  | refresh
deriving DecidableEq

/-- What the statements about runs speak of. No step reads the log. -/
inductive Event where
  | locked
  | read (reading : Reading)
  | refreshed (screen : Screen)
  | drew (panel : Panel) (cells : List Cell)
  | joined
deriving DecidableEq

/-- The flag, the mutex, the data, the two threads, and the history. -/
structure State where
  running_ : Bool
  data_mutex_ : Option Owner
  screen : Screen
  ui : UiPc
  refresh : RefreshPc
  joined : Bool
  log : List Event

/-- A step of the event loop's thread (`ui`), an event of the terminal, a key, the end of
the loop (`leave`, or `fail` with a throw), the call of the destructor, or a step of the
refresh thread with what it reads. -/
inductive Action where
  | ui (created : Bool)
  | draw
  | key (char : Char)
  | leave
  | fail
  | destroy
  | refresh (reading : Reading)
deriving DecidableEq

/-- `TUIApp` has been constructed. -/
def init : State where
  running_ := false
  data_mutex_ := none
  screen := {}
  ui := .constructed
  refresh := .absent
  joined := false
  log := []

/-- One more event. -/
def State.record (s : State) (event : Event) : State :=
  { s with log := s.log ++ [event] }

/-- The getter after that of a channel. -/
def RefreshPc.after : TopicPriority → RefreshPc
  | .critical => .processed .normal
  | .normal => .processed .background
  | .background => .sessions

/-- One access of `refresh_data` under the lock. `handlers` is the size of `handlers_` in
the reactor. -/
def collect (handlers : Nat) (screen : Screen) : RefreshPc → Reading → Option (RefreshPc × Screen)
  | .processed channel, .counter value => some (.dropped channel value, screen)
  | .dropped channel processed, .counter value =>
      some (.latencies channel processed value, screen)
  | .latencies channel processed dropped, .window latencies =>
      (channelStats processed dropped latencies).map fun stats =>
        (.after channel, screen.setStats channel stats)
  | .sessions, .sessions sessions => some (.statuses [], { screen with sessions_ := sessions })
  | .statuses statuses, .status status =>
      if statuses.length < handlers then some (.statuses (statuses ++ [status]), screen) else none
  | .statuses statuses, .nothing =>
      if statuses.length < handlers then none
      else some (.uptime, { screen with handlers_ := statuses })
  | .uptime, .uptime uptime_seconds =>
      some (.post, { screen with uptime_seconds_ := uptime_seconds })
  | .post, .nothing => some (.unlock, screen)
  | _, _ => none

/-- One step of the refresh thread. -/
def refreshStep (handlers : Nat) (s : State) (reading : Reading) : Option State :=
  match s.refresh with
  | .absent | .ended => none
  | .test => some { s with refresh := if s.running_ then .lock else .ended }
  | .lock =>
      match s.data_mutex_ with
      | none =>
          some ({ s with
            data_mutex_ := some .refresh, refresh := .processed .critical }.record .locked)
      | some _ => none
  | .unlock =>
      some ({ s with data_mutex_ := none, refresh := .sleep }.record (.refreshed s.screen))
  | .sleep => some { s with refresh := .test }
  | pc =>
      (collect handlers s.screen pc reading).map fun (next, screen) =>
        { s with refresh := next, screen := screen }.record (.read reading)

/-- Where rendering goes on after a panel: the panels stand in this order. -/
def Panel.next : Panel → UiPc
  | .header => .lock .channels
  | .channels => .lock .sessions
  | .sessions => .lock .handlers
  | .handlers => .loop

/-- Where `stop()` returns to. -/
def Caller.next : Caller → UiPc
  | .key => .loop
  | .destructor => .destroyed

/-- One step of `run()`, of a render function or of `stop()`. `created` is whether the
thread is created; `std::thread` throws otherwise. -/
def uiStep (s : State) (created : Bool) : Option State :=
  match s.ui with
  | .constructed => some { s with running_ := true, ui := .spawn }
  | .spawn =>
      if created then some { s with refresh := .test, ui := .loop }
      else some { s with ui := .threw }
  | .loop | .returned | .threw | .destroyed => none
  | .lock panel =>
      match s.data_mutex_ with
      | none => some { s with data_mutex_ := some .ui, ui := .render panel [] }
      | some _ => none
  | .render panel cells =>
      match (s.screen.cells panel)[cells.length]? with
      | some cell => some { s with ui := .render panel (cells ++ [cell]) }
      | none => some ({ s with ui := .unlock panel }.record (.drew panel cells))
  | .unlock panel => some { s with data_mutex_ := none, ui := panel.next }
  | .reset => some { s with ui := .loop }
  | .stop caller => some { s with running_ := false, ui := .exit caller }
  | .exit caller => some { s with ui := .joinable caller }
  | .joinable caller =>
      if s.refresh ≠ .absent ∧ s.joined = false then some { s with ui := .join caller }
      else some { s with ui := caller.next }
  | .join caller =>
      if s.refresh = .ended then some ({ s with joined := true, ui := caller.next }.record .joined)
      else none

/-- The key handler. -/
def onKey (char : Char) : UiPc :=
  if char = 'q' ∨ char = 'Q' then .stop .key
  else if char = 'r' ∨ char = 'R' then .reset
  else .loop

/-- `~TUIApp` runs after `run()` has returned, or instead of it. -/
def step (handlers : Nat) (s : State) : Action → Option State
  | .ui created => uiStep s created
  | .draw => if s.ui = .loop then some { s with ui := .lock .header } else none
  | .key char => if s.ui = .loop then some { s with ui := onKey char } else none
  | .leave => if s.ui = .loop then some { s with ui := .returned } else none
  | .fail => if s.ui = .loop then some { s with ui := .threw } else none
  | .destroy =>
      if s.ui = .constructed ∨ s.ui = .returned then some { s with ui := .stop .destructor }
      else none
  | .refresh reading => refreshStep handlers s reading

/-- The event loop and the refresh thread, interleaved in any way. -/
def machine (handlers : Nat) : Machine State Action where
  start := init
  step := step handlers

end FlowKernel.Tui
