import FlowKernel.Foundation.History
import FlowKernel.Foundation.Machine
import FlowKernel.Reactor

/-!
# Session tracking under concurrent callbacks

A callback of the C++ reactor reads the steady clock, takes `session_mutex_` and stores
the reading for its robot. `get_sessions` takes the mutex first, reads the clock and walks
the map. The clock readings, the lock operations, the store and the visits of the walk are
separate steps here, for `m` threads that run callbacks and `n` threads that call
`get_sessions`, each any number of times. The clock counts nanoseconds in an `int64_t`.
-/

namespace FlowKernel.Sessions

open Foundation
open Reactor (robot_id)

variable {m n : Nat}

/-- A session as it is reported: the robot, whether it is online, and the age of its last
frame. -/
structure SessionInfo where
  robot_id : Bytes
  online : Bool
  last_seen_ms : U64
deriving DecidableEq

/-- `session_last_seen_`, with the robots it knows. -/
structure SessionMap where
  robots : List Bytes
  last_seen : Bytes → Option U64
  distinct : robots.Nodup
  known : ∀ robot, robot ∈ robots ↔ (last_seen robot).isSome

namespace SessionMap

/-- No robot has been seen. -/
def empty : SessionMap where
  robots := []
  last_seen _ := none
  distinct := List.nodup_nil
  known := by simp

/-- `map[robot] = value`. -/
def assign (sessions : SessionMap) (robot : Bytes) (value : U64) : SessionMap where
  robots := if robot ∈ sessions.robots then sessions.robots else robot :: sessions.robots
  last_seen := Function.update sessions.last_seen robot (some value)
  distinct := by
    split
    next => exact sessions.distinct
    next fresh => exact List.nodup_cons.mpr ⟨fresh, sessions.distinct⟩
  known found := by
    by_cases same : found = robot
    · subst same
      split
      next present => simpa using present
      next => simp
    · have before := sessions.known found
      split
      next => simpa [same] using before
      next => simpa [same] using before

end SessionMap

/-- Where a callback is. `now_ms` is its reading of the clock. -/
inductive CallbackPc where
  | idle
  | clock (robot : Bytes)
  | lock (robot : Bytes) (now_ms : Nat)
  | store (robot : Bytes) (now_ms : Nat)
  | unlock
deriving DecidableEq

/-- Where a call of `get_sessions` is. `rest` is what its loop has still to visit. -/
inductive CallPc where
  | idle
  | lock
  | clock
  | visit (now : Nat) (rest : List Bytes) (sessions : List SessionInfo)
  | unlock
deriving DecidableEq

/-- The callback holds `session_mutex_`. -/
def CallbackPc.holds : CallbackPc → Bool
  | .store _ _ | .unlock => true
  | _ => false

/-- The call of `get_sessions` holds `session_mutex_`. -/
def CallPc.holds : CallPc → Bool
  | .clock | .visit _ _ _ | .unlock => true
  | _ => false

/-- Who holds `session_mutex_`. -/
inductive Holder (m n : Nat) where
  | callback (i : Fin m)
  | call (j : Fin n)
deriving DecidableEq

/-- What the statements about runs speak of. No step reads the log. -/
inductive Event where
  | stored (robot : Bytes) (now_ms : Nat)
  | subtracted (now : Nat) (last_seen : U64)
  | returned (now : Nat) (sessions : List SessionInfo)
deriving DecidableEq

/-- The clock, the mutex, the map it guards, the callbacks and calls under way, and the
history. -/
structure State (m n : Nat) where
  clock : Nat
  session_mutex : Option (Holder m n)
  session_last_seen : SessionMap
  callbacks : Fin m → CallbackPc
  calls : Fin n → CallPc
  log : List Event

/-- `walk` is the order in which the loop meets the entries of the map. -/
inductive Action (m n : Nat) where
  | tick (clock : Nat)
  | receive (i : Fin m) (key : Bytes)
  | callback (i : Fin m)
  | get_sessions (j : Fin n)
  | call (j : Fin n) (walk : List Bytes)

/-- Nobody has called anything, and the clock stands at zero. -/
def init (m n : Nat) : State m n where
  clock := 0
  session_mutex := none
  session_last_seen := .empty
  callbacks _ := .idle
  calls _ := .idle
  log := []

/-- A callback goes on. -/
def State.setCallback (s : State m n) (i : Fin m) (pc : CallbackPc) : State m n :=
  { s with callbacks := Function.update s.callbacks i pc }

/-- A call of `get_sessions` goes on. -/
def State.setCall (s : State m n) (j : Fin n) (pc : CallPc) : State m n :=
  { s with calls := Function.update s.calls j pc }

/-- `duration_cast<milliseconds>` of the time since the epoch of the clock. -/
def State.now_ms (s : State m n) : Nat :=
  s.clock / 1000000

/-- The entry of a robot as one visit of the loop reports it. -/
def SessionInfo.ofEntry (now : Nat) (robot : Bytes) (last_seen : U64) : SessionInfo :=
  let last_seen_ms := BitVec.ofNat 64 now - last_seen
  { robot_id := robot, last_seen_ms := last_seen_ms, online := last_seen_ms < 5000 }

/-- The session block of `zenoh_data_callback`. -/
def callbackStep (s : State m n) (i : Fin m) : Option (State m n) :=
  match s.callbacks i with
  | .idle => none
  | .clock robot => some (s.setCallback i (.lock robot s.now_ms))
  | .lock robot now_ms =>
      match s.session_mutex with
      | none => some { s.setCallback i (.store robot now_ms) with
          session_mutex := some (.callback i) }
      | some _ => none
  | .store robot now_ms =>
      some { s.setCallback i .unlock with
        session_last_seen := s.session_last_seen.assign robot (BitVec.ofNat 64 now_ms)
        log := s.log ++ [.stored robot now_ms] }
  | .unlock => some { s.setCallback i .idle with session_mutex := none }

/-- `get_sessions`. -/
def callStep (s : State m n) (j : Fin n) (walk : List Bytes) : Option (State m n) :=
  match s.calls j with
  | .idle => none
  | .lock =>
      match s.session_mutex with
      | none => some { s.setCall j .clock with session_mutex := some (.call j) }
      | some _ => none
  | .clock =>
      if walk.Perm s.session_last_seen.robots then some (s.setCall j (.visit s.now_ms walk []))
      else none
  | .visit now (robot :: rest) sessions =>
      match s.session_last_seen.last_seen robot with
      | none => none
      | some last_seen =>
          some { s.setCall j (.visit now rest (sessions ++ [.ofEntry now robot last_seen])) with
            log := s.log ++ [.subtracted now last_seen] }
  | .visit now [] sessions =>
      some { s.setCall j .unlock with log := s.log ++ [.returned now sessions] }
  | .unlock => some { s.setCall j .idle with session_mutex := none }

/-- The clock moves, or one thread takes its next access. -/
def step (s : State m n) : Action m n → Option (State m n)
  | .tick clock => if s.clock ≤ clock ∧ clock < 2 ^ 63 then some { s with clock := clock } else none
  | .receive i key =>
      match s.callbacks i with
      | .idle =>
          match robot_id key with
          | some robot => some (s.setCallback i (.clock robot))
          | none => some s
      | _ => none
  | .callback i => callbackStep s i
  | .get_sessions j =>
      match s.calls j with
      | .idle => some (s.setCall j .lock)
      | _ => none
  | .call j walk => callStep s j walk

/-- Any number of callbacks and of calls, interleaved in any way. -/
def machine (m n : Nat) : Machine (State m n) (Action m n) where
  start := init m n
  step := step

/-- The readings stored for a robot, oldest first. -/
def readings (robot : Bytes) (log : List Event) : List Nat :=
  log.filterMap fun
    | .stored found now_ms => if found = robot then some now_ms else none
    | _ => none

/-- What a step can do. -/
inductive Transition (s : State m n) : Action m n → State m n → Prop
  | ticked {clock : Nat} (later : s.clock ≤ clock) (bounded : clock < 2 ^ 63) :
      Transition s (.tick clock) { s with clock := clock }
  | received {i : Fin m} {key robot : Bytes} (here : s.callbacks i = .idle)
      (found : robot_id key = some robot) :
      Transition s (.receive i key) (s.setCallback i (.clock robot))
  | ignored {i : Fin m} {key : Bytes} (found : robot_id key = none) :
      Transition s (.receive i key) s
  | stamped {i : Fin m} {robot : Bytes} (here : s.callbacks i = .clock robot) :
      Transition s (.callback i) (s.setCallback i (.lock robot s.now_ms))
  | locked {i : Fin m} {robot : Bytes} {now_ms : Nat} (here : s.callbacks i = .lock robot now_ms)
      (free : s.session_mutex = none) :
      Transition s (.callback i)
        { s.setCallback i (.store robot now_ms) with session_mutex := some (.callback i) }
  | stored {i : Fin m} {robot : Bytes} {now_ms : Nat} (here : s.callbacks i = .store robot now_ms) :
      Transition s (.callback i) { s.setCallback i .unlock with
        session_last_seen := s.session_last_seen.assign robot (BitVec.ofNat 64 now_ms)
        log := s.log ++ [.stored robot now_ms] }
  | unlocked {i : Fin m} (here : s.callbacks i = .unlock) :
      Transition s (.callback i) { s.setCallback i .idle with session_mutex := none }
  | called {j : Fin n} (here : s.calls j = .idle) :
      Transition s (.get_sessions j) (s.setCall j .lock)
  | entered {j : Fin n} {walk : List Bytes} (here : s.calls j = .lock)
      (free : s.session_mutex = none) :
      Transition s (.call j walk) { s.setCall j .clock with session_mutex := some (.call j) }
  | began {j : Fin n} {walk : List Bytes} (here : s.calls j = .clock)
      (all : walk.Perm s.session_last_seen.robots) :
      Transition s (.call j walk) (s.setCall j (.visit s.now_ms walk []))
  | visited {j : Fin n} {now : Nat} {walk : List Bytes} {robot : Bytes} {rest : List Bytes}
      {sessions : List SessionInfo} {last_seen : U64}
      (here : s.calls j = .visit now (robot :: rest) sessions)
      (entry : s.session_last_seen.last_seen robot = some last_seen) :
      Transition s (.call j walk)
        { s.setCall j (.visit now rest (sessions ++ [.ofEntry now robot last_seen])) with
          log := s.log ++ [.subtracted now last_seen] }
  | returned {j : Fin n} {now : Nat} {walk : List Bytes} {sessions : List SessionInfo}
      (here : s.calls j = .visit now [] sessions) :
      Transition s (.call j walk)
        { s.setCall j .unlock with log := s.log ++ [.returned now sessions] }
  | left {j : Fin n} {walk : List Bytes} (here : s.calls j = .unlock) :
      Transition s (.call j walk) { s.setCall j .idle with session_mutex := none }

variable {s next : State m n} {action : Action m n}

/-- Every step is one of the transitions. -/
theorem transition (stepped : step s action = some next) : Transition s action next := by
  cases action with
  | tick clock =>
    simp only [step] at stepped
    split at stepped
    next allowed =>
      obtain rfl := Option.some.inj stepped
      exact .ticked allowed.1 allowed.2
    next => simp at stepped
  | receive i key =>
    simp only [step] at stepped
    split at stepped
    next here =>
      split at stepped
      next robot found =>
        obtain rfl := Option.some.inj stepped
        exact .received here found
      next found =>
        obtain rfl := Option.some.inj stepped
        exact .ignored found
    next => simp at stepped
  | callback i =>
    simp only [step, callbackStep] at stepped
    split at stepped
    next => simp at stepped
    next here =>
      obtain rfl := Option.some.inj stepped
      exact .stamped here
    next here =>
      split at stepped
      next free =>
        obtain rfl := Option.some.inj stepped
        exact .locked here free
      next => simp at stepped
    next here =>
      obtain rfl := Option.some.inj stepped
      exact .stored here
    next here =>
      obtain rfl := Option.some.inj stepped
      exact .unlocked here
  | get_sessions j =>
    simp only [step] at stepped
    split at stepped
    next here =>
      obtain rfl := Option.some.inj stepped
      exact .called here
    next => simp at stepped
  | call j walk =>
    simp only [step, callStep] at stepped
    split at stepped
    next => simp at stepped
    next here =>
      split at stepped
      next free =>
        obtain rfl := Option.some.inj stepped
        exact .entered here free
      next => simp at stepped
    next here =>
      split at stepped
      next all =>
        obtain rfl := Option.some.inj stepped
        exact .began here all
      next => simp at stepped
    next here =>
      split at stepped
      next => simp at stepped
      next last_seen entry =>
        obtain rfl := Option.some.inj stepped
        exact .visited here entry
    next here =>
      obtain rfl := Option.some.inj stepped
      exact .returned here
    next here =>
      obtain rfl := Option.some.inj stepped
      exact .left here

section Frames

variable (s : State m n) (i : Fin m) (pc : CallbackPc) (j : Fin n) (call : CallPc)

/-- Only the callback that moves changes its place. -/
@[simp, grind =] theorem callbacks_setCallback (found : Fin m) :
    (s.setCallback i pc).callbacks found = if found = i then pc else s.callbacks found :=
  Function.update_apply ..

/-- Only the call that moves changes its place. -/
@[simp, grind =] theorem calls_setCall (found : Fin n) :
    (s.setCall j call).calls found = if found = j then call else s.calls found :=
  Function.update_apply ..

/-- A callback that goes on leaves the clock alone. -/
@[simp, grind =] theorem clock_setCallback : (s.setCallback i pc).clock = s.clock :=
  rfl

/-- Where a callback is says nothing of the mutex. -/
@[simp, grind =] theorem session_mutex_setCallback :
    (s.setCallback i pc).session_mutex = s.session_mutex :=
  rfl

/-- A callback that goes on writes to the map in a step of its own. -/
@[simp, grind =] theorem session_last_seen_setCallback :
    (s.setCallback i pc).session_last_seen = s.session_last_seen :=
  rfl

/-- The callbacks and the calls have their own places. -/
@[simp, grind =] theorem calls_setCallback (found : Fin n) :
    (s.setCallback i pc).calls found = s.calls found :=
  rfl

/-- Moving a callback records nothing. -/
@[simp, grind =] theorem log_setCallback : (s.setCallback i pc).log = s.log :=
  rfl

/-- A call that goes on leaves the clock alone. -/
@[simp, grind =] theorem clock_setCall : (s.setCall j call).clock = s.clock :=
  rfl

/-- Where a call is says nothing of the mutex. -/
@[simp, grind =] theorem session_mutex_setCall :
    (s.setCall j call).session_mutex = s.session_mutex :=
  rfl

/-- A call never writes to the map. -/
@[simp, grind =] theorem session_last_seen_setCall :
    (s.setCall j call).session_last_seen = s.session_last_seen :=
  rfl

/-- The calls and the callbacks have their own places. -/
@[simp, grind =] theorem callbacks_setCall (found : Fin m) :
    (s.setCall j call).callbacks found = s.callbacks found :=
  rfl

/-- Moving a call records nothing. -/
@[simp, grind =] theorem log_setCall : (s.setCall j call).log = s.log :=
  rfl

end Frames

/-- Whoever is behind the mutex holds it. -/
structure Exclusive (s : State m n) : Prop where
  callbacks : ∀ i, (s.callbacks i).holds = true → s.session_mutex = some (.callback i)
  calls : ∀ j, (s.calls j).holds = true → s.session_mutex = some (.call j)

namespace Exclusive

/-- Initially the mutex is free and nobody claims it. -/
theorem init : Exclusive (init m n) where
  callbacks := by simp [Sessions.init, CallbackPc.holds]
  calls := by simp [Sessions.init, CallPc.holds]

/-- Two callbacks that hold the mutex are one. -/
theorem one_callback (exclusive : Exclusive s) {i other : Fin m}
    (mine : (s.callbacks i).holds = true) (too : (s.callbacks other).holds = true) : other = i := by
  have same := (exclusive.callbacks other too).symm.trans (exclusive.callbacks i mine)
  exact Holder.callback.inj (Option.some.inj same)

/-- Two calls that hold the mutex are one. -/
theorem one_call (exclusive : Exclusive s) {j other : Fin n}
    (mine : (s.calls j).holds = true) (too : (s.calls other).holds = true) : other = j := by
  have same := (exclusive.calls other too).symm.trans (exclusive.calls j mine)
  exact Holder.call.inj (Option.some.inj same)

/-- A callback and a call of `get_sessions` are not behind the mutex together. -/
theorem apart (exclusive : Exclusive s) {i : Fin m} {j : Fin n}
    (mine : (s.callbacks i).holds = true) (too : (s.calls j).holds = true) : False := by
  have same := (exclusive.calls j too).symm.trans (exclusive.callbacks i mine)
  simp at same

/-- A callback may go on to a place that needs the mutex if it has it. -/
theorem moveCallback (exclusive : Exclusive s) {i : Fin m} {pc : CallbackPc}
    (held : pc.holds = true → s.session_mutex = some (.callback i)) :
    Exclusive (s.setCallback i pc) where
  callbacks found holds := by
    rw [callbacks_setCallback] at holds
    split at holds
    next same => exact same ▸ held holds
    next => exact exclusive.callbacks found holds
  calls := exclusive.calls

/-- A call may go on to a place that needs the mutex if it has it. -/
theorem moveCall (exclusive : Exclusive s) {j : Fin n} {pc : CallPc}
    (held : pc.holds = true → s.session_mutex = some (.call j)) :
    Exclusive (s.setCall j pc) where
  callbacks := exclusive.callbacks
  calls found holds := by
    rw [calls_setCall] at holds
    split at holds
    next same => exact same ▸ held holds
    next => exact exclusive.calls found holds

/-- Taking the mutex while it is free. -/
theorem lock (exclusive : Exclusive s) (free : s.session_mutex = none) (holder : Holder m n) :
    Exclusive { s with session_mutex := some holder } where
  callbacks i holds := by simpa [free] using exclusive.callbacks i holds
  calls j holds := by simpa [free] using exclusive.calls j holds

/-- Giving up the mutex, for the thread that has it. -/
theorem unlockCallback (exclusive : Exclusive s) {i : Fin m}
    (held : (s.callbacks i).holds = true) :
    Exclusive { s.setCallback i .idle with session_mutex := none } where
  callbacks found holds := by
    simp only [callbacks_setCallback] at holds
    split at holds
    next => simp [CallbackPc.holds] at holds
    next other => exact absurd (exclusive.one_callback held holds) other
  calls _ holds := (exclusive.apart held holds).elim

/-- The call that holds the mutex gives it up. -/
theorem unlockCall (exclusive : Exclusive s) {j : Fin n} (held : (s.calls j).holds = true) :
    Exclusive { s.setCall j .idle with session_mutex := none } where
  callbacks _ holds := (exclusive.apart holds held).elim
  calls found holds := by
    simp only [calls_setCall] at holds
    split at holds
    next => simp [CallPc.holds] at holds
    next other => exact absurd (exclusive.one_call held holds) other

/-- Every step keeps the mutex exclusive. -/
theorem step (exclusive : Exclusive s) (stepped : step s action = some next) :
    Exclusive next := by
  cases transition stepped with
  | ticked => exact ⟨exclusive.callbacks, exclusive.calls⟩
  | ignored => exact exclusive
  | received => exact exclusive.moveCallback nofun
  | stamped => exact exclusive.moveCallback nofun
  | locked here free => exact (exclusive.lock free _).moveCallback fun _ => rfl
  | @stored i robot now_ms here =>
    have held := exclusive.callbacks i (by rw [here]; rfl)
    have moved : Exclusive (s.setCallback i .unlock) := exclusive.moveCallback fun _ => held
    exact ⟨moved.callbacks, moved.calls⟩
  | unlocked here => exact exclusive.unlockCallback (by rw [here]; rfl)
  | called => exact exclusive.moveCall nofun
  | entered here free => exact (exclusive.lock free _).moveCall fun _ => rfl
  | @began j walk here =>
    exact exclusive.moveCall fun _ => exclusive.calls j (by rw [here]; rfl)
  | @visited j now walk robot rest sessions last_seen here =>
    have held := exclusive.calls j (by rw [here]; rfl)
    have moved : Exclusive (s.setCall j (.visit now rest
        (sessions ++ [.ofEntry now robot last_seen]))) := exclusive.moveCall fun _ => held
    exact ⟨moved.callbacks, moved.calls⟩
  | @returned j now walk sessions here =>
    have held := exclusive.calls j (by rw [here]; rfl)
    have moved : Exclusive (s.setCall j .unlock) := exclusive.moveCall fun _ => held
    exact ⟨moved.callbacks, moved.calls⟩
  | left here => exact exclusive.unlockCall (by rw [here]; rfl)

end Exclusive

section Readings

variable (robot : Bytes) (log : List Event)

/-- The readings of a longer history end in those of its last event. -/
@[simp] theorem readings_snoc (event : Event) :
    readings robot (log ++ [event]) = readings robot log ++ readings robot [event] :=
  List.filterMap_append

/-- A store is a reading of its own robot. -/
@[simp] theorem readings_stored (found : Bytes) (now_ms : Nat) :
    readings robot [.stored found now_ms] = if found = robot then [now_ms] else [] := by
  by_cases same : found = robot <;> simp [readings, same]

/-- A subtraction is not a reading. -/
@[simp] theorem readings_subtracted (now : Nat) (last_seen : U64) :
    readings robot [.subtracted now last_seen] = [] :=
  rfl

/-- A return is not a reading. -/
@[simp] theorem readings_returned (now : Nat) (sessions : List SessionInfo) :
    readings robot [.returned now sessions] = [] :=
  rfl

end Readings

/-- The value stored last for a robot. -/
def lastStored (log : List Event) (robot : Bytes) : Option U64 :=
  (readings robot log).getLast?.map (BitVec.ofNat 64)

/-- A subtraction stores nothing. -/
@[simp] theorem lastStored_subtracted (log : List Event) (robot : Bytes) (now : Nat)
    (last_seen : U64) :
    lastStored (log ++ [.subtracted now last_seen]) robot = lastStored log robot := by
  simp [lastStored]

/-- A return stores nothing. -/
@[simp] theorem lastStored_returned (log : List Event) (robot : Bytes) (now : Nat)
    (sessions : List SessionInfo) :
    lastStored (log ++ [.returned now sessions]) robot = lastStored log robot := by
  simp [lastStored]

/-- A report of `get_sessions`, read at `now`: each recorded robot once, with its last value,
and no reading later than `now`. -/
def Returned (before : List Event) : Event → Prop
  | .returned now sessions => now < 2 ^ 63 ∧ (∀ robot, ∀ reading ∈ readings robot before,
      reading ≤ now) ∧ ∃ walk : List Bytes, walk.Nodup ∧
        (∀ robot, robot ∈ walk ↔ readings robot before ≠ []) ∧
        sessions = walk.map fun robot => .ofEntry now robot ((lastStored before robot).getD 0)
  | _ => True

/-- A walk under way. -/
structure Walk (s : State m n) (now : Nat) (rest : List Bytes) (sessions : List SessionInfo) :
    Prop where
  past : now ≤ s.now_ms
  latest : ∀ robot, ∀ reading ∈ readings robot s.log, reading ≤ now
  entries : ∃ visited, (visited ++ rest).Perm s.session_last_seen.robots ∧
    sessions = visited.map fun robot => .ofEntry now robot ((lastStored s.log robot).getD 0)

/-- What holds in every state. -/
structure Consistent (s : State m n) : Prop where
  bounded : s.clock < 2 ^ 63
  pending : ∀ i robot reading,
    s.callbacks i = .lock robot reading ∨ s.callbacks i = .store robot reading →
      reading ≤ s.now_ms
  past : ∀ robot, ∀ reading ∈ readings robot s.log, reading ≤ s.now_ms
  stored : ∀ robot, s.session_last_seen.last_seen robot = lastStored s.log robot
  walking : ∀ j now rest sessions, s.calls j = .visit now rest sessions →
    Walk s now rest sessions
  subtracted : ∀ now last_seen, .subtracted now last_seen ∈ s.log →
    last_seen.toNat ≤ now ∧ now < 2 ^ 63
  returned : Justified Returned s.log

namespace Consistent

/-- The empty map is that of the empty history. -/
theorem init : Consistent (init m n) where
  bounded := Nat.two_pow_pos 63
  pending := by simp [Sessions.init]
  past := by simp [Sessions.init, readings]
  stored _ := rfl
  walking := by simp [Sessions.init]
  subtracted := by simp [Sessions.init]
  returned := .nil

/-- The state of the map and of the history is what the invariant reads of a state. -/
theorem keep (consistent : Consistent s) (clock : next.clock = s.clock)
    (sessions : next.session_last_seen = s.session_last_seen) (log : next.log = s.log)
    (pending : ∀ i robot reading,
      next.callbacks i = .lock robot reading ∨ next.callbacks i = .store robot reading →
        reading ≤ s.now_ms)
    (walking : ∀ j now rest sessions, next.calls j = .visit now rest sessions →
      Walk s now rest sessions) : Consistent next where
  bounded := clock ▸ consistent.bounded
  pending i robot reading here := by
    rw [State.now_ms, clock]
    exact pending i robot reading here
  past robot reading member := by
    rw [State.now_ms, clock]
    exact consistent.past robot reading (log ▸ member)
  stored robot := by
    rw [sessions, log]
    exact consistent.stored robot
  walking j now rest reported here := by
    obtain ⟨past, latest, entries⟩ := walking j now rest reported here
    refine ⟨?_, log ▸ latest, ?_⟩
    · rwa [State.now_ms, clock]
    · rwa [sessions, log]
  subtracted := log ▸ consistent.subtracted
  returned := log ▸ consistent.returned

/-- A later clock keeps every reading in its past. -/
theorem tick (consistent : Consistent s) {clock : Nat} (later : s.clock ≤ clock)
    (bounded : clock < 2 ^ 63) : Consistent { s with clock := clock } := by
  have later_ms : s.now_ms ≤ clock / 1000000 := Nat.div_le_div_right later
  exact
    { bounded := bounded
      pending := fun i robot reading here =>
        Nat.le_trans (consistent.pending i robot reading here) later_ms
      past := fun robot reading member =>
        Nat.le_trans (consistent.past robot reading member) later_ms
      stored := consistent.stored
      walking := by
        intro j now rest sessions here
        obtain ⟨past, latest, entries⟩ := consistent.walking j now rest sessions here
        exact ⟨Nat.le_trans past later_ms, latest, entries⟩
      subtracted := consistent.subtracted
      returned := consistent.returned }

/-- A robot is in the map if something was stored for it. -/
theorem robots (consistent : Consistent s) (robot : Bytes) :
    robot ∈ s.session_last_seen.robots ↔ readings robot s.log ≠ [] := by
  rw [s.session_last_seen.known, consistent.stored, lastStored, Option.isSome_map,
    List.getLast?_isSome]

/-- A store, with no walk under way. -/
theorem store (consistent : Consistent s) {i : Fin m} {robot : Bytes} {now_ms : Nat}
    (here : s.callbacks i = .store robot now_ms)
    (alone : ∀ j now rest sessions, s.calls j ≠ .visit now rest sessions) :
    Consistent { s.setCallback i .unlock with
      session_last_seen := s.session_last_seen.assign robot (BitVec.ofNat 64 now_ms)
      log := s.log ++ [.stored robot now_ms] } where
  bounded := consistent.bounded
  pending := by
    intro found other reading pending
    apply consistent.pending found other reading
    grind
  past := by
    intro found reading member
    simp only [readings_snoc, readings_stored, List.mem_append] at member
    rcases member with earlier | new
    · exact consistent.past found reading earlier
    · split at new
      · rw [List.mem_singleton.mp new]
        exact consistent.pending i robot now_ms (.inr here)
      · simp at new
  stored := by
    intro found
    simp only [SessionMap.assign, lastStored, readings_snoc, readings_stored]
    by_cases same : robot = found
    · subst same
      simp
    · rw [Function.update_of_ne (Ne.symm same), if_neg same, List.append_nil]
      exact consistent.stored found
  walking := by
    intro j now rest sessions walking
    exact absurd walking (alone j now rest sessions)
  subtracted := by simpa using consistent.subtracted
  returned := consistent.returned.snoc trivial

/-- The stored values are not in the future of a walk, and fit a word. -/
theorem entry (consistent : Consistent s) {now : Nat} {rest : List Bytes}
    {sessions : List SessionInfo} (walk : Walk s now rest sessions) {robot : Bytes}
    {last_seen : U64} (found : s.session_last_seen.last_seen robot = some last_seen) :
    last_seen.toNat ≤ now ∧ now < 2 ^ 63 := by
  have within : now < 2 ^ 63 := by
    have bounded := consistent.bounded
    have past : now ≤ s.clock / 1000000 := walk.past
    omega
  rw [consistent.stored, lastStored, Option.map_eq_some_iff] at found
  obtain ⟨reading, last, rfl⟩ := found
  have before := walk.latest robot reading (List.mem_of_getLast? last)
  refine ⟨?_, within⟩
  rw [BitVec.toNat_ofNat]
  exact Nat.le_trans (Nat.mod_le _ _) before

/-- A visit moves one robot from the rest of the walk to its result. -/
theorem visit (consistent : Consistent s) {j : Fin n} {now : Nat} {robot : Bytes}
    {rest : List Bytes} {sessions : List SessionInfo} {last_seen : U64}
    (here : s.calls j = .visit now (robot :: rest) sessions)
    (entry : s.session_last_seen.last_seen robot = some last_seen)
    (alone : ∀ other now rest sessions, s.calls other = .visit now rest sessions → other = j) :
    Consistent { s.setCall j (.visit now rest (sessions ++ [.ofEntry now robot last_seen])) with
      log := s.log ++ [.subtracted now last_seen] } where
  bounded := consistent.bounded
  pending := consistent.pending
  past robot reading member := consistent.past robot reading (by simpa using member)
  stored := by simpa using consistent.stored
  walking := by
    intro other later found reported walking
    obtain ⟨past, latest, visited, all, reports⟩ := consistent.walking j now _ _ here
    simp only [calls_setCall] at walking
    split at walking
    · obtain ⟨rfl, rfl, rfl⟩ := CallPc.visit.inj walking
      refine ⟨past, by simpa using latest, visited ++ [robot], by simpa using all, ?_⟩
      have value : lastStored s.log robot = some last_seen :=
        (consistent.stored robot).symm.trans entry
      simp [reports, value]
    next elsewhere => exact absurd (alone _ _ _ _ walking) elsewhere
  subtracted := by
    intro later found member
    rcases List.mem_append.mp member with earlier | new
    · exact consistent.subtracted later found earlier
    · obtain ⟨rfl, rfl⟩ := Event.subtracted.inj (List.mem_singleton.mp new)
      exact consistent.entry (consistent.walking j _ _ _ here) entry
  returned := consistent.returned.snoc trivial

/-- The report at the end of a walk. -/
theorem report (consistent : Consistent s) {j : Fin n} {now : Nat} {sessions : List SessionInfo}
    (here : s.calls j = .visit now [] sessions) :
    Consistent { s.setCall j .unlock with log := s.log ++ [.returned now sessions] } where
  bounded := consistent.bounded
  pending := consistent.pending
  past robot reading member := consistent.past robot reading (by simpa using member)
  stored := by simpa using consistent.stored
  walking := by
    intro other later rest reported walking
    simp only [calls_setCall] at walking
    split at walking
    next => simp at walking
    next =>
      obtain ⟨past, latest, entries⟩ := consistent.walking other later rest reported walking
      exact ⟨past, by simpa using latest, by simpa using entries⟩
  subtracted := by simpa using consistent.subtracted
  returned := by
    apply consistent.returned.snoc
    obtain ⟨past, latest, visited, all, rfl⟩ := consistent.walking j now [] sessions here
    rw [List.append_nil] at all
    refine ⟨?_, latest, visited, ?_, ?_, rfl⟩
    · have bounded := consistent.bounded
      have before : now ≤ s.clock / 1000000 := past
      omega
    · exact all.nodup_iff.mpr s.session_last_seen.distinct
    · intro robot
      rw [all.mem_iff]
      exact consistent.robots robot

/-- Every step keeps the map, the history and the locals of the threads in agreement. -/
theorem step (consistent : Consistent s) (exclusive : Exclusive s)
    (stepped : step s action = some next) : Consistent next := by
  cases transition stepped with
  | ticked later bounded => exact consistent.tick later bounded
  | ignored => exact consistent
  | received here | locked here | unlocked here =>
    refine consistent.keep rfl rfl rfl ?_ ?_
    · have pending := consistent.pending
      grind
    · exact consistent.walking
  | stamped here =>
    refine consistent.keep rfl rfl rfl ?_ ?_
    · have pending := consistent.pending
      grind
    · exact consistent.walking
  | @stored i robot now_ms here =>
    apply consistent.store here
    intro j now rest sessions walking
    exact exclusive.apart (i := i) (by rw [here]; rfl) (by rw [walking]; rfl)
  | called here | entered here | left here =>
    refine consistent.keep rfl rfl rfl consistent.pending ?_
    have walking := consistent.walking
    grind
  | began here all =>
    refine consistent.keep rfl rfl rfl consistent.pending ?_
    intro other now rest sessions walking
    simp only [calls_setCall] at walking
    split at walking
    · obtain ⟨rfl, rfl, rfl⟩ := CallPc.visit.inj walking
      exact ⟨Nat.le_refl _, consistent.past, [], all, rfl⟩
    · exact consistent.walking _ _ _ _ walking
  | @visited j now walk robot rest sessions last_seen here entry =>
    apply consistent.visit here entry
    intro other now rest sessions walking
    exact exclusive.one_call (by rw [here]; rfl) (by rw [walking]; rfl)
  | returned here => exact consistent.report here

end Consistent

/-- In every run the mutex has one holder. -/
theorem reachable_exclusive (reached : (machine m n).Reachable s) : Exclusive s :=
  Machine.invariant Exclusive .init (fun _ _ _ _ exclusive => exclusive.step) reached

/-- In every run the map is that of its history. -/
theorem reachable_consistent (reached : (machine m n).Reachable s) : Consistent s :=
  Machine.invariant Consistent .init
    (fun _ _ _ met consistent => consistent.step (reachable_exclusive met)) reached

/-- The robots of a report, with the age of the reading stored last. -/
def Shown (before : List Event) : Event → Prop
  | .returned now sessions => ∀ info ∈ sessions, ∃ reading,
      (readings info.robot_id before).getLast? = some reading ∧ reading ≤ now ∧
        info.last_seen_ms.toNat = now - reading ∧
        (info.online = true ↔ now - reading < 5000)
  | _ => True

/-- The ages that `get_sessions` computes. -/
structure TrueAges (s : State m n) : Prop where
  ordered : ∀ now last_seen, .subtracted now last_seen ∈ s.log →
    last_seen ≤ BitVec.ofNat 64 now ∧
      (BitVec.ofNat 64 now - last_seen).toNat = now - last_seen.toNat
  shown : Justified Shown s.log

/-- Subtracting an earlier reading does not wrap. -/
theorem age {now : Nat} {last_seen : U64} (earlier : last_seen.toNat ≤ now)
    (bounded : now < 2 ^ 63) : last_seen ≤ BitVec.ofNat 64 now ∧
      (BitVec.ofNat 64 now - last_seen).toNat = now - last_seen.toNat := by
  have value : (BitVec.ofNat 64 now).toNat = now := by
    rw [BitVec.toNat_ofNat]
    omega
  have order : last_seen ≤ BitVec.ofNat 64 now := by
    rw [BitVec.le_def, value]
    exact earlier
  refine ⟨order, ?_⟩
  rw [BitVec.toNat_sub_of_le order, value]

/-- An entry of a report whose reading is not in its future. -/
theorem ofEntry_age {now reading : Nat} {robot : Bytes} (earlier : reading ≤ now)
    (bounded : now < 2 ^ 63) :
    (SessionInfo.ofEntry now robot (BitVec.ofNat 64 reading)).last_seen_ms.toNat = now - reading ∧
      ((SessionInfo.ofEntry now robot (BitVec.ofNat 64 reading)).online = true ↔
        now - reading < 5000) := by
  have value : (BitVec.ofNat 64 reading).toNat = reading := by
    rw [BitVec.toNat_ofNat]
    omega
  have before : (BitVec.ofNat 64 reading).toNat ≤ now := value.symm ▸ earlier
  obtain ⟨-, difference⟩ := age before bounded
  rw [value] at difference
  refine ⟨difference, ?_⟩
  simp only [SessionInfo.ofEntry, decide_eq_true_eq, BitVec.lt_def, difference]
  rfl

/-- A robot that is listed has a last reading. -/
theorem listed {before : List Event} {robot : Bytes} (recorded : readings robot before ≠ []) :
    ∃ reading, (readings robot before).getLast? = some reading ∧
      lastStored before robot = some (BitVec.ofNat 64 reading) := by
  have last := List.getLast?_eq_some_getLast recorded
  exact ⟨_, last, by rw [lastStored, last, Option.map_some]⟩

/-- No age wraps, in any state of any run. -/
theorem ages_never_wrap : ∀ s : State m n, (machine m n).Reachable s → TrueAges s := by
  intro s reached
  have consistent := reachable_consistent reached
  constructor
  · intro now last_seen subtracted
    obtain ⟨earlier, bounded⟩ := consistent.subtracted now last_seen subtracted
    exact age earlier bounded
  · refine consistent.returned.mono ?_
    intro before event returned
    cases event with
    | returned now sessions =>
      obtain ⟨bounded, latest, walk, -, recorded, rfl⟩ := returned
      intro info member
      obtain ⟨robot, inside, rfl⟩ := List.mem_map.mp member
      obtain ⟨reading, last, value⟩ := listed ((recorded robot).mp inside)
      have earlier := latest robot reading (List.mem_of_getLast? last)
      rw [value, Option.getD_some]
      exact ⟨reading, last, earlier, ofEntry_age earlier bounded⟩
    | _ => trivial

/-- The robots reported online are those whose latest reading is less than five seconds old. -/
def Recent (before : List Event) : Event → Prop
  | .returned now sessions => ∀ robot,
      (∃ info ∈ sessions, info.robot_id = robot ∧ info.online = true) ↔
        ∃ reading, (readings robot before).max? = some reading ∧ now - reading < 5000
  | _ => True

/-- The map keeps the latest reading of each robot, and the reports follow it. -/
structure Recency (s : State m n) : Prop where
  ascending : ∀ robot, (readings robot s.log).Pairwise (· ≤ ·)
  fits : ∀ robot, ∀ reading ∈ readings robot s.log, reading < 2 ^ 64
  latest : ∀ robot, s.session_last_seen.last_seen robot =
    (readings robot s.log).max?.map (BitVec.ofNat 64)
  online : Justified Recent s.log

/-- No callback takes the mutex before one with an earlier reading for the same robot that
waits for it. -/
def InTurn (s : State m n) : Action m n → Prop
  | .callback i => ∀ robot now_ms, s.callbacks i = .lock robot now_ms →
      ∀ j earlier, s.callbacks j = .lock robot earlier → now_ms ≤ earlier
  | _ => True

/-- Where the callbacks come in turn, what is stored is not later than what waits. -/
structure Ordered (s : State m n) : Prop where
  ascending : ∀ robot, (readings robot s.log).Pairwise (· ≤ ·)
  waiting : ∀ i robot now_ms, s.callbacks i = .lock robot now_ms →
    ∀ reading ∈ readings robot s.log, reading ≤ now_ms
  storing : ∀ i robot now_ms, s.callbacks i = .store robot now_ms →
    (∀ reading ∈ readings robot s.log, reading ≤ now_ms) ∧
      ∀ j later, s.callbacks j = .lock robot later → now_ms ≤ later

namespace Ordered

/-- No reading has been stored. -/
theorem init : Ordered (init m n) where
  ascending := by simp [Sessions.init, readings]
  waiting := by simp [Sessions.init]
  storing := by simp [Sessions.init]

/-- Steps that store nothing. -/
theorem keep (ordered : Ordered s)
    (log : ∀ robot, readings robot next.log = readings robot s.log)
    (waiting : ∀ i robot now_ms, next.callbacks i = .lock robot now_ms →
      ∀ reading ∈ readings robot s.log, reading ≤ now_ms)
    (storing : ∀ i robot now_ms, next.callbacks i = .store robot now_ms →
      (∀ reading ∈ readings robot s.log, reading ≤ now_ms) ∧
        ∀ j later, next.callbacks j = .lock robot later → now_ms ≤ later) : Ordered next where
  ascending robot := log robot ▸ ordered.ascending robot
  waiting i robot now_ms here := log robot ▸ waiting i robot now_ms here
  storing i robot now_ms here := log robot ▸ storing i robot now_ms here

/-- A callback that stores has the latest reading so far. -/
theorem store (ordered : Ordered s) {i : Fin m} {robot : Bytes} {now_ms : Nat}
    (here : s.callbacks i = .store robot now_ms)
    (alone : ∀ other found reading, s.callbacks other = .store found reading → other = i) :
    Ordered { s.setCallback i .unlock with
      session_last_seen := s.session_last_seen.assign robot (BitVec.ofNat 64 now_ms)
      log := s.log ++ [.stored robot now_ms] } where
  ascending := by
    intro found
    simp only [readings_snoc, readings_stored]
    split
    next same =>
      subst same
      apply List.pairwise_append.mpr
      refine ⟨ordered.ascending robot, List.pairwise_singleton _ _, ?_⟩
      intro reading earlier last new
      rw [List.mem_singleton.mp new]
      exact (ordered.storing i robot now_ms here).1 reading earlier
    next => simpa using ordered.ascending found
  waiting := by
    intro other found later waiting reading member
    have still : s.callbacks other = .lock found later := by grind
    simp only [readings_snoc, readings_stored, List.mem_append] at member
    rcases member with earlier | new
    · exact ordered.waiting other found later still reading earlier
    · split at new
      next same =>
        subst same
        rw [List.mem_singleton.mp new]
        exact (ordered.storing i robot now_ms here).2 other later still
      next => simp at new
  storing := by
    intro other found reading storing
    have elsewhere : other ≠ i := by grind
    have still : s.callbacks other = .store found reading := by grind
    exact absurd (alone other found reading still) elsewhere

/-- A step that stores in turn keeps the readings of a robot in order. -/
theorem step (ordered : Ordered s) (consistent : Consistent s) (exclusive : Exclusive s)
    (turn : InTurn s action) (stepped : step s action = some next) : Ordered next := by
  have waiting := ordered.waiting
  have storing := ordered.storing
  cases transition stepped with
  | ticked | ignored | called | entered | began | left =>
    exact ordered.keep (fun _ => rfl) waiting storing
  | visited | returned => exact ordered.keep (by simp) waiting storing
  | received here | unlocked here =>
    refine ordered.keep (fun _ => rfl) ?_ ?_ <;> grind
  | stamped here =>
    -- a new reading is at least every reading that is stored or about to be
    have past := consistent.past
    have pending := fun i robot now_ms here => consistent.pending i robot now_ms (.inr here)
    refine ordered.keep (fun _ => rfl) ?_ ?_ <;> grind
  | locked here =>
    have first := turn _ _ here
    refine ordered.keep (fun _ => rfl) ?_ ?_ <;> grind
  | @stored i robot now_ms here =>
    apply ordered.store here
    intro other found reading storing
    exact exclusive.one_callback (by rw [here]; rfl) (by rw [storing]; rfl)

end Ordered

/-- In a run whose stores come in turn the readings of every robot are in order. -/
theorem reachable_ordered (reached : (machine m n).ReachableWithin InTurn s) : Ordered s :=
  Machine.invariant_within Ordered .init
    (fun _ _ _ met ordered turn => ordered.step (reachable_consistent met.reachable)
      (reachable_exclusive met.reachable) turn) reached

/-- The last item of an ascending list is the largest. -/
theorem max?_eq_getLast? {items : List Nat} (ascending : items.Pairwise (· ≤ ·)) :
    items.max? = items.getLast? := by
  rcases List.eq_nil_or_concat items with rfl | ⟨front, last, rfl⟩
  · rfl
  · rw [List.concat_eq_append] at ascending ⊢
    rw [List.getLast?_concat]
    apply List.max?_eq_some_iff.mpr
    refine ⟨by simp, ?_⟩
    intro item member
    rcases List.mem_append.mp member with earlier | new
    · exact (List.pairwise_append.mp ascending).2.2 item earlier last (by simp)
    · exact Nat.le_of_eq (List.mem_singleton.mp new)

/-- Runs in which the callbacks of a robot take the mutex in the order of their readings. -/
theorem recency_in_turn : ∀ s : State m n, (machine m n).ReachableWithin InTurn s → Recency s := by
  intro s reached
  have consistent := reachable_consistent reached.reachable
  have ascending := (reachable_ordered reached).ascending
  refine ⟨ascending, ?_, ?_, ?_⟩
  · intro robot reading member
    have past : reading ≤ s.clock / 1000000 := consistent.past robot reading member
    have bounded := consistent.bounded
    omega
  · intro robot
    rw [max?_eq_getLast? (ascending robot)]
    exact consistent.stored robot
  · intro before event after split
    have returned := consistent.returned before event after split
    have sorted : ∀ robot, (readings robot before).Pairwise (· ≤ ·) := by
      intro robot
      have whole := ascending robot
      rw [split, readings, List.filterMap_append] at whole
      exact (List.pairwise_append.mp whole).1
    cases event with
    | returned now sessions =>
      obtain ⟨bounded, latest, walk, -, recorded, rfl⟩ := returned
      intro robot
      rw [max?_eq_getLast? (sorted robot)]
      constructor
      · rintro ⟨_, member, rfl, online⟩
        obtain ⟨found, inside, rfl⟩ := List.mem_map.mp member
        obtain ⟨reading, last, value⟩ := listed ((recorded found).mp inside)
        rw [value, Option.getD_some] at online
        have earlier := latest found reading (List.mem_of_getLast? last)
        exact ⟨reading, last, (ofEntry_age earlier bounded).2.mp online⟩
      · rintro ⟨reading, last, young⟩
        have earlier := latest robot reading (List.mem_of_getLast? last)
        have value : lastStored before robot = some (BitVec.ofNat 64 reading) := by
          rw [lastStored, last, Option.map_some]
        refine ⟨_, List.mem_map_of_mem ((recorded robot).mpr ?_), rfl, ?_⟩
        · rintro empty
          simp [empty] at last
        · rw [value, Option.getD_some]
          exact (ofEntry_age earlier bounded).2.mpr young
    | _ => trivial

section Examples

open FlowKernel.Reactor (ascii telemetryPath)

/-- The robot of `telemetryPath`. -/
def uav0 : Bytes :=
  ascii ['r', 'o', 'b', 'o', 't', '/', 'u', 'a', 'v', '0']

/-- The condition on a run, checked along it. -/
def inTurn (s : State m n) : Action m n → State m n → Bool
  | .callback i, _ =>
      match s.callbacks i with
      | .lock robot now_ms => (List.finRange m).all fun j =>
          match s.callbacks j with
          | .lock found earlier => found ≠ robot || now_ms ≤ earlier
          | _ => true
      | _ => true
  | _, _ => true

/-- What the check accepts meets the condition. -/
theorem inTurn_of_check (passed : inTurn s action next = true) : InTurn s action := by
  cases action with
  | callback i =>
    intro robot now_ms here j earlier waiting
    simp only [inTurn, here, List.all_eq_true] at passed
    have placed := passed j (List.mem_finRange j)
    simpa [waiting] using placed
  | _ => trivial

/-- The threads of the two callbacks. -/
def earlier : Fin 2 :=
  Fin.castSucc (Fin.last 0)

/-- The second of two callbacks. -/
def later : Fin 2 :=
  Fin.last 1

/-- They read the clock at one second and at seven seconds. -/
def twoReadings : List (Action 2 1) :=
  [.tick 1000000000, .receive earlier telemetryPath, .callback earlier, .tick 7000000000,
    .receive later telemetryPath, .callback later]

/-- A call of `get_sessions` that finds one robot. -/
def oneReport : List (Action 2 1) :=
  .get_sessions (Fin.last 0) :: List.replicate 5 (.call (Fin.last 0) [uav0])

/-- The callback on the given thread takes the mutex, stores and leaves. -/
def storing (i : Fin 2) : List (Action 2 1) :=
  List.replicate 3 (.callback i)

/-- The readings are stored in their order. -/
def calmRun : List (Action 2 1) :=
  twoReadings ++ storing earlier ++ storing later ++ oneReport

/-- The later reading is stored first. -/
def reversedRun : List (Action 2 1) :=
  twoReadings ++ storing later ++ storing earlier ++ oneReport

/-- A robot that is heard twice is online, with the age of its later frame. -/
theorem calmRun_online : ∃ s, (machine 2 1).execWithin inTurn (init 2 1) calmRun = some s ∧
    .returned 7000 [⟨uav0, true, 0⟩] ∈ s.log ∧ Recency s := by
  have outcome : ((machine 2 1).execWithin inTurn (init 2 1) calmRun).map
      (fun s => s.log.contains (.returned 7000 [⟨uav0, true, 0⟩])) = some true := by
    decide +kernel
  obtain ⟨s, ran, seen⟩ := Option.map_eq_some_iff.mp outcome
  refine ⟨s, ran, List.contains_iff_mem.mp seen, recency_in_turn s ?_⟩
  exact Machine.ReachableWithin.exec (fun _ _ _ _ passed => inTurn_of_check passed) .start ran

/-- The age of an overwritten reading is reported, and it has not wrapped. -/
theorem reversedRun_aged : ∃ s, (machine 2 1).exec (init 2 1) reversedRun = some s ∧
    .returned 7000 [⟨uav0, false, 6000⟩] ∈ s.log ∧ TrueAges s := by
  have outcome : ((machine 2 1).exec (init 2 1) reversedRun).map
      (fun s => s.log.contains (.returned 7000 [⟨uav0, false, 6000⟩])) = some true := by
    decide +kernel
  obtain ⟨s, ran, seen⟩ := Option.map_eq_some_iff.mp outcome
  exact ⟨s, ran, List.contains_iff_mem.mp seen, ages_never_wrap s (Machine.reachable_of_exec ran)⟩

/-- A robot whose frame came at this millisecond is reported offline. -/
theorem reversedRun_offline : (∃ s, (machine 2 1).exec (init 2 1) reversedRun = some s ∧
      readings uav0 s.log = [7000, 1000] ∧ s.session_last_seen.last_seen uav0 = some 1000 ∧
      .returned 7000 [⟨uav0, false, 6000⟩] ∈ s.log) ∧
    ¬ ∀ s : State 2 1, (machine 2 1).Reachable s → Recency s := by
  have outcome : ((machine 2 1).exec (init 2 1) reversedRun).map
      (fun s => (readings uav0 s.log, s.session_last_seen.last_seen uav0,
        s.log.contains (.returned 7000 [⟨uav0, false, 6000⟩]))) =
        some ([7000, 1000], some 1000, true) := by
    decide +kernel
  obtain ⟨s, ran, seen⟩ := Option.map_eq_some_iff.mp outcome
  simp only [Prod.mk.injEq, List.contains_iff_mem] at seen
  obtain ⟨stored, last, offline⟩ := seen
  refine ⟨⟨s, ran, stored, last, offline⟩, fun every => ?_⟩
  have ascending := (every s (Machine.reachable_of_exec ran)).ascending uav0
  rw [stored] at ascending
  exact absurd ascending (by decide)

end Examples

end FlowKernel.Sessions
