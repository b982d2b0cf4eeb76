import FlowKernel.LatestCache
import FlowKernel.Foundation.Machine

/-!
# A latest-only slot, one memory access at a time

`LatestSampleSlot::put` and `LatestSampleSlot::take` under the hand-written spin
lock, cut into the test-and-set, the accesses to the five fields and the clear. Any
number of threads interleave. Memory is sequentially consistent, and moving the
payload out leaves an empty vector behind.

Both operations take effect when they clear the lock. Until then the other threads
see the slot as it was when the lock was taken, whatever the fields contain.
-/

namespace FlowKernel.SlotAccess

open Foundation

/-- The next access of a running `put` or `take`, with the locals that are still
read. The clearing `put` remembers what it wrote. -/
inductive Pc where
  | idle
  | putLock (hash : U64) (data : Bytes)
  | putTest (hash : U64) (data : Bytes)
  | putCount (hash : U64) (data : Bytes)
  | putPayload (hash : U64) (data : Bytes)
  | putHash (hash : U64) (data : Bytes)
  | putTime (hash : U64) (data : Bytes)
  | putFlag (sample : HeldSample Bytes)
  | putClear (sample : HeldSample Bytes)
  | takeLock
  | takeTest
  | missClear
  | takeFlag
  | takeHash
  | takePayload (hash : U64)
  | takeTime (hash : U64) (data : Bytes)
  | takeClear (sample : HeldSample Bytes)
deriving DecidableEq

/-- What the statements about runs speak of. No step reads the log. -/
inductive Event where
  | lockedPut (thread : Nat) (hash : U64) (data : Bytes)
  | stamped (thread : Nat) (now : TimePoint)
  | clearedPut (thread : Nat) (sample : HeldSample Bytes)
  | lockedTake (thread : Nat)
  | clearedTake (thread : Nat) (result : Option (HeldSample Bytes))
deriving DecidableEq

/-- The fields that the lock protects. -/
structure Cells where
  payload : Bytes
  has_data : Bool
  handler_hash : U64
  drop_count : U64
  put_time : TimePoint

/-- The cells, the lock, the threads, and the history. -/
structure State extends Cells where
  lock_ : Bool
  threads : Nat → Pc
  log : List Event

/-- A thread calls `put` or `take`, or performs its next access. The clock is read
by the access to `put_time`. -/
inductive Action where
  | put (thread : Nat) (hash : U64) (data : Bytes)
  | take (thread : Nat)
  | access (thread : Nat) (now : TimePoint)

/-- An empty slot with its lock free. -/
def init : State where
  lock_ := false
  payload := []
  has_data := false
  handler_hash := 0
  drop_count := 0
  put_time := 0
  threads := fun _ => .idle
  log := []

/-- A thread goes on. -/
def State.goto (s : State) (thread : Nat) (pc : Pc) : State :=
  { s with threads := Function.update s.threads thread pc }

/-- One more event. -/
def State.record (s : State) (event : Event) : State :=
  { s with log := s.log ++ [event] }

/-- One access of `put` or `take`. A thread that finds the lock taken spins. -/
def access (s : State) (thread : Nat) (now : TimePoint) : Option State :=
  match s.threads thread with
  | .idle => none
  | .putLock hash data =>
      if s.lock_ then some s
      else some (({ s with lock_ := true }.goto thread (.putTest hash data)).record
        (.lockedPut thread hash data))
  | .putTest hash data =>
      if s.has_data then some (s.goto thread (.putCount hash data))
      else some (s.goto thread (.putPayload hash data))
  | .putCount hash data =>
      some ({ s with drop_count := s.drop_count + 1 }.goto thread (.putPayload hash data))
  | .putPayload hash data => some ({ s with payload := data }.goto thread (.putHash hash data))
  | .putHash hash data => some ({ s with handler_hash := hash }.goto thread (.putTime hash data))
  | .putTime hash data =>
      some (({ s with put_time := now }.goto thread
        (.putFlag { handler_hash := hash, payload := data, put_time := now })).record
          (.stamped thread now))
  | .putFlag sample => some ({ s with has_data := true }.goto thread (.putClear sample))
  | .putClear sample =>
      some (({ s with lock_ := false }.goto thread .idle).record (.clearedPut thread sample))
  | .takeLock =>
      if s.lock_ then some s
      else some (({ s with lock_ := true }.goto thread .takeTest).record (.lockedTake thread))
  | .takeTest => if s.has_data then some (s.goto thread .takeFlag) else some (s.goto thread .missClear)
  | .missClear =>
      some (({ s with lock_ := false }.goto thread .idle).record (.clearedTake thread none))
  | .takeFlag => some ({ s with has_data := false }.goto thread .takeHash)
  | .takeHash => some (s.goto thread (.takePayload s.handler_hash))
  | .takePayload hash => some ({ s with payload := [] }.goto thread (.takeTime hash s.payload))
  | .takeTime hash data =>
      some (s.goto thread
        (.takeClear { handler_hash := hash, payload := data, put_time := s.put_time }))
  | .takeClear sample =>
      some (({ s with lock_ := false }.goto thread .idle).record
        (.clearedTake thread (some sample)))

/-- A call begins, or a thread takes its next access. -/
def step (s : State) : Action → Option State
  | .put thread hash data =>
      match s.threads thread with
      | .idle => some (s.goto thread (.putLock hash data))
      | _ => none
  | .take thread =>
      match s.threads thread with
      | .idle => some (s.goto thread .takeLock)
      | _ => none
  | .access thread now => access s thread now

/-- Any number of threads at one slot. -/
def machine : Machine State Action where
  start := init
  step := step

section Chronicle

/-- The readings of the clock, in order. -/
def stamps (log : List Event) : List TimePoint :=
  log.filterMap fun
    | .stamped _ now => some now
    | _ => none

/-- What completed puts wrote, in the order in which they cleared the lock. -/
def completed (log : List Event) : List (HeldSample Bytes) :=
  log.filterMap fun
    | .clearedPut _ sample => some sample
    | _ => none

/-- What successful takes returned, in the order in which they cleared the lock. -/
def taken (log : List Event) : List (HeldSample Bytes) :=
  log.filterMap fun
    | .clearedTake _ result => result
    | _ => none

/-- The thread that has taken the lock and not cleared it. -/
def holder (log : List Event) : Option Nat :=
  log.foldl (fun found event =>
    match event with
    | .lockedPut thread _ _ | .lockedTake thread => some thread
    | .clearedPut _ _ | .clearedTake _ _ => none
    | .stamped _ _ => found) none

/-- A put has taken the lock since the latest successful take. -/
def fresh (log : List Event) : Bool :=
  log.foldl (fun found event =>
    match event with
    | .lockedPut _ _ _ => true
    | .clearedTake _ (some _) => false
    | _ => found) false

/-- A put takes the lock. -/
def Event.opensPut : Event → Bool
  | .lockedPut _ _ _ => true
  | _ => false

/-- The last put in lock order is this one, and these are the readings of the clock
since it took the lock. -/
def LastPut (log : List Event) (hash : U64) (data : Bytes) (readings : List TimePoint) : Prop :=
  ∃ thread earlier later, log = earlier ++ .lockedPut thread hash data :: later ∧
    (∀ event ∈ later, event.opensPut = false) ∧ stamps later = readings

variable (log : List Event) (event : Event)

/-- The times of a longer history end in that of its last event. -/
@[simp] theorem stamps_snoc : stamps (log ++ [event]) = stamps log ++ stamps [event] :=
  List.filterMap_append

/-- The puts completed end in that of the last event. -/
@[simp] theorem completed_snoc :
    completed (log ++ [event]) = completed log ++ completed [event] :=
  List.filterMap_append

/-- The samples taken end in that of the last event. -/
@[simp] theorem taken_snoc : taken (log ++ [event]) = taken log ++ taken [event] :=
  List.filterMap_append

variable {log event}

/-- A put that has taken the lock is the last one. -/
theorem lastPut_open {thread : Nat} {hash : U64} {data : Bytes} :
    LastPut (log ++ [Event.lockedPut thread hash data]) hash data [] :=
  ⟨thread, log, [], rfl, by simp, rfl⟩

/-- Any other event belongs to the last put. -/
theorem LastPut.snoc {hash : U64} {data : Bytes} {readings : List TimePoint}
    (last : LastPut log hash data readings) (other : event.opensPut = false) :
    LastPut (log ++ [event]) hash data (readings ++ stamps [event]) := by
  obtain ⟨thread, earlier, later, rfl, kept, read⟩ := last
  refine ⟨thread, earlier, later ++ [event], by simp, ?_, by rw [stamps_snoc, read]⟩
  intro found member
  rcases List.mem_append.mp member with old | new
  · exact kept found old
  · rw [List.mem_singleton.mp new]
    exact other

end Chronicle

end FlowKernel.SlotAccess
