import FlowKernel.LatestCache
import FlowKernel.Foundation.Machine

/-!
# The latest-only cache among threads

Any number of threads call `pre_allocate`, `get_slot`, `get_slot_fast`, `put`,
`drain` and `get_total_dropped`. A put, a take and the load of one drop count are
one step each. The map of slots changes only under the exclusive lock, which is not
granted while a `drain` or a `get_total_dropped` holds the shared lock; the pointers
that `get_slot` and `get_slot_fast` return outlive their locks.
-/

namespace FlowKernel.SharedCache

open Foundation

universe u
variable {π : Type u}

/-- What a running call still has to do. -/
inductive Pc where
  | idle
  | put (key : U64)
  | drain (todo : List U64)
  | sum (todo : List U64) (total : U64)
deriving DecidableEq

/-- What the statements about runs speak of. No step reads the log. -/
inductive Event (π : Type u) where
  | allocated (key : U64)
  | put (thread : Nat) (key : U64) (operation : LatestRegister.Event (HeldSample π))
  | drainBegun (thread : Nat)
  | visited (thread : Nat) (key : U64) (operation : LatestRegister.Event (HeldSample π))
  | drainEnded (thread : Nat)
  | summed (thread : Nat) (total : U64)

/-- `readers` are the threads that hold the shared lock of the map across a loop. -/
structure State (π : Type u) where
  cache : LatestSampleCache π
  readers : List Nat
  threads : Nat → Pc
  log : List (Event π)

/-- The first five are the calls; the walk of a loop follows an order of the map's
keys that the source does not fix. -/
inductive Action (π : Type u) where
  | pre_allocate (key : U64)
  | get_slot (thread : Nat) (key : U64)
  | get_slot_fast (thread : Nat) (key : U64)
  | drain (thread : Nat) (order : List U64)
  | get_total_dropped (thread : Nat) (order : List U64)
  | put (thread : Nat) (hash : U64) (data : π) (now : TimePoint)
  | visit (thread : Nat)

/-- Nothing is allocated, and nobody is inside. -/
def init (π : Type u) : State π where
  cache := .empty
  readers := []
  threads := fun _ => .idle
  log := []

/-- A thread goes on. -/
def State.goto (s : State π) (thread : Nat) (pc : Pc) : State π :=
  { s with threads := Function.update s.threads thread pc }

/-- One more event. -/
def State.record (s : State π) (event : Event π) : State π :=
  { s with log := s.log ++ [event] }

/-- A slot gets another content. -/
def State.setSlot (s : State π) (key : U64) (slot : LatestSampleSlot π) : State π :=
  { s with cache := s.cache.setSlot key slot }

/-- The register operation of a put into a slot. -/
def putOperation (slot : LatestSampleSlot π) (sample : HeldSample π) :
    LatestRegister.Event (HeldSample π) :=
  match slot.held with
  | none => .put sample
  | some old => .overwrite old sample

/-- The register operation of a take. -/
def takeOperation (slot : LatestSampleSlot π) : LatestRegister.Event (HeldSample π) :=
  match slot.held with
  | none => .miss
  | some sample => .take sample

/-- `try_emplace` under the exclusive lock. -/
def allocate (s : State π) (key : U64) : Option (State π) :=
  if s.readers = [] then
    some ({ s with cache := s.cache.pre_allocate key }.record (.allocated key))
  else none

/-- The next slot of a loop over the map, or its end. -/
def visit (s : State π) (thread : Nat) : Option (State π) :=
  match s.threads thread with
  | .drain [] =>
      some (({ s with readers := s.readers.erase thread }.goto thread .idle).record
        (.drainEnded thread))
  | .drain (key :: todo) =>
      let slot := s.cache.slots key
      some (((s.setSlot key slot.take.2).goto thread (.drain todo)).record
        (.visited thread key (takeOperation slot)))
  | .sum [] total =>
      some (({ s with readers := s.readers.erase thread }.goto thread .idle).record
        (.summed thread total))
  | .sum (key :: todo) total =>
      some (s.goto thread (.sum todo (total + (s.cache.slots key).drop_count)))
  | .idle | .put _ => none

/-- An allocation, or a thread in `get_slot`, `put`, `drain` or `get_total_dropped` goes on. -/
def step (s : State π) : Action π → Option (State π)
  | .pre_allocate key => allocate s key
  | .get_slot thread key =>
      match s.threads thread with
      | .idle => (allocate s key).map fun next => next.goto thread (.put key)
      | _ => none
  | .get_slot_fast thread key =>
      match s.threads thread with
      | .idle => if key ∈ s.cache.keys then some (s.goto thread (.put key)) else some s
      | _ => none
  | .drain thread order =>
      match s.threads thread with
      | .idle =>
          if order.Perm s.cache.keys then
            some (({ s with readers := thread :: s.readers }.goto thread (.drain order)).record
              (.drainBegun thread))
          else none
      | _ => none
  | .get_total_dropped thread order =>
      match s.threads thread with
      | .idle =>
          if order.Perm s.cache.keys then
            some ({ s with readers := thread :: s.readers }.goto thread (.sum order 0))
          else none
      | _ => none
  | .put thread hash data now =>
      match s.threads thread with
      | .put key =>
          let slot := s.cache.slots key
          some (((s.setSlot key (slot.put hash data now)).goto thread .idle).record
            (.put thread key
              (putOperation slot { handler_hash := hash, payload := data, put_time := now })))
      | _ => none
  | .visit thread => visit s thread

/-- Any number of threads in one cache. -/
def machine (π : Type u) : Machine (State π) (Action π) where
  start := init π
  step := step

end FlowKernel.SharedCache
