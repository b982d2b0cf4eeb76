import Mathlib.Data.List.Nodup
import Mathlib.Logic.Function.Basic
import FlowKernel.Common
import FlowKernel.Foundation.LatestRegister
import FlowKernel.Foundation.Machine

/-!
# The latest-only cache of the Rust crates

`LatestSampleSlot` and `LatestSampleCache` of `flowkernel-cache/src/latest.rs`. An
empty slot is `None`, and a slot routes by the hash it was created with: `put`
ignores the hash it is given.

Threads share the cache. The lock of a slot guards its payload; `put` takes it,
counts the frame it is about to overwrite, stores, and lets go, and other threads
run between these steps. The map of slots is guarded by a lock of its own, which
`get_slot` and `drain` hold shared (the former until its `SlotRef` is dropped) and
`pre_allocate` holds alone. Sums of counts wrap, as in a release build.
-/

namespace FlowKernel.Rust

open Foundation

universe u
variable {π : Type u}

/-- What is stored under the lock, the hash it is stored for, and the count of overwrites. -/
structure LatestSampleSlot (π : Type u) where
  payload : Option π
  handler_hash : U64
  drop_count : U64

namespace LatestSampleSlot

/-- A slot for a handler, with nothing in it. -/
def new (handler_hash : U64) : LatestSampleSlot π where
  payload := none
  handler_hash := handler_hash
  drop_count := 0

/-- The check of `put` under the lock: a frame about to be overwritten is counted. -/
def count (slot : LatestSampleSlot π) : LatestSampleSlot π :=
  if slot.payload.isSome then { slot with drop_count := slot.drop_count + 1 } else slot

/-- The store of a put, under the lock. -/
def store (slot : LatestSampleSlot π) (data : π) : LatestSampleSlot π :=
  { slot with payload := some data }

/-- `put` as one operation. -/
def put (slot : LatestSampleSlot π) (_hash : U64) (data : π) : LatestSampleSlot π :=
  slot.count.store data

/-- The slot is emptied, and its count stays. -/
def take (slot : LatestSampleSlot π) : Option (U64 × π) × LatestSampleSlot π :=
  (slot.payload.map fun data => (slot.handler_hash, data), { slot with payload := none })

/-- The count of an overwrite keeps the hash. -/
@[simp] theorem handler_hash_count (slot : LatestSampleSlot π) :
    slot.count.handler_hash = slot.handler_hash := by
  unfold count
  split <;> rfl

/-- The register operation of a put into a slot. -/
def putOperation (slot : LatestSampleSlot π) (data : π) : LatestRegister.Event π :=
  match slot.payload with
  | none => .put data
  | some old => .overwrite old data

/-- The register operation of a take. -/
def takeOperation (slot : LatestSampleSlot π) : LatestRegister.Event π :=
  match slot.payload with
  | none => .miss
  | some data => .take data

end LatestSampleSlot

/-- The map of slots. A slot outside `keys` has not been allocated. -/
structure LatestSampleCache (π : Type u) where
  keys : List U64
  slots : U64 → LatestSampleSlot π
  distinct : keys.Nodup

namespace LatestSampleCache

/-- A map without slots. -/
def new : LatestSampleCache π where
  keys := []
  slots := .new
  distinct := List.nodup_nil

/-- Write through a reference to a slot. -/
def setSlot (cache : LatestSampleCache π) (hash : U64) (slot : LatestSampleSlot π) :
    LatestSampleCache π :=
  { cache with slots := Function.update cache.slots hash slot }

/-- `entry(hash).or_insert_with`: a hash that has a slot keeps it. -/
def pre_allocate (cache : LatestSampleCache π) (hash : U64) : LatestSampleCache π :=
  if present : hash ∈ cache.keys then cache
  else
    { keys := cache.keys ++ [hash]
      slots := Function.update cache.slots hash (.new hash)
      distinct := by
        rw [← List.concat_eq_append]
        exact cache.distinct.concat present }

/-- The slot under a hash, if there is one. -/
def get_slot (cache : LatestSampleCache π) (hash : U64) : Option (LatestSampleSlot π) :=
  if hash ∈ cache.keys then some (cache.slots hash) else none

/-- `total_drops` over an undisturbed cache, walked in the given order. -/
def total_drops (cache : LatestSampleCache π) (order : List U64) : U64 :=
  order.foldl (fun total hash => total + (cache.slots hash).drop_count) 0

/-- A slot with another content stays under its key. -/
@[simp] theorem keys_setSlot (cache : LatestSampleCache π) (hash : U64)
    (slot : LatestSampleSlot π) : (cache.setSlot hash slot).keys = cache.keys :=
  rfl

/-- A slot has the content it was given. -/
@[simp] theorem slots_setSlot_self (cache : LatestSampleCache π) (hash : U64)
    (slot : LatestSampleSlot π) : (cache.setSlot hash slot).slots hash = slot := by
  simp [setSlot]

/-- The other slots have their own. -/
theorem slots_setSlot_other (cache : LatestSampleCache π) {hash found : U64}
    (slot : LatestSampleSlot π) (other : found ≠ hash) :
    (cache.setSlot hash slot).slots found = cache.slots found := by
  simp [setSlot, other]

/-- An allocation adds its key. -/
theorem mem_pre_allocate {cache : LatestSampleCache π} {hash found : U64} :
    found ∈ (cache.pre_allocate hash).keys ↔ found ∈ cache.keys ∨ found = hash := by
  unfold pre_allocate
  split
  next present =>
    constructor
    · exact .inl
    · rintro (member | rfl)
      · exact member
      · exact present
  next => simp

/-- An allocation changes no slot if absent slots are new. -/
theorem slots_pre_allocate {cache : LatestSampleCache π} {hash : U64}
    (absent : hash ∉ cache.keys → cache.slots hash = .new hash) :
    (cache.pre_allocate hash).slots = cache.slots := by
  unfold pre_allocate
  split
  · rfl
  next fresh =>
    change Function.update cache.slots hash (.new hash) = cache.slots
    rw [← absent fresh, Function.update_eq_self]

end LatestSampleCache

namespace SharedCache

/-- Where a producer is: it has no reference to a slot, or has one and is not in a
call of `put`, or holds the lock of the slot. -/
inductive Pc (π : Type u) where
  | idle
  | found (key : U64)
  | locked (key hash : U64) (data : π)
  | counted (key : U64) (data : π)
  | stored (key : U64)

/-- The slot that a producer has a reference to. -/
def Pc.refers : Pc π → Option U64
  | .idle => none
  | .found key | .locked key _ _ | .counted key _ | .stored key => some key

/-- The slot whose lock a producer holds. -/
def Pc.locks : Pc π → Option U64
  | .idle | .found _ => none
  | .locked key _ _ | .counted key _ | .stored key => some key

/-- The one thread that calls `drain`: the slots left to visit, and what it has passed
to its consumer so far. -/
inductive Drainer (π : Type u) where
  | idle
  | drain (todo : List U64) (passed : List (U64 × π))

/-- No drain is under way. -/
def Drainer.resting : Drainer π → Bool
  | .idle => true
  | .drain _ _ => false

/-- What the statements about runs speak of. No step reads the log. A put is logged
when it counts, which is when the frame it finds is given up for its own. -/
inductive Event (π : Type u) where
  | allocated (key : U64)
  | put (thread : Nat) (key hash : U64) (data : π) (operation : LatestRegister.Event π)
  | visited (key : U64) (operation : LatestRegister.Event π)
  | skipped (key : U64)
  | drained (passed : List (U64 × π))

/-- `readers` are the threads that hold a `SlotRef`, and `holder` says who holds the
lock of a slot. -/
structure State (π : Type u) where
  cache : LatestSampleCache π
  holder : U64 → Option Nat
  readers : List Nat
  threads : Nat → Pc π
  drainer : Drainer π
  log : List (Event π)

/-- The walk of a drain follows an order of the map's keys that the source does not
fix. `work` is the next step of a put under the lock. -/
inductive Action (π : Type u) where
  | pre_allocate (key : U64)
  | get_slot (thread : Nat) (key : U64)
  | put (thread : Nat) (hash : U64) (data : π)
  | work (thread : Nat)
  | dropRef (thread : Nat)
  | drain (order : List U64)
  | visit

/-- Nothing is allocated, and nobody is inside. -/
def init (π : Type u) : State π where
  cache := .new
  holder := fun _ => none
  readers := []
  threads := fun _ => .idle
  drainer := .idle
  log := []

/-- A thread goes on. -/
def State.goto (s : State π) (thread : Nat) (pc : Pc π) : State π :=
  { s with threads := Function.update s.threads thread pc }

/-- One more event. -/
def State.record (s : State π) (event : Event π) : State π :=
  { s with log := s.log ++ [event] }

/-- A slot gets another content. -/
def State.setSlot (s : State π) (key : U64) (slot : LatestSampleSlot π) : State π :=
  { s with cache := s.cache.setSlot key slot }

/-- The lock of a slot is taken or given up. -/
def State.setHolder (s : State π) (key : U64) (holder : Option Nat) : State π :=
  { s with holder := Function.update s.holder key holder }

/-- The next step of a put under the lock of its slot. -/
def work (s : State π) (thread : Nat) : Option (State π) :=
  match s.threads thread with
  | .locked key hash data =>
      let slot := s.cache.slots key
      some (((s.setSlot key slot.count).goto thread (.counted key data)).record
        (.put thread key hash data (slot.putOperation data)))
  | .counted key data =>
      some ((s.setSlot key ((s.cache.slots key).store data)).goto thread (.stored key))
  | .stored key => some ((s.setHolder key none).goto thread (.found key))
  | .idle | .found _ => none

/-- The next slot of a drain, or its end. `try_write` fails exactly on a locked slot. -/
def visit (s : State π) : Option (State π) :=
  match s.drainer with
  | .idle => none
  | .drain [] passed => some ({ s with drainer := .idle }.record (.drained passed))
  | .drain (key :: todo) passed =>
      match s.holder key with
      | some _ => some ({ s with drainer := .drain todo passed }.record (.skipped key))
      | none =>
          let slot := s.cache.slots key
          some (({ s with drainer := .drain todo (passed ++ slot.take.1.toList) }.setSlot key
            slot.take.2).record (.visited key slot.takeOperation))

/-- An allocation, a thread in `get_slot` or `put`, or a drain goes on. -/
def step (s : State π) : Action π → Option (State π)
  | .pre_allocate key =>
      match s.readers, s.drainer with
      | [], .idle => some ({ s with cache := s.cache.pre_allocate key }.record (.allocated key))
      | _, _ => none
  | .get_slot thread key =>
      match s.threads thread with
      | .idle =>
          if key ∈ s.cache.keys then
            some ({ s with readers := thread :: s.readers }.goto thread (.found key))
          else some s
      | _ => none
  | .put thread hash data =>
      match s.threads thread with
      | .found key =>
          match s.holder key with
          | none => some ((s.setHolder key (some thread)).goto thread (.locked key hash data))
          | some _ => none
      | _ => none
  | .work thread => work s thread
  | .dropRef thread =>
      match s.threads thread with
      | .found _ => some ({ s with readers := s.readers.erase thread }.goto thread .idle)
      | _ => none
  | .drain order =>
      match s.drainer with
      | .idle =>
          if order.Perm s.cache.keys then some { s with drainer := .drain order [] } else none
      | .drain _ _ => none
  | .visit => visit s

/-- What the next visit of a drain passes to its consumer. -/
def State.yields (s : State π) : Option (U64 × π) :=
  match s.drainer with
  | .idle | .drain [] _ => none
  | .drain (key :: _) _ =>
      match s.holder key with
      | some _ => none
      | none => (s.cache.slots key).take.1

/-- Any number of threads and one drain at a time. -/
def machine (π : Type u) : Machine (State π) (Action π) where
  start := init π
  step := step

/-- The frame pending in a slot. From the count on, it is the one that the put under
way is about to store. -/
def State.pending (s : State π) (key : U64) : Option π :=
  match (s.holder key).map s.threads with
  | some (.counted _ data) => some data
  | _ => (s.cache.slots key).payload

end SharedCache

end FlowKernel.Rust
