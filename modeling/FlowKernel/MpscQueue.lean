import Mathlib.Logic.Function.Basic
import FlowKernel.Common
import FlowKernel.Foundation.Machine
import FlowKernel.Foundation.BoundedFifo

/-!
# The multi-producer single-consumer ring queue, one memory access at a time

`MPSCQueue::push` and `MPSCQueue::pop` of `robot_dataflow/mpsc_queue.hpp`, and
`push`, `pop` and `drop` of the Rust crate `flowkernel-queue`, cut into their
atomic loads, stores and slot accesses. Each thread has a program counter that
holds the locals the remaining code still reads. Memory is sequentially
consistent. Any number of producers and one consumer interleave freely; the
destructor may begin once every thread has finished its call.

The two sources share `push` (the spin lock of the one is the mutex of the
other, and a failed attempt changes nothing). They differ in how an item leaves
a slot: C++ moves out of the object and then destroys it, Rust reads the slot
and leaves it uninitialised. They also differ in the destructor: C++ walks the
slots from `head_` to `tail_`, Rust pops until the queue is empty.

A slot access outside its contract (moving from or destroying a slot without
the object it needs) has no step: it is undefined behaviour in both sources.
-/

namespace FlowKernel.MpscQueue

open Foundation

universe u
variable {α : Type u} {threads : Nat}

/-- The two implementations. -/
inductive Source where
  | cpp
  | rust
deriving DecidableEq

/-- Raw storage, a live object, or an object that has been moved from and still
has to be destroyed. -/
inductive Slot (α : Type u) where
  | raw
  | live (item : α)
  | moved
deriving DecidableEq

/-- The next access of a running `push`. -/
inductive PushPc (α : Type u) where
  | idle
  | lock (item : α)
  | loadTail (item : α)
  | loadHead (item : α) (t : SizeT)
  | countDrop
  | unlockFull
  | construct (item : α) (t next : SizeT)
  | storeTail (item : α) (next : SizeT)
  | unlock
deriving DecidableEq

/-- The next access of a running `pop`, or of the destructor. -/
inductive PopPc (α : Type u) where
  | idle
  | loadTail (h : SizeT)
  | moveOut (h : SizeT)
  | destroy (h : SizeT) (item : α)
  | storeHead (h : SizeT) (item : α)
  | dtorLoadTail (h : SizeT)
  | dtorLoop (h t : SizeT)
  | gone
deriving DecidableEq

/-- What the statements about runs speak of. No step reads the history. -/
inductive Event (threads : Nat) (α : Type u) where
  | called (producer : Fin threads) (item : α)
  | full (producer : Fin threads)
  | constructed (item : α)
  | accepted (producer : Fin threads) (item : α)
  | returned (producer : Fin threads) (pushed : Bool)
  | popped (item : α)
  | sawEmpty
  | destroyed (item : α)
  | discarded (item : α)
deriving DecidableEq

/-- The ring, the lock of the producers, and where every thread is. -/
structure State (threads : Nat) (α : Type u) where
  push_lock : Bool
  buffer : SizeT → Slot α
  head : SizeT
  tail : SizeT
  dropped : U64
  producers : Fin threads → PushPc α
  consumer : PopPc α
  dropping : Bool
  history : List (Event threads α)

/-- A call, or the next access of a thread. -/
inductive Action (threads : Nat) (α : Type u) where
  | push (producer : Fin threads) (item : α)
  | producer (producer : Fin threads)
  | pop
  | consumer
  | destruct

/-- The constructor: both indices zero, nothing dropped, every slot raw. -/
def init (threads : Nat) (α : Type u) : State threads α where
  push_lock := false
  buffer := fun _ => .raw
  head := 0
  tail := 0
  dropped := 0
  producers := fun _ => .idle
  consumer := .idle
  dropping := false
  history := []

/-- A producer goes on. -/
def State.setProducer (s : State threads α) (p : Fin threads) (pc : PushPc α) :
    State threads α :=
  { s with producers := Function.update s.producers p pc }

/-- A slot gets another content. -/
def State.setSlot (s : State threads α) (index : SizeT) (slot : Slot α) : State threads α :=
  { s with buffer := Function.update s.buffer index slot }

/-- One more event. -/
def State.log (s : State threads α) (event : Event threads α) : State threads α :=
  { s with history := s.history ++ [event] }

/-- One access of `push`. `next` is computed where the source computes it, from
the tail just loaded. -/
def pushStep (capacity : SizeT) (s : State threads α) (p : Fin threads) :
    Option (State threads α) :=
  match s.producers p with
  | .idle => none
  | .lock item =>
      if s.push_lock then some s
      else some ({ s with push_lock := true }.setProducer p (.loadTail item))
  | .loadTail item => some (s.setProducer p (.loadHead item s.tail))
  | .loadHead item t =>
      let next := (t + 1) &&& (capacity - 1)
      if next = s.head then some ((s.setProducer p .countDrop).log (.full p))
      else some (s.setProducer p (.construct item t next))
  | .countDrop => some ({ s with dropped := s.dropped + 1 }.setProducer p .unlockFull)
  | .unlockFull =>
      some (({ s with push_lock := false }.setProducer p .idle).log (.returned p false))
  | .construct item t next =>
      some (((s.setSlot t (.live item)).setProducer p (.storeTail item next)).log
        (.constructed item))
  | .storeTail item next =>
      some (({ s with tail := next }.setProducer p .unlock).log (.accepted p item))
  | .unlock =>
      some (({ s with push_lock := false }.setProducer p .idle).log (.returned p true))

/-- One access of `pop`, or of the destructor once it has begun. In Rust the
destructor is a loop around `pop`, whose items it drops. -/
def popStep (source : Source) (capacity : SizeT) (s : State threads α) :
    Option (State threads α) :=
  match s.consumer with
  | .idle => none
  | .loadTail h =>
      if h = s.tail then
        if s.dropping then some { s with consumer := .gone }
        else some ({ s with consumer := .idle }.log .sawEmpty)
      else some { s with consumer := .moveOut h }
  | .moveOut h =>
      match s.buffer h, source with
      | .live item, .cpp => some { s.setSlot h .moved with consumer := .destroy h item }
      | .live item, .rust => some { s.setSlot h .raw with consumer := .storeHead h item }
      | _, _ => none
  | .destroy h item =>
      match s.buffer h with
      | .moved =>
          some ({ s.setSlot h .raw with consumer := .storeHead h item }.log (.destroyed item))
      | _ => none
  | .storeHead h item =>
      some ({ s with head := (h + 1) &&& (capacity - 1), consumer := .idle }.log
        (if s.dropping then .discarded item else .popped item))
  | .dtorLoadTail h => some { s with consumer := .dtorLoop h s.tail }
  | .dtorLoop h t =>
      if h = t then some { s with consumer := .gone }
      else
        match s.buffer h with
        | .live item =>
            some ({ s.setSlot h .raw with
              consumer := .dtorLoop ((h + 1) &&& (capacity - 1)) t }.log (.discarded item))
        | _ => none
  | .gone => none

/-- Where the destructor stands once it has loaded `head_`: in Rust inside the
first `pop` of its loop. -/
def destructorPc (source : Source) (h : SizeT) : PopPc α :=
  match source with
  | .cpp => .dtorLoadTail h
  | .rust => .loadTail h

/-- Calls begin on an idle thread of a queue that is not being destroyed. Rust's
destructor goes on calling `pop`. The destructor's first access is the load of
`head_`. -/
def step (source : Source) (capacity : SizeT) (s : State threads α) :
    Action threads α → Option (State threads α)
  | .push p item =>
      match s.producers p, s.dropping with
      | .idle, false => some ((s.setProducer p (.lock item)).log (.called p item))
      | _, _ => none
  | .producer p => pushStep capacity s p
  | .pop =>
      match s.consumer, s.dropping, source with
      | .idle, false, _ | .idle, true, .rust => some { s with consumer := .loadTail s.head }
      | _, _, _ => none
  | .consumer => popStep source capacity s
  | .destruct =>
      match s.consumer, s.dropping with
      | .idle, false =>
          if ∀ p, (s.producers p matches .idle) then
            some { s with dropping := true, consumer := destructorPc source s.head }
          else none
      | _, _ => none

/-- Producers, a consumer and the destructor, interleaved in any way. -/
def machine (source : Source) (capacity : SizeT) (threads : Nat) (α : Type u) :
    Machine (State threads α) (Action threads α) where
  start := init threads α
  step := step source capacity

end FlowKernel.MpscQueue
