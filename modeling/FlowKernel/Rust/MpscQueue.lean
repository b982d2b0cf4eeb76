import Mathlib.Logic.Function.Basic
import FlowKernel.Common
import FlowKernel.Foundation.BoundedFifo
import FlowKernel.Foundation.RingIndex

/-!
# The Rust ring queue, one call at a time

`MPSCQueue` of `flowkernel-queue/src/mpsc.rs`: `new`, `push`, `pop`, `len`, `is_empty`,
`is_full` and `dropped_count`, each run to completion. What can go wrong is part of the
result: an addition that overflows, an index outside the buffer, a read of a slot that
holds nothing. The mutex of `push` is free whenever a call begins, so it does not appear.

The queue is compared with a list that holds at most `CAPACITY - 1` items. Position `p` of
the endless sequence of items lives in cell `p` modulo the capacity, and `head` and `tail`
are the cells of the first item held and of the one behind the last.
-/

namespace FlowKernel.Rust

open Foundation RingIndex

variable {T : Type} {CAPACITY : SizeT}

/-- What would end an operation before its end: a panic, or a read of no value. -/
inductive Fault where
  | overflow
  | outOfBounds
  | uninitialized
deriving DecidableEq

/-- The test of `new` can be computed. -/
instance (capacity : SizeT) : Decidable (PowerOfTwo capacity) :=
  inferInstanceAs (Decidable
    (∃ exponent, exponent < 64 ∧ capacity = BitVec.ofNat 64 (2 ^ exponent)))

/-- `left + right` of a build that checks for overflow. -/
def checkedAdd (left right : SizeT) : Except Fault SizeT :=
  if left.toNat + right.toNat < 2 ^ 64 then .ok (left + right) else .error .overflow

/-- The ring: its cells, the two positions, and the count of refusals. -/
structure MPSCQueue (T : Type) (CAPACITY : SizeT) where
  buffer : SizeT → Option T
  head : SizeT
  tail : SizeT
  dropped : U64

namespace MPSCQueue

/-- Panics, which is `none`, unless the capacity is a power of two. -/
def new (T : Type) (CAPACITY : SizeT) : Option (MPSCQueue T CAPACITY) :=
  if PowerOfTwo CAPACITY then
    some { buffer := fun _ => none, head := 0, tail := 0, dropped := 0 }
  else none

/-- The sum and the index are checked, and a full ring refuses the item. -/
def push (queue : MPSCQueue T CAPACITY) (item : T) :
    Except Fault (Bool × MPSCQueue T CAPACITY) := do
  let next := (← checkedAdd queue.tail 1) &&& (CAPACITY - 1)
  if next = queue.head then
    return (false, { queue with dropped := queue.dropped + 1 })
  else if queue.tail < CAPACITY then
    return (true, { queue with
      buffer := Function.update queue.buffer queue.tail (some item), tail := next })
  else throw .outOfBounds

/-- The item is moved out of its slot. -/
def pop (queue : MPSCQueue T CAPACITY) : Except Fault (Option T × MPSCQueue T CAPACITY) := do
  if queue.head = queue.tail then
    return (none, queue)
  else if queue.head < CAPACITY then
    match queue.buffer queue.head with
    | none => throw .uninitialized
    | some item =>
        let next := (← checkedAdd queue.head 1) &&& (CAPACITY - 1)
        return (some item, { queue with
          buffer := Function.update queue.buffer queue.head none, head := next })
  else throw .outOfBounds

/-- How many items were refused. -/
def dropped_count (queue : MPSCQueue T CAPACITY) : U64 :=
  queue.dropped

/-- `wrapping_sub`, then the mask. -/
def len (queue : MPSCQueue T CAPACITY) : SizeT :=
  (queue.tail - queue.head) &&& (CAPACITY - 1)

/-- The two positions are one. -/
def is_empty (queue : MPSCQueue T CAPACITY) : Bool :=
  queue.len = 0

/-- One more position would meet the front. -/
def is_full (queue : MPSCQueue T CAPACITY) : Except Fault Bool := do
  let next := (← checkedAdd queue.tail 1) &&& (CAPACITY - 1)
  return next = queue.head

end MPSCQueue

/-- A call of the queue's interface. -/
inductive QueueCall (T : Type) where
  | push (item : T)
  | pop
  | len
  | is_empty
  | is_full
  | dropped_count
deriving DecidableEq

/-- What a call returns. -/
inductive QueueAnswer (T : Type) where
  | push (pushed : Bool)
  | pop (item : Option T)
  | len (count : SizeT)
  | is_empty (empty : Bool)
  | is_full (full : Bool)
  | dropped_count (count : U64)
deriving DecidableEq

namespace MPSCQueue

/-- One call, with its answer. -/
def perform (queue : MPSCQueue T CAPACITY) :
    QueueCall T → Except Fault (QueueAnswer T × MPSCQueue T CAPACITY)
  | .push item => do
      let (pushed, next) ← queue.push item
      return (.push pushed, next)
  | .pop => do
      let (item, next) ← queue.pop
      return (.pop item, next)
  | .len => return (.len queue.len, queue)
  | .is_empty => return (.is_empty queue.is_empty, queue)
  | .is_full => do
      let full ← queue.is_full
      return (.is_full full, queue)
  | .dropped_count => return (.dropped_count queue.dropped_count, queue)

/-- The answers to a sequence of calls, and the queue after it. -/
def run (queue : MPSCQueue T CAPACITY) :
    List (QueueCall T) → Except Fault (List (QueueAnswer T) × MPSCQueue T CAPACITY)
  | [] => return ([], queue)
  | call :: rest => do
      let (answer, next) ← queue.perform call
      let (answers, final) ← next.run rest
      return (answer :: answers, final)

end MPSCQueue

/-- What the queue is for: a buffer of at most `limit` items that counts those it turned
away. -/
structure BoundedList (T : Type) where
  items : List T
  dropped : U64

namespace BoundedList

/-- Nothing is held, and nothing was refused. -/
def empty : BoundedList T where
  items := []
  dropped := 0

/-- The same call on the list. -/
def perform (limit : Nat) (list : BoundedList T) : QueueCall T → QueueAnswer T × BoundedList T
  | .push item =>
      match BoundedFifo.push limit list.items item with
      | (true, items) => (.push true, { list with items := items })
      | (false, _) => (.push false, { list with dropped := list.dropped + 1 })
  | .pop =>
      match BoundedFifo.pop list.items with
      | none => (.pop none, list)
      | some (item, rest) => (.pop (some item), { list with items := rest })
  | .len => (.len (BitVec.ofNat 64 list.items.length), list)
  | .is_empty => (.is_empty (list.items.length = 0), list)
  | .is_full => (.is_full (¬ list.items.length < limit), list)
  | .dropped_count => (.dropped_count list.dropped, list)

/-- Calls one after another, with their answers. -/
def run (limit : Nat) (list : BoundedList T) :
    List (QueueCall T) → List (QueueAnswer T) × BoundedList T
  | [] => ([], list)
  | call :: rest =>
      let (answer, next) := list.perform limit call
      let (answers, final) := next.run limit rest
      (answer :: answers, final)

end BoundedList

/-- The queue holds the items of the list, the first of them at position `front`. -/
structure Holds (queue : MPSCQueue T CAPACITY) (list : BoundedList T) (front : Nat) : Prop where
  head_at : queue.head = cell CAPACITY front
  tail_at : queue.tail = cell CAPACITY (front + list.items.length)
  bounded : list.items.length < CAPACITY.toNat
  stored : ∀ offset item, list.items[offset]? = some item →
    queue.buffer (cell CAPACITY (front + offset)) = some item
  counted : queue.dropped = list.dropped

variable {queue : MPSCQueue T CAPACITY} {list : BoundedList T} {front : Nat}

/-- A position inside the ring has a successor. -/
theorem checkedAdd_cell (power : PowerOfTwo CAPACITY) (position : Nat) :
    checkedAdd (cell CAPACITY position) 1 = .ok (cell CAPACITY position + 1) := by
  have inside : position % CAPACITY.toNat < CAPACITY.toNat := Nat.mod_lt _ power.pos
  have small : CAPACITY.toNat < 2 ^ 64 := CAPACITY.isLt
  have one : (1 : SizeT).toNat = 1 := rfl
  rw [checkedAdd, cell_toNat power, one, if_pos (by omega)]

namespace Holds

/-- The advanced tail is the cell behind the next item. -/
theorem next_at (holds : Holds queue list front) (power : PowerOfTwo CAPACITY) :
    (queue.tail + 1) &&& (CAPACITY - 1) = cell CAPACITY (front + (list.items.length + 1)) := by
  rw [holds.tail_at, masked_cell power, Nat.add_assoc]

/-- The full test finds `CAPACITY - 1` items. -/
theorem full_test (holds : Holds queue list front) (power : PowerOfTwo CAPACITY) :
    (queue.tail + 1) &&& (CAPACITY - 1) = queue.head ↔
      ¬ list.items.length < CAPACITY.toNat - 1 := by
  have bounded : list.items.length < CAPACITY.toNat := holds.bounded
  rw [holds.tail_at, holds.head_at, masked_full power bounded]
  omega

/-- The empty test finds no item. -/
theorem empty_test (holds : Holds queue list front) (power : PowerOfTwo CAPACITY) :
    queue.head = queue.tail ↔ list.items = [] := by
  rw [holds.head_at, holds.tail_at, cell_empty power holds.bounded, List.length_eq_zero_iff]

/-- The masked difference of the indices is the exact count, however often they wrapped. -/
theorem len_exact (holds : Holds queue list front) (power : PowerOfTwo CAPACITY) :
    queue.len.toNat = list.items.length := by
  rw [MPSCQueue.len, holds.tail_at, holds.head_at]
  exact masked_distance power front holds.bounded

/-- The length that is reported is that of the list. -/
theorem len_eq (holds : Holds queue list front) (power : PowerOfTwo CAPACITY) :
    queue.len = BitVec.ofNat 64 list.items.length := by
  rw [← holds.len_exact power, BitVec.ofNat_toNat, BitVec.setWidth_eq]

/-- The position behind the back can be computed. -/
theorem tail_checked (holds : Holds queue list front) (power : PowerOfTwo CAPACITY) :
    checkedAdd queue.tail 1 = .ok (queue.tail + 1) := by
  rw [holds.tail_at]
  exact checkedAdd_cell power _

/-- A ring is full with one item less than its capacity. -/
theorem is_full_eq (holds : Holds queue list front) (power : PowerOfTwo CAPACITY) :
    queue.is_full = .ok (decide (¬ list.items.length < CAPACITY.toNat - 1)) := by
  simp only [MPSCQueue.is_full, holds.tail_checked power, holds.full_test power, bind, Except.bind,
    pure, Except.pure]

/-- A full ring refuses and counts. -/
theorem push_full (holds : Holds queue list front) (power : PowerOfTwo CAPACITY)
    (full : ¬ list.items.length < CAPACITY.toNat - 1) (item : T) :
    queue.push item = .ok (false, { queue with dropped := queue.dropped + 1 }) := by
  simp only [MPSCQueue.push, holds.tail_checked power, bind, Except.bind]
  rw [if_pos ((holds.full_test power).mpr full)]
  rfl

/-- A ring with room takes the item behind the others. -/
theorem push_room (holds : Holds queue list front) (power : PowerOfTwo CAPACITY)
    (room : list.items.length < CAPACITY.toNat - 1) (item : T) :
    ∃ next, queue.push item = .ok (true, next) ∧
      Holds next { list with items := list.items ++ [item] } front := by
  have roomy : ¬ (queue.tail + 1) &&& (CAPACITY - 1) = queue.head :=
    fun same => (holds.full_test power).mp same room
  have inside : queue.tail < CAPACITY := holds.tail_at ▸ cell_lt power _
  refine ⟨{ queue with
    buffer := Function.update queue.buffer queue.tail (some item)
    tail := (queue.tail + 1) &&& (CAPACITY - 1) }, ?_, ?_⟩
  · simp only [MPSCQueue.push, holds.tail_checked power, bind, Except.bind]
    rw [if_neg roomy, if_pos inside]
    rfl
  refine ⟨holds.head_at, ?_, ?_, ?_, holds.counted⟩
  · rw [List.length_append]
    exact holds.next_at power
  · rw [List.length_append, List.length_singleton]
    omega
  · intro offset found present
    change Function.update queue.buffer queue.tail (some item) (cell CAPACITY (front + offset)) =
      some found
    rw [holds.tail_at]
    rcases Nat.lt_or_ge offset list.items.length with earlier | later
    · rw [List.getElem?_append_left earlier] at present
      have away : cell CAPACITY (front + offset) ≠ cell CAPACITY (front + list.items.length) :=
        offsets_distinct power (by omega) (by omega) (by omega)
      rw [Function.update_of_ne away]
      exact holds.stored offset found present
    · rw [List.getElem?_append_right later] at present
      have last : offset = list.items.length := by
        have bound := (List.getElem?_eq_some_iff.mp present).1
        rw [List.length_singleton] at bound
        omega
      subst last
      rw [Function.update_self]
      simpa using present

/-- An empty ring yields nothing. -/
theorem pop_empty (holds : Holds queue list front) (power : PowerOfTwo CAPACITY)
    (empty : list.items = []) : queue.pop = .ok (none, queue) := by
  rw [MPSCQueue.pop, if_pos ((holds.empty_test power).mpr empty)]
  rfl

/-- A pop yields the oldest item. -/
theorem pop_item (holds : Holds queue list front) (power : PowerOfTwo CAPACITY) {item : T}
    {rest : List T} (held : list.items = item :: rest) :
    ∃ next, queue.pop = .ok (some item, next) ∧
      Holds next { list with items := rest } (front + 1) := by
  have nonempty : ¬ queue.head = queue.tail := by
    rw [holds.empty_test power, held]
    exact List.cons_ne_nil item rest
  have inside : queue.head < CAPACITY := holds.head_at ▸ cell_lt power _
  have first : queue.buffer queue.head = some item := by
    rw [holds.head_at]
    exact holds.stored 0 item (by rw [held]; rfl)
  have checked : checkedAdd queue.head 1 = .ok (queue.head + 1) := by
    rw [holds.head_at]
    exact checkedAdd_cell power front
  have bounded : rest.length + 1 < CAPACITY.toNat := by
    have bounded := holds.bounded
    rwa [held] at bounded
  refine ⟨{ queue with
    buffer := Function.update queue.buffer queue.head none
    head := (queue.head + 1) &&& (CAPACITY - 1) }, ?_, ?_⟩
  · simp only [MPSCQueue.pop, if_neg nonempty, if_pos inside, first, checked, bind, Except.bind]
    rfl
  refine ⟨?_, ?_, ?_, ?_, holds.counted⟩
  · rw [holds.head_at]
    exact masked_cell power front
  · rw [holds.tail_at, held, List.length_cons]
    change cell CAPACITY (front + (rest.length + 1)) = cell CAPACITY (front + 1 + rest.length)
    congr 1
    omega
  · exact Nat.lt_of_succ_lt bounded
  · intro offset found present
    change Function.update queue.buffer queue.head none (cell CAPACITY (front + 1 + offset)) =
      some found
    have later : offset < rest.length := (List.getElem?_eq_some_iff.mp present).1
    have away : cell CAPACITY (front + (1 + offset)) ≠ cell CAPACITY (front + 0) :=
      offsets_distinct power (by omega) power.pos (by omega)
    rw [holds.head_at, Nat.add_assoc]
    rw [Function.update_of_ne (by simpa using away)]
    exact holds.stored (1 + offset) found (by rw [held, Nat.add_comm]; exact present)

/-- One call answers as the list does, and the queue then holds what the list does. -/
theorem perform_agrees (holds : Holds queue list front) (power : PowerOfTwo CAPACITY)
    (call : QueueCall T) :
    ∃ next later, queue.perform call = .ok ((list.perform (CAPACITY.toNat - 1) call).1, next) ∧
      Holds next (list.perform (CAPACITY.toNat - 1) call).2 later := by
  cases call with
  | push item =>
    by_cases room : list.items.length < CAPACITY.toNat - 1
    · obtain ⟨next, pushed, after⟩ := holds.push_room power room item
      refine ⟨next, front, ?_, ?_⟩
      · simp [MPSCQueue.perform, BoundedList.perform, BoundedFifo.push, pushed, room, bind,
          Except.bind, pure, Except.pure]
      · simpa only [BoundedList.perform, BoundedFifo.push, if_pos room] using after
    · refine ⟨{ queue with dropped := queue.dropped + 1 }, front, ?_, ?_⟩
      · simp [MPSCQueue.perform, BoundedList.perform, BoundedFifo.push, holds.push_full power room,
          room, bind, Except.bind, pure, Except.pure]
      · simp only [BoundedList.perform, BoundedFifo.push, if_neg room]
        exact ⟨holds.head_at, holds.tail_at, holds.bounded, holds.stored,
          congrArg (· + 1) holds.counted⟩
  | pop =>
    cases held : list.items with
    | nil =>
      refine ⟨queue, front, ?_, ?_⟩
      · simp [MPSCQueue.perform, BoundedList.perform, BoundedFifo.pop, holds.pop_empty power held,
          held, bind, Except.bind, pure, Except.pure]
      · simpa only [BoundedList.perform, BoundedFifo.pop, held] using holds
    | cons item rest =>
      obtain ⟨next, popped, after⟩ := holds.pop_item power held
      refine ⟨next, front + 1, ?_, ?_⟩
      · simp [MPSCQueue.perform, BoundedList.perform, BoundedFifo.pop, popped, held, bind,
          Except.bind, pure, Except.pure]
      · simpa only [BoundedList.perform, BoundedFifo.pop, held] using after
  | len =>
    refine ⟨queue, front, ?_, holds⟩
    rw [MPSCQueue.perform, holds.len_eq power]
    rfl
  | is_empty =>
    have same : queue.is_empty = decide (list.items.length = 0) := by
      rw [MPSCQueue.is_empty, ← holds.len_exact power]
      exact decide_eq_decide.mpr BitVec.toNat_eq
    refine ⟨queue, front, ?_, holds⟩
    rw [MPSCQueue.perform, same]
    rfl
  | is_full =>
    refine ⟨queue, front, ?_, holds⟩
    rw [MPSCQueue.perform, holds.is_full_eq power]
    rfl
  | dropped_count =>
    refine ⟨queue, front, ?_, holds⟩
    rw [MPSCQueue.perform, MPSCQueue.dropped_count, holds.counted]
    rfl

/-- Any calls are answered alike, by induction on them. -/
theorem run_agrees (power : PowerOfTwo CAPACITY) (calls : List (QueueCall T))
    (holds : Holds queue list front) :
    ∃ final later, queue.run calls = .ok ((list.run (CAPACITY.toNat - 1) calls).1, final) ∧
      Holds final (list.run (CAPACITY.toNat - 1) calls).2 later := by
  induction calls generalizing queue list front with
  | nil => exact ⟨queue, front, rfl, holds⟩
  | cons call rest inductionHypothesis =>
    obtain ⟨next, mid, performed, between⟩ := holds.perform_agrees power call
    obtain ⟨final, later, ran, after⟩ := inductionHypothesis between
    refine ⟨final, later, ?_, after⟩
    simp only [MPSCQueue.run, performed, ran, bind, Except.bind]
    rfl

end Holds

/-- The indices of a queue that holds the items of a list. -/
structure Exact (queue : MPSCQueue T CAPACITY) (list : BoundedList T) : Prop where
  bounded : list.items.length ≤ CAPACITY.toNat - 1
  head_inside : queue.head < CAPACITY
  tail_inside : queue.tail < CAPACITY
  head_advances : queue.head.toNat + 1 < 2 ^ 64
  tail_advances : queue.tail.toNat + 1 < 2 ^ 64
  count : ((queue.tail - queue.head) &&& (CAPACITY - 1)).toNat = list.items.length
  full : ∀ item, queue.is_full = .ok true ↔ ∃ next, queue.push item = .ok (false, next)

/-- What is observed of the ring is observed of the list. -/
theorem Holds.exact (holds : Holds queue list front) (power : PowerOfTwo CAPACITY) :
    Exact queue list := by
  have bounded : list.items.length < CAPACITY.toNat := holds.bounded
  have head_inside : queue.head < CAPACITY := holds.head_at ▸ cell_lt power _
  have tail_inside : queue.tail < CAPACITY := holds.tail_at ▸ cell_lt power _
  have small : CAPACITY.toNat < 2 ^ 64 := CAPACITY.isLt
  have head_below := BitVec.lt_def.mp head_inside
  have tail_below := BitVec.lt_def.mp tail_inside
  refine ⟨by omega, head_inside, tail_inside, by omega, by omega, holds.len_exact power, ?_⟩
  intro item
  rw [holds.is_full_eq power]
  constructor
  · intro full
    exact ⟨_, holds.push_full power (by simpa using full) item⟩
  · rintro ⟨next, refused⟩
    have full : ¬ list.items.length < CAPACITY.toNat - 1 := by
      intro room
      obtain ⟨other, pushed, -⟩ := holds.push_room power room item
      rw [pushed] at refused
      simp at refused
    rw [decide_eq_true full]

/-- `new` accepts the powers of two only, and its ring is empty. -/
theorem new_eq_some {fresh : MPSCQueue T CAPACITY}
    (accepted : MPSCQueue.new T CAPACITY = some fresh) :
    PowerOfTwo CAPACITY ∧ Holds fresh .empty 0 := by
  unfold MPSCQueue.new at accepted
  split at accepted
  next power =>
    obtain rfl := Option.some.inj accepted
    refine ⟨power, (cell_zero CAPACITY).symm, (cell_zero CAPACITY).symm, power.pos, ?_, rfl⟩
    intro offset item present
    simp [BoundedList.empty] at present
  next => simp at accepted

/-- Exactly the powers of two are accepted. -/
theorem new_isSome : (MPSCQueue.new T CAPACITY).isSome ↔ PowerOfTwo CAPACITY := by
  unfold MPSCQueue.new
  split
  next power => simp [power]
  next other => simp [other]

/-- A queue that `new` has made answers every sequence of calls as the bounded list does,
without a fault, and its indices then measure what the list holds. -/
theorem queue_is_bounded_list {fresh : MPSCQueue T CAPACITY}
    (accepted : MPSCQueue.new T CAPACITY = some fresh) (calls : List (QueueCall T)) :
    ∃ final, fresh.run calls =
        .ok ((BoundedList.empty.run (CAPACITY.toNat - 1) calls).1, final) ∧
      Exact final (BoundedList.empty.run (CAPACITY.toNat - 1) calls).2 := by
  obtain ⟨power, holds⟩ := new_eq_some accepted
  obtain ⟨final, later, ran, after⟩ := holds.run_agrees power calls
  exact ⟨final, ran, after.exact power⟩

/-- A queue of four cells whose indices go round, and are refused a fourth item. -/
def wrappingCalls : List (QueueCall Nat) :=
  [.push 1, .push 2, .push 3, .push 4, .is_full, .dropped_count, .pop, .pop, .push 5, .push 6,
    .len, .pop, .pop, .pop, .is_empty, .pop]

/-- The calls go round the ring, fill it and empty it. -/
theorem wrappingCalls_answered :
    ∃ fresh final : MPSCQueue Nat 4, MPSCQueue.new Nat 4 = some fresh ∧
      fresh.run wrappingCalls = .ok
        ([.push true, .push true, .push true, .push false, .is_full true, .dropped_count 1,
          .pop (some 1), .pop (some 2), .push true, .push true, .len 3, .pop (some 3),
          .pop (some 5), .pop (some 6), .is_empty true, .pop none], final) ∧
      Exact final ⟨[], 1⟩ := by
  obtain ⟨final, ran, exact_⟩ := @queue_is_bounded_list Nat 4 _ rfl wrappingCalls
  exact ⟨_, final, rfl, ran, exact_⟩

end FlowKernel.Rust
