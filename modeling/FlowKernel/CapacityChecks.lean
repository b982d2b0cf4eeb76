import Mathlib.Data.List.Count
import FlowKernel.QueueLifetime
import FlowKernel.Rust.MpscQueue

/-!
# What the capacity checks admit

The ring arithmetic is right for powers of two. `robot_dataflow/mpsc_queue.hpp` asserts that the
capacity and its predecessor share no bit, and `new` of the Rust crate that the capacity is a
power of two, which counts its set bits.

The indices of a run are the two counters of the queue and the locals of running calls. A step
only copies such an index or takes its masked successor, so for a power of two they all stay
inside the ring. The first test also admits zero, for which there is no ring to stay in.
-/

namespace FlowKernel.MpscQueue

open Foundation RingIndex

universe u
variable {α : Type u} {threads : Nat}
variable {source : Source} {capacity : SizeT} {s after : State threads α}

/-- The condition of the `static_assert`. -/
def static_assert (Capacity : SizeT) : Bool :=
  decide (Capacity &&& (Capacity - 1) = 0)

/-- `count_ones() == 1` of the Rust integer. -/
def is_power_of_two (CAPACITY : SizeT) : Bool :=
  decide (CAPACITY.cpop = 1)

/-- The capacities with which a source lets a queue be built. -/
def Source.admits : Source → SizeT → Bool
  | .cpp => static_assert
  | .rust => is_power_of_two

/-- The indices that a push has computed. -/
def PushPc.indices : PushPc α → List SizeT
  | .loadHead _ t => [t]
  | .construct _ t next => [t, next]
  | .storeTail _ next => [next]
  | _ => []

/-- The indices that the consumer or the destructor has computed. -/
def PopPc.indices : PopPc α → List SizeT
  | .loadTail h | .moveOut h | .destroy h _ | .storeHead h _ | .dtorLoadTail h => [h]
  | .dtorLoop h t => [h, t]
  | .idle | .gone => []

/-- The slot that the next access of a running `push` touches. -/
def PushPc.slot : PushPc α → Option SizeT
  | .construct _ t _ => some t
  | _ => none

/-- The slot that the consumer is about to read. -/
def PopPc.slot : PopPc α → Option SizeT
  | .moveOut h | .destroy h _ => some h
  | .dtorLoop h t => if h = t then none else some h
  | _ => none

/-- A counter or a local of a running call holds the index. -/
inductive State.Reaches (s : State threads α) (index : SizeT) : Prop where
  | head (here : index = s.head)
  | tail (here : index = s.tail)
  | producer (p : Fin threads) (here : index ∈ (s.producers p).indices)
  | consumer (here : index ∈ s.consumer.indices)

/-- The next access of some thread touches the slot. -/
def State.Uses (s : State threads α) (index : SizeT) : Prop :=
  (∃ p, (s.producers p).slot = some index) ∨ s.consumer.slot = some index

/-- Something was built in the slot. -/
def Slot.occupied : Slot α → Bool
  | .raw => false
  | .live _ | .moved => true

/-- The ring arithmetic works in a state. What is held is counted twice: by the calls that took
effect, and by the slots with an object in them. -/
structure RingSafe (capacity : SizeT) (s : State threads α) : Prop where
  slots : ∀ index, s.Uses index → index < capacity
  advances : ∀ index, s.Reaches index →
    ((index + 1) &&& (capacity - 1)).toNat = (index.toNat + 1) % capacity.toNat
  held : (accepted s.history).length ≤ (left s.history).length + (capacity.toNat - 1)
  objects : (List.range capacity.toNat).countP
    (fun index => (s.buffer (BitVec.ofNat 64 index)).occupied) ≤ capacity.toNat - 1

/-- A capacity with which every run is safe. -/
def Works (source : Source) (capacity : SizeT) : Prop :=
  ∀ (threads : Nat) (α : Type) (s : State threads α),
    (machine source capacity threads α).Reachable s → RingSafe capacity s

/-- The bit test passes the powers of two, and zero. -/
theorem static_assert_iff : static_assert capacity = true ↔ capacity = 0 ∨ PowerOfTwo capacity := by
  rw [static_assert, decide_eq_true_iff]
  exact and_pred_eq_zero capacity

/-- The library's test passes the powers of two. -/
theorem is_power_of_two_iff : is_power_of_two capacity = true ↔ PowerOfTwo capacity := by
  rw [is_power_of_two, decide_eq_true_iff]
  exact cpop_eq_one capacity

/-- The assert of the Rust constructor is that test. -/
theorem new_checks (T : Type) :
    (Rust.MPSCQueue.new T capacity).isSome = is_power_of_two capacity := by
  rw [Bool.eq_iff_iff, Rust.new_isSome, is_power_of_two_iff]

/-- Zero is no power of two. -/
theorem power_ne_zero (power : PowerOfTwo capacity) : capacity ≠ 0 := by
  rintro rfl
  exact absurd power.pos (by decide)

/-- Either test admits a nonzero capacity exactly if it is a power of two. -/
theorem admits_iff (nonzero : capacity ≠ 0) :
    source.admits capacity = true ↔ PowerOfTwo capacity := by
  cases source with
  | cpp =>
    rw [Source.admits, static_assert_iff]
    exact or_iff_right nonzero
  | rust => exact is_power_of_two_iff

example : static_assert 0 = true ∧ is_power_of_two 0 = false := by decide

/-- An index that a state has, or the masked successor of one. -/
def Follows (capacity : SizeT) (s : State threads α) (index : SizeT) : Prop :=
  s.Reaches index ∨ ∃ earlier, s.Reaches earlier ∧ index = (earlier + 1) &&& (capacity - 1)

/-- A producer's access gives it new locals and may set `tail_`. -/
theorem reaches_producer {p : Fin threads} {pc : PushPc α} {index : SizeT}
    (there : after.Reaches index)
    (moved : after.producers = Function.update s.producers p pc)
    (head : after.head = s.head) (consumer : after.consumer = s.consumer)
    (tail : Follows capacity s after.tail)
    (locals : ∀ index, index ∈ pc.indices → Follows capacity s index) :
    Follows capacity s index := by
  cases there with
  | head here => exact .inl (.head (here.trans head))
  | tail here => exact here ▸ tail
  | producer q here =>
    rw [moved] at here
    by_cases same : q = p
    · subst same
      rw [Function.update_self] at here
      exact locals index here
    · rw [Function.update_of_ne same] at here
      exact .inl (.producer q here)
  | consumer here =>
    rw [consumer] at here
    exact .inl (.consumer here)

/-- The consumer's access gives it new locals and may set `head_`. -/
theorem reaches_consumer {index : SizeT} (there : after.Reaches index)
    (producers : after.producers = s.producers)
    (tail : after.tail = s.tail) (head : Follows capacity s after.head)
    (locals : ∀ index, index ∈ after.consumer.indices → Follows capacity s index) :
    Follows capacity s index := by
  cases there with
  | head here => exact here ▸ head
  | tail here => exact .inl (.tail (here.trans tail))
  | producer q here =>
    rw [producers] at here
    exact .inl (.producer q here)
  | consumer here => exact locals index here

/-- One index that the program may have come to. -/
theorem follows_one {index : SizeT} (follows : Follows capacity s index) :
    ∀ found, found ∈ [index] → Follows capacity s found := by
  intro found here
  rw [List.mem_singleton] at here
  exact here ▸ follows

/-- Two indices that the program may have come to. -/
theorem follows_two {first second : SizeT} (one : Follows capacity s first)
    (other : Follows capacity s second) :
    ∀ found, found ∈ [first, second] → Follows capacity s found := by
  intro found here
  rcases List.mem_pair.mp here with rfl | rfl
  · exact one
  · exact other

/-- A step of a push comes to the next index only. -/
theorem reaches_push {p : Fin threads} {index : SizeT}
    (stepped : pushStep capacity s p = some after) (there : after.Reaches index) :
    Follows capacity s index := by
  have tail : Follows capacity s s.tail := .inl (.tail rfl)
  cases pc : s.producers p with
  | idle => simp [pushStep, pc] at stepped
  | lock item =>
    simp only [pushStep, pc] at stepped
    split at stepped <;> obtain rfl := Option.some.inj stepped
    · exact .inl there
    · exact reaches_producer there rfl rfl rfl tail (by simp [PushPc.indices])
  | loadTail item =>
    obtain rfl : _ = after := by simpa [pushStep, pc] using stepped
    exact reaches_producer there rfl rfl rfl tail (follows_one tail)
  | loadHead item t =>
    have loaded : s.Reaches t := .producer p (by simp [pc, PushPc.indices])
    simp only [pushStep, pc] at stepped
    split at stepped <;> obtain rfl := Option.some.inj stepped
    · exact reaches_producer there rfl rfl rfl tail (by simp [PushPc.indices])
    · exact reaches_producer there rfl rfl rfl tail
        (follows_two (.inl loaded) (.inr ⟨t, loaded, rfl⟩))
  | construct item t next =>
    have advanced : s.Reaches next := .producer p (by simp [pc, PushPc.indices])
    obtain rfl : _ = after := by simpa [pushStep, pc] using stepped
    exact reaches_producer there rfl rfl rfl tail (follows_one (.inl advanced))
  | storeTail item next =>
    have advanced : s.Reaches next := .producer p (by simp [pc, PushPc.indices])
    obtain rfl : _ = after := by simpa [pushStep, pc] using stepped
    exact reaches_producer there rfl rfl rfl (.inl advanced) (by simp [PushPc.indices])
  | countDrop | unlockFull | unlock =>
    obtain rfl : _ = after := by simpa [pushStep, pc] using stepped
    exact reaches_producer there rfl rfl rfl tail (by simp [PushPc.indices])

/-- A step of the consumer or the destructor comes to the next index only. -/
theorem reaches_pop {index : SizeT} (stepped : popStep source capacity s = some after)
    (there : after.Reaches index) : Follows capacity s index := by
  have own : ∀ found, found ∈ s.consumer.indices → s.Reaches found := fun _ here => .consumer here
  have head : Follows capacity s s.head := .inl (.head rfl)
  cases pc : s.consumer with
  | idle => simp [popStep, pc] at stepped
  | loadTail h =>
    have loaded : s.Reaches h := own h (by simp [pc, PopPc.indices])
    simp only [popStep, pc] at stepped
    split at stepped
    · split at stepped <;> obtain rfl := Option.some.inj stepped
      all_goals exact reaches_consumer there rfl rfl head (by simp [PopPc.indices, State.log])
    · obtain rfl := Option.some.inj stepped
      exact reaches_consumer there rfl rfl head (follows_one (.inl loaded))
  | moveOut h =>
    have loaded : s.Reaches h := own h (by simp [pc, PopPc.indices])
    simp only [popStep, pc] at stepped
    split at stepped
    case h_3 => simp at stepped
    all_goals
      obtain rfl := Option.some.inj stepped
      exact reaches_consumer there rfl rfl head (follows_one (.inl loaded))
  | destroy h item =>
    have loaded : s.Reaches h := own h (by simp [pc, PopPc.indices])
    simp only [popStep, pc] at stepped
    split at stepped
    case h_2 => simp at stepped
    obtain rfl := Option.some.inj stepped
    exact reaches_consumer there rfl rfl head (follows_one (.inl loaded))
  | storeHead h item =>
    have loaded : s.Reaches h := own h (by simp [pc, PopPc.indices])
    obtain rfl : _ = after := by simpa [popStep, pc] using stepped
    exact reaches_consumer there rfl rfl (.inr ⟨h, loaded, rfl⟩)
      (by simp [PopPc.indices, State.log])
  | dtorLoadTail h =>
    have loaded : s.Reaches h := own h (by simp [pc, PopPc.indices])
    obtain rfl : _ = after := by simpa [popStep, pc] using stepped
    exact reaches_consumer there rfl rfl head (follows_two (.inl loaded) (.inl (.tail rfl)))
  | dtorLoop h t =>
    have front : s.Reaches h := own h (by simp [pc, PopPc.indices])
    have back : s.Reaches t := own t (by simp [pc, PopPc.indices])
    simp only [popStep, pc] at stepped
    split at stepped
    · obtain rfl := Option.some.inj stepped
      exact reaches_consumer there rfl rfl head (by simp [PopPc.indices])
    · split at stepped
      case h_2 => simp at stepped
      obtain rfl := Option.some.inj stepped
      exact reaches_consumer there rfl rfl head
        (follows_two (.inr ⟨h, front, rfl⟩) (.inl back))
  | gone => simp [popStep, pc] at stepped

/-- A step has only indices of the state before it, and their masked successors. -/
theorem reaches_step {action : Action threads α} {index : SizeT}
    (stepped : step source capacity s action = some after) (there : after.Reaches index) :
    Follows capacity s index := by
  have head : Follows capacity s s.head := .inl (.head rfl)
  have tail : Follows capacity s s.tail := .inl (.tail rfl)
  cases action with
  | push p item =>
    simp only [step] at stepped
    split at stepped
    case h_2 => simp at stepped
    obtain rfl := Option.some.inj stepped
    exact reaches_producer there rfl rfl rfl tail (by simp [PushPc.indices])
  | producer p => exact reaches_push stepped there
  | pop =>
    simp only [step] at stepped
    split at stepped
    case h_3 => simp at stepped
    all_goals
      obtain rfl := Option.some.inj stepped
      exact reaches_consumer there rfl rfl head (follows_one head)
  | consumer => exact reaches_pop stepped there
  | destruct =>
    simp only [step] at stepped
    split at stepped
    case h_2 => simp at stepped
    split at stepped
    case isFalse => simp at stepped
    obtain rfl := Option.some.inj stepped
    cases source with
    | cpp => exact reaches_consumer there rfl rfl head (follows_one head)
    | rust => exact reaches_consumer there rfl rfl head (follows_one head)

/-- For a power of two no run leaves the ring. -/
theorem reached_inside (power : PowerOfTwo capacity)
    (reached : (machine source capacity threads α).Reachable s) :
    ∀ index, s.Reaches index → index < capacity := by
  refine Machine.invariant (fun s => ∀ index, s.Reaches index → index < capacity) ?_ ?_ reached
  · have first : (0 : SizeT) < capacity := power.pos
    intro index there
    cases there with
    | head here => exact here ▸ first
    | tail here => exact here ▸ first
    | producer p here => simp [machine, init, PushPc.indices] at here
    | consumer here => simp [machine, init, PopPc.indices] at here
  · intro before action after _ inside stepped index there
    rcases reaches_step stepped there with known | ⟨earlier, known, rfl⟩
    · exact inside index known
    · rw [BitVec.lt_def, masked_toNat power]
      exact Nat.mod_lt _ power.pos

/-- A slot about to be touched is one of the indices. -/
theorem State.Uses.reaches {index : SizeT} (uses : s.Uses index) : s.Reaches index := by
  rcases uses with ⟨p, here⟩ | here
  · refine .producer p ?_
    cases pc : s.producers p <;> simp_all [PushPc.slot, PushPc.indices]
  · refine .consumer ?_
    cases pc : s.consumer <;> simp_all [PopPc.slot, PopPc.indices]

section Described

variable {holder : Option (Fin threads)} {front : Nat} {items : List α}

/-- Some cell of the ring is always raw: the one at `tail_`, or behind an item that `tail_` does
not cover yet. -/
theorem Describes.spare (described : Describes source capacity s holder front items) :
    ∃ position, s.buffer (cell capacity position) = .raw := by
  have here := described.section_at
  have settled : Settled s → ∃ position, s.buffer (cell capacity position) = .raw :=
    fun calm => ⟨front + items.length, described.tail_at ▸ calm.back⟩
  cases holder with
  | none => exact settled here.1
  | some p =>
    rw [Option.elim_some] at here
    cases pc : s.producers p <;> rw [pc] at here
    case storeTail item next =>
      obtain ⟨_, roomy, _⟩ := here
      exact ⟨front + (items.length + 1), described.beyond _ (Nat.lt_succ_self _) roomy⟩
    case loadHead => exact settled here.2.1
    case construct => exact settled here.2.2.2.1
    all_goals exact settled here.1

/-- So the slots with an object in them are fewer than the slots. -/
theorem Describes.objects_bounded (described : Describes source capacity s holder front items)
    (power : PowerOfTwo capacity) :
    (List.range capacity.toNat).countP
      (fun index => (s.buffer (BitVec.ofNat 64 index)).occupied) ≤ capacity.toNat - 1 := by
  obtain ⟨position, raw⟩ := described.spare
  have few : (List.range capacity.toNat).countP
      (fun index => (s.buffer (BitVec.ofNat 64 index)).occupied) <
        (List.range capacity.toNat).length := by
    rw [List.countP_lt_length_iff]
    refine ⟨position % capacity.toNat, List.mem_range.mpr (Nat.mod_lt _ power.pos), ?_⟩
    rw [cell] at raw
    rw [raw]
    rfl
  rw [List.length_range] at few
  exact Nat.le_sub_one_of_lt few

/-- The ring holds one item less than its capacity at most. -/
theorem Describes.held (described : Describes source capacity s holder front items) :
    (accepted s.history).length ≤ (left s.history).length + (capacity.toNat - 1) := by
  have room : items.length ≤ capacity.toNat - 1 := described.legal.bounded
  rw [← accepted_operations, described.legal.conserved, taken_operations, List.length_append]
  exact Nat.add_le_add_left room _

end Described

/-- A power of two works in every run. -/
theorem power_works (power : PowerOfTwo capacity) : Works source capacity := by
  intro threads α s reached
  have inside := reached_inside power reached
  obtain ⟨holder, front, items, described⟩ := reachable_described power reached
  exact
    { slots := fun index uses => inside index uses.reaches
      advances := fun index _ => masked_toNat power index
      held := described.held
      objects := described.objects_bounded power }

/-- A push on a queue without slots, up to the construction of its item. -/
def zeroPush : List (Action 1 Nat) :=
  .push (Fin.last 0) 7 :: List.replicate 3 (.producer (Fin.last 0))

/-- The mask of a capacity of zero keeps every bit, so the push finds room and goes on to a slot
that the buffer does not have. -/
theorem zeroPush_touches :
    ∃ s, (machine .cpp 0 1 Nat).exec (init 1 Nat) zeroPush = some s ∧ s.Uses 0 := by
  have outcome : ((machine .cpp 0 1 Nat).exec (init 1 Nat) zeroPush).map
      (fun s => (s.producers (Fin.last 0)).slot) = some (some 0) := by decide
  obtain ⟨s, ran, touched⟩ := Option.map_eq_some_iff.mp outcome
  exact ⟨s, ran, .inl ⟨_, touched⟩⟩

/-- Without slots none may be touched. -/
theorem not_safe {index : SizeT} (uses : s.Uses index) : ¬ RingSafe 0 s := by
  intro safe
  exact absurd (safe.slots index uses) (Nat.not_lt_zero _)

/-- The capacities that a check admits work, but for the zero of the `static_assert`. -/
theorem admitted_capacities (source : Source) (capacity : SizeT)
    (admitted : source.admits capacity = true) :
    (Works source capacity ↔ capacity ≠ 0) ∧ (source = .rust → Works source capacity) := by
  have nonzero_works : capacity ≠ 0 → Works source capacity :=
    fun nonzero => power_works ((admits_iff nonzero).mp admitted)
  cases source with
  | cpp =>
    refine ⟨⟨?_, nonzero_works⟩, by simp⟩
    rintro works rfl
    obtain ⟨s, ran, uses⟩ := zeroPush_touches
    exact not_safe uses (works 1 Nat s (Machine.reachable_of_exec ran))
  | rust =>
    have nonzero : capacity ≠ 0 := power_ne_zero (is_power_of_two_iff.mp admitted)
    exact ⟨⟨fun _ => nonzero, nonzero_works⟩, fun _ => nonzero_works nonzero⟩

/-- The capacity of `critical_queue`, in both sources. -/
theorem admitted_capacities_critical_queue :
    (Source.admits .cpp 512 = true ∧ Works .cpp 512) ∧
      (Source.admits .rust 512 = true ∧ Works .rust 512) := by
  have cpp : Source.admits .cpp 512 = true := by decide
  have rust : Source.admits .rust 512 = true := by decide
  exact ⟨⟨cpp, (admitted_capacities .cpp 512 cpp).1.mpr (by decide)⟩,
    ⟨rust, (admitted_capacities .rust 512 rust).2 rfl⟩⟩

/-- The `static_assert` lets a queue without slots be built, and its first push leaves the ring. -/
theorem zero_admitted :
    Source.admits .cpp 0 = true ∧
      ∃ s, (machine .cpp 0 1 Nat).exec (init 1 Nat) zeroPush = some s ∧ ¬ RingSafe 0 s := by
  obtain ⟨s, ran, uses⟩ := zeroPush_touches
  exact ⟨by decide, s, ran, not_safe uses⟩

end FlowKernel.MpscQueue
