import FlowKernel.MpscQueue
import FlowKernel.Foundation.RingIndex

/-!
# The invariant of the ring queue

A reachable state is described by three ghosts: which producer holds the lock,
how many items have left the queue, and the items still in it. Position `p` of
the endless sequence of items lives in ring cell `p` modulo the capacity. The
items occupy the positions from `front` on; the cell at the back is raw except
while the lock holder has built an item that `tail_` does not cover yet, and
the cell at the front follows the consumer's progress.

The events of a run, read as operations of an abstract bounded buffer, are a
legal history of that buffer holding exactly these items. Everything that is
claimed of the queue's results follows from that.
-/

namespace FlowKernel.MpscQueue

open Foundation RingIndex

universe u
variable {α : Type u} {threads : Nat}

/-- Items in the order of their `tail_` stores. -/
def accepted (history : List (Event threads α)) : List α :=
  history.filterMap fun
    | .accepted _ item => some item
    | _ => none

/-- Items returned by `pop`. -/
def popped (history : List (Event threads α)) : List α :=
  history.filterMap fun
    | .popped item => some item
    | _ => none

/-- Items that left the queue, handed out by `pop` or ended by the destructor. -/
def left (history : List (Event threads α)) : List α :=
  history.filterMap fun
    | .popped item => some item
    | .discarded item => some item
    | _ => none

/-- Items constructed in a slot. -/
def constructed (history : List (Event threads α)) : List α :=
  history.filterMap fun
    | .constructed item => some item
    | _ => none

/-- Objects destroyed inside a slot: by `pop` after the move, or by the C++
destructor. -/
def destroyed (history : List (Event threads α)) : List α :=
  history.filterMap fun
    | .destroyed item => some item
    | .discarded item => some item
    | _ => none

/-- Pushes that took the full branch. -/
def fulls (history : List (Event threads α)) : Nat :=
  history.countP fun
    | .full _ => true
    | _ => false

/-- The buffer operations that a run's events stand for. A push takes effect at
its `tail_` store or at the load of `head_` that finds the ring full; a pop at
its `head_` store or at the load of `tail_` that finds the ring empty. -/
def operations (history : List (Event threads α)) : List (BoundedFifo.Event α) :=
  history.filterMap fun
    | .accepted _ item => some (.accept item)
    | .full _ => some .reject
    | .popped item => some (.take item)
    | .discarded item => some (.take item)
    | .sawEmpty => some .miss
    | _ => none

section Histories

variable (history : List (Event threads α)) (event : Event threads α)

/-- The items accepted end in that of the last event. -/
@[simp] theorem accepted_snoc :
    accepted (history ++ [event]) = accepted history ++ accepted [event] :=
  List.filterMap_append

/-- The items popped end in that of the last event. -/
@[simp] theorem popped_snoc :
    popped (history ++ [event]) = popped history ++ popped [event] :=
  List.filterMap_append

/-- The items that have left end in that of the last event. -/
@[simp] theorem left_snoc : left (history ++ [event]) = left history ++ left [event] :=
  List.filterMap_append

/-- The items built end in that of the last event. -/
@[simp] theorem constructed_snoc :
    constructed (history ++ [event]) = constructed history ++ constructed [event] :=
  List.filterMap_append

/-- The items destroyed end in that of the last event. -/
@[simp] theorem destroyed_snoc :
    destroyed (history ++ [event]) = destroyed history ++ destroyed [event] :=
  List.filterMap_append

/-- A refusal adds one. -/
@[simp] theorem fulls_snoc : fulls (history ++ [event]) = fulls history + fulls [event] :=
  List.countP_append

/-- The operations of a longer history end in that of its last event. -/
@[simp] theorem operations_snoc :
    operations (history ++ [event]) = operations history ++ operations [event] :=
  List.filterMap_append

/-- The abstract buffer accepted what the queue accepted. -/
theorem accepted_operations : BoundedFifo.accepted (operations history) = accepted history := by
  rw [BoundedFifo.accepted, operations, accepted, List.filterMap_filterMap]
  congr 1
  funext event
  cases event <;> rfl

/-- The abstract buffer lost what left the queue. -/
theorem taken_operations : BoundedFifo.taken (operations history) = left history := by
  rw [BoundedFifo.taken, operations, left, List.filterMap_filterMap]
  congr 1
  funext event
  cases event <;> rfl

end Histories

/-- Program counters between acquiring and releasing the producer lock. -/
def PushPc.critical : PushPc α → Bool
  | .idle | .lock _ => false
  | _ => true

/-- The back of the ring while nobody has built an uncovered item: the cell at
`tail_` is raw and every constructed item has been accepted. -/
structure Settled (s : State threads α) : Prop where
  back : s.buffer s.tail = .raw
  built : constructed s.history = accepted s.history

/-- The back of the ring, by the lock holder's program counter. Only between the
construction and the store of `tail_` is there a live item beyond the tail, and
only between the full test and the increment does `dropped_` lag behind. -/
def Section (capacity : SizeT) (s : State threads α) (front size : Nat) : PushPc α → Prop
  | .loadHead _ t => t = s.tail ∧ Settled s ∧ s.dropped = BitVec.ofNat 64 (fulls s.history)
  | .countDrop => Settled s ∧ s.dropped + 1 = BitVec.ofNat 64 (fulls s.history)
  | .construct _ t next =>
      t = s.tail ∧ next = cell capacity (front + size + 1) ∧ size + 1 < capacity.toNat ∧
        Settled s ∧ s.dropped = BitVec.ofNat 64 (fulls s.history)
  | .storeTail item next =>
      next = cell capacity (front + size + 1) ∧ size + 1 < capacity.toNat ∧
        s.buffer s.tail = .live item ∧
        constructed s.history = accepted s.history ++ [item] ∧
        s.dropped = BitVec.ofNat 64 (fulls s.history)
  | _ => Settled s ∧ s.dropped = BitVec.ofNat 64 (fulls s.history)

/-- The front item, if there is one, is alive in the front cell. -/
def FrontLive (capacity : SizeT) (s : State threads α) (front : Nat) (items : List α) : Prop :=
  ∀ item, items[0]? = some item → s.buffer (cell capacity front) = .live item

/-- The front of the ring, by the consumer's program counter. In C++ the slot
objects destroyed so far are those of the items that left, and one more between
the destruction and the store of `head_`. -/
def Consuming (source : Source) (capacity : SizeT) (s : State threads α) (front : Nat)
    (items : List α) : PopPc α → Prop
  | .idle =>
      s.head = cell capacity front ∧ FrontLive capacity s front items ∧
        (s.dropping = true → source = .rust) ∧
        (source = .cpp → destroyed s.history = left s.history)
  | .loadTail h =>
      s.head = cell capacity front ∧ h = s.head ∧ FrontLive capacity s front items ∧
        (s.dropping = true → source = .rust) ∧
        (source = .cpp → destroyed s.history = left s.history)
  | .moveOut h =>
      s.head = cell capacity front ∧ h = s.head ∧ FrontLive capacity s front items ∧
        items ≠ [] ∧ (s.dropping = true → source = .rust) ∧
        (source = .cpp → destroyed s.history = left s.history)
  | .destroy h item =>
      s.head = cell capacity front ∧ h = s.head ∧ items[0]? = some item ∧
        s.buffer h = .moved ∧ source = .cpp ∧ s.dropping = false ∧
        destroyed s.history = left s.history
  | .storeHead h item =>
      s.head = cell capacity front ∧ h = s.head ∧ items[0]? = some item ∧
        s.buffer h = .raw ∧ (source = .cpp → s.dropping = false ∧
          destroyed s.history = left s.history ++ [item])
  | .dtorLoadTail h =>
      h = cell capacity front ∧ FrontLive capacity s front items ∧ s.dropping = true ∧
        destroyed s.history = left s.history
  | .dtorLoop h t =>
      h = cell capacity front ∧ t = s.tail ∧ FrontLive capacity s front items ∧
        s.dropping = true ∧ destroyed s.history = left s.history
  | .gone =>
      items = [] ∧ s.dropping = true ∧
        (source = .cpp → destroyed s.history = left s.history)

/-- The ghosts describe the state. Positions are counted from the construction
of the queue, so `front` is the number of items that have left. -/
structure Describes (source : Source) (capacity : SizeT) (s : State threads α)
    (holder : Option (Fin threads)) (front : Nat) (items : List α) : Prop where
  legal : BoundedFifo.Legal (capacity.toNat - 1) (operations s.history) items
  tail_at : s.tail = cell capacity (front + items.length)
  locked : s.push_lock = holder.isSome
  exclusive : ∀ p, (s.producers p).critical = true ↔ holder = some p
  section_at : Section capacity s front items.length (holder.elim .idle s.producers)
  consuming : Consuming source capacity s front items s.consumer
  inside : ∀ offset item, 0 < offset → items[offset]? = some item →
    s.buffer (cell capacity (front + offset)) = .live item
  beyond : ∀ offset, items.length < offset → offset < capacity.toNat →
    s.buffer (cell capacity (front + offset)) = .raw
  quiet : s.dropping = true → ∀ p, s.producers p = .idle

variable {source : Source} {capacity : SizeT} {s after : State threads α}
  {holder : Option (Fin threads)} {front : Nat} {items : List α}

/-- A producer is where it went. -/
@[simp] theorem setProducer_self (p : Fin threads) (pc : PushPc α) :
    (s.setProducer p pc).producers p = pc := by
  simp [State.setProducer]

/-- Exclusion after one producer has moved: its own counter and the others' agree
with the new holder. -/
theorem exclusive_update {p : Fin threads} {pc : PushPc α} {next : Option (Fin threads)}
    (own : pc.critical = true ↔ next = some p)
    (others : ∀ q, q ≠ p → ((s.producers q).critical = true ↔ next = some q)) (q : Fin threads) :
    (Function.update s.producers p pc q).critical = true ↔ next = some q := by
  by_cases same : q = p
  · subst same
    rw [Function.update_self]
    exact own
  · rw [Function.update_of_ne same]
    exact others q same

/-- The lock holder's own steps inside the critical section keep the exclusion. -/
theorem exclusive_stay {p : Fin threads} {pc : PushPc α}
    (exclusive : ∀ q, (s.producers q).critical = true ↔ some p = some q)
    (critical : pc.critical = true) (q : Fin threads) :
    (Function.update s.producers p pc q).critical = true ↔ some p = some q :=
  exclusive_update (by simp [critical]) (fun q _ => exclusive q) q

/-- A producer's step may add an item at the back. The consumer's facts survive
if the front cell and everything the consumer owns stay as they are. -/
theorem consuming_grow {pc : PopPc α} {grown : List α}
    (consuming : Consuming source capacity s front items pc)
    (head : after.head = s.head) (dropping : after.dropping = s.dropping)
    (lefts : left after.history = left s.history)
    (ended : destroyed after.history = destroyed s.history)
    (tail : s.dropping = true → after.tail = s.tail)
    (first : ∀ item, items[0]? = some item → grown[0]? = some item ∧
      after.buffer (cell capacity front) = s.buffer (cell capacity front))
    (live : FrontLive capacity s front items → FrontLive capacity after front grown)
    (kept : s.dropping = true → grown = items) :
    Consuming source capacity after front grown pc := by
  cases pc <;> simp only [Consuming, head, dropping, lefts, ended] at consuming ⊢
  case idle => exact ⟨consuming.1, live consuming.2.1, consuming.2.2⟩
  case loadTail => exact ⟨consuming.1, consuming.2.1, live consuming.2.2.1, consuming.2.2.2⟩
  case moveOut =>
    obtain ⟨at_front, same, alive, nonempty, rest⟩ := consuming
    refine ⟨at_front, same, live alive, ?_, rest⟩
    rintro rfl
    cases items with
    | nil => exact nonempty rfl
    | cons item later => simpa using (first item rfl).1
  case destroy h item =>
    obtain ⟨at_front, rfl, present, moved, rest⟩ := consuming
    refine ⟨at_front, rfl, (first item present).1, ?_, rest⟩
    rw [at_front, (first item present).2, ← at_front]
    exact moved
  case storeHead h item =>
    obtain ⟨at_front, rfl, present, moved, rest⟩ := consuming
    refine ⟨at_front, rfl, (first item present).1, ?_, rest⟩
    rw [at_front, (first item present).2, ← at_front]
    exact moved
  case dtorLoadTail => exact ⟨consuming.1, live consuming.2.1, consuming.2.2⟩
  case dtorLoop h t =>
    obtain ⟨at_front, at_tail, alive, begun, rest⟩ := consuming
    exact ⟨at_front, at_tail.trans (tail begun).symm, live alive, begun, rest⟩
  case gone => exact ⟨(kept consuming.2.1).trans consuming.1, consuming.2⟩

/-- The same for a step that leaves the items alone. -/
theorem consuming_frame {pc : PopPc α} (consuming : Consuming source capacity s front items pc)
    (head : after.head = s.head) (dropping : after.dropping = s.dropping)
    (lefts : left after.history = left s.history)
    (ended : destroyed after.history = destroyed s.history)
    (tail : s.dropping = true → after.tail = s.tail)
    (cells : items ≠ [] → after.buffer (cell capacity front) = s.buffer (cell capacity front)) :
    Consuming source capacity after front items pc := by
  have nonempty : ∀ item, items[0]? = some item → items ≠ [] := by
    rintro item present rfl
    simp at present
  apply consuming_grow consuming head dropping lefts ended tail
  · intro item present
    exact ⟨present, cells (nonempty item present)⟩
  · intro alive item present
    rw [cells (nonempty item present)]
    exact alive item present
  · exact fun _ => rfl

/-- A step away from its cell keeps a producer in its section. -/
theorem section_frame {size size' front' : Nat} {pc : PushPc α}
    (here : Section capacity s front size pc)
    (tail : after.tail = s.tail) (dropped : after.dropped = s.dropped)
    (cells : after.buffer s.tail = s.buffer s.tail)
    (accepts : accepted after.history = accepted s.history)
    (built : constructed after.history = constructed s.history)
    (rejects : fulls after.history = fulls s.history)
    (total : front' + size' = front + size) (smaller : size' ≤ size) :
    Section capacity after front' size' pc := by
  have settled : Settled s → Settled after := fun calm =>
    ⟨by rw [tail, cells]; exact calm.back, by rw [built, accepts]; exact calm.built⟩
  cases pc <;> simp only [Section, tail, dropped, cells, accepts, built, rejects, total] at here ⊢
  case construct =>
    exact ⟨here.1, here.2.1, by omega, settled here.2.2.2.1, here.2.2.2.2⟩
  case storeTail => exact ⟨here.1, by omega, here.2.2⟩
  case loadHead => exact ⟨here.1, settled here.2.1, here.2.2⟩
  all_goals exact ⟨settled here.1, here.2⟩

/-- A producer found inside the critical section is the holder, and the back of
the ring is as its program counter says. -/
theorem Describes.holds (described : Describes source capacity s holder front items)
    {p : Fin threads} {pc : PushPc α} (running : s.producers p = pc)
    (critical : pc.critical = true) :
    holder = some p ∧ Section capacity s front items.length pc := by
  obtain rfl : holder = some p := (described.exclusive p).mp (by rw [running]; exact critical)
  have here := described.section_at
  rw [Option.elim_some, running] at here
  exact ⟨rfl, here⟩

/-- While a producer is inside the ring is not destroyed. -/
theorem Describes.active (described : Describes source capacity s holder front items)
    {p : Fin threads} (running : s.producers p ≠ .idle) : s.dropping = false := by
  cases dropping : s.dropping with
  | false => rfl
  | true => exact False.elim (running (described.quiet dropping p))

/-- The ring holds fewer items than its capacity. -/
theorem Describes.bounded (described : Describes source capacity s holder front items)
    (power : PowerOfTwo capacity) :
    items.length < capacity.toNat := by
  have room : items.length ≤ capacity.toNat - 1 := described.legal.bounded
  have positive : 0 < capacity.toNat := power.pos
  omega

/-- Until the destructor begins, `head_` names the front cell. -/
theorem Describes.head_at (described : Describes source capacity s holder front items)
    (alive : s.dropping = false) : s.head = cell capacity front := by
  have consuming := described.consuming
  cases pc : s.consumer <;> simp only [pc, Consuming, alive] at consuming
  all_goals first
    | exact consuming.1
    | simp at consuming

/-- No producer runs once the destructor has begun, so a running one keeps it away. -/
theorem Describes.quiet_of_running (described : Describes source capacity s holder front items)
    {p : Fin threads} (running : s.producers p ≠ .idle) (same : after.dropping = s.dropping) :
    after.dropping = true → ∀ q, after.producers q = .idle := by
  intro dropping
  rw [same, described.active running] at dropping
  exact absurd dropping (by decide)

/-- The full test, read against the positions: the advanced tail meets the head
exactly when `capacity - 1` items are held. -/
theorem Describes.full_test (described : Describes source capacity s holder front items)
    (power : PowerOfTwo capacity) (alive : s.dropping = false) :
    (s.tail + 1) &&& (capacity - 1) = s.head ↔ items.length + 1 = capacity.toNat := by
  rw [described.tail_at, described.head_at alive]
  exact masked_full power (described.bounded power)

/-- The empty test, read against the positions. -/
theorem Describes.empty_test (described : Describes source capacity s holder front items)
    (power : PowerOfTwo capacity) :
    cell capacity front = s.tail ↔ items = [] := by
  rw [described.tail_at, cell_empty power (described.bounded power), List.length_eq_zero_iff]

end FlowKernel.MpscQueue
