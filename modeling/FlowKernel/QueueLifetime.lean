import FlowKernel.QueueFifo

/-!
# The lifetime of the objects in the ring's slots

The slots are raw storage, so every access has a contract of its own: an item is
constructed only where there is no object, moved out of or destroyed only where
there is one. In every interleaving, for the C++ and the Rust source, each access
that a reachable state can take meets its contract, the destructor reaches its
end, and then no object is left and each accepted item has been constructed once
and has left once.
-/

namespace FlowKernel.MpscQueue

open Foundation RingIndex

universe u
variable {α : Type u} {threads : Nat}
variable {source : Source} {capacity : SizeT} {s after : State threads α}
  {holder : Option (Fin threads)} {front : Nat} {items : List α}

/-- How far a slot is from `head_` in the direction of the ring. -/
def ahead (capacity : SizeT) (s : State threads α) (index : SizeT) : Nat :=
  ((index - s.head) &&& (capacity - 1)).toNat

/-- The accepted item that leaves next. -/
def oldest (history : List (Event threads α)) : Option α :=
  (accepted history)[(left history).length]?

/-- A running thread always has a next access that its slot allows. -/
def Defined (source : Source) (capacity : SizeT) (s : State threads α) : Prop :=
  (∀ p, s.producers p ≠ .idle → ∃ after, pushStep capacity s p = some after) ∧
    (s.consumer ≠ .idle → s.consumer ≠ .gone → ∃ after, popStep source capacity s = some after)

/-- Nothing is left of the queue: every item that was ever constructed had been
accepted and has left, and every slot is raw. -/
structure Ended (source : Source) (capacity : SizeT) (s : State threads α) : Prop where
  idle : ∀ p, s.producers p = .idle
  raw : ∀ index, index < capacity → s.buffer index = .raw
  built : constructed s.history = accepted s.history
  gone : left s.history = accepted s.history
  objects : source = .cpp → destroyed s.history = accepted s.history

/-- What holds of the slots in every state. -/
structure SlotContract (source : Source) (capacity : SizeT) (s : State threads α) : Prop where
  constructs : ∀ p item t next, s.producers p = .construct item t next →
    t < capacity ∧ s.buffer t = .raw ∧ s.consumer ≠ .moveOut t ∧
      ∀ found, s.consumer ≠ .destroy t found
  moves : ∀ h, s.consumer = .moveOut h →
    h < capacity ∧ ∃ item, s.buffer h = .live item ∧ oldest s.history = some item
  destroys : ∀ h item, s.consumer = .destroy h item →
    h < capacity ∧ s.buffer h = .moved ∧ oldest s.history = some item
  discards : ∀ h t, s.consumer = .dtorLoop h t → h ≠ t →
    h < capacity ∧ ∃ item, s.buffer h = .live item ∧ oldest s.history = some item
  between_calls : (∀ p, s.producers p = .idle) → s.consumer = .idle → ∀ index, index < capacity →
    ((∃ item, s.buffer index = .live item) ↔ ahead capacity s index < occupancy capacity s) ∧
      (¬ ahead capacity s index < occupancy capacity s → s.buffer index = .raw)
  built : constructed s.history = accepted s.history ∨
    ∃ p item next, s.producers p = .storeTail item next ∧
      constructed s.history = accepted s.history ++ [item]
  leaves : left s.history <+: accepted s.history
  objects : source = .cpp → destroyed s.history = left s.history ∨
    ∃ h item, s.consumer = .storeHead h item ∧ destroyed s.history = left s.history ++ [item]
  defined : Defined source capacity s
  ended : s.consumer = .gone → Ended source capacity s

/-- The front of the ghost's items is the oldest accepted item. -/
theorem Describes.oldest_item (described : Describes source capacity s holder front items) :
    oldest s.history = items[0]? := by
  rw [oldest, ← accepted_operations, described.legal.conserved, taken_operations,
    List.getElem?_append_right (Nat.le_refl _), Nat.sub_self]

/-- While items are held, the back of the ring is not the front cell. -/
theorem Describes.back_apart (described : Describes source capacity s holder front items)
    (power : PowerOfTwo capacity) (nonempty : items ≠ []) : s.tail ≠ cell capacity front :=
  fun same => nonempty ((described.empty_test power).mp same.symm)

/-- A producer about to construct has a raw slot that the consumer stays away from. -/
theorem Describes.constructs (described : Describes source capacity s holder front items)
    (power : PowerOfTwo capacity) {p : Fin threads} {item : α} {t next : SizeT}
    (running : s.producers p = .construct item t next) :
    t < capacity ∧ s.buffer t = .raw ∧ s.consumer ≠ .moveOut t ∧
      ∀ found, s.consumer ≠ .destroy t found := by
  obtain ⟨rfl, _, _, settled, _⟩ := (described.holds running rfl).2
  have here := described.consuming
  refine ⟨?_, settled.back, ?_, ?_⟩
  · rw [described.tail_at]
    exact cell_lt power _
  · intro moving
    simp only [moving, Consuming] at here
    obtain ⟨at_front, same, _, nonempty, _⟩ := here
    exact described.back_apart power nonempty (same.trans at_front)
  · intro found destroying
    simp only [destroying, Consuming] at here
    obtain ⟨at_front, same, present, _⟩ := here
    have nonempty : items ≠ [] := by
      rintro rfl
      simp at present
    exact described.back_apart power nonempty (same.trans at_front)

/-- A live front cell, found where a step expects it. -/
theorem Describes.front_alive (described : Describes source capacity s holder front items)
    (live : FrontLive capacity s front items) (nonempty : items ≠ []) :
    ∃ item, s.buffer (cell capacity front) = .live item ∧
      oldest s.history = some item := by
  obtain ⟨item, rest, rfl⟩ := List.exists_cons_of_ne_nil nonempty
  exact ⟨item, live item rfl, described.oldest_item⟩

/-- What the consumer moves out is the oldest item, and lives. -/
theorem Describes.moves (described : Describes source capacity s holder front items)
    (power : PowerOfTwo capacity) {h : SizeT} (running : s.consumer = .moveOut h) :
    h < capacity ∧ ∃ item, s.buffer h = .live item ∧ oldest s.history = some item := by
  have here := described.consuming
  simp only [running, Consuming] at here
  obtain ⟨at_front, rfl, live, nonempty, _⟩ := here
  rw [at_front]
  exact ⟨cell_lt power _, described.front_alive live nonempty⟩

/-- What the consumer destroys is the oldest item, moved from. -/
theorem Describes.destroys (described : Describes source capacity s holder front items)
    (power : PowerOfTwo capacity) {h : SizeT} {item : α}
    (running : s.consumer = .destroy h item) :
    h < capacity ∧ s.buffer h = .moved ∧ oldest s.history = some item := by
  have here := described.consuming
  simp only [running, Consuming] at here
  obtain ⟨at_front, rfl, present, moved, _⟩ := here
  refine ⟨?_, moved, described.oldest_item.trans present⟩
  rw [at_front]
  exact cell_lt power _

/-- What the destructor destroys is the oldest item, and lives. -/
theorem Describes.discards (described : Describes source capacity s holder front items)
    (power : PowerOfTwo capacity) {h t : SizeT} (running : s.consumer = .dtorLoop h t)
    (more : h ≠ t) :
    h < capacity ∧ ∃ item, s.buffer h = .live item ∧ oldest s.history = some item := by
  have here := described.consuming
  simp only [running, Consuming] at here
  obtain ⟨rfl, rfl, live, _⟩ := here
  exact ⟨cell_lt power _, described.front_alive live (mt (described.empty_test power).mpr more)⟩

/-- With every producer outside its call, no item is built beyond the tail. -/
theorem Describes.settled (described : Describes source capacity s holder front items)
    (idle : ∀ p, s.producers p = .idle) : Settled s := by
  have here := described.section_at
  cases holder with
  | none => exact here.1
  | some p =>
    rw [Option.elim_some, idle p] at here
    exact here.1

/-- The cells of the window when nobody is inside a call. -/
theorem Describes.cells (described : Describes source capacity s holder front items)
    (idle : ∀ p, s.producers p = .idle) (live : FrontLive capacity s front items)
    {offset : Nat} (within : offset < capacity.toNat) :
    s.buffer (cell capacity (front + offset)) = (items[offset]?).elim .raw .live := by
  rcases Nat.lt_trichotomy offset items.length with held | last | past
  · rw [List.getElem?_eq_getElem held, Option.elim_some]
    rcases Nat.eq_zero_or_pos offset with rfl | positive
    · exact live _ (List.getElem?_eq_getElem held)
    · exact described.inside offset _ positive (List.getElem?_eq_getElem held)
  · rw [List.getElem?_eq_none (Nat.le_of_eq last.symm), Option.elim_none, last,
      ← described.tail_at]
    exact (described.settled idle).back
  · rw [List.getElem?_eq_none (Nat.le_of_lt past), Option.elim_none]
    exact described.beyond offset past within

/-- Outside all calls the live slots are those from `head_` to `tail_`. -/
theorem Describes.between_calls (described : Describes source capacity s holder front items)
    (power : PowerOfTwo capacity) (idle : ∀ p, s.producers p = .idle)
    (waiting : s.consumer = .idle) {index : SizeT} (inside : index < capacity) :
    ((∃ item, s.buffer index = .live item) ↔ ahead capacity s index < occupancy capacity s) ∧
      (¬ ahead capacity s index < occupancy capacity s → s.buffer index = .raw) := by
  have here := described.consuming
  simp only [waiting, Consuming] at here
  obtain ⟨at_front, live, _⟩ := here
  obtain ⟨position, low, high, rfl⟩ := cell_surjective power front inside
  obtain ⟨offset, rfl⟩ := Nat.exists_eq_add_of_le low
  have within : offset < capacity.toNat := by omega
  have away : ahead capacity s (cell capacity (front + offset)) = offset := by
    rw [ahead, at_front]
    exact masked_distance power front within
  have held : occupancy capacity s = items.length := by
    rw [occupancy, described.tail_at, at_front]
    exact masked_distance power front (described.bounded power)
  rw [away, held, described.cells idle live within]
  by_cases covered : offset < items.length
  · simp [covered]
  · simp [covered]

/-- Between its construction and its acceptance at most one item is ahead. -/
theorem Describes.built (described : Describes source capacity s holder front items) :
    constructed s.history = accepted s.history ∨
      ∃ p item next, s.producers p = .storeTail item next ∧
        constructed s.history = accepted s.history ++ [item] := by
  have here := described.section_at
  cases holder with
  | none => exact .inl here.1.built
  | some p =>
    rw [Option.elim_some] at here
    cases pc : s.producers p <;> rw [pc] at here
    case storeTail item next => exact .inr ⟨p, item, next, pc, here.2.2.2.1⟩
    case loadHead => exact .inl here.2.1.built
    case construct => exact .inl here.2.2.2.1.built
    all_goals exact .inl here.1.built

/-- Between its destruction and its leaving at most one item is ahead. -/
theorem Describes.objects (described : Describes source capacity s holder front items)
    (cpp : source = .cpp) :
    destroyed s.history = left s.history ∨
      ∃ h item, s.consumer = .storeHead h item ∧
        destroyed s.history = left s.history ++ [item] := by
  have here := described.consuming
  cases pc : s.consumer <;> rw [pc] at here
  case idle => exact .inl (here.2.2.2 cpp)
  case loadTail => exact .inl (here.2.2.2.2 cpp)
  case moveOut => exact .inl (here.2.2.2.2.2 cpp)
  case destroy => exact .inl here.2.2.2.2.2.2
  case storeHead h item => exact .inr ⟨h, item, rfl, (here.2.2.2.2 cpp).2⟩
  case dtorLoadTail => exact .inl here.2.2.2
  case dtorLoop => exact .inl here.2.2.2.2
  case gone => exact .inl (here.2.2 cpp)

/-- No access is undefined: each finds its slot as it needs it. -/
theorem Describes.defined (described : Describes source capacity s holder front items)
    (power : PowerOfTwo capacity) : Defined source capacity s := by
  constructor
  · intro p running
    cases pc : s.producers p with
    | idle => exact absurd pc running
    | lock item =>
      simp only [pushStep, pc]
      split <;> exact ⟨_, rfl⟩
    | loadHead item t =>
      simp only [pushStep, pc]
      split <;> exact ⟨_, rfl⟩
    | _ => exact ⟨_, by simp only [pushStep, pc]; rfl⟩
  · intro busy standing
    cases pc : s.consumer with
    | idle => exact absurd pc busy
    | gone => exact absurd pc standing
    | loadTail h =>
      simp only [popStep, pc]
      split
      · split <;> exact ⟨_, rfl⟩
      · exact ⟨_, rfl⟩
    | moveOut h =>
      obtain ⟨_, item, alive, _⟩ := described.moves power pc
      cases source <;> exact ⟨_, by simp only [popStep, pc, alive]; rfl⟩
    | destroy h item =>
      obtain ⟨_, moved, _⟩ := described.destroys power pc
      exact ⟨_, by simp only [popStep, pc, moved]; rfl⟩
    | storeHead h item => exact ⟨_, by simp only [popStep, pc]; rfl⟩
    | dtorLoadTail h => exact ⟨_, by simp only [popStep, pc]; rfl⟩
    | dtorLoop h t =>
      by_cases same : h = t
      · exact ⟨_, by simp only [popStep, pc, if_pos same]; rfl⟩
      · obtain ⟨_, item, alive, _⟩ := described.discards power pc same
        exact ⟨_, by simp only [popStep, pc, if_neg same, alive]; rfl⟩

/-- At the end of the destructor nothing is alive and nothing is missing. -/
theorem Describes.ended (described : Describes source capacity s holder front items)
    (power : PowerOfTwo capacity) (exhausted : s.consumer = .gone) : Ended source capacity s := by
  have here := described.consuming
  simp only [exhausted, Consuming] at here
  obtain ⟨rfl, begun, objects⟩ := here
  have idle : ∀ p, s.producers p = .idle := described.quiet begun
  have conserved : accepted s.history = left s.history := by
    rw [← accepted_operations, described.legal.conserved, taken_operations, List.append_nil]
  exact
    { idle := idle
      raw := by
        intro index inside
        obtain ⟨position, low, high, rfl⟩ := cell_surjective power front inside
        obtain ⟨offset, rfl⟩ := Nat.exists_eq_add_of_le low
        rw [described.cells idle (by simp [FrontLive]) (by omega)]
        rfl
      built := (described.settled idle).built
      gone := conserved.symm
      objects := fun cpp => (objects cpp).trans conserved.symm }

/-- What the destructor still has to do with the item at the front. -/
def PopPc.remaining : PopPc α → Nat
  | .idle => 4
  | .loadTail _ => 3
  | .moveOut _ | .destroy _ _ | .dtorLoadTail _ => 2
  | .storeHead _ _ | .dtorLoop _ _ => 1
  | .gone => 0

/-- Until its end the destructor has a step that brings it nearer to it: along
the access sequence of one item, or to the next item. -/
theorem Describes.destructor_step (described : Describes source capacity s holder front items)
    (power : PowerOfTwo capacity) (begun : s.dropping = true) (standing : s.consumer ≠ .gone) :
    ∃ action after front' items', step source capacity s action = some after ∧
      Describes source capacity after holder front' items' ∧ after.dropping = true ∧
      5 * items'.length + after.consumer.remaining <
        5 * items.length + s.consumer.remaining := by
  have here := described.consuming
  cases pc : s.consumer with
  | gone => exact absurd pc standing
  | destroy h item => simp [pc, Consuming, begun] at here
  | idle =>
    simp only [pc, Consuming] at here
    obtain ⟨at_front, live, rust, ended⟩ := here
    obtain rfl := rust begun
    refine ⟨.pop, { s with consumer := .loadTail s.head }, front, items, ?_, ?_, begun, ?_⟩
    · simp only [step, pc, begun]
    · exact advance_described power described ⟨at_front, rfl, live, fun _ => rfl, ended⟩
    · simp [PopPc.remaining]
  | loadTail h =>
    by_cases same : h = s.tail
    · have stepped : popStep source capacity s = some { s with consumer := .gone } := by
        simp only [popStep, pc, if_pos same, if_pos begun]
      exact ⟨.consumer, _, front, items, stepped,
        popLoadTail_preserves power described pc stepped, begun, by simp [PopPc.remaining]⟩
    · have stepped : popStep source capacity s = some { s with consumer := .moveOut h } := by
        simp only [popStep, pc, if_neg same]
      exact ⟨.consumer, _, front, items, stepped,
        popLoadTail_preserves power described pc stepped, begun, by simp [PopPc.remaining]⟩
  | moveOut h =>
    obtain ⟨_, item, alive, _⟩ := described.moves power pc
    simp only [pc, Consuming] at here
    obtain rfl := here.2.2.2.2.1 begun
    have stepped : popStep .rust capacity s =
        some { s.setSlot h .raw with consumer := .storeHead h item } := by
      simp only [popStep, pc, alive]
    exact ⟨.consumer, _, front, items, stepped,
      moveOut_preserves power described pc stepped, begun, by simp [PopPc.remaining]⟩
  | storeHead h item =>
    have stepped : popStep source capacity s =
        some ({ s with head := (h + 1) &&& (capacity - 1), consumer := .idle }.log
          (if s.dropping then .discarded item else .popped item)) := by
      simp only [popStep, pc]
    obtain ⟨rest, rfl, next⟩ := storeHead_preserves power described pc stepped
    refine ⟨.consumer, _, front + 1, rest, stepped, next, begun, ?_⟩
    simp only [State.log, PopPc.remaining, List.length_cons]
    omega
  | dtorLoadTail h =>
    simp only [pc, Consuming] at here
    obtain ⟨at_front, live, _, ended⟩ := here
    have stepped : popStep source capacity s = some { s with consumer := .dtorLoop h s.tail } := by
      simp only [popStep, pc]
    exact ⟨.consumer, _, front, items, stepped,
      advance_described power described ⟨at_front, rfl, live, begun, ended⟩, begun,
      by simp [PopPc.remaining]⟩
  | dtorLoop h t =>
    by_cases same : h = t
    · have stepped : popStep source capacity s = some { s with consumer := .gone } := by
        simp only [popStep, pc, if_pos same]
      rcases dtorLoop_preserves power described pc stepped with
        ⟨_, _, next⟩ | ⟨item, rest, rfl, next⟩
      · exact ⟨.consumer, _, front, items, stepped, next, begun, by simp [PopPc.remaining]⟩
      · exact ⟨.consumer, _, front + 1, rest, stepped, next, begun, by
          simp only [PopPc.remaining, List.length_cons]
          omega⟩
    · obtain ⟨_, item, alive, _⟩ := described.discards power pc same
      have stepped : popStep source capacity s = some ({ s.setSlot h .raw with
          consumer := .dtorLoop ((h + 1) &&& (capacity - 1)) t }.log (.discarded item)) := by
        simp only [popStep, pc, if_neg same, alive]
      rcases dtorLoop_preserves power described pc stepped with
        ⟨_, exhausted, _⟩ | ⟨item, rest, rfl, next⟩
      · simp [State.log] at exhausted
      · exact ⟨.consumer, _, front + 1, rest, stepped, next, begun, by
          simp only [State.log, PopPc.remaining, List.length_cons]
          omega⟩

/-- Once begun, the destructor runs to its end. -/
theorem Describes.destructor_ends (described : Describes source capacity s holder front items)
    (power : PowerOfTwo capacity) (begun : s.dropping = true) :
    ∃ actions final, (machine source capacity threads α).exec s actions = some final ∧
      final.consumer = .gone := by
  induction measure : 5 * items.length + s.consumer.remaining using Nat.strongRecOn
    generalizing s front items with
  | ind steps inductionHypothesis =>
    by_cases exhausted : s.consumer = .gone
    · exact ⟨[], s, rfl, exhausted⟩
    · obtain ⟨action, after, front', items', stepped, next, dropping, nearer⟩ :=
        described.destructor_step power begun exhausted
      obtain ⟨actions, final, ran, ended⟩ :=
        inductionHypothesis _ (by omega) next dropping rfl
      refine ⟨action :: actions, final, ?_, ended⟩
      rw [Machine.exec]
      exact Option.bind_eq_some_iff.mpr ⟨after, stepped, ran⟩

/-- In every interleaving, for every power-of-two capacity and in both sources:
an item is constructed only in a raw slot away from the consumer, `pop` moves only
from the slot that holds the oldest accepted item, no access is undefined, the
slots from `head_` to `tail_` are the live ones between calls, every accepted item
is constructed once and leaves once, and the destructor ends with none alive. -/
theorem slot_contract (power : PowerOfTwo capacity)
    (reached : (machine source capacity threads α).Reachable s) :
    SlotContract source capacity s ∧
      (s.dropping = true → ∃ actions final,
        (machine source capacity threads α).exec s actions = some final ∧
          Ended source capacity final) := by
  obtain ⟨holder, front, items, described⟩ := reachable_described power reached
  constructor
  · exact
      { constructs := fun p item t next => described.constructs power
        moves := fun h => described.moves power
        destroys := fun h item => described.destroys power
        discards := fun h t => described.discards power
        between_calls := fun idle waiting index =>
          described.between_calls power idle waiting
        built := described.built
        leaves := by
          rw [← taken_operations, ← accepted_operations]
          exact described.legal.taken_first
        objects := described.objects
        defined := described.defined power
        ended := described.ended power }
  · intro begun
    obtain ⟨actions, final, ran, exhausted⟩ := described.destructor_ends power begun
    obtain ⟨_, _, _, last⟩ := reachable_described power (reached.exec ran)
    exact ⟨actions, final, ran, last.ended power exhausted⟩

/-- A ring of four slots is filled across its wrap-around, partly emptied, and
destroyed. -/
def wrappedRun : List (Action 1 Nat) :=
  let push : Nat → List (Action 1 Nat) := fun item => .push 0 item :: List.replicate 6 (.producer 0)
  let pop : List (Action 1 Nat) := .pop :: List.replicate 4 .consumer
  push 1 ++ push 2 ++ push 3 ++ pop ++ pop ++ push 4 ++ push 5 ++ [.destruct]

/-- A ring that has gone round, and its destruction. -/
theorem wrappedRun_contract :
    ∃ s, (machine .cpp 4 1 Nat).exec (init 1 Nat) wrappedRun = some s ∧
      left s.history = [1, 2] ∧ SlotContract .cpp 4 s ∧
      ∃ actions final, (machine .cpp 4 1 Nat).exec s actions = some final ∧
        Ended .cpp 4 final := by
  have outcome : ((machine .cpp 4 1 Nat).exec (init 1 Nat) wrappedRun).map (fun s =>
      (left s.history, s.dropping)) = some ([1, 2], true) := by decide
  obtain ⟨s, ran, seen⟩ := Option.map_eq_some_iff.mp outcome
  simp only [Prod.mk.injEq] at seen
  obtain ⟨gone, begun⟩ := seen
  have power : PowerOfTwo 4 := ⟨2, by decide, rfl⟩
  have reached : (machine .cpp 4 1 Nat).Reachable s := Machine.reachable_of_exec ran
  have contract := slot_contract power reached
  exact ⟨s, ran, gone, contract.1, contract.2 begun⟩

end FlowKernel.MpscQueue
