import FlowKernel.QueueFifo
import FlowKernel.Rust.MpscQueue

/-!
# Observing the Rust queue while it is in use

A thread calls `len`, `is_empty` and `is_full` while producers and the consumer go on, one
atomic access a step. Each of the three loads `tail` and then `head`, and neither lock nor
retry ties the two loads together.

The answer is the distance from the `head` of the second load to the `tail` of the first.
It is the number of items held at some moment of the call as long as no pop stores `head`
behind a push that has stored `tail` during the call. Otherwise the two indices belong to
moments that do not fit together: the answer is too small, or goes the wrong way round the
ring.
-/

namespace FlowKernel.Rust.QueueObservers

open Foundation RingIndex

universe u
variable {α : Type} {threads : Nat}

/-- The calls that only look at the ring. -/
inductive Query where
  | len
  | is_empty
  | is_full
deriving DecidableEq

/-- The next load of a running call; behind the first, with the `tail` it found. -/
inductive ObserverPc where
  | idle
  | loadTail (query : Query)
  | loadHead (query : Query) (tail : SizeT)
deriving DecidableEq

/-- `held` are the numbers of items that the queue has held since the first load of the
call, and `log` the answers given, each with these numbers. No step reads either. -/
structure State (threads : Nat) (α : Type) where
  queue : MpscQueue.State threads α
  observer : ObserverPc
  held : List Nat
  log : List (QueueAnswer α × List Nat)

/-- `queue` is a step of a producer or of the consumer. -/
inductive Action (threads : Nat) (α : Type) where
  | queue (action : MpscQueue.Action threads α)
  | call (query : Query)
  | load

/-- An empty ring, with nobody looking. -/
def init (threads : Nat) (α : Type) : State threads α where
  queue := MpscQueue.init threads α
  observer := .idle
  held := []
  log := []

/-- What a call computes from the two indices. -/
def answer (capacity : SizeT) (tail head : SizeT) : Query → QueueAnswer α
  | .len => .len ((tail - head) &&& (capacity - 1))
  | .is_empty => .is_empty ((tail - head) &&& (capacity - 1) = 0)
  | .is_full => .is_full ((tail + 1) &&& (capacity - 1) = head)

/-- The number of items in the queue. -/
def size (capacity : SizeT) (queue : MpscQueue.State threads α) : Nat :=
  (MpscQueue.contents capacity queue).length

/-- The queue is not dropped while the observer refers to it. -/
def step (capacity : SizeT) (s : State threads α) :
    Action threads α → Option (State threads α)
  | .queue .destruct => none
  | .queue action =>
      (MpscQueue.step .rust capacity s.queue action).map fun queue =>
        { s with queue := queue, held := s.held ++ [size capacity queue] }
  | .call query =>
      match s.observer with
      | .idle => some { s with observer := .loadTail query }
      | _ => none
  | .load =>
      match s.observer with
      | .idle => none
      | .loadTail query =>
          some { s with
            observer := .loadHead query s.queue.tail, held := [size capacity s.queue] }
      | .loadHead query tail =>
          some { s with
            observer := .idle
            log := s.log ++ [(answer capacity tail s.queue.head query, s.held)] }

/-- Producers, a consumer, and one observer beside them. -/
def machine (capacity : SizeT) (threads : Nat) (α : Type) :
    Machine (State threads α) (Action threads α) where
  start := init threads α
  step := step capacity

/-- A length lies between the smallest and the largest number of items held during the
call, and the queue was empty, or full, at some moment of a call that says so. -/
def Truthful (capacity : SizeT) : QueueAnswer α × List Nat → Prop
  | (.len count, held) =>
      (∃ low ∈ held, low ≤ count.toNat) ∧ ∃ high ∈ held, count.toNat ≤ high
  | (.is_empty empty, held) => empty = true → 0 ∈ held
  | (.is_full full, held) => full = true → capacity.toNat - 1 ∈ held
  | _ => True

/-- The consumer stores `head` between the two loads of a call only if the `tail` that the
call has loaded is still the queue's. -/
def Ordered (s : State threads α) : Action threads α → Prop
  | .queue .consumer => ∀ query tail h item, s.observer = .loadHead query tail →
      s.queue.consumer = .storeHead h item → tail = s.queue.tail
  | _ => True

variable {capacity : SizeT} {s next : State threads α} {queue after : MpscQueue.State threads α}

section Steps

/-- A push never moves the head. -/
theorem head_pushStep {producer : Fin threads}
    (stepped : MpscQueue.pushStep capacity queue producer = some after) :
    after.head = queue.head ∧ after.dropping = queue.dropping := by
  simp only [MpscQueue.pushStep] at stepped
  split at stepped
  case h_1 => simp at stepped
  case h_2 =>
    split at stepped <;> (obtain rfl := Option.some.inj stepped; exact ⟨rfl, rfl⟩)
  case h_4 =>
    split at stepped <;> (obtain rfl := Option.some.inj stepped; exact ⟨rfl, rfl⟩)
  all_goals
    obtain rfl := Option.some.inj stepped
    exact ⟨rfl, rfl⟩

/-- `pop` moves `head` with its last access, and never `tail`. -/
theorem head_popStep (stepped : MpscQueue.popStep .rust capacity queue = some after) :
    (after.head = queue.head ∨
        (∃ h item, queue.consumer = .storeHead h item) ∧ after.tail = queue.tail) ∧
      after.dropping = queue.dropping := by
  simp only [MpscQueue.popStep] at stepped
  split at stepped
  case h_1 => simp at stepped
  case h_2 =>
    split at stepped
    case isTrue =>
      split at stepped <;> (obtain rfl := Option.some.inj stepped; exact ⟨.inl rfl, rfl⟩)
    case isFalse =>
      obtain rfl := Option.some.inj stepped
      exact ⟨.inl rfl, rfl⟩
  case h_3 =>
    split at stepped
    case h_1 impossible => cases impossible
    case h_2 =>
      obtain rfl := Option.some.inj stepped
      exact ⟨.inl rfl, rfl⟩
    case h_3 => simp at stepped
  case h_4 =>
    split at stepped
    case h_1 =>
      obtain rfl := Option.some.inj stepped
      exact ⟨.inl rfl, rfl⟩
    case h_2 => simp at stepped
  case h_5 h item here =>
    obtain rfl := Option.some.inj stepped
    exact ⟨.inr ⟨⟨h, item, here⟩, rfl⟩, rfl⟩
  case h_6 =>
    obtain rfl := Option.some.inj stepped
    exact ⟨.inl rfl, rfl⟩
  case h_7 =>
    split at stepped
    case isTrue =>
      obtain rfl := Option.some.inj stepped
      exact ⟨.inl rfl, rfl⟩
    case isFalse =>
      split at stepped
      case h_1 =>
        obtain rfl := Option.some.inj stepped
        exact ⟨.inl rfl, rfl⟩
      case h_2 => simp at stepped
  case h_8 => simp at stepped

/-- Until the queue is dropped, `head` moves only when a pop ends, and `tail` does not move
then. -/
theorem head_step {action : MpscQueue.Action threads α} (alive : queue.dropping = false)
    (kept : action ≠ .destruct)
    (stepped : MpscQueue.step .rust capacity queue action = some after) :
    (after.head = queue.head ∨ action = .consumer ∧
        (∃ h item, queue.consumer = .storeHead h item) ∧ after.tail = queue.tail) ∧
      after.dropping = false := by
  cases action with
  | push producer item =>
    simp only [MpscQueue.step] at stepped
    split at stepped
    next =>
      obtain rfl := Option.some.inj stepped
      exact ⟨.inl rfl, alive⟩
    next => simp at stepped
  | producer producer =>
    obtain ⟨head, dropping⟩ := head_pushStep stepped
    exact ⟨.inl head, dropping.trans alive⟩
  | pop =>
    simp only [MpscQueue.step] at stepped
    split at stepped
    case h_3 => simp at stepped
    all_goals
      obtain rfl := Option.some.inj stepped
      exact ⟨.inl rfl, alive⟩
  | consumer =>
    obtain ⟨head | moved, dropping⟩ := head_popStep stepped
    · exact ⟨.inl head, dropping.trans alive⟩
    · exact ⟨.inr ⟨rfl, moved⟩, dropping.trans alive⟩
  | destruct => exact absurd rfl kept

end Steps

/-- The distance from one index to another, as the calls compute it. -/
def distance (capacity tail head : SizeT) : Nat :=
  ((tail - head) &&& (capacity - 1)).toNat

/-- The number of items is the distance of the positions. -/
theorem size_distance (power : PowerOfTwo capacity)
    (reached : (MpscQueue.machine .rust capacity threads α).Reachable queue)
    (alive : queue.dropping = false) :
    size capacity queue = distance capacity queue.tail queue.head := by
  obtain ⟨_, _, _, described⟩ := MpscQueue.reachable_described power reached
  rw [size, described.contents_items power alive]
  exact (described.occupancy_length power alive).symm

/-- An answer computed from two indices that are as far apart as the queue has been full. -/
theorem answer_truthful (power : PowerOfTwo capacity) {tail head : SizeT} {held : List Nat}
    (seen : distance capacity tail head ∈ held) (query : Query) :
    Truthful capacity ((answer capacity tail head query : QueueAnswer α), held) := by
  cases query with
  | len => exact ⟨⟨_, seen, Nat.le_refl _⟩, _, seen, Nat.le_refl _⟩
  | is_empty =>
    intro empty
    have none_ : (tail - head) &&& (capacity - 1) = 0 := by simpa using empty
    rwa [distance, none_] at seen
  | is_full =>
    intro full
    have met : (tail + 1) &&& (capacity - 1) = head := by simpa using full
    rwa [distance, ← met, masked_round power] at seen

/-- The distance that the running call would find is a number of items held during it. -/
structure Watched (capacity : SizeT) (s : State threads α) : Prop where
  reached : (MpscQueue.machine .rust capacity threads α).Reachable s.queue
  alive : s.queue.dropping = false
  current : ∀ query tail, s.observer = .loadHead query tail →
    distance capacity tail s.queue.head ∈ s.held
  answers : ∀ answered ∈ s.log, Truthful capacity answered

/-- A step of the ring that meets the condition keeps what the observer has loaded true. -/
theorem watched_queue (power : PowerOfTwo capacity) (watched : Watched capacity s)
    {action : MpscQueue.Action threads α} (kept : action ≠ .destruct)
    (allowed : Ordered s (.queue action))
    (stepped : MpscQueue.step .rust capacity s.queue action = some after) :
    Watched capacity { s with queue := after, held := s.held ++ [size capacity after] } := by
  have reached := watched.reached.after action stepped
  obtain ⟨moved, alive⟩ := head_step watched.alive kept stepped
  refine ⟨reached, alive, ?_, watched.answers⟩
  intro query tail here
  rcases moved with same | ⟨rfl, ⟨h, item, ending⟩, still⟩
  · change distance capacity tail after.head ∈ s.held ++ [size capacity after]
    rw [same]
    exact List.mem_append_left _ (watched.current query tail here)
  · have fresh : tail = s.queue.tail := allowed query tail h item here ending
    apply List.mem_append_right
    rw [size_distance power reached alive, still, fresh]
    exact List.mem_singleton.mpr rfl

/-- Every step that meets the condition keeps it true. -/
theorem watched_step (power : PowerOfTwo capacity) (watched : Watched capacity s)
    {action : Action threads α} (allowed : Ordered s action)
    (stepped : step capacity s action = some next) : Watched capacity next := by
  cases action with
  | queue action =>
    cases action with
    | destruct => simp [step] at stepped
    | _ =>
      obtain ⟨queue, moved, rfl⟩ := Option.map_eq_some_iff.mp stepped
      exact watched_queue power watched (by simp) allowed moved
  | call query =>
    simp only [step] at stepped
    split at stepped
    next =>
      obtain rfl := Option.some.inj stepped
      exact ⟨watched.reached, watched.alive, by simp, watched.answers⟩
    next => simp at stepped
  | load =>
    simp only [step] at stepped
    split at stepped
    next => simp at stepped
    next query here =>
      obtain rfl := Option.some.inj stepped
      refine ⟨watched.reached, watched.alive, ?_, watched.answers⟩
      rintro found tail ⟨⟩
      rw [size_distance power watched.reached watched.alive]
      exact List.mem_singleton.mpr rfl
    next query tail here =>
      obtain rfl := Option.some.inj stepped
      refine ⟨watched.reached, watched.alive, by simp, ?_⟩
      intro answered member
      rcases List.mem_append.mp member with earlier | new
      · exact watched.answers answered earlier
      · rw [List.mem_singleton.mp new]
        exact answer_truthful power (watched.current query tail here) query

/-- In every run in which no pop stores `head` behind a push that has stored `tail` since
the observer's first load, every answer is true of some moment of its call. -/
theorem ordered_observations (power : PowerOfTwo capacity)
    (reached : (machine capacity threads α).ReachableWithin Ordered s) :
    ∀ answered ∈ s.log, Truthful capacity answered := by
  have watched : Watched capacity s := by
    apply Machine.invariant_within (Watched capacity) _ _ reached
    · exact ⟨.start, rfl, by simp [machine, init], by simp [machine, init]⟩
    · intro before action after _ watched allowed stepped
      exact watched_step power watched allowed stepped
  exact watched.answers

/-- The condition, evaluated. -/
def orderedCheck (s : State threads α) : Action threads α → Bool
  | .queue .consumer =>
      match s.observer, s.queue.consumer with
      | .loadHead _ tail, .storeHead _ _ => tail = s.queue.tail
      | _, _ => true
  | _ => true

/-- What the check accepts meets the condition. -/
theorem ordered_of_check {action : Action threads α} (checked : orderedCheck s action = true) :
    Ordered s action := by
  unfold Ordered
  split
  next =>
    intro query tail h item here ending
    simpa [orderedCheck, here, ending] using checked
  next => trivial

/-- A push, and a pop, run to completion by the one producer. -/
def wholePush (item : Nat) : List (Action 1 Nat) :=
  .queue (.push (Fin.last 0) item) :: List.replicate 6 (.queue (.producer (Fin.last 0)))

/-- A pop from its call to its return. -/
def wholePop : List (Action 1 Nat) :=
  .queue .pop :: List.replicate 3 (.queue .consumer)

/-- Two calls during which the queue is pushed to only: one while it is empty, one while it
holds an item and gets another. -/
def calmRun : List (Action 1 Nat) :=
  [Action.call .is_full, .load] ++ wholePush 1 ++ [Action.load, .call .len, .load] ++
    wholePush 2 ++ [Action.load]

/-- Two answers between the calls of the others. -/
theorem calmRun_truthful :
    ∃ s, (machine 4 1 Nat).execWithin (fun before action _ => orderedCheck before action)
        (init 1 Nat) calmRun = some s ∧
      s.log.map Prod.fst = [.is_full false, .len 1] ∧
      ∀ answered ∈ s.log, Truthful 4 answered := by
  have outcome : ((machine 4 1 Nat).execWithin (fun before action _ => orderedCheck before action)
      (init 1 Nat) calmRun).map (fun s => s.log.map Prod.fst) =
        some [.is_full false, .len 1] := by decide +kernel
  obtain ⟨s, ran, answered⟩ := Option.map_eq_some_iff.mp outcome
  have reached := Machine.ReachableWithin.exec
    (fun before action _ _ checked => ordered_of_check checked) .start ran
  exact ⟨s, ran, answered, ordered_observations ⟨2, by decide, rfl⟩ reached⟩

/-- In each call a push and then a pop come between the two loads. The first call finds the
queue empty, and from the second on it always holds an item. -/
def overtakenRun : List (Action 1 Nat) :=
  [Action.call .is_full, .load] ++ wholePush 1 ++ wholePop ++ [Action.load] ++ wholePush 2 ++
    [Action.call .len, .load] ++ wholePush 3 ++ wholePop ++ [Action.load] ++
    [Action.call .is_empty, .load] ++ wholePush 4 ++ wholePop ++ [Action.load]

/-- A queue that never held more than one of its three items is called full, one that always
held an item has length zero, and is called empty. -/
theorem overtakenRun_misleads :
    ∃ s full length empty, (machine 4 1 Nat).Reachable s ∧
      s.log = [(.is_full true, full), (.len 0, length), (.is_empty true, empty)] ∧
      (∀ size ∈ full, size ≤ 1) ∧ (∀ size ∈ length, 1 ≤ size) ∧ (∀ size ∈ empty, 1 ≤ size) ∧
      ∀ answered ∈ s.log, ¬ Truthful 4 answered := by
  have outcome : ((machine 4 1 Nat).exec (init 1 Nat) overtakenRun).map (fun s => s.log) =
      some [(.is_full true, [0, 0, 0, 0, 0, 0, 1, 1, 1, 1, 1, 0]),
        (.len 0, [1, 1, 1, 1, 1, 1, 2, 2, 2, 2, 2, 1]),
        (.is_empty true, [1, 1, 1, 1, 1, 1, 2, 2, 2, 2, 2, 1])] := by decide +kernel
  obtain ⟨s, ran, answered⟩ := Option.map_eq_some_iff.mp outcome
  refine ⟨s, _, _, _, Machine.reachable_of_exec ran, answered, by decide, by decide, by decide, ?_⟩
  rw [answered]
  simp [Truthful]

end FlowKernel.Rust.QueueObservers
