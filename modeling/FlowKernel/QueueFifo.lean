import Mathlib.Data.List.Basic
import FlowKernel.QueueSteps

/-!
# The ring queue is a bounded first-in first-out buffer

The invariant's ghosts are eliminated here: the items the queue holds are read
off its memory, between `head_` and `tail_`. A second, simpler invariant follows
each thread's program order, so that results are tied to the call they belong to.
Together they give the contract of `push` and `pop`, in every state of every
interleaving in which the destructor has not begun.
-/

namespace FlowKernel.MpscQueue

open Foundation RingIndex

universe u
variable {α : Type u} {threads : Nat}

/-- The producer an event belongs to. -/
def Event.actor : Event threads α → Option (Fin threads)
  | .called p _ | .full p | .accepted p _ | .returned p _ => some p
  | _ => none

/-- Accepted items with their producers, in the order of the `tail_` stores. -/
def acceptances (history : List (Event threads α)) : List (Fin threads × α) :=
  history.filterMap fun
    | .accepted p item => some (p, item)
    | _ => none

/-- One producer's items among tagged ones. -/
def itemsOf (p : Fin threads) (tagged : List (Fin threads × α)) : List α :=
  (tagged.filter (fun entry => entry.1 = p)).map Prod.snd

/-- The items of one producer's calls, in the order of the calls. -/
def calledBy (p : Fin threads) (history : List (Event threads α)) : List α :=
  history.filterMap fun
    | .called q item => if q = p then some item else none
    | _ => none

/-- The latest event of this producer. -/
def LatestOf (p : Fin threads) (history : List (Event threads α)) (event : Event threads α) :
    Prop :=
  ∃ earlier later, history = earlier ++ event :: later ∧ ∀ found ∈ later, found.actor ≠ some p

/-- The item of a push that has neither been accepted nor refused yet. -/
def PushPc.pending : PushPc α → List α
  | .lock item | .loadTail item | .loadHead item _ | .construct item _ _ | .storeTail item _ =>
      [item]
  | _ => []

section Histories

variable (history : List (Event threads α)) (event : Event threads α) (p : Fin threads)

/-- The acceptances end in that of the last event. -/
@[simp] theorem acceptances_snoc :
    acceptances (history ++ [event]) = acceptances history ++ acceptances [event] :=
  List.filterMap_append

/-- The calls of a producer end in that of the last event. -/
@[simp] theorem calledBy_snoc :
    calledBy p (history ++ [event]) = calledBy p history ++ calledBy p [event] :=
  List.filterMap_append

/-- The items of a producer, in two parts. -/
@[simp] theorem itemsOf_append (left right : List (Fin threads × α)) :
    itemsOf p (left ++ right) = itemsOf p left ++ itemsOf p right := by
  simp [itemsOf]

/-- Dropping the tags leaves the accepted items. -/
theorem acceptances_items : (acceptances history).map Prod.snd = accepted history := by
  rw [acceptances, accepted, List.map_filterMap]
  congr 1
  funext event
  cases event <;> rfl

end Histories

/-- The last event is the latest one. -/
theorem LatestOf.snoc_self {p : Fin threads} {history : List (Event threads α)}
    {event : Event threads α} : LatestOf p (history ++ [event]) event :=
  ⟨history, [], rfl, by simp⟩

/-- Other threads' events do not hide a producer's latest one. -/
theorem LatestOf.snoc {p : Fin threads} {history : List (Event threads α)}
    {event found : Event threads α} (latest : LatestOf p history event)
    (other : found.actor ≠ some p) : LatestOf p (history ++ [found]) event := by
  obtain ⟨earlier, later, rfl, silent⟩ := latest
  refine ⟨earlier, later ++ [found], by simp, ?_⟩
  intro candidate member
  rcases List.mem_append.mp member with old | new
  · exact silent candidate old
  · rw [List.mem_singleton.mp new]
    exact other

/-- What each thread's program order says about the history. -/
structure ProgramOrder (s : State threads α) : Prop where
  offers : ∀ p, (itemsOf p (acceptances s.history) ++ (s.producers p).pending).Sublist
    (calledBy p s.history)
  refusing : ∀ p, s.producers p = .countDrop ∨ s.producers p = .unlockFull →
    LatestOf p s.history (.full p)
  refused : Justified (fun before event => ∀ p, event = .returned p false →
    LatestOf p before (.full p)) s.history
  kept : s.dropping = false → ∀ item, .discarded item ∉ s.history

variable {source : Source} {capacity : SizeT} {s after : State threads α}

/-- One producer moves without an event. -/
theorem ProgramOrder.silent (order : ProgramOrder s) {p : Fin threads} {pc : PushPc α}
    (producers : after.producers = Function.update s.producers p pc)
    (history : after.history = s.history) (dropping : after.dropping = s.dropping)
    (pending : pc.pending = (s.producers p).pending)
    (refusing : pc = .countDrop ∨ pc = .unlockFull →
      s.producers p = .countDrop ∨ s.producers p = .unlockFull) : ProgramOrder after where
  offers := by
    intro q
    rw [producers, history]
    by_cases same : q = p
    · subst same
      rw [Function.update_self, pending]
      exact order.offers q
    · rw [Function.update_of_ne same]
      exact order.offers q
  refusing := by
    intro q
    rw [producers, history]
    by_cases same : q = p
    · subst same
      rw [Function.update_self]
      exact fun moved => order.refusing q (refusing moved)
    · rw [Function.update_of_ne same]
      exact order.refusing q
  refused := by
    rw [history]
    exact order.refused
  kept := by
    rw [dropping, history]
    exact order.kept

/-- One producer moves and logs an event of its own, or one without an actor. -/
theorem ProgramOrder.logged (order : ProgramOrder s) {p : Fin threads} {pc : PushPc α}
    {event : Event threads α}
    (producers : after.producers = Function.update s.producers p pc)
    (history : after.history = s.history ++ [event]) (dropping : after.dropping = s.dropping)
    (own : ∀ q, q ≠ p → event.actor ≠ some q ∧ itemsOf q (acceptances [event]) = [] ∧
      calledBy q [event] = [])
    (offered : (itemsOf p (acceptances s.history) ++ itemsOf p (acceptances [event]) ++
      pc.pending).Sublist (calledBy p s.history ++ calledBy p [event]))
    (refusing : pc = .countDrop ∨ pc = .unlockFull → event = .full p)
    (returned : ∀ q, event = .returned q false → LatestOf q s.history (.full q))
    (kept : ∀ item, event ≠ .discarded item) : ProgramOrder after where
  offers := by
    intro q
    rw [producers, history, acceptances_snoc, itemsOf_append, calledBy_snoc]
    by_cases same : q = p
    · subst same
      rw [Function.update_self]
      exact offered
    · rw [Function.update_of_ne same, (own q same).2.1, (own q same).2.2]
      simpa using order.offers q
  refusing := by
    intro q
    rw [producers, history]
    by_cases same : q = p
    · subst same
      rw [Function.update_self]
      intro moved
      rw [refusing moved]
      exact .snoc_self
    · rw [Function.update_of_ne same]
      exact fun unmoved => (order.refusing q unmoved).snoc (own q same).1
  refused := by
    rw [history]
    exact order.refused.snoc returned
  kept := by
    rw [dropping, history]
    intro alive item member
    rcases List.mem_append.mp member with old | new
    · exact order.kept alive item old
    · exact kept item (List.mem_singleton.mp new).symm

/-- A step of a push keeps the order of its producer. -/
theorem push_order (order : ProgramOrder s) {p : Fin threads}
    (stepped : pushStep capacity s p = some after) : ProgramOrder after := by
  have offers := order.offers p
  cases pc : s.producers p with
  | idle => simp [pushStep, pc] at stepped
  | lock item =>
    cases free : s.push_lock with
    | true =>
      obtain rfl : s = after := by simpa [pushStep, pc, free] using stepped
      exact order
    | false =>
      obtain rfl : _ = after := by simpa [pushStep, pc, free] using stepped
      exact order.silent rfl rfl rfl (by simp [pc, PushPc.pending]) (by simp)
  | loadTail item =>
    obtain rfl : _ = after := by simpa [pushStep, pc] using stepped
    exact order.silent rfl rfl rfl (by simp [pc, PushPc.pending]) (by simp)
  | loadHead item t =>
    by_cases full : (t + 1) &&& (capacity - 1) = s.head
    · simp only [pushStep, pc, if_pos full, Option.some.injEq] at stepped
      subst stepped
      refine order.logged rfl rfl rfl ?_ ?_ (fun _ => rfl) (by simp) (by simp)
      · intro q different
        simp [Event.actor, acceptances, itemsOf, calledBy, Ne.symm different]
      · simp only [pc, PushPc.pending] at offers
        simpa [PushPc.pending, acceptances, itemsOf, calledBy] using
          (List.sublist_append_left _ _).trans offers
    · simp only [pushStep, pc, if_neg full, Option.some.injEq] at stepped
      subst stepped
      exact order.silent rfl rfl rfl (by simp [pc, PushPc.pending]) (by simp)
  | countDrop =>
    obtain rfl : _ = after := by simpa [pushStep, pc] using stepped
    exact order.silent rfl rfl rfl (by simp [pc, PushPc.pending]) (by simp [pc])
  | unlockFull =>
    obtain rfl : _ = after := by simpa [pushStep, pc] using stepped
    refine order.logged rfl rfl rfl ?_ ?_ (by simp) ?_ (by simp)
    · intro q different
      simp [Event.actor, acceptances, itemsOf, calledBy, Ne.symm different]
    · simpa [pc, PushPc.pending, acceptances, itemsOf, calledBy] using offers
    · intro q same
      obtain rfl : p = q := by simpa using same
      exact order.refusing p (.inr pc)
  | construct item t next =>
    obtain rfl : _ = after := by simpa [pushStep, pc] using stepped
    refine order.logged rfl rfl rfl ?_ ?_ (by simp) (by simp) (by simp)
    · intro q different
      simp [Event.actor, acceptances, itemsOf, calledBy]
    · simpa [pc, PushPc.pending, acceptances, itemsOf, calledBy] using offers
  | storeTail item next =>
    obtain rfl : _ = after := by simpa [pushStep, pc] using stepped
    refine order.logged rfl rfl rfl ?_ ?_ (by simp) (by simp) (by simp)
    · intro q different
      simp [Event.actor, acceptances, itemsOf, calledBy, Ne.symm different]
    · simpa [pc, PushPc.pending, acceptances, itemsOf, calledBy] using offers
  | unlock =>
    obtain rfl : _ = after := by simpa [pushStep, pc] using stepped
    refine order.logged rfl rfl rfl ?_ ?_ (by simp) (by simp) (by simp)
    · intro q different
      simp [Event.actor, acceptances, itemsOf, calledBy, Ne.symm different]
    · simpa [pc, PushPc.pending, acceptances, itemsOf, calledBy] using offers

/-- Events of the consumer and of the destructor. -/
def Event.consumers : Event threads α → Bool
  | .popped _ | .sawEmpty | .destroyed _ | .discarded _ => true
  | _ => false

/-- The consumer's accesses leave the producers alone and log at most one event
of their own; items are discarded only by the destructor. -/
theorem popStep_history {holder : Option (Fin threads)} {front : Nat} {items : List α}
    (described : Describes source capacity s holder front items)
    (stepped : popStep source capacity s = some after) :
    after.producers = s.producers ∧ after.dropping = s.dropping ∧
      (after.history = s.history ∨ ∃ event, after.history = s.history ++ [event] ∧
        event.consumers = true ∧ (s.dropping = false → ∀ item, event ≠ .discarded item)) := by
  have here := described.consuming
  cases running : s.consumer <;> simp only [running, Consuming] at here <;>
    simp only [popStep, running] at stepped
  case idle => simp at stepped
  case gone => simp at stepped
  case loadTail h =>
    split at stepped
    · split at stepped
      · obtain rfl := Option.some.inj stepped
        exact ⟨rfl, rfl, .inl rfl⟩
      · obtain rfl := Option.some.inj stepped
        exact ⟨rfl, rfl, .inr ⟨.sawEmpty, rfl, rfl, by simp⟩⟩
    · obtain rfl := Option.some.inj stepped
      exact ⟨rfl, rfl, .inl rfl⟩
  case moveOut h =>
    split at stepped
    · obtain rfl := Option.some.inj stepped
      exact ⟨rfl, rfl, .inl rfl⟩
    · obtain rfl := Option.some.inj stepped
      exact ⟨rfl, rfl, .inl rfl⟩
    · simp at stepped
  case destroy h item =>
    split at stepped
    · obtain rfl := Option.some.inj stepped
      exact ⟨rfl, rfl, .inr ⟨.destroyed item, rfl, rfl, by simp⟩⟩
    · simp at stepped
  case storeHead h item =>
    obtain rfl := Option.some.inj stepped
    refine ⟨rfl, rfl, .inr ⟨_, rfl, ?_, ?_⟩⟩
    · cases s.dropping <;> rfl
    · intro alive
      simp [alive]
  case dtorLoadTail h =>
    obtain rfl := Option.some.inj stepped
    exact ⟨rfl, rfl, .inl rfl⟩
  case dtorLoop h t =>
    split at stepped
    · obtain rfl := Option.some.inj stepped
      exact ⟨rfl, rfl, .inl rfl⟩
    · split at stepped
      · rename_i item alive
        obtain rfl := Option.some.inj stepped
        exact ⟨rfl, rfl, .inr ⟨.discarded item, rfl, rfl, by simp [here.2.2.2.1]⟩⟩
      · simp at stepped

/-- The consumer's side never disturbs the producers' program order. -/
theorem ProgramOrder.aside (order : ProgramOrder s)
    (producers : after.producers = s.producers)
    (begun : after.dropping = false → s.dropping = false)
    (history : after.history = s.history ∨ ∃ event, after.history = s.history ++ [event] ∧
      event.consumers = true ∧ (s.dropping = false → ∀ item, event ≠ .discarded item)) :
    ProgramOrder after := by
  rcases history with same | ⟨event, logged, consumers, kept⟩
  · exact
      { offers := by
          rw [producers, same]
          exact order.offers
        refusing := by
          rw [producers, same]
          exact order.refusing
        refused := by
          rw [same]
          exact order.refused
        kept := by
          rw [same]
          exact fun alive => order.kept (begun alive) }
  · have foreign : ∀ q, event.actor ≠ some q ∧ itemsOf q (acceptances [event]) = [] ∧
        calledBy q [event] = [] := by
      intro q
      cases event <;>
        simp_all [Event.consumers, Event.actor, acceptances, itemsOf, calledBy]
    exact
      { offers := by
          intro q
          rw [producers, logged, acceptances_snoc, itemsOf_append, calledBy_snoc,
            (foreign q).2.1, (foreign q).2.2]
          simpa using order.offers q
        refusing := by
          intro q moved
          rw [producers] at moved
          rw [logged]
          exact (order.refusing q moved).snoc (foreign q).1
        refused := by
          rw [logged]
          apply order.refused.snoc
          rintro q rfl
          simp [Event.consumers] at consumers
        kept := by
          rw [logged]
          intro alive item member
          rcases List.mem_append.mp member with old | new
          · exact order.kept (begun alive) item old
          · exact kept (begun alive) item (List.mem_singleton.mp new).symm }

/-- Every step keeps the order of each producer. -/
theorem step_order {action : Action threads α} (order : ProgramOrder s)
    {holder : Option (Fin threads)} {front : Nat} {items : List α}
    (described : Describes source capacity s holder front items)
    (stepped : step source capacity s action = some after) : ProgramOrder after := by
  cases action with
  | push p item =>
    simp only [step] at stepped
    split at stepped
    case h_2 => simp at stepped
    case h_1 idle alive =>
      obtain rfl := Option.some.inj stepped
      refine order.logged rfl rfl rfl ?_ ?_ (by simp) (by simp) (by simp)
      · intro q different
        simp [Event.actor, acceptances, itemsOf, calledBy, Ne.symm different]
      · have offers := order.offers p
        simp only [idle, PushPc.pending, List.append_nil] at offers
        simpa [PushPc.pending, acceptances, itemsOf, calledBy] using offers
  | producer p => exact push_order order stepped
  | pop =>
    simp only [step] at stepped
    split at stepped
    case h_3 => simp at stepped
    all_goals
      obtain rfl := Option.some.inj stepped
      exact order.aside rfl id (.inl rfl)
  | consumer =>
    obtain ⟨producers, dropping, history⟩ := popStep_history described stepped
    exact order.aside producers (fun alive => dropping ▸ alive) history
  | destruct =>
    simp only [step] at stepped
    split at stepped
    case h_2 => simp at stepped
    case h_1 idle alive =>
      split at stepped
      case isFalse => simp at stepped
      case isTrue finished =>
        obtain rfl := Option.some.inj stepped
        exact order.aside rfl (by simp) (.inl rfl)

/-- In every run each producer's items are accepted in the order of its calls. -/
theorem reachable_order (power : PowerOfTwo capacity)
    (reached : (machine source capacity threads α).Reachable s) : ProgramOrder s := by
  refine Machine.invariant ProgramOrder ?_ ?_ reached
  · exact
      { offers := fun p => List.Sublist.refl []
        refusing := by simp [machine, init]
        refused := Justified.nil
        kept := by simp [machine, init] }
  · intro before action after met order stepped
    obtain ⟨_, _, _, described⟩ := reachable_described power met
    exact step_order order described stepped

/-- The item that `pop` has already moved out while `head_` still counts it. -/
def PopPc.held : PopPc α → List α
  | .destroy _ item | .storeHead _ item => [item]
  | _ => []

/-- The item that lives in a slot. -/
def Slot.item? : Slot α → Option α
  | .live item => some item
  | _ => none

/-- The number of slots from `head_` to `tail_`, around the ring. -/
def occupancy (capacity : SizeT) (s : State threads α) : Nat :=
  ((s.tail - s.head) &&& (capacity - 1)).toNat

/-- The items in the slots from `head_` to `tail_`, oldest first, preceded by the
one that a running `pop` has in hand. -/
def contents (capacity : SizeT) (s : State threads α) : List α :=
  s.consumer.held ++ (List.range (occupancy capacity s)).filterMap fun offset =>
    (s.buffer ((s.head + BitVec.ofNat 64 offset) &&& (capacity - 1))).item?

/-- Reading consecutive entries of a list gives its front. -/
theorem filterMap_range {items : List α} {read : Nat → Option α} {size : Nat}
    (reads : ∀ offset, offset < size → read offset = items[offset]?)
    (whole : size = items.length) : (List.range size).filterMap read = items := by
  induction items generalizing read size with
  | nil => simp [whole]
  | cons item rest inductionHypothesis =>
    obtain rfl : size = rest.length + 1 := whole
    have later : (List.range rest.length).filterMap (read ∘ Nat.succ) = rest := by
      apply inductionHypothesis _ rfl
      intro offset inside
      simpa using reads (offset + 1) (by omega)
    have first : read 0 = some item := by simpa using reads 0 (by omega)
    rw [List.range_succ_eq_map, List.filterMap_cons, first, List.filterMap_map, later]

/-- The distance of the positions is the number of items. -/
theorem Describes.occupancy_length {holder : Option (Fin threads)} {front : Nat} {items : List α}
    (described : Describes source capacity s holder front items) (power : PowerOfTwo capacity)
    (alive : s.dropping = false) : occupancy capacity s = items.length := by
  rw [occupancy, described.tail_at, described.head_at alive]
  exact masked_distance power front (described.bounded power)

/-- The front item is either alive in the front cell or in the hand of `pop`. -/
theorem Describes.front_item {holder : Option (Fin threads)} {front : Nat} {items : List α}
    (described : Describes source capacity s holder front items) (alive : s.dropping = false) :
    (s.consumer.held = [] ∧ FrontLive capacity s front items) ∨
      ∃ item rest, items = item :: rest ∧ s.consumer.held = [item] ∧
        (s.buffer (cell capacity front)).item? = none := by
  have here := described.consuming
  have split : ∀ item, items[0]? = some item → ∃ rest, items = item :: rest := by
    intro item present
    cases items with
    | nil => simp at present
    | cons first rest => exact ⟨rest, by simpa using present⟩
  cases pc : s.consumer with
  | idle =>
    rw [pc] at here
    exact .inl ⟨rfl, here.2.1⟩
  | loadTail h =>
    rw [pc] at here
    exact .inl ⟨rfl, here.2.2.1⟩
  | moveOut h =>
    rw [pc] at here
    exact .inl ⟨rfl, here.2.2.1⟩
  | destroy h item =>
    rw [pc] at here
    obtain ⟨at_front, same, present, moved, _⟩ := here
    obtain ⟨rest, whole⟩ := split item present
    exact .inr ⟨item, rest, whole, rfl, by rw [← at_front, ← same, moved]; rfl⟩
  | storeHead h item =>
    rw [pc] at here
    obtain ⟨at_front, same, present, raw, _⟩ := here
    obtain ⟨rest, whole⟩ := split item present
    exact .inr ⟨item, rest, whole, rfl, by rw [← at_front, ← same, raw]; rfl⟩
  | dtorLoadTail h =>
    rw [pc] at here
    simp [Consuming, alive] at here
  | dtorLoop h t =>
    rw [pc] at here
    simp [Consuming, alive] at here
  | gone =>
    rw [pc] at here
    simp [Consuming, alive] at here

/-- The memory holds exactly the ghost's items. -/
theorem Describes.contents_items {holder : Option (Fin threads)} {front : Nat} {items : List α}
    (described : Describes source capacity s holder front items) (power : PowerOfTwo capacity)
    (alive : s.dropping = false) : contents capacity s = items := by
  have later : ∀ offset, 0 < offset → offset < items.length →
      (s.buffer (cell capacity (front + offset))).item? = items[offset]? := by
    intro offset positive present
    rw [List.getElem?_eq_getElem present,
      described.inside offset _ positive (List.getElem?_eq_getElem present)]
    rfl
  rw [contents, described.occupancy_length power alive, described.head_at alive]
  simp only [masked_offset power]
  rcases described.front_item alive with ⟨empty, live⟩ | ⟨item, rest, rfl, held, gone⟩
  · rw [empty, List.nil_append]
    apply filterMap_range _ rfl
    intro offset inside
    rcases Nat.eq_zero_or_pos offset with rfl | positive
    · rw [List.getElem?_eq_getElem inside, Nat.add_zero,
        live _ (List.getElem?_eq_getElem inside)]
      rfl
    · exact later offset positive inside
  · rw [held, List.length_cons, List.range_succ_eq_map, List.filterMap_cons, Nat.add_zero, gone,
      List.filterMap_map]
    have tail : (List.range rest.length).filterMap
        ((fun offset => (s.buffer (cell capacity (front + offset))).item?) ∘ Nat.succ) = rest := by
      apply filterMap_range _ rfl
      intro offset inside
      exact later (offset + 1) (by omega) (by simpa using inside)
    simp only [tail]
    rfl

/-- Popped items with the producers that offered them. -/
def deliveries (history : List (Event threads α)) : List (Fin threads × α) :=
  (acceptances history).take (popped history).length

/-- What `push` and `pop` promise of the queue, in the queue's own terms. -/
structure FifoContract (capacity : SizeT) (s : State threads α) : Prop where
  buffer : BoundedFifo.Legal (capacity.toNat - 1) (operations s.history) (contents capacity s)
  conserved : accepted s.history = popped s.history ++ contents capacity s
  bounded : (contents capacity s).length ≤ capacity.toNat - 1
  delivered : (deliveries s.history).map Prod.snd = popped s.history
  in_order : ∀ p, itemsOf p (deliveries s.history) <+: itemsOf p (acceptances s.history)
  as_called : ∀ p, (itemsOf p (acceptances s.history)).Sublist (calledBy p s.history)
  refused : Justified (fun before event => ∀ p, event = .returned p false →
    ∃ earlier later, before = earlier ++ .full p :: later ∧
      (∀ found ∈ later, found.actor ≠ some p) ∧
      (accepted earlier).length = (popped earlier).length + (capacity.toNat - 1)) s.history
  emptied : Justified (fun before event => event = .sawEmpty →
    accepted before = popped before) s.history
  counted : (∀ p, s.producers p ≠ .countDrop) → s.dropped = BitVec.ofNat 64 (fulls s.history)
  counting : (∃ p, s.producers p = .countDrop) →
    s.dropped + 1 = BitVec.ofNat 64 (fulls s.history)

/-- Before the destructor only `pop` removes items. -/
theorem left_eq_popped {history : List (Event threads α)}
    (kept : ∀ item, .discarded item ∉ history) : left history = popped history := by
  apply List.filterMap_congr
  intro event member
  cases event with
  | discarded item => exact absurd member (kept item)
  | _ => rfl

/-- The abstract buffer's explanations, carried over to the events of the run. -/
theorem explained_history {limit : Nat} {history : List (Event threads α)} {items : List α}
    (legal : BoundedFifo.Legal limit (operations history) items)
    (kept : ∀ item, .discarded item ∉ history) :
    Justified (fun before event =>
      (∀ p, event = .full p → (accepted before).length = (popped before).length + limit) ∧
      (event = .sawEmpty → accepted before = popped before)) history := by
  rintro before event after rfl
  have shorter : left before = popped before :=
    left_eq_popped (fun item member => kept item (List.mem_append_left _ member))
  have split : operations (before ++ event :: after) =
      operations before ++ operations [event] ++ operations after := by
    simp [operations, ← List.filterMap_append]
  constructor
  · rintro p rfl
    have explained := legal.explained (operations before) .reject (operations after)
      (by rw [split]; simp [operations])
    simpa only [BoundedFifo.Explained, accepted_operations, taken_operations, shorter] using
      explained
  · rintro rfl
    have explained := legal.explained (operations before) .miss (operations after)
      (by rw [split]; simp [operations])
    simpa only [BoundedFifo.Explained, accepted_operations, taken_operations, shorter] using
      explained

/-- The drop counter lags behind only while the lock holder is between the full
test and the increment. -/
theorem Describes.counted {holder : Option (Fin threads)} {front : Nat} {items : List α}
    (described : Describes source capacity s holder front items)
    (settled : ∀ p, s.producers p ≠ .countDrop) :
    s.dropped = BitVec.ofNat 64 (fulls s.history) := by
  have here := described.section_at
  have quiet : holder.elim .idle s.producers ≠ .countDrop := by
    cases holder with
    | none => simp
    | some p => exact settled p
  cases pc : holder.elim .idle s.producers <;> rw [pc] at here quiet
  case countDrop => exact absurd rfl quiet
  case loadHead => exact here.2.2
  case construct => exact here.2.2.2.2
  case storeTail => exact here.2.2.2.2
  all_goals exact here.2

/-- In every interleaving of any number of producers and one consumer, over
every power-of-two capacity, the ring queue is a bounded buffer of `capacity - 1`
items: what was popped is an initial part of what was accepted in the order of
the `tail_` stores, producer by producer too; a refusal found the ring full when
it loaded `head_`, an empty answer found everything popped when it loaded
`tail_`; and `dropped_` counts the refusals. -/
theorem fifo_contract (power : PowerOfTwo capacity)
    (reached : (machine source capacity threads α).Reachable s) (alive : s.dropping = false) :
    FifoContract capacity s := by
  obtain ⟨holder, front, items, described⟩ := reachable_described power reached
  have order : ProgramOrder s := reachable_order power reached
  have kept : ∀ item, .discarded item ∉ s.history := order.kept alive
  have held : contents capacity s = items := described.contents_items power alive
  have legal : BoundedFifo.Legal (capacity.toNat - 1) (operations s.history)
      (contents capacity s) := held ▸ described.legal
  have conserved : accepted s.history = popped s.history ++ contents capacity s := by
    rw [← accepted_operations, legal.conserved, taken_operations, left_eq_popped kept]
  have explained := explained_history legal kept
  exact
    { buffer := legal
      conserved := conserved
      bounded := legal.bounded
      delivered := by
        rw [deliveries, List.map_take, acceptances_items, conserved, List.take_left]
      in_order := by
        intro p
        have split := List.take_append_drop (popped s.history).length (acceptances s.history)
        refine ⟨itemsOf p ((acceptances s.history).drop (popped s.history).length), ?_⟩
        rw [deliveries, ← itemsOf_append, split]
      as_called := fun p => (List.sublist_append_left _ _).trans (order.offers p)
      refused := by
        intro before event after split p same
        obtain ⟨earlier, later, rfl, silent⟩ := order.refused before event after split p same
        refine ⟨earlier, later, rfl, silent, ?_⟩
        refine (explained earlier (.full p) (later ++ event :: after) ?_).1 p rfl
        rw [split]
        simp
      emptied := explained.mono fun before event both => both.2
      counted := described.counted
      counting := by
        rintro ⟨p, counting⟩
        exact (described.holds counting rfl).2.2 }

/-- Two producers contend for a ring of one item while the consumer waits: the
second call is refused, and the first one's item is popped. -/
def contendedRun : List (Action 2 Nat) :=
  [.push 0 7, .push 1 9, .producer 0, .producer 1, .producer 0, .producer 0, .producer 0,
    .producer 0, .producer 0, .producer 1, .producer 1, .producer 1, .pop, .consumer,
    .producer 1, .producer 1, .consumer, .consumer, .consumer]

/-- Two producers at a ring for one item. -/
theorem contendedRun_contract :
    ∃ s, (machine .cpp 2 2 Nat).exec (init 2 Nat) contendedRun = some s ∧
      popped s.history = [7] ∧ fulls s.history = 1 ∧ FifoContract 2 s := by
  have outcome : ((machine .cpp 2 2 Nat).exec (init 2 Nat) contendedRun).map (fun s =>
      (popped s.history, fulls s.history, s.dropping)) = some ([7], 1, false) := by decide
  obtain ⟨s, ran, seen⟩ := Option.map_eq_some_iff.mp outcome
  simp only [Prod.mk.injEq] at seen
  obtain ⟨pops, refusals, alive⟩ := seen
  exact ⟨s, ran, pops, refusals,
    fifo_contract ⟨1, by decide, rfl⟩ (Machine.reachable_of_exec ran) alive⟩

end FlowKernel.MpscQueue
