import FlowKernel.Foundation.History

/-!
# A bounded first-in first-out buffer

The abstract buffer is a list of at most `limit` items, oldest first. An
operation is reported by an event: an item was accepted at the back, an offer
was rejected because the buffer was full, the front item was taken, or a take
found nothing. `Legal` histories are those the buffer can produce; every fact
about what such a buffer promises follows from legality alone, so an
implementation only has to show that the events it reports are legal.
-/

namespace Foundation.BoundedFifo

universe u
variable {α : Type u}

/-- What an operation of a bounded buffer does. -/
inductive Event (α : Type u) where
  | accept (item : α)
  | reject
  | take (item : α)
  | miss
deriving DecidableEq

/-- One operation of a buffer of the given limit, from its items to its items. -/
inductive Step (limit : Nat) : List α → Event α → List α → Prop
  | accept {items : List α} {item : α} (room : items.length < limit) :
      Step limit items (.accept item) (items ++ [item])
  | reject {items : List α} (full : items.length = limit) : Step limit items .reject items
  | take {item : α} {rest : List α} : Step limit (item :: rest) (.take item) rest
  | miss : Step limit [] .miss []

variable {limit : Nat} {items after : List α} {item : α}

/-- An accepted item goes behind the others. -/
theorem Step.accepted (step : Step limit items (.accept item) after) :
    items.length < limit ∧ after = items ++ [item] := by
  cases step with
  | accept room => exact ⟨room, rfl⟩

/-- An item is rejected by a full buffer only. -/
theorem Step.rejected (step : Step limit items .reject after) :
    items.length = limit ∧ after = items := by
  cases step with
  | reject full => exact ⟨full, rfl⟩

/-- What is taken is the front. -/
theorem Step.took (step : Step limit items (.take item) after) : items = item :: after := by
  cases step with
  | take => rfl

/-- Nothing is taken from an empty buffer only. -/
theorem Step.missed (step : Step limit items .miss after) : items = [] ∧ after = items := by
  cases step with
  | miss => exact ⟨rfl, rfl⟩

/-- Histories of an initially empty buffer, with the items it holds afterwards. -/
inductive Legal (limit : Nat) : List (Event α) → List α → Prop
  | nil : Legal limit [] []
  | snoc {history : List (Event α)} {items after : List α} {event : Event α}
      (earlier : Legal limit history items) (step : Step limit items event after) :
      Legal limit (history ++ [event]) after

/-- Items accepted, in the order of their acceptance. -/
def accepted (history : List (Event α)) : List α :=
  history.filterMap fun
    | .accept item => some item
    | _ => none

/-- Items taken, in the order they left. -/
def taken (history : List (Event α)) : List α :=
  history.filterMap fun
    | .take item => some item
    | _ => none

/-- Offer one item: it joins the back if there is room. -/
def push (limit : Nat) (items : List α) (item : α) : Bool × List α :=
  if items.length < limit then (true, items ++ [item]) else (false, items)

/-- Remove the front item, if there is one. -/
def pop : List α → Option (α × List α)
  | [] => none
  | item :: rest => some (item, rest)

/-- The items accepted, in two parts of a history. -/
@[simp] theorem accepted_append (before after : List (Event α)) :
    accepted (before ++ after) = accepted before ++ accepted after :=
  List.filterMap_append

/-- The items taken, in two parts of a history. -/
@[simp] theorem taken_append (before after : List (Event α)) :
    taken (before ++ after) = taken before ++ taken after :=
  List.filterMap_append

/-- The limit is never exceeded: only an acceptance adds, and it needs room. -/
theorem Legal.bounded {limit : Nat} {history : List (Event α)} {items : List α}
    (legal : Legal limit history items) : items.length ≤ limit := by
  induction legal with
  | nil => exact Nat.zero_le limit
  | snoc earlier step inductionHypothesis =>
    cases step with
    | accept room =>
      rw [List.length_append]
      exact room
    | reject full => exact Nat.le_of_eq full
    | take => exact Nat.le_of_succ_le inductionHypothesis
    | miss => exact Nat.zero_le limit

/-- Everything accepted has either been taken or is still held, in order. This
single equation excludes loss, duplication and reordering at once. -/
theorem Legal.conserved {limit : Nat} {history : List (Event α)} {items : List α}
    (legal : Legal limit history items) : accepted history = taken history ++ items := by
  induction legal with
  | nil => rfl
  | snoc earlier step inductionHypothesis =>
    rw [accepted_append, taken_append, inductionHypothesis]
    cases step <;> simp [accepted, taken]

/-- A history determines what the buffer holds after it. -/
theorem Legal.unique {limit : Nat} {history : List (Event α)} {items held : List α}
    (legal : Legal limit history items) (other : Legal limit history held) : items = held :=
  List.append_cancel_left (legal.conserved.symm.trans other.conserved)

/-- The last operation of a history, from what the buffer held before it. -/
theorem Legal.last {limit : Nat} {history : List (Event α)} {event : Event α}
    {items after : List α} (legal : Legal limit history items)
    (longer : Legal limit (history ++ [event]) after) : Step limit items event after := by
  generalize whole : history ++ [event] = events at longer
  cases longer with
  | nil => simp at whole
  | snoc earlier step =>
    obtain ⟨rfl, same⟩ := List.append_inj' whole rfl
    obtain rfl := List.singleton_inj.mp same
    exact legal.unique earlier ▸ step

/-- What left the buffer is an initial part of what entered it. -/
theorem Legal.taken_first {limit : Nat} {history : List (Event α)} {items : List α}
    (legal : Legal limit history items) : taken history <+: accepted history :=
  ⟨items, legal.conserved.symm⟩

/-- What a refusal or an empty take says about the history before it. -/
def Explained (limit : Nat) (before : List (Event α)) : Event α → Prop
  | .reject => (accepted before).length = (taken before).length + limit
  | .miss => accepted before = taken before
  | _ => True

/-- Refusals happen only with `limit` items held, empty takes only with none. -/
theorem Legal.explained {limit : Nat} {history : List (Event α)} {items : List α}
    (legal : Legal limit history items) : Justified (Explained limit) history := by
  induction legal with
  | nil => exact Justified.nil
  | @snoc history items after event earlier step inductionHypothesis =>
    apply inductionHypothesis.snoc
    have conserved : accepted history = taken history ++ items := earlier.conserved
    cases step with
    | accept room => trivial
    | reject full => simp only [Explained, conserved, List.length_append, full]
    | take => trivial
    | miss => simpa [Explained] using conserved

end Foundation.BoundedFifo
