/-!
# Histories whose events are justified by what came before

A history is the list of events a run has produced, oldest first. Many safety
statements say of every event of one kind that the events before it stand in
some relation ("a refusal is only ever logged when the buffer was full").
`Justified` states this for all events at once, and grows with the history one
event at a time.
-/

namespace Foundation

universe u
variable {Event : Type u}

/-- Each event stands in the rule's relation to the history before it. -/
def Justified (rule : List Event → Event → Prop) (history : List Event) : Prop :=
  ∀ before event after, history = before ++ event :: after → rule before event

namespace Justified

variable {rule : List Event → Event → Prop} {history : List Event}

/-- An empty history needs no justification. -/
theorem nil : Justified rule [] := by
  intro before event after split
  simp at split

/-- The new event is the only one with anything left to justify. -/
theorem snoc {event : Event} (justified : Justified rule history)
    (latest : rule history event) : Justified rule (history ++ [event]) := by
  intro before found after split
  rcases List.eq_nil_or_concat after with rfl | ⟨init, last, rfl⟩
  · obtain ⟨rfl, same⟩ := List.append_inj' split rfl
    obtain rfl : event = found := (List.cons.inj same).1
    exact latest
  · have reshaped : history ++ [event] = (before ++ found :: init) ++ [last] := by
      simpa using split
    obtain ⟨shorter, _⟩ := List.append_inj' reshaped rfl
    exact justified before found init shorter

/-- Several events appended together, each justified in its turn. -/
theorem append {events : List Event} (justified : Justified rule history)
    (latest : ∀ before event after, events = before ++ event :: after →
      rule (history ++ before) event) : Justified rule (history ++ events) := by
  induction events generalizing history with
  | nil => simpa using justified
  | cons event rest inductionHypothesis =>
    have extended : Justified rule (history ++ [event]) :=
      justified.snoc (by simpa using latest [] event rest rfl)
    have whole : Justified rule ((history ++ [event]) ++ rest) := by
      apply inductionHypothesis extended
      intro before found after split
      have placed := latest (event :: before) found after (by simp [split])
      simpa using placed
    simpa using whole

/-- What is justified by a rule is justified by a weaker one. -/
theorem mono {weaker : List Event → Event → Prop} (justified : Justified rule history)
    (implied : ∀ before event, rule before event → weaker before event) :
    Justified weaker history :=
  fun before event after split => implied before event (justified before event after split)

end Justified

/-- Appended events without a mark leave the marked ones as they are. -/
theorem mem_append_unmarked {marked : Event → Bool} {history events : List Event} {event : Event}
    (unmarked : ∀ found ∈ events, marked found = false) (mark : marked event = true) :
    event ∈ history ++ events ↔ event ∈ history := by
  constructor
  · intro member
    apply (List.mem_append.mp member).resolve_right
    intro latest
    rw [unmarked event latest] at mark
    exact Bool.false_ne_true mark
  · exact List.mem_append_left _

end Foundation
