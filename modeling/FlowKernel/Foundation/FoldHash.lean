import Mathlib.Logic.Function.Basic

/-!
# Hashes that fold over their input

A hash reads its input one symbol at a time into a state. If no step loses anything, that is,
if for a fixed symbol the next state tells the state apart, and for a fixed state it tells the
symbols apart, then a common suffix hides no difference of two inputs, and two inputs that
differ at one place only have different hashes.
-/

namespace Foundation.FoldHash

universe u v
variable {State : Type u} {Symbol : Type v} {step : State → Symbol → State}

/-- Each step can be undone, knowing either of its arguments. -/
structure Lossless (step : State → Symbol → State) : Prop where
  state : ∀ symbol, Function.Injective fun state => step state symbol
  symbol : ∀ state, Function.Injective (step state)

/-- A suffix can be undone. -/
theorem Lossless.foldl (lossless : Lossless step) (suffix : List Symbol) :
    Function.Injective fun state => suffix.foldl step state := by
  induction suffix with
  | nil => exact Function.injective_id
  | cons symbol rest inductionHypothesis =>
    intro left right same
    exact lossless.state symbol (inductionHypothesis same)

/-- Two states that differ stay different behind a common suffix. -/
theorem Lossless.foldl_inj (lossless : Lossless step) (suffix : List Symbol)
    {left right : State} :
    suffix.foldl step left = suffix.foldl step right ↔ left = right :=
  (lossless.foldl suffix).eq_iff

/-- A common suffix hides no difference. -/
theorem Lossless.append_iff (lossless : Lossless step) (start : State)
    (left right suffix : List Symbol) :
    (left ++ suffix).foldl step start = (right ++ suffix).foldl step start ↔
      left.foldl step start = right.foldl step start := by
  rw [List.foldl_append, List.foldl_append]
  exact lossless.foldl_inj suffix

/-- Between a common prefix and a common suffix one symbol decides. -/
theorem Lossless.symbol_iff (lossless : Lossless step) (start : State)
    (before after : List Symbol) (first second : Symbol) :
    (before ++ [first] ++ after).foldl step start =
        (before ++ [second] ++ after).foldl step start ↔ first = second := by
  rw [lossless.append_iff, List.foldl_append, List.foldl_append]
  exact (lossless.symbol _).eq_iff

/-- Two inputs of one length that differ at one place. -/
def DifferOnce (left right : List Symbol) : Prop :=
  left.length = right.length ∧ ∃ place : Nat, left[place]? ≠ right[place]? ∧
    ∀ other, other ≠ place → left[other]? = right[other]?

/-- Around that place both inputs are the same. -/
theorem DifferOnce.split {left right : List Symbol} (differ : DifferOnce left right) :
    ∃ before first second after, first ≠ second ∧ left = before ++ [first] ++ after ∧
      right = before ++ [second] ++ after := by
  obtain ⟨length, place, apart, same⟩ := differ
  have inside : place < left.length := by
    by_contra outside
    have beyond : left.length ≤ place := Nat.le_of_not_lt outside
    rw [List.getElem?_eq_none beyond, List.getElem?_eq_none (length ▸ beyond)] at apart
    exact apart rfl
  have within : place < right.length := length ▸ inside
  have before : left.take place = right.take place := by
    apply List.ext_getElem?
    intro index
    rw [List.getElem?_take, List.getElem?_take]
    split
    next earlier => exact same index (Nat.ne_of_lt earlier)
    next => rfl
  have after : left.drop (place + 1) = right.drop (place + 1) := by
    apply List.ext_getElem?
    intro index
    rw [List.getElem?_drop, List.getElem?_drop]
    exact same _ (by omega)
  refine ⟨left.take place, left[place], right[place], left.drop (place + 1), ?_, ?_, ?_⟩
  · rintro equal
    rw [List.getElem?_eq_getElem inside, List.getElem?_eq_getElem within, equal] at apart
    exact apart rfl
  · simp
  · rw [before, after]
    simp

/-- Inputs that differ at one place have different hashes. -/
theorem Lossless.apart (lossless : Lossless step) (start : State) {left right : List Symbol}
    (differ : DifferOnce left right) : left.foldl step start ≠ right.foldl step start := by
  obtain ⟨before, first, second, after, distinct, rfl, rfl⟩ := differ.split
  rw [ne_eq, lossless.symbol_iff]
  exact distinct

end Foundation.FoldHash
