import Mathlib.Algebra.BigOperators.Group.List.Basic
import Mathlib.Algebra.GroupWithZero.Nat
import Mathlib.Data.List.Nodup

/-!
# Totals over distinct places

An amount is kept at each of a list of places, and a step changes what one place holds.
The total over the places then changes by what that place changes. Items that fall on places
are such amounts: each place counts its own.
-/

namespace Foundation.Totals

universe u v w
variable {Place : Type u} {Amount : Type v} [AddCommMonoid Amount]
  {places : List Place} {place : Place} {before after : Place → Amount}

/-- A place that is not listed does not count. -/
theorem sum_outside (outside : place ∉ places)
    (others : ∀ found, found ≠ place → after found = before found) :
    (places.map after).sum = (places.map before).sum := by
  have same : ∀ found ∈ places, after found = before found := by
    intro found member
    apply others found
    rintro rfl
    exact outside member
  rw [List.map_congr_left same]

/-- A listed place counts once. -/
theorem sum_changed (distinct : places.Nodup) (member : place ∈ places)
    (others : ∀ found, found ≠ place → after found = before found) :
    (places.map after).sum + before place = (places.map before).sum + after place := by
  induction places with
  | nil => simp at member
  | cons first rest inductionHypothesis =>
    obtain ⟨fresh, tail⟩ := List.nodup_cons.mp distinct
    simp only [List.map_cons, List.sum_cons]
    by_cases same : first = place
    · subst same
      rw [sum_outside fresh others, add_right_comm, add_comm (after first), add_right_comm,
        add_comm (before first)]
    · have later := inductionHypothesis tail (by simpa [Ne.symm same] using member)
      rw [others first same, add_assoc, later, add_assoc]

/-- The loop that adds the amounts up. -/
theorem foldl_eq_sum (places : List Place) (amount : Place → Amount) :
    places.foldl (fun total found => total + amount found) 0 = (places.map amount).sum := by
  rw [List.sum_eq_foldl, List.foldl_map]

/-- The items that fall on a listed place, counted place by place. -/
theorem countP_places {Item : Type w} [DecidableEq Place] (distinct : places.Nodup)
    (items : List Item) (place : Item → Place) :
    items.countP (fun item => place item ∈ places) =
      (places.map fun found => items.countP fun item => place item = found).sum := by
  induction items with
  | nil => simp
  | cons item rest inductionHypothesis =>
    have others : ∀ found, found ≠ place item →
        (item :: rest).countP (fun item => place item = found) =
          rest.countP (fun item => place item = found) :=
      fun found different => List.countP_cons_of_neg (by simpa using different.symm)
    by_cases member : place item ∈ places
    · have total := sum_changed distinct member others
      have own : (item :: rest).countP (fun found => place found = place item) =
          rest.countP (fun found => place found = place item) + 1 :=
        List.countP_cons_of_pos (by simp)
      rw [List.countP_cons_of_pos (by simpa using member), inductionHypothesis]
      omega
    · rw [List.countP_cons_of_neg (by simpa using member), inductionHypothesis,
        sum_outside member others]

end Foundation.Totals
