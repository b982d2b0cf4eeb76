import Mathlib.Data.List.DropRight
import Mathlib.Data.List.Sort
import Mathlib.Order.Defs.LinearOrder

/-!
# Sliding windows and order statistics

A bounded window that drops its oldest item when a new one does not fit holds the last items
of everything pushed into it. The item at an index of the sorted copy of a window has a rank:
more items than the index are at most it, and at most the index many are below it. A quantile
reads the index that a percentage of the length gives.
-/

namespace Foundation

universe u
variable {α : Type u}

/-- Append an item, and drop the oldest one if the window has grown beyond its limit. -/
def slide (limit : Nat) (window : List α) (item : α) : List α :=
  let longer := window ++ [item]
  if longer.length > limit then longer.drop 1 else longer

/-- A window holds the last items of a history. -/
theorem slide_rtake (limit : Nat) (history : List α) (item : α) :
    slide limit (history.rtake limit) item = (history ++ [item]).rtake limit := by
  simp only [slide, List.rtake, List.length_append, List.length_drop, List.length_singleton]
  by_cases full : history.length < limit
  · have room : ¬ history.length - (history.length - limit) + 1 > limit := by omega
    have all : history.length - limit = 0 := by omega
    have still : history.length + 1 - limit = 0 := by omega
    rw [if_neg room, all, still, List.drop_zero, List.drop_zero]
  · have grown : history.length - (history.length - limit) + 1 > limit := by omega
    have next : history.length + 1 - limit = history.length - limit + 1 := by omega
    have within : history.length - limit ≤ history.length := Nat.sub_le ..
    rw [if_pos grown, next, ← List.drop_append_of_le_length within, List.drop_drop]

/-- Asking for more items than there are gives all of them. -/
theorem rtake_min_length (items : List α) (count : Nat) :
    items.rtake (min items.length count) = items.rtake count := by
  unfold List.rtake
  congr 1
  omega

section Ranks

variable [LinearOrder α] {items : List α} {value : α} {index : Nat}

/-- The items around the one at an index of a sorted list. -/
theorem sorted_split (sorted : items.Pairwise (· ≤ ·)) (here : items[index]? = some value) :
    ∃ lower upper, items = lower ++ value :: upper ∧ lower.length = index ∧
      (∀ item ∈ lower, item ≤ value) ∧ ∀ item ∈ upper, value ≤ item := by
  obtain ⟨bound, found⟩ := List.getElem?_eq_some_iff.mp here
  have split : items = items.take index ++ value :: items.drop (index + 1) := by
    rw [← found, ← List.drop_eq_getElem_cons, List.take_append_drop]
  refine ⟨_, _, split, List.length_take_of_le (Nat.le_of_lt bound), ?_, ?_⟩
  all_goals
    rw [split] at sorted
    obtain ⟨-, rest, between⟩ := List.pairwise_append.mp sorted
  · intro item lower
    exact between item lower value List.mem_cons_self
  · exact (List.pairwise_cons.mp rest).1

/-- More items than its index are at most the item. -/
theorem index_lt_countP_le (sorted : items.Pairwise (· ≤ ·))
    (here : items[index]? = some value) : index < items.countP (· ≤ value) := by
  obtain ⟨lower, upper, rfl, length, below, -⟩ := sorted_split sorted here
  have all : lower.countP (· ≤ value) = lower.length :=
    List.countP_eq_length.mpr fun item member => decide_eq_true (below item member)
  rw [List.countP_append, all, length, List.countP_cons_of_pos (by simp)]
  omega

/-- At most as many items as its index are below the item. -/
theorem countP_lt_le_index (sorted : items.Pairwise (· ≤ ·))
    (here : items[index]? = some value) : items.countP (· < value) ≤ index := by
  obtain ⟨lower, upper, rfl, length, -, above⟩ := sorted_split sorted here
  have nobody : upper.countP (· < value) = 0 :=
    List.countP_eq_zero.mpr fun item member => by simpa using above item member
  rw [List.countP_append, List.countP_cons_of_neg (by simp), nobody, ← length]
  exact List.countP_le_length

/-- The items of a sorted list ascend with the index. -/
theorem sorted_getElem?_le (sorted : items.Pairwise (· ≤ ·)) {later : Nat} {other : α}
    (ordered : index ≤ later) (here : items[index]? = some value)
    (there : items[later]? = some other) : value ≤ other := by
  obtain ⟨bound, rfl⟩ := List.getElem?_eq_some_iff.mp here
  obtain ⟨bound', rfl⟩ := List.getElem?_eq_some_iff.mp there
  rcases Nat.eq_or_lt_of_le ordered with rfl | before
  · exact le_refl _
  · exact List.pairwise_iff_getElem.mp sorted index later bound bound' before

end Ranks

section Quantiles

/-- The index of a quantile, kept within the list. -/
def quantileIndex (length percent : Nat) : Nat :=
  min (length * percent / 100) (length - 1)

/-- The index lies inside the window. -/
theorem quantileIndex_lt {length : Nat} (percent : Nat) (positive : 0 < length) :
    quantileIndex length percent < length := by
  unfold quantileIndex
  omega

variable [LinearOrder α]

/-- The ascending copy of a list. -/
def ascending (items : List α) : List α :=
  items.insertionSort (· ≤ ·)

/-- The sorted copy ascends. -/
theorem ascending_sorted (items : List α) : (ascending items).Pairwise (· ≤ ·) :=
  List.pairwise_insertionSort (· ≤ ·) items

/-- The sorted copy has the same items. -/
theorem ascending_perm (items : List α) : (ascending items).Perm items :=
  List.perm_insertionSort (· ≤ ·) items

/-- The copy does not depend on the order of the list. -/
theorem ascending_eq_of_perm {items other : List α} (same : items.Perm other) :
    ascending items = ascending other := by
  apply List.Perm.eq_of_pairwise' (ascending_sorted items) (ascending_sorted other)
  exact (ascending_perm items).trans (same.trans (ascending_perm other).symm)

/-- An item of the list such that at least the given percentage of the list is at most it,
and at most this percentage is below it. -/
structure IsQuantile (percent : Nat) (items : List α) (value : α) : Prop where
  member : value ∈ items
  reached : percent * items.length ≤ 100 * items.countP (· ≤ value)
  below : 100 * items.countP (· < value) ≤ percent * items.length

variable {items : List α} {percent : Nat}

/-- What stands at the index has the rank. -/
theorem isQuantile_of_index {value : α} (whole : percent ≤ 100)
    (here : (ascending items)[quantileIndex items.length percent]? = some value) :
    IsQuantile percent items value := by
  have same := ascending_perm items
  have atMost := index_lt_countP_le (ascending_sorted items) here
  have under := countP_lt_le_index (ascending_sorted items) here
  rw [same.countP_eq] at atMost under
  have most : items.countP (· ≤ value) ≤ items.length := List.countP_le_length
  have part : items.length * percent ≤ items.length * 100 := Nat.mul_le_mul_left _ whole
  have exchanged := Nat.mul_comm items.length percent
  refine ⟨same.mem_iff.mp (List.mem_of_getElem? here), ?_, ?_⟩
  all_goals
    unfold quantileIndex at atMost under
    omega

end Quantiles

end Foundation
