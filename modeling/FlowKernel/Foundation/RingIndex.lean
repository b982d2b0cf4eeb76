import Mathlib.Data.Nat.ModEq
import Mathlib.Data.Nat.Bitwise
import Mathlib.Data.List.Nodup

/-!
# Masked indices of a power-of-two ring

A ring of `capacity` cells is addressed by 64-bit indices that are advanced with
`(index + 1) &&& (capacity - 1)`. Proofs count positions with unbounded natural
numbers instead: position `p` lives in cell `p % capacity`. Within any window of
`capacity` consecutive positions distinct positions have distinct cells, and
masked advance is the successor of positions.

Sources test for a power of two in two ways: a word and its predecessor share no
bit, or a word has one set bit. Only the first admits zero.
-/

namespace Foundation.RingIndex

/-- The capacities for which a mask is a remainder. -/
def PowerOfTwo (capacity : BitVec 64) : Prop :=
  ∃ exponent, exponent < 64 ∧ capacity = BitVec.ofNat 64 (2 ^ exponent)

/-- The cell in which an unbounded position is stored. -/
def cell (capacity : BitVec 64) (position : Nat) : BitVec 64 :=
  BitVec.ofNat 64 (position % capacity.toNat)

/-- A power of two of 64 bits has an exponent below 64. -/
theorem PowerOfTwo.toNat {capacity : BitVec 64} (power : PowerOfTwo capacity) :
    ∃ exponent, exponent < 64 ∧ capacity.toNat = 2 ^ exponent := by
  obtain ⟨exponent, small, rfl⟩ := power
  refine ⟨exponent, small, ?_⟩
  rw [BitVec.toNat_ofNat]
  exact Nat.mod_eq_of_lt (Nat.pow_lt_pow_right (by decide) small)

/-- A power of two is positive. -/
theorem PowerOfTwo.pos {capacity : BitVec 64} (power : PowerOfTwo capacity) :
    0 < capacity.toNat := by
  obtain ⟨exponent, _, exact⟩ := power.toNat
  rw [exact]
  exact Nat.two_pow_pos exponent

/-- The predecessor of a positive number does not wrap. -/
theorem pred_toNat {capacity : BitVec 64} (positive : 0 < capacity.toNat) :
    (capacity - 1).toNat = capacity.toNat - 1 := by
  have bounded : capacity.toNat < 2 ^ 64 := capacity.isLt
  have one : (1 : BitVec 64).toNat = 1 := rfl
  rw [BitVec.toNat_sub, one]
  omega

/-- The mask of a power of two takes the remainder. -/
theorem masked {capacity : BitVec 64} (power : PowerOfTwo capacity) (index : BitVec 64) :
    (index &&& (capacity - 1)).toNat = index.toNat % capacity.toNat := by
  obtain ⟨exponent, small, exact⟩ := power.toNat
  have mask : (capacity - 1).toNat = 2 ^ exponent - 1 := by
    rw [pred_toNat power.pos, exact]
  rw [BitVec.toNat_and, mask, Nat.and_two_pow_sub_one_eq_mod, exact]

/-- Word arithmetic wraps at a multiple of the capacity. -/
theorem PowerOfTwo.dvd {capacity : BitVec 64} (power : PowerOfTwo capacity) :
    capacity.toNat ∣ 2 ^ 64 := by
  obtain ⟨exponent, small, exact⟩ := power.toNat
  rw [exact]
  exact Nat.pow_dvd_pow 2 (Nat.le_of_lt small)

/-- A masked successor is the successor modulo the capacity, also for an index
outside the ring and also when the addition wraps: the capacity divides the
word size. -/
theorem masked_toNat {capacity : BitVec 64} (power : PowerOfTwo capacity) (index : BitVec 64) :
    ((index + 1) &&& (capacity - 1)).toNat = (index.toNat + 1) % capacity.toNat := by
  rw [masked power, BitVec.toNat_add]
  exact Nat.mod_mod_of_dvd _ power.dvd

/-- The cell of a position is its remainder. -/
theorem cell_toNat {capacity : BitVec 64} (power : PowerOfTwo capacity) (position : Nat) :
    (cell capacity position).toNat = position % capacity.toNat := by
  rw [cell, BitVec.toNat_ofNat]
  apply Nat.mod_eq_of_lt
  exact Nat.lt_trans (Nat.mod_lt _ power.pos) capacity.isLt

/-- Every position's cell is inside the ring. -/
theorem cell_lt {capacity : BitVec 64} (power : PowerOfTwo capacity) (position : Nat) :
    cell capacity position < capacity := by
  rw [BitVec.lt_def, cell_toNat power]
  exact Nat.mod_lt _ power.pos

/-- The first position is the first cell. -/
theorem cell_zero (capacity : BitVec 64) : cell capacity 0 = 0 := by
  simp [cell]

/-- The masked successor of a position's cell is the next position's cell. -/
theorem masked_cell {capacity : BitVec 64} (power : PowerOfTwo capacity) (position : Nat) :
    (cell capacity position + 1) &&& (capacity - 1) = cell capacity (position + 1) := by
  apply BitVec.eq_of_toNat_eq
  rw [masked_toNat power, cell_toNat power, cell_toNat power, Nat.mod_add_mod]

/-- Masked addition moves a position's cell by any number of positions. -/
theorem masked_offset {capacity : BitVec 64} (power : PowerOfTwo capacity)
    (position offset : Nat) :
    (cell capacity position + BitVec.ofNat 64 offset) &&& (capacity - 1) =
      cell capacity (position + offset) := by
  apply BitVec.eq_of_toNat_eq
  rw [masked power, BitVec.toNat_add, Nat.mod_mod_of_dvd _ power.dvd, cell_toNat power,
    cell_toNat power, BitVec.toNat_ofNat, Nat.add_mod, Nat.mod_mod_of_dvd _ power.dvd,
    Nat.mod_mod, ← Nat.add_mod]

/-- The masked difference of two cells is the distance of their positions, as
long as that is less than one round. -/
theorem masked_distance {capacity : BitVec 64} (power : PowerOfTwo capacity)
    (position : Nat) {distance : Nat} (short : distance < capacity.toNat) :
    ((cell capacity (position + distance) - cell capacity position) &&& (capacity - 1)).toNat =
      distance := by
  obtain ⟨rounds, wraps⟩ := power.dvd
  have low : position % capacity.toNat < capacity.toNat := Nat.mod_lt _ power.pos
  have back : (cell capacity position).toNat ≤ 2 ^ 64 := Nat.le_of_lt (cell capacity position).isLt
  rw [masked power, BitVec.toNat_sub, Nat.mod_mod_of_dvd _ power.dvd]
  have shifted : 2 ^ 64 - (cell capacity position).toNat +
      (cell capacity (position + distance)).toNat + (cell capacity position).toNat =
        2 ^ 64 + (cell capacity (position + distance)).toNat := by omega
  have congruent : (2 ^ 64 - (cell capacity position).toNat +
      (cell capacity (position + distance)).toNat + (cell capacity position).toNat) %
        capacity.toNat = (distance + (cell capacity position).toNat) % capacity.toNat := by
    rw [shifted, wraps, Nat.mul_add_mod, cell_toNat power, cell_toNat power, Nat.mod_mod,
      Nat.add_mod_mod, Nat.add_comm]
  have cancelled := Nat.ModEq.add_right_cancel' _ congruent
  rw [cancelled, Nat.mod_eq_of_lt short]

/-- From the masked successor of an index back to it, all but one cell are passed. -/
theorem masked_round {capacity : BitVec 64} (power : PowerOfTwo capacity) (index : BitVec 64) :
    ((index - ((index + 1) &&& (capacity - 1))) &&& (capacity - 1)).toNat =
      capacity.toNat - 1 := by
  obtain ⟨rounds, wraps⟩ := power.dvd
  have positive : 0 < capacity.toNat := power.pos
  have low : (index.toNat + 1) % capacity.toNat < capacity.toNat := Nat.mod_lt _ positive
  have small : capacity.toNat < 2 ^ 64 := capacity.isLt
  have recompose := Nat.div_add_mod (index.toNat + 1) capacity.toNat
  obtain ⟨whole, sum⟩ : ∃ whole, 2 ^ 64 - (index.toNat + 1) % capacity.toNat + index.toNat + 1 =
      capacity.toNat * (whole + 1) := by
    have some_ : 0 < rounds := by
      apply Nat.pos_of_ne_zero
      rintro rfl
      simp at wraps
    have several : 0 < rounds + (index.toNat + 1) / capacity.toNat := Nat.add_pos_left some_ _
    obtain ⟨whole, more⟩ := Nat.exists_eq_succ_of_ne_zero (Nat.ne_of_gt several)
    refine ⟨whole, ?_⟩
    rw [← Nat.succ_eq_add_one whole, ← more, Nat.mul_add, ← wraps]
    omega
  have distance : 2 ^ 64 - (index.toNat + 1) % capacity.toNat + index.toNat =
      capacity.toNat * whole + (capacity.toNat - 1) := by
    rw [Nat.mul_add] at sum
    omega
  rw [masked power, BitVec.toNat_sub, Nat.mod_mod_of_dvd _ power.dvd, masked_toNat power, distance,
    Nat.mul_add_mod, Nat.mod_eq_of_lt (by omega)]

/-- Inside one window of `capacity` positions, cells identify positions. -/
theorem cell_injective {capacity : BitVec 64} (power : PowerOfTwo capacity)
    {low left right : Nat} (leftLow : low ≤ left) (leftHigh : left < low + capacity.toNat)
    (rightLow : low ≤ right) (rightHigh : right < low + capacity.toNat)
    (same : cell capacity left = cell capacity right) : left = right := by
  have residues : left % capacity.toNat = right % capacity.toNat := by
    rw [← cell_toNat power, ← cell_toNat power, same]
  rcases Nat.le_total left right with ordered | ordered
  · have apart : capacity.toNat ∣ right - left := (Nat.modEq_iff_dvd' ordered).mp residues
    have close : right - left = 0 := Nat.eq_zero_of_dvd_of_lt apart (by omega)
    omega
  · have apart : capacity.toNat ∣ left - right := (Nat.modEq_iff_dvd' ordered).mp residues.symm
    have close : left - right = 0 := Nat.eq_zero_of_dvd_of_lt apart (by omega)
    omega

/-- Cells of a window, seen as offsets from its first position, are apart. -/
theorem offsets_distinct {capacity : BitVec 64} (power : PowerOfTwo capacity)
    {front left right : Nat} (leftInside : left < capacity.toNat)
    (rightInside : right < capacity.toNat) (different : left ≠ right) :
    cell capacity (front + left) ≠ cell capacity (front + right) := by
  intro same
  have equal : front + left = front + right :=
    cell_injective power (Nat.le_add_right front left) (by omega) (Nat.le_add_right front right)
      (by omega) same
  omega

/-- Positions one whole ring apart share their cell. -/
theorem cell_add_capacity (capacity : BitVec 64) (position : Nat) :
    cell capacity (position + capacity.toNat) = cell capacity position := by
  simp [cell]

/-- The full test: with one cell kept free, the successor of the back is the front. -/
theorem masked_full {capacity : BitVec 64} (power : PowerOfTwo capacity) {front count : Nat}
    (bounded : count < capacity.toNat) :
    (cell capacity (front + count) + 1) &&& (capacity - 1) = cell capacity front ↔
      count + 1 = capacity.toNat := by
  rw [masked_cell power, Nat.add_assoc]
  constructor
  · intro same
    by_contra roomy
    have apart : cell capacity (front + (count + 1)) ≠ cell capacity (front + 0) :=
      offsets_distinct power (by omega) power.pos (by omega)
    exact apart (by simpa using same)
  · intro full
    rw [full, cell_add_capacity]

/-- The empty test: the back is the front. -/
theorem cell_empty {capacity : BitVec 64} (power : PowerOfTwo capacity) {front count : Nat}
    (bounded : count < capacity.toNat) :
    cell capacity front = cell capacity (front + count) ↔ count = 0 := by
  constructor
  · intro same
    by_contra some_
    have apart : cell capacity (front + 0) ≠ cell capacity (front + count) :=
      offsets_distinct power power.pos bounded (Ne.symm some_)
    exact apart (by simpa using same)
  · rintro rfl
    rfl

/-- A window of `capacity` positions reaches every index inside the ring. -/
theorem cell_surjective {capacity : BitVec 64} (power : PowerOfTwo capacity) (low : Nat)
    {index : BitVec 64} (inside : index < capacity) :
    ∃ position, low ≤ position ∧ position < low + capacity.toNat ∧
      cell capacity position = index := by
  have positive : 0 < capacity.toNat := power.pos
  have bounded : index.toNat < capacity.toNat := BitVec.lt_def.mp inside
  have residue : low % capacity.toNat < capacity.toNat := Nat.mod_lt _ positive
  have recompose : capacity.toNat * (low / capacity.toNat) + low % capacity.toNat = low :=
    Nat.div_add_mod low capacity.toNat
  by_cases before : index.toNat < low % capacity.toNat
  · refine ⟨capacity.toNat * (low / capacity.toNat) + index.toNat + capacity.toNat,
      by omega, by omega, ?_⟩
    apply BitVec.eq_of_toNat_eq
    rw [cell_add_capacity, cell_toNat power, Nat.mul_add_mod, Nat.mod_eq_of_lt bounded]
  · refine ⟨capacity.toNat * (low / capacity.toNat) + index.toNat, by omega, by omega, ?_⟩
    apply BitVec.eq_of_toNat_eq
    rw [cell_toNat power, Nat.mul_add_mod, Nat.mod_eq_of_lt bounded]

/-- A word and its predecessor share no bit exactly if the word is zero or a power of two. -/
theorem and_pred_eq_zero (capacity : BitVec 64) :
    capacity &&& (capacity - 1) = 0 ↔ capacity = 0 ∨ PowerOfTwo capacity := by
  by_cases zero : capacity = 0
  · subst zero
    simp
  · have nonzero : capacity.toNat ≠ 0 := fun none_ => zero (BitVec.eq_of_toNat_eq none_)
    have bounded : capacity.toNat < 2 ^ 64 := capacity.isLt
    rw [← BitVec.toNat_inj, BitVec.toNat_and, pred_toNat (Nat.pos_of_ne_zero nonzero)]
    change capacity.toNat &&& (capacity.toNat - 1) = 0 ↔ _
    rw [Nat.and_sub_one_eq_zero_iff_isPowerOfTwo nonzero]
    constructor
    · rintro ⟨exponent, exact⟩
      refine .inr ⟨exponent, ?_, ?_⟩
      · rw [exact] at bounded
        exact (Nat.pow_lt_pow_iff_right (by decide)).mp bounded
      · apply BitVec.eq_of_toNat_eq
        rw [← exact, BitVec.toNat_ofNat, Nat.mod_eq_of_lt bounded]
    · rintro (impossible | power)
      · exact absurd impossible zero
      · obtain ⟨exponent, _, exact⟩ := power.toNat
        exact ⟨exponent, exact⟩

/-- The two ways of writing a power of two. -/
theorem ofNat_two_pow (exponent : Nat) :
    BitVec.ofNat 64 (2 ^ exponent) = BitVec.twoPow 64 exponent := by
  apply BitVec.eq_of_toNat_eq
  rw [BitVec.toNat_ofNat, BitVec.toNat_twoPow]

/-- The population count is the number of set positions. -/
theorem cpop_toNat (word : BitVec 64) :
    word.cpop.toNat = (List.range 64).countP word.getLsbD := by
  have counted : ∀ width, word.cpopNatRec width 0 = (List.range width).countP word.getLsbD := by
    intro width
    induction width with
    | zero => rfl
    | succ width inductionHypothesis =>
      rw [BitVec.cpopNatRec_succ, BitVec.cpopNatRec_eq, inductionHypothesis, List.range_succ,
        List.countP_append, List.countP_singleton]
      cases word.getLsbD width <;> rfl
  rw [BitVec.cpop, BitVec.toNat_ofNat, counted]
  apply Nat.mod_eq_of_lt
  exact Nat.lt_of_le_of_lt List.countP_le_length (by simp)

/-- The words with one set bit are the powers of two. -/
theorem cpop_eq_one (capacity : BitVec 64) : capacity.cpop = 1 ↔ PowerOfTwo capacity := by
  rw [← BitVec.toNat_inj, cpop_toNat]
  constructor
  · intro single
    rw [List.countP_eq_length_filter] at single
    obtain ⟨exponent, only⟩ := List.length_eq_one_iff.mp single
    have set_bits : ∀ bit, bit < 64 ∧ capacity.getLsbD bit = true ↔ bit = exponent := by
      intro bit
      rw [← List.mem_range, ← List.mem_filter, only, List.mem_singleton]
    refine ⟨exponent, ((set_bits exponent).mpr rfl).1, ?_⟩
    rw [ofNat_two_pow]
    apply BitVec.eq_of_getLsbD_eq
    intro bit inside
    rw [Bool.eq_iff_iff, BitVec.getLsbD_twoPow]
    have here := set_bits bit
    grind
  · rintro ⟨exponent, small, rfl⟩
    have bits : (BitVec.twoPow 64 exponent).getLsbD = fun bit => bit == exponent := by
      funext bit
      rw [BitVec.getLsbD_twoPow]
      grind
    rw [ofNat_two_pow, bits]
    exact List.count_eq_one_of_mem List.nodup_range (List.mem_range.mpr small)

end Foundation.RingIndex
