import Mathlib.Algebra.GroupWithZero.Nat
import Mathlib.Data.List.Nodup
import Mathlib.Data.List.Perm.Subperm
import Mathlib.Logic.Function.Basic
import FlowKernel.Common
import FlowKernel.Foundation.LatestRegister
import FlowKernel.Foundation.Totals

/-!
# The latest-only cache

`LatestSampleSlot` and `LatestSampleCache` of `robot_dataflow/latest_cache.hpp`.
`put` and `take` run under the slot's own lock and are one operation each. The
fields of an empty slot are dead (`take` never reads them), so a slot holds either
nothing or the three fields that the latest `put` has written.

The map of slots has each hash once, which the cache carries as a field. Loops
over the map meet its keys in an order the source does not fix.
-/

namespace FlowKernel

open Foundation

universe u
variable {π : Type u}

/-- What `put` writes and `take` returns. -/
structure HeldSample (π : Type u) where
  handler_hash : U64
  payload : π
  put_time : TimePoint
deriving DecidableEq

/-- What is stored, and the count of what was overwritten. -/
structure LatestSampleSlot (π : Type u) where
  held : Option (HeldSample π)
  drop_count : U64

namespace LatestSampleSlot

/-- A slot that nothing was put into. -/
def empty : LatestSampleSlot π where
  held := none
  drop_count := 0

/-- An occupied slot counts the frame that is overwritten. -/
def put (slot : LatestSampleSlot π) (hash : U64) (data : π) (now : TimePoint) :
    LatestSampleSlot π where
  held := some { handler_hash := hash, payload := data, put_time := now }
  drop_count := if slot.held.isSome then slot.drop_count + 1 else slot.drop_count

/-- The slot is emptied, and its count stays. -/
def take (slot : LatestSampleSlot π) : Option (HeldSample π) × LatestSampleSlot π :=
  (slot.held, { slot with held := none })

/-- The register operation that a put performs. -/
def putEvent (slot : LatestSampleSlot π) (data : π) : LatestRegister.Event π :=
  match slot.held with
  | none => .put data
  | some old => .overwrite old.payload data

/-- The register operation that a take performs. -/
def takeEvent (slot : LatestSampleSlot π) : LatestRegister.Event π :=
  match slot.held with
  | none => .miss
  | some sample => .take sample.payload

/-- A put is one put. -/
@[simp] theorem puts_putEvent (slot : LatestSampleSlot π) (data : π) :
    LatestRegister.puts [slot.putEvent data] = [data] := by
  unfold putEvent
  split <;> rfl

/-- A take is no put. -/
@[simp] theorem puts_takeEvent (slot : LatestSampleSlot π) :
    LatestRegister.puts [slot.takeEvent] = [] := by
  unfold takeEvent
  split <;> rfl

/-- A put counts at most the frame it overwrites. -/
theorem drop_count_put_le (slot : LatestSampleSlot π) (hash : U64) (data : π) (now : TimePoint) :
    (slot.put hash data now).drop_count.toNat ≤
      slot.drop_count.toNat + slot.held.toList.length := by
  cases held : slot.held with
  | none => simp [put, held]
  | some old =>
    simp only [put, held, Option.isSome_some, if_true, Option.toList_some, List.length_singleton,
      BitVec.toNat_add]
    exact Nat.mod_le _ _

/-- The payload a slot holds, as the value of a register. -/
def payload? (slot : LatestSampleSlot π) : Option π :=
  slot.held.map HeldSample.payload

/-- A slot refines the latest-only register. -/
theorem put_step (slot : LatestSampleSlot π) (hash : U64) (data : π) (now : TimePoint) :
    LatestRegister.Step slot.payload? (slot.putEvent data) (slot.put hash data now).payload? := by
  cases present : slot.held with
  | none =>
    simp only [payload?, putEvent, put, present, Option.map_none, Option.map_some]
    exact .put
  | some old =>
    simp only [payload?, putEvent, put, present, Option.map_some]
    exact .overwrite

/-- A take is a step of the register. -/
theorem take_step (slot : LatestSampleSlot π) :
    LatestRegister.Step slot.payload? slot.takeEvent slot.take.2.payload? := by
  cases present : slot.held with
  | none =>
    simp only [payload?, takeEvent, take, present, Option.map_none]
    exact .miss
  | some old =>
    simp only [payload?, takeEvent, take, present, Option.map_some, Option.map_none]
    exact .take

end LatestSampleSlot

/-- The map of slots. A slot outside `keys` has not been allocated. -/
structure LatestSampleCache (π : Type u) where
  keys : List U64
  slots : U64 → LatestSampleSlot π
  distinct : keys.Nodup

namespace LatestSampleCache

/-- A map without slots. -/
def empty : LatestSampleCache π where
  keys := []
  slots := fun _ => .empty
  distinct := List.nodup_nil

/-- `try_emplace`: a hash that has a slot keeps it. -/
def pre_allocate (cache : LatestSampleCache π) (hash : U64) : LatestSampleCache π :=
  if absent : hash ∈ cache.keys then cache
  else
    { keys := cache.keys ++ [hash]
      slots := cache.slots
      distinct := by
        rw [← List.concat_eq_append]
        exact cache.distinct.concat absent }

/-- The slot under a hash, if there is one. -/
def get_slot_fast (cache : LatestSampleCache π) (hash : U64) : Option (LatestSampleSlot π) :=
  if hash ∈ cache.keys then some (cache.slots hash) else none

/-- Write through the pointer to a slot. -/
def setSlot (cache : LatestSampleCache π) (hash : U64) (slot : LatestSampleSlot π) :
    LatestSampleCache π :=
  { cache with slots := Function.update cache.slots hash slot }

/-- `get_total_dropped` over an undisturbed cache, walked in the given order. -/
def get_total_dropped (cache : LatestSampleCache π) (order : List U64) : U64 :=
  order.foldl (fun total hash => total + (cache.slots hash).drop_count) 0

/-- `drain` over an undisturbed cache, walked in the given order: what the consumer is
called with, and the cache it leaves. -/
def drain (cache : LatestSampleCache π) :
    List U64 → List (HeldSample π) × LatestSampleCache π
  | [] => ([], cache)
  | hash :: todo =>
      let (sample, slot) := (cache.slots hash).take
      let (samples, drained) := (cache.setSlot hash slot).drain todo
      (sample.toList ++ samples, drained)

/-- Overwrites recorded by the slots of a list of hashes. -/
def drops (cache : LatestSampleCache π) (hashes : List U64) : Nat :=
  (hashes.map fun hash => (cache.slots hash).drop_count.toNat).sum

/-- Slots of a list of hashes that hold data. -/
def full (cache : LatestSampleCache π) (hashes : List U64) : Nat :=
  hashes.countP fun hash => (cache.slots hash).held.isSome

/-- A slot with another content stays under its key. -/
@[simp] theorem keys_setSlot (cache : LatestSampleCache π) (hash : U64)
    (slot : LatestSampleSlot π) : (cache.setSlot hash slot).keys = cache.keys :=
  rfl

/-- An allocation puts nothing into a slot. -/
@[simp] theorem slots_pre_allocate (cache : LatestSampleCache π) (hash : U64) :
    (cache.pre_allocate hash).slots = cache.slots := by
  unfold pre_allocate
  split <;> rfl

/-- An allocation adds its key. -/
theorem mem_pre_allocate {cache : LatestSampleCache π} {hash found : U64} :
    found ∈ (cache.pre_allocate hash).keys ↔ found ∈ cache.keys ∨ found = hash := by
  unfold pre_allocate
  split
  next present =>
    constructor
    · exact .inl
    · rintro (member | rfl)
      · exact member
      · exact present
  next => simp

/-- A slot has the content it was given. -/
@[simp] theorem slots_setSlot_self (cache : LatestSampleCache π) (hash : U64)
    (slot : LatestSampleSlot π) : (cache.setSlot hash slot).slots hash = slot := by
  simp [setSlot]

/-- The other slots have their own. -/
theorem slots_setSlot_other (cache : LatestSampleCache π) {hash found : U64}
    (slot : LatestSampleSlot π) (other : found ≠ hash) :
    (cache.setSlot hash slot).slots found = cache.slots found := by
  simp [setSlot, other]

section Draining

variable {order : List U64}

/-- A drain keeps the map. -/
@[simp] theorem keys_drain (cache : LatestSampleCache π) :
    (cache.drain order).2.keys = cache.keys := by
  induction order generalizing cache with
  | nil => rfl
  | cons hash todo inductionHypothesis => exact inductionHypothesis _

/-- A drain empties the slots it visits, and keeps their counts. -/
theorem slots_drain (cache : LatestSampleCache π) (found : U64) :
    (cache.drain order).2.slots found =
      if found ∈ order then (cache.slots found).take.2 else cache.slots found := by
  induction order generalizing cache with
  | nil => rfl
  | cons hash todo inductionHypothesis =>
    change ((cache.setSlot hash (cache.slots hash).take.2).drain todo).2.slots found = _
    rw [inductionHypothesis]
    by_cases same : found = hash
    · subst same
      rw [slots_setSlot_self, if_pos (List.mem_cons_self ..)]
      split <;> rfl
    · rw [slots_setSlot_other _ _ same]
      simp only [List.mem_cons, same, false_or]

/-- Its consumer is called with what the slots held. -/
theorem yields_drain (cache : LatestSampleCache π) (distinct : order.Nodup) :
    (cache.drain order).1 = order.filterMap fun hash => (cache.slots hash).held := by
  induction order generalizing cache with
  | nil => rfl
  | cons hash todo inductionHypothesis =>
    obtain ⟨fresh, tail⟩ := List.nodup_cons.mp distinct
    have later : todo.filterMap (fun found =>
        ((cache.setSlot hash (cache.slots hash).take.2).slots found).held) =
          todo.filterMap fun found => (cache.slots found).held := by
      refine List.filterMap_congr fun found member => ?_
      have other : found ≠ hash := fun same => fresh (same ▸ member)
      rw [slots_setSlot_other _ _ other]
    change (cache.slots hash).held.toList ++
      ((cache.setSlot hash (cache.slots hash).take.2).drain todo).1 = _
    rw [inductionHypothesis _ tail, later, List.filterMap_cons]
    cases (cache.slots hash).held <;> rfl

end Draining

/-- The loops over the map may meet its slots in any order. -/
theorem drops_perm (cache : LatestSampleCache π) {left right : List U64}
    (same : left.Perm right) : cache.drops left = cache.drops right :=
  (same.map _).sum_nat

/-- As long as the sum fits in a word, the wrapping additions compute it. -/
theorem toNat_get_total_dropped {cache : LatestSampleCache π} {order : List U64}
    (fits : cache.drops order < 2 ^ 64) :
    (cache.get_total_dropped order).toNat = cache.drops order := by
  have walk : ∀ hashes (total : U64), total.toNat + cache.drops hashes < 2 ^ 64 →
      (hashes.foldl (fun sum hash => sum + (cache.slots hash).drop_count) total).toNat =
        total.toNat + cache.drops hashes := by
    intro hashes
    induction hashes with
    | nil =>
      intro total _
      rfl
    | cons hash rest inductionHypothesis =>
      intro total bounded
      simp only [drops, List.map_cons, List.sum_cons] at bounded inductionHypothesis ⊢
      have sum : (total + (cache.slots hash).drop_count).toNat = _ :=
        BitVec.toNat_add_of_lt (by omega)
      rw [List.foldl_cons, inductionHypothesis _ (by omega), sum]
      omega
  have whole := walk order 0 (by simpa using fits)
  simpa [get_total_dropped] using whole

section Writing

variable (cache : LatestSampleCache π) (key : U64) (slot : LatestSampleSlot π)

/-- The full slots, counted by what each holds. -/
theorem full_eq_sum (hashes : List U64) :
    cache.full hashes = (hashes.map fun hash => (cache.slots hash).held.toList.length).sum := by
  induction hashes with
  | nil => rfl
  | cons hash rest inductionHypothesis =>
    rw [full, List.countP_cons, ← full, inductionHypothesis, List.map_cons, List.sum_cons,
      Nat.add_comm]
    cases (cache.slots hash).held <;> simp

/-- A slot outside the list does not count. -/
theorem drops_setSlot_other {hashes : List U64} (other : key ∉ hashes) :
    (cache.setSlot key slot).drops hashes = cache.drops hashes :=
  Totals.sum_outside other fun found away => by rw [cache.slots_setSlot_other slot away]

/-- A slot outside of the walk does not count in it. -/
theorem full_setSlot_other {hashes : List U64} (other : key ∉ hashes) :
    (cache.setSlot key slot).full hashes = cache.full hashes := by
  rw [full_eq_sum, full_eq_sum]
  exact Totals.sum_outside other fun found away => by rw [cache.slots_setSlot_other slot away]

/-- A write to a slot of the list moves the sum by what it moves the slot. -/
theorem drops_setSlot {hashes : List U64} (distinct : hashes.Nodup) (member : key ∈ hashes) :
    (cache.setSlot key slot).drops hashes + (cache.slots key).drop_count.toNat =
      cache.drops hashes + slot.drop_count.toNat := by
  have changed := @Totals.sum_changed _ _ _ hashes key
    (fun hash => (cache.slots hash).drop_count.toNat)
    (fun hash => ((cache.setSlot key slot).slots hash).drop_count.toNat) distinct member
    fun found away => by rw [cache.slots_setSlot_other slot away]
  rwa [slots_setSlot_self] at changed

/-- A slot counts by what it holds. -/
theorem full_setSlot {hashes : List U64} (distinct : hashes.Nodup) (member : key ∈ hashes) :
    (cache.setSlot key slot).full hashes + (cache.slots key).held.toList.length =
      cache.full hashes + slot.held.toList.length := by
  have changed := @Totals.sum_changed _ _ _ hashes key
    (fun hash => (cache.slots hash).held.toList.length)
    (fun hash => ((cache.setSlot key slot).slots hash).held.toList.length) distinct member
    fun found away => by rw [cache.slots_setSlot_other slot away]
  rwa [slots_setSlot_self, ← full_eq_sum, ← full_eq_sum] at changed

/-- The count of one slot is at most the sum. -/
theorem drop_count_le_drops {hashes : List U64} (member : key ∈ hashes) :
    (cache.slots key).drop_count.toNat ≤ cache.drops hashes := by
  obtain ⟨before, after, rfl⟩ := List.append_of_mem member
  simp only [drops, List.map_append, List.map_cons, List.sum_append, List.sum_cons]
  omega

/-- A write that keeps the count of its slot keeps every sum. -/
theorem drops_setSlot_kept (kept : slot.drop_count = (cache.slots key).drop_count)
    (hashes : List U64) : (cache.setSlot key slot).drops hashes = cache.drops hashes := by
  have same : ∀ hash ∈ hashes, ((cache.setSlot key slot).slots hash).drop_count.toNat =
      (cache.slots hash).drop_count.toNat := by
    intro hash _
    by_cases equal : hash = key
    · rw [equal, slots_setSlot_self, kept]
    · rw [cache.slots_setSlot_other _ equal]
  rw [drops, drops, List.map_congr_left same]

/-- A take counts nothing. -/
theorem drops_take (hashes : List U64) :
    (cache.setSlot key (cache.slots key).take.2).drops hashes = cache.drops hashes :=
  cache.drops_setSlot_kept key (cache.slots key).take.2 rfl hashes

/-- A put fills its slot. -/
theorem full_put (hash : U64) (data : π) (now : TimePoint) (present : key ∈ cache.keys) :
    (cache.setSlot key ((cache.slots key).put hash data now)).full cache.keys +
        (cache.slots key).held.toList.length = cache.full cache.keys + 1 :=
  cache.full_setSlot key ((cache.slots key).put hash data now) cache.distinct present

/-- A take empties its slot. -/
theorem full_take (absent : key ∉ cache.keys → cache.slots key = .empty) :
    (cache.setSlot key (cache.slots key).take.2).full cache.keys +
        (cache.slots key).held.toList.length = cache.full cache.keys := by
  by_cases inside : key ∈ cache.keys
  · exact cache.full_setSlot key (cache.slots key).take.2 cache.distinct inside
  · rw [cache.full_setSlot_other key _ inside, absent inside]
    rfl

/-- A put counts the frame that it overwrites, or wraps. -/
theorem drops_put_le (hash : U64) (data : π) (now : TimePoint) (present : key ∈ cache.keys) :
    (cache.setSlot key ((cache.slots key).put hash data now)).drops cache.keys ≤
      cache.drops cache.keys + (cache.slots key).held.toList.length := by
  have moved := cache.drops_setSlot key ((cache.slots key).put hash data now) cache.distinct present
  have counted := (cache.slots key).drop_count_put_le hash data now
  omega

/-- A put into an empty slot is not an overwrite. -/
theorem drops_put_empty (hash : U64) (data : π) (now : TimePoint)
    (free : (cache.slots key).held = none) (hashes : List U64) :
    (cache.setSlot key ((cache.slots key).put hash data now)).drops hashes = cache.drops hashes :=
  cache.drops_setSlot_kept key _ (by simp [LatestSampleSlot.put, free]) hashes

/-- A put into a full slot adds one to every sum that the slot is in. -/
theorem drops_put_full (hash : U64) (data : π) (now : TimePoint)
    (occupied : (cache.slots key).held.isSome)
    (room : (cache.slots key).drop_count.toNat + 1 < 2 ^ 64) {hashes : List U64}
    (distinct : hashes.Nodup) :
    (cache.setSlot key ((cache.slots key).put hash data now)).drops hashes =
      cache.drops hashes + if key ∈ hashes then 1 else 0 := by
  by_cases member : key ∈ hashes
  · have moved := cache.drops_setSlot key ((cache.slots key).put hash data now) distinct member
    have one : (1 : U64).toNat = 1 := rfl
    have exactly : ((cache.slots key).put hash data now).drop_count.toNat =
        (cache.slots key).drop_count.toNat + 1 := by
      rw [LatestSampleSlot.put, if_pos occupied, BitVec.toNat_add_of_lt, one]
      rw [one]
      exact room
    rw [if_pos member]
    omega
  · rw [if_neg member, cache.drops_setSlot_other key _ member, Nat.add_zero]

end Writing

/-- Allocation adds an empty slot, or none. -/
theorem drops_pre_allocate {cache : LatestSampleCache π} {hash : U64}
    (absent : hash ∉ cache.keys → cache.slots hash = .empty) :
    (cache.pre_allocate hash).drops (cache.pre_allocate hash).keys = cache.drops cache.keys := by
  rw [drops, slots_pre_allocate]
  unfold pre_allocate
  split
  · rfl
  next fresh => simp [drops, absent fresh, LatestSampleSlot.empty]

/-- A new slot holds nothing. -/
theorem full_pre_allocate {cache : LatestSampleCache π} {hash : U64}
    (absent : hash ∉ cache.keys → cache.slots hash = .empty) :
    (cache.pre_allocate hash).full (cache.pre_allocate hash).keys = cache.full cache.keys := by
  rw [full, slots_pre_allocate]
  unfold pre_allocate
  split
  · rfl
  next fresh => simp [full, absent fresh, LatestSampleSlot.empty]

end LatestSampleCache

end FlowKernel
