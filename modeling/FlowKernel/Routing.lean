import Mathlib.Data.List.Nodup
import Mathlib.Data.List.Induction
import FlowKernel.Common

/-!
# Handlers and the index that routes frames back to them

`register_handler` appends to `handlers_` and enters the position under the hash
of the path, with `emplace`: a hash that is already present keeps its entry.
Frames carry only the hash, so both channels find their handler through this
index. A registry carries the fact that every indexed position exists; the
lookup needs no bounds check, as in the source.

The index of a whole list of registrations is the position of the first one with
the hash.
-/

namespace FlowKernel

universe u
variable {κ : Type u}

/-- A registered handler. -/
structure Handler (κ : Type u) where
  path : Bytes
  path_hash : U64
  priority : TopicPriority
  callback : κ

/-- The arguments of one call of `register_handler`. -/
structure Registration (κ : Type u) where
  path : Bytes
  priority : TopicPriority
  callback : κ

/-- The handlers in order, and the map from a hash to an index. -/
structure Registry (κ : Type u) where
  handlers : List (Handler κ)
  handler_index : U64 → Option Nat
  inside : ∀ hash index, handler_index hash = some index → index < handlers.length

namespace Registry

/-- Nothing has been registered. -/
def empty : Registry κ where
  handlers := []
  handler_index := fun _ => none
  inside := by simp

/-- `unordered_map::emplace`: the first entry of a key stays. -/
def emplace (map : U64 → Option Nat) (hash : U64) (index : Nat) : U64 → Option Nat :=
  match map hash with
  | some _ => map
  | none => Function.update map hash (some index)

/-- An `emplace` leaves an entry that is there. -/
theorem emplace_apply (map : U64 → Option Nat) (hash found : U64) (index : Nat) :
    emplace map hash index found =
      (map found).or (if hash = found then some index else none) := by
  cases present : map hash with
  | some entry =>
    simp only [emplace, present]
    by_cases same : hash = found
    · simp [← same, present]
    · simp [same]
  | none =>
    simp only [emplace, present]
    by_cases same : hash = found
    · simp [← same, present]
    · simp [Ne.symm same, same]

/-- The handler is appended, and `emplace` gives its hash its index. -/
def register_handler (registry : Registry κ) (path : Bytes) (priority : TopicPriority)
    (callback : κ) : Registry κ :=
  let hash := fnv1a_hash path
  let idx := registry.handlers.length
  { handlers := registry.handlers ++ [{ path, path_hash := hash, priority, callback }]
    handler_index := emplace registry.handler_index hash idx
    inside := by
      intro found index entry
      rw [emplace_apply] at entry
      rw [List.length_append, List.length_singleton]
      cases present : registry.handler_index found with
      | some position =>
        obtain rfl : position = index := by simpa [present] using entry
        exact Nat.lt_succ_of_lt (registry.inside found position present)
      | none =>
        rw [present, Option.none_or] at entry
        split at entry
        · obtain rfl : idx = index := Option.some.inj entry
          exact Nat.lt_succ_self _
        · simp at entry }

section Registering

variable (registry : Registry κ) (path : Bytes) (priority : TopicPriority) (callback : κ)

/-- The handlers end in the new one. -/
@[simp] theorem handlers_register_handler :
    (registry.register_handler path priority callback).handlers =
      registry.handlers ++ [{ path, path_hash := fnv1a_hash path, priority, callback }] :=
  rfl

/-- The map gets the index of the new handler, if its hash is free. -/
@[simp] theorem handler_index_register_handler :
    (registry.register_handler path priority callback).handler_index =
      emplace registry.handler_index (fnv1a_hash path) registry.handlers.length :=
  rfl

end Registering

/-- `handler_index_.find` followed by the access to `handlers_`. -/
def find (registry : Registry κ) (hash : U64) : Option (Nat × Handler κ) :=
  match entry : registry.handler_index hash with
  | none => none
  | some index => some (index, registry.handlers.get ⟨index, registry.inside hash index entry⟩)

/-- A lookup finds the handler at the index of the hash. -/
theorem find_eq_some {registry : Registry κ} {hash : U64} {index : Nat} {handler : Handler κ} :
    registry.find hash = some (index, handler) ↔
      registry.handler_index hash = some index ∧ registry.handlers[index]? = some handler := by
  unfold find
  split
  next entry => simp [entry]
  next position entry =>
    have bound := registry.inside hash position entry
    simp only [entry, Option.some.injEq, Prod.mk.injEq, List.get_eq_getElem]
    constructor
    · rintro ⟨rfl, rfl⟩
      exact ⟨rfl, List.getElem?_eq_getElem bound⟩
    · rintro ⟨rfl, present⟩
      exact ⟨rfl, Option.some.inj ((List.getElem?_eq_getElem bound).symm.trans present)⟩

/-- A program's calls of `register_handler`, in order. -/
def registerAll (registrations : List (Registration κ)) : Registry κ :=
  registrations.foldl
    (fun registry call => registry.register_handler call.path call.priority call.callback) empty

/-- The handler that a registration becomes. -/
def handlerOf (call : Registration κ) : Handler κ where
  path := call.path
  path_hash := fnv1a_hash call.path
  priority := call.priority
  callback := call.callback

/-- The last registration comes on top of the others. -/
theorem registerAll_snoc (registrations : List (Registration κ)) (call : Registration κ) :
    registerAll (registrations ++ [call]) =
      (registerAll registrations).register_handler call.path call.priority call.callback := by
  rw [registerAll, List.foldl_append]
  rfl

/-- `handlers_` lists the registrations in order. -/
theorem handlers_registerAll (registrations : List (Registration κ)) :
    (registerAll registrations).handlers = registrations.map handlerOf := by
  induction registrations using List.reverseRecOn with
  | nil => rfl
  | append_singleton registrations call inductionHypothesis =>
    rw [registerAll_snoc, handlers_register_handler, inductionHypothesis, List.map_append]
    rfl

/-- The index leads to the first registration with the hash. -/
theorem handler_index_registerAll (registrations : List (Registration κ)) (hash : U64) :
    (registerAll registrations).handler_index hash =
      registrations.findIdx? (fun call => fnv1a_hash call.path = hash) := by
  induction registrations using List.reverseRecOn with
  | nil => rfl
  | append_singleton registrations call inductionHypothesis =>
    have size : (registerAll registrations).handlers.length = registrations.length := by
      rw [handlers_registerAll, List.length_map]
    rw [registerAll_snoc, handler_index_register_handler, emplace_apply, inductionHypothesis,
      size, List.findIdx?_append, List.findIdx?_singleton]
    by_cases same : fnv1a_hash call.path = hash
    · simp [same]
    · simp [same]

/-- The hash of a registered path is always found, at or before the registration. -/
theorem find_registered {registrations : List (Registration κ)} {i : Nat}
    {call : Registration κ} (registered : registrations[i]? = some call) :
    ∃ j target, (registerAll registrations).find (fnv1a_hash call.path) =
        some (j, handlerOf target) ∧ j ≤ i ∧ registrations[j]? = some target ∧
      fnv1a_hash target.path = fnv1a_hash call.path := by
  obtain ⟨inside, rfl⟩ := List.getElem?_eq_some_iff.mp registered
  cases first : registrations.findIdx? (fun call => fnv1a_hash call.path =
      fnv1a_hash registrations[i].path) with
  | none =>
    have absent := List.findIdx?_eq_none_iff.mp first _ (List.getElem_mem inside)
    simp at absent
  | some j =>
    obtain ⟨bound, same, earlier⟩ := List.findIdx?_eq_some_iff_getElem.mp first
    refine ⟨j, registrations[j], ?_, ?_, List.getElem?_eq_getElem bound, by simpa using same⟩
    · rw [find_eq_some, handler_index_registerAll, handlers_registerAll, List.getElem?_map,
        List.getElem?_eq_getElem bound]
      exact ⟨first, rfl⟩
    · by_contra later
      exact earlier i (Nat.lt_of_not_le later) (by simp)

/-- With pairwise distinct hashes a registration's hash leads to itself. -/
theorem find_own {registrations : List (Registration κ)} {i : Nat} {call : Registration κ}
    (distinct : (registrations.map fun call => fnv1a_hash call.path).Nodup)
    (registered : registrations[i]? = some call) :
    (registerAll registrations).find (fnv1a_hash call.path) = some (i, handlerOf call) := by
  obtain ⟨j, target, found, _, present, same⟩ := find_registered registered
  obtain ⟨bound, rfl⟩ := List.getElem?_eq_some_iff.mp present
  obtain ⟨inside, rfl⟩ := List.getElem?_eq_some_iff.mp registered
  have mapped : ∀ position, position < registrations.length →
      position < (registrations.map fun call => fnv1a_hash call.path).length := by
    intro position within
    rwa [List.length_map]
  have equal : j = i :=
    (@List.Nodup.getElem_inj_iff _ _ distinct j (mapped j bound) i (mapped i inside)).mp
      (by simpa using same)
  subst equal
  exact found

end Registry

end FlowKernel
