import FlowKernel.Rust.LatestCache

/-!
# Where the frames of the Rust cache are

Each slot is a latest-only register whose put takes effect when it counts, under the
lock of the slot. A drain that finds a slot locked passes it by, so a register
operation never falls between the count and the store of another, and what is pending
in a slot stays pending until a put counts it or a drain takes it.
-/

namespace FlowKernel.Rust.SharedCache

open Foundation

universe u
variable {π : Type u}

section Histories

/-- The operations on one slot. -/
def operations (key : U64) (log : List (Event π)) : List (LatestRegister.Event π) :=
  log.filterMap fun
    | .put _ found _ _ operation | .visited found operation =>
        if found = key then some operation else none
    | _ => none

/-- The frames that puts have brought to one slot. -/
def frames (key : U64) (log : List (Event π)) : List π :=
  log.filterMap fun
    | .put _ found _ data _ => if found = key then some data else none
    | _ => none

/-- What each completed drain has passed to its consumer. -/
def drains (log : List (Event π)) : List (List (U64 × π)) :=
  log.filterMap fun
    | .drained passed => some passed
    | _ => none

/-- The frames passed on under one hash. -/
def under (key : U64) (passed : List (U64 × π)) : List π :=
  passed.filterMap fun (hash, data) => if hash = key then some data else none

variable (log : List (Event π)) (event : Event π)

/-- The operations of a longer history end in those of its last event. -/
@[simp] theorem operations_snoc (key : U64) :
    operations key (log ++ [event]) = operations key log ++ operations key [event] :=
  List.filterMap_append

/-- The frames of a longer history end in those of its last event. -/
theorem frames_snoc (key : U64) :
    frames key (log ++ [event]) = frames key log ++ frames key [event] :=
  List.filterMap_append

/-- The drains of a longer history end in those of its last event. -/
@[simp] theorem drains_snoc : drains (log ++ [event]) = drains log ++ drains [event] :=
  List.filterMap_append

/-- What is filed under a key, in two parts. -/
@[simp] theorem under_append (key : U64) (before after : List (U64 × π)) :
    under key (before ++ after) = under key before ++ under key after :=
  List.filterMap_append

/-- A put is an operation on its own slot. -/
theorem operations_put (thread : Nat) (key hash found : U64) (data : π)
    (operation : LatestRegister.Event π) :
    operations found [.put thread key hash data operation] =
      if key = found then [operation] else [] := by
  by_cases same : key = found <;> simp [operations, same]

/-- A put brings a frame to its own slot. -/
theorem frames_put (thread : Nat) (key hash found : U64) (data : π)
    (operation : LatestRegister.Event π) :
    frames found [.put thread key hash data operation] = if key = found then [data] else [] := by
  by_cases same : key = found <;> simp [frames, same]

/-- A visit is an operation on its own slot. -/
theorem operations_visited (key found : U64) (operation : LatestRegister.Event π) :
    operations found [.visited key operation] = if key = found then [operation] else [] := by
  by_cases same : key = found <;> simp [operations, same]

end Histories

/-- What the drain under way has passed on. -/
def Drainer.passed : Drainer π → List (U64 × π)
  | .idle => []
  | .drain _ passed => passed

/-- Everything the consumer has been called with. -/
def State.consumed (s : State π) : List (U64 × π) :=
  (drains s.log).flatten ++ s.drainer.passed

/-- What a step can do. -/
inductive Transition : State π → Action π → State π → Prop
  | miss {s : State π} {thread : Nat} {key : U64} : Transition s (.get_slot thread key) s
  | allocate {s : State π} {key : U64} (idle : s.drainer = .idle) :
      Transition s (.pre_allocate key)
        ({ s with cache := s.cache.pre_allocate key }.record (.allocated key))
  | find {s : State π} {thread : Nat} {key : U64} (idle : s.threads thread = .idle)
      (present : key ∈ s.cache.keys) :
      Transition s (.get_slot thread key)
        ({ s with readers := thread :: s.readers }.goto thread (.found key))
  | lock {s : State π} {thread : Nat} {key hash : U64} {data : π}
      (here : s.threads thread = .found key) (free : s.holder key = none) :
      Transition s (.put thread hash data)
        ((s.setHolder key (some thread)).goto thread (.locked key hash data))
  | count {s : State π} {thread : Nat} {key hash : U64} {data : π}
      (here : s.threads thread = .locked key hash data) :
      Transition s (.work thread) (((s.setSlot key (s.cache.slots key).count).goto thread
        (.counted key data)).record
          (.put thread key hash data ((s.cache.slots key).putOperation data)))
  | store {s : State π} {thread : Nat} {key : U64} {data : π}
      (here : s.threads thread = .counted key data) :
      Transition s (.work thread)
        ((s.setSlot key ((s.cache.slots key).store data)).goto thread (.stored key))
  | unlock {s : State π} {thread : Nat} {key : U64} (here : s.threads thread = .stored key) :
      Transition s (.work thread) ((s.setHolder key none).goto thread (.found key))
  | dropRef {s : State π} {thread : Nat} {key : U64} (here : s.threads thread = .found key) :
      Transition s (.dropRef thread)
        ({ s with readers := s.readers.erase thread }.goto thread .idle)
  | begin {s : State π} {order : List U64} (idle : s.drainer = .idle)
      (listed : order.Perm s.cache.keys) :
      Transition s (.drain order) { s with drainer := .drain order [] }
  | skip {s : State π} {key : U64} {todo : List U64} {passed : List (U64 × π)} {thread : Nat}
      (here : s.drainer = .drain (key :: todo) passed) (held : s.holder key = some thread) :
      Transition s .visit ({ s with drainer := .drain todo passed }.record (.skipped key))
  | take {s : State π} {key : U64} {todo : List U64} {passed : List (U64 × π)}
      (here : s.drainer = .drain (key :: todo) passed) (free : s.holder key = none) :
      Transition s .visit (({ s with
        drainer := .drain todo (passed ++ (s.cache.slots key).take.1.toList) }.setSlot key
          (s.cache.slots key).take.2).record (.visited key (s.cache.slots key).takeOperation))
  | finish {s : State π} {passed : List (U64 × π)} (here : s.drainer = .drain [] passed) :
      Transition s .visit ({ s with drainer := .idle }.record (.drained passed))

variable {s next : State π} {action : Action π}

/-- Every step of the cache is one of the transitions. -/
theorem step_transition (stepped : step s action = some next) : Transition s action next := by
  cases action with
  | pre_allocate key =>
    simp only [step] at stepped
    split at stepped
    next idle =>
      obtain rfl := Option.some.inj stepped
      exact .allocate idle
    next => simp at stepped
  | get_slot thread key =>
    simp only [step] at stepped
    split at stepped
    next idle =>
      split at stepped
      next present =>
        obtain rfl := Option.some.inj stepped
        exact .find idle present
      next =>
        obtain rfl := Option.some.inj stepped
        exact .miss
    next => simp at stepped
  | put thread hash data =>
    simp only [step] at stepped
    split at stepped
    next key here =>
      split at stepped
      next free =>
        obtain rfl := Option.some.inj stepped
        exact .lock here free
      next => simp at stepped
    next => simp at stepped
  | work thread =>
    simp only [step, work] at stepped
    split at stepped
    next key hash data here =>
      obtain rfl := Option.some.inj stepped
      exact .count here
    next key data here =>
      obtain rfl := Option.some.inj stepped
      exact .store here
    next key here =>
      obtain rfl := Option.some.inj stepped
      exact .unlock here
    next => simp at stepped
    next => simp at stepped
  | dropRef thread =>
    simp only [step] at stepped
    split at stepped
    next key here =>
      obtain rfl := Option.some.inj stepped
      exact .dropRef here
    next => simp at stepped
  | drain order =>
    simp only [step] at stepped
    split at stepped
    next idle =>
      split at stepped
      next listed =>
        obtain rfl := Option.some.inj stepped
        exact .begin idle listed
      next => simp at stepped
    next => simp at stepped
  | visit =>
    simp only [step, visit] at stepped
    split at stepped
    next => simp at stepped
    next passed here =>
      obtain rfl := Option.some.inj stepped
      exact .finish here
    next key todo passed here =>
      split at stepped
      next thread held =>
        obtain rfl := Option.some.inj stepped
        exact .skip here held
      next free =>
        obtain rfl := Option.some.inj stepped
        exact .take here free

section Pending

variable {key : U64}

/-- In a slot that nobody has locked lies what is stored. -/
theorem pending_free (free : s.holder key = none) :
    s.pending key = (s.cache.slots key).payload := by
  simp [State.pending, free]

/-- Between the count and the store the new frame is the pending one. -/
theorem pending_counted {thread : Nat} {found : U64} {data : π}
    (held : s.holder key = some thread) (here : s.threads thread = .counted found data) :
    s.pending key = some data := by
  simp [State.pending, held, here]

/-- Before its count a thread with the lock has changed nothing. -/
theorem pending_held {thread : Nat} (held : s.holder key = some thread)
    (uncounted : ∀ found data, s.threads thread ≠ .counted found data) :
    s.pending key = (s.cache.slots key).payload := by
  unfold State.pending
  rw [held, Option.map_some]
  split
  next found data here => exact absurd (Option.some.inj here) (uncounted found data)
  next => rfl

/-- A slot is as it was if its payload, its lock and the thread that holds the lock are. -/
theorem pending_congr (payload : (next.cache.slots key).payload = (s.cache.slots key).payload)
    (holder : next.holder key = s.holder key)
    (working : ∀ thread, s.holder key = some thread → next.threads thread = s.threads thread) :
    next.pending key = s.pending key := by
  unfold State.pending
  rw [holder, payload]
  cases held : s.holder key with
  | none => rfl
  | some thread => rw [Option.map_some, Option.map_some, working thread held]

end Pending

/-- What a slot has in common with its history and with what was passed on under its
hash. -/
structure SlotSound (s : State π) (key : U64) : Prop where
  legal : LatestRegister.Legal (operations key s.log) (s.pending key)
  counted : (s.cache.slots key).drop_count =
    BitVec.ofNat 64 (LatestRegister.overwritten (operations key s.log)).length
  own : (s.cache.slots key).handler_hash = key
  passed : under key s.consumed = LatestRegister.taken (operations key s.log)

/-- The slots, the locks and the history agree in every state. -/
structure Sound (s : State π) : Prop where
  slot : ∀ key, SlotSound s key
  owner : ∀ thread key, (s.threads thread).locks = some key ↔ s.holder key = some thread
  present : ∀ thread key, (s.threads thread).refers = some key → key ∈ s.cache.keys
  absent : ∀ key, key ∉ s.cache.keys → s.cache.slots key = .new key
  walk : ∀ todo passed, s.drainer = .drain todo passed → todo ⊆ s.cache.keys

/-- A step that leaves a slot, its history and its share of what was passed on alone. -/
theorem SlotSound.kept {key : U64} (sound : SlotSound s key)
    (count : (next.cache.slots key).drop_count = (s.cache.slots key).drop_count)
    (hash : (next.cache.slots key).handler_hash = (s.cache.slots key).handler_hash)
    (pending : next.pending key = s.pending key)
    (performed : operations key next.log = operations key s.log)
    (consumed : under key next.consumed = under key s.consumed) : SlotSound next key where
  legal := by
    rw [performed, pending]
    exact sound.legal
  counted := by
    rw [performed, count]
    exact sound.counted
  own := hash.trans sound.own
  passed := by
    rw [performed, consumed]
    exact sound.passed

section Threads

variable {thread : Nat} {pc : Pc π}

/-- One thread moves and keeps its lock. -/
theorem Sound.owner_kept (sound : Sound s)
    (threads : next.threads = Function.update s.threads thread pc)
    (holder : next.holder = s.holder) (same : pc.locks = (s.threads thread).locks)
    (found : Nat) (key : U64) :
    (next.threads found).locks = some key ↔ next.holder key = some found := by
  rw [threads, holder, ← sound.owner found key]
  by_cases here : found = thread
  · subst here
    rw [Function.update_self, same]
  · rw [Function.update_of_ne here]

/-- One thread moves and refers to a slot that is there. -/
theorem Sound.present_goto (sound : Sound s)
    (threads : next.threads = Function.update s.threads thread pc)
    (keys : next.cache.keys = s.cache.keys)
    (own : ∀ key, pc.refers = some key → key ∈ s.cache.keys) (found : Nat) (key : U64)
    (refers : (next.threads found).refers = some key) : key ∈ next.cache.keys := by
  rw [keys]
  rw [threads] at refers
  by_cases here : found = thread
  · subst here
    rw [Function.update_self] at refers
    exact own key refers
  · rw [Function.update_of_ne here] at refers
    exact sound.present found key refers

/-- A thread that does not hold the lock of a slot does not change what is pending there
by moving. -/
theorem Sound.pending_other (sound : Sound s) {key : U64}
    (threads : next.threads = Function.update s.threads thread pc)
    (elsewhere : (s.threads thread).locks ≠ some key)
    (payload : (next.cache.slots key).payload = (s.cache.slots key).payload)
    (holder : next.holder key = s.holder key) : next.pending key = s.pending key := by
  apply pending_congr payload holder
  intro found held
  rw [threads]
  by_cases here : found = thread
  · subst here
    exact absurd ((sound.owner found key).mpr held) elsewhere
  · rw [Function.update_of_ne here]

/-- Writing a slot that is there keeps the absent ones new. -/
theorem Sound.absent_setSlot (sound : Sound s) {key : U64} {slot : LatestSampleSlot π}
    (present : key ∈ s.cache.keys) (found : U64) (outside : found ∉ s.cache.keys) :
    (s.cache.setSlot key slot).slots found = .new found := by
  have other : found ≠ key := fun same => outside (same ▸ present)
  rw [LatestSampleCache.slots_setSlot_other _ _ other]
  exact sound.absent found outside

end Threads

/-- A put is a step of the register. -/
theorem putOperation_step (slot : LatestSampleSlot π) (data : π) :
    LatestRegister.Step slot.payload (slot.putOperation data) (some data) := by
  unfold LatestSampleSlot.putOperation
  cases slot.payload with
  | none => exact .put
  | some old => exact .overwrite

/-- A take is a step of the register. -/
theorem takeOperation_step (slot : LatestSampleSlot π) :
    LatestRegister.Step slot.payload slot.takeOperation none := by
  unfold LatestSampleSlot.takeOperation
  cases slot.payload with
  | none => exact .miss
  | some data => exact .take

/-- A put counts exactly the frame that it is about to overwrite. -/
theorem drop_count_count (slot : LatestSampleSlot π) (data : π) :
    slot.count.drop_count = slot.drop_count +
      BitVec.ofNat 64 (LatestRegister.overwritten [slot.putOperation data]).length := by
  unfold LatestSampleSlot.count LatestSampleSlot.putOperation
  cases held : slot.payload with
  | none => simp [LatestRegister.overwritten]
  | some old => rfl

/-- A put takes nothing. -/
theorem taken_putOperation (slot : LatestSampleSlot π) (data : π) :
    LatestRegister.taken [slot.putOperation data] = [] := by
  unfold LatestSampleSlot.putOperation
  split <;> rfl

/-- A take overwrites nothing. -/
theorem overwritten_takeOperation (slot : LatestSampleSlot π) :
    LatestRegister.overwritten [slot.takeOperation] = [] := by
  unfold LatestSampleSlot.takeOperation
  split <;> rfl

/-- A take passes its frame on under the hash of the slot, and under no other. -/
theorem under_take {key found : U64} (slot : LatestSampleSlot π)
    (own : slot.handler_hash = key) :
    under found slot.take.1.toList =
      if key = found then LatestRegister.taken [slot.takeOperation] else [] := by
  subst own
  unfold LatestSampleSlot.take LatestSampleSlot.takeOperation
  cases slot.payload with
  | none => simp [under, LatestRegister.taken]
  | some data =>
    by_cases same : slot.handler_hash = found <;> simp [under, LatestRegister.taken, same]

/-- The empty map is sound. -/
theorem sound_init : Sound (init π) where
  slot _ := ⟨.nil, rfl, rfl, rfl⟩
  owner _ _ := by simp [init, Pc.locks]
  present _ _ refers := by simp [init, Pc.refers] at refers
  absent _ _ := rfl
  walk _ _ here := by simp [init] at here

section Steps

variable {thread : Nat} {key hash : U64} {data : π}

/-- Taking the lock changes no pending frame. -/
theorem Sound.pending_lock (sound : Sound s) (here : s.threads thread = .found key)
    (free : s.holder key = none) (found : U64) :
    ((s.setHolder key (some thread)).goto thread (.locked key hash data)).pending found =
      s.pending found := by
  by_cases same : key = found
  · subst same
    rw [pending_free free]
    exact pending_held (Function.update_self key _ _) (by simp [State.goto])
  · refine sound.pending_other rfl ?_ rfl ?_
    · simp [here, Pc.locks]
    · exact Function.update_of_ne (Ne.symm same) _ _

/-- With the count the frame becomes the pending one of its slot. -/
theorem Sound.pending_count (sound : Sound s) {event : Event π}
    (here : s.threads thread = .locked key hash data) (found : U64) :
    (((s.setSlot key (s.cache.slots key).count).goto thread (.counted key data)).record
      event).pending found = if key = found then some data else s.pending found := by
  have held : s.holder key = some thread := (sound.owner thread key).mp (by simp [here, Pc.locks])
  by_cases same : key = found
  · subst same
    rw [if_pos rfl]
    exact pending_counted held (Function.update_self thread _ _)
  · rw [if_neg same]
    refine sound.pending_other rfl ?_ ?_ rfl
    · simp [here, Pc.locks, same]
    · simp [State.record, State.goto, State.setSlot,
        LatestSampleCache.slots_setSlot_other _ _ (Ne.symm same)]

/-- The store brings the pending frame to where it counts as already. -/
theorem Sound.pending_store (sound : Sound s) (here : s.threads thread = .counted key data)
    (found : U64) :
    ((s.setSlot key ((s.cache.slots key).store data)).goto thread (.stored key)).pending found =
      s.pending found := by
  have held : s.holder key = some thread := (sound.owner thread key).mp (by simp [here, Pc.locks])
  by_cases same : key = found
  · subst same
    rw [pending_counted held here]
    have after := @pending_held _ ((s.setSlot key ((s.cache.slots key).store data)).goto thread
      (.stored key)) key thread held (by simp [State.goto])
    simpa [State.goto, State.setSlot, LatestSampleSlot.store] using after
  · refine sound.pending_other rfl ?_ ?_ rfl
    · simp [here, Pc.locks, same]
    · simp [State.goto, State.setSlot,
        LatestSampleCache.slots_setSlot_other _ _ (Ne.symm same)]

/-- Giving up the lock changes no pending frame. -/
theorem Sound.pending_unlock (sound : Sound s) (here : s.threads thread = .stored key)
    (found : U64) :
    ((s.setHolder key none).goto thread (.found key)).pending found = s.pending found := by
  have held : s.holder key = some thread := (sound.owner thread key).mp (by simp [here, Pc.locks])
  by_cases same : key = found
  · subst same
    rw [pending_held held (by simp [here])]
    exact pending_free (Function.update_self key _ _)
  · refine sound.pending_other rfl ?_ rfl ?_
    · simp [here, Pc.locks, same]
    · exact Function.update_of_ne (Ne.symm same) _ _

/-- The visit of the drain empties its slot. -/
theorem pending_take {todo : List U64} {passed : List (U64 × π)} {event : Event π}
    (free : s.holder key = none) (found : U64) :
    (({ s with drainer := .drain todo passed }.setSlot key
      (s.cache.slots key).take.2).record event).pending found =
        if key = found then none else s.pending found := by
  by_cases same : key = found
  · subst same
    rw [if_pos rfl]
    have after := @pending_free _ (({ s with drainer := .drain todo passed }.setSlot key
      (s.cache.slots key).take.2).record event) key free
    simpa [State.record, State.setSlot, LatestSampleSlot.take] using after
  · rw [if_neg same]
    apply pending_congr
    · simp [State.record, State.setSlot,
        LatestSampleCache.slots_setSlot_other _ _ (Ne.symm same)]
    · rfl
    · exact fun _ _ => rfl

/-- The put takes effect: the frame found is counted, the new one is pending. -/
theorem Sound.slot_count (sound : Sound s) (here : s.threads thread = .locked key hash data)
    (found : U64) :
    SlotSound (((s.setSlot key (s.cache.slots key).count).goto thread
      (.counted key data)).record
        (.put thread key hash data ((s.cache.slots key).putOperation data))) found := by
  have held : s.holder key = some thread := (sound.owner thread key).mp (by simp [here, Pc.locks])
  have before := sound.slot found
  by_cases same : key = found
  · subst same
    have pending : s.pending key = (s.cache.slots key).payload :=
      pending_held held (by simp [here])
    have performed : operations key (s.log ++ [Event.put thread key hash data
        ((s.cache.slots key).putOperation data)]) =
          operations key s.log ++ [(s.cache.slots key).putOperation data] := by
      rw [operations_snoc, operations_put, if_pos rfl]
    refine ⟨?_, ?_, ?_, ?_⟩
    · rw [sound.pending_count here, if_pos rfl]
      simp only [State.record, State.goto, State.setSlot, performed]
      exact before.legal.snoc (pending ▸ putOperation_step _ data)
    · simp only [State.record, State.goto, State.setSlot, performed,
        LatestSampleCache.slots_setSlot_self, LatestRegister.overwritten_append,
        List.length_append, drop_count_count _ data, before.counted, BitVec.ofNat_add]
    · simpa [State.record, State.goto, State.setSlot] using before.own
    · have passed := before.passed
      simp only [State.consumed, State.record, State.goto, State.setSlot] at passed ⊢
      rw [performed, LatestRegister.taken_append, taken_putOperation, List.append_nil, ← passed]
      simp [drains]
  · have other : found ≠ key := Ne.symm same
    refine before.kept ?_ ?_ ?_ ?_ ?_
    · simp [State.record, State.goto, State.setSlot,
        LatestSampleCache.slots_setSlot_other _ _ other]
    · simp [State.record, State.goto, State.setSlot,
        LatestSampleCache.slots_setSlot_other _ _ other]
    · rw [sound.pending_count here, if_neg same]
    · simp [State.record, State.goto, State.setSlot, operations_put, same]
    · simp [State.consumed, State.record, State.goto, State.setSlot, drains]

/-- The frame that was pending is now in the slot. -/
theorem Sound.slot_store (sound : Sound s) (here : s.threads thread = .counted key data)
    (found : U64) :
    SlotSound ((s.setSlot key ((s.cache.slots key).store data)).goto thread (.stored key))
      found := by
  refine (sound.slot found).kept ?_ ?_ (sound.pending_store here found) rfl rfl
  · by_cases same : found = key
    · subst same
      simp [State.goto, State.setSlot, LatestSampleSlot.store]
    · simp [State.goto, State.setSlot, LatestSampleCache.slots_setSlot_other _ _ same]
  · by_cases same : found = key
    · subst same
      simp [State.goto, State.setSlot, LatestSampleSlot.store]
    · simp [State.goto, State.setSlot, LatestSampleCache.slots_setSlot_other _ _ same]

/-- The frame of a free slot is passed on under the hash of the slot. -/
theorem Sound.slot_take (sound : Sound s) {todo : List U64} {passed : List (U64 × π)}
    (here : s.drainer = .drain (key :: todo) passed) (free : s.holder key = none) (found : U64) :
    SlotSound (({ s with
      drainer := .drain todo (passed ++ (s.cache.slots key).take.1.toList) }.setSlot key
        (s.cache.slots key).take.2).record (.visited key (s.cache.slots key).takeOperation))
          found := by
  have before := sound.slot found
  have handed := @under_take _ key found (s.cache.slots key) (sound.slot key).own
  by_cases same : key = found
  · subst same
    have pending : s.pending key = (s.cache.slots key).payload := pending_free free
    have performed : operations key
        (s.log ++ [Event.visited key (s.cache.slots key).takeOperation]) =
        operations key s.log ++ [(s.cache.slots key).takeOperation] := by
      rw [operations_snoc, operations_visited, if_pos rfl]
    rw [if_pos rfl] at handed
    refine ⟨?_, ?_, ?_, ?_⟩
    · rw [pending_take free, if_pos rfl]
      simp only [State.record, State.setSlot, performed]
      exact before.legal.snoc (pending ▸ takeOperation_step _)
    · simp only [State.record, State.setSlot, performed, LatestSampleCache.slots_setSlot_self,
        LatestRegister.overwritten_append, overwritten_takeOperation, List.append_nil]
      exact before.counted
    · simp only [State.record, State.setSlot, LatestSampleCache.slots_setSlot_self]
      exact before.own
    · have earlier := before.passed
      simp only [State.consumed, State.record, State.setSlot, Drainer.passed, here, under_append,
        handed, performed, LatestRegister.taken_append] at earlier ⊢
      rw [← earlier]
      simp [drains]
  · have other : found ≠ key := Ne.symm same
    refine before.kept ?_ ?_ ?_ ?_ ?_
    · simp [State.record, State.setSlot, LatestSampleCache.slots_setSlot_other _ _ other]
    · simp [State.record, State.setSlot, LatestSampleCache.slots_setSlot_other _ _ other]
    · rw [pending_take free, if_neg same]
    · simp [State.record, State.setSlot, operations_visited, same]
    · rw [if_neg same] at handed
      simp [State.consumed, State.record, State.setSlot, Drainer.passed, here, handed, drains]

/-- The drainer moves without touching a slot. -/
theorem Sound.drainer_moved (sound : Sound s) (cache : next.cache = s.cache)
    (holder : next.holder = s.holder) (threads : next.threads = s.threads)
    (performed : ∀ key, operations key next.log = operations key s.log)
    (consumed : next.consumed = s.consumed)
    (walk : ∀ todo passed, next.drainer = .drain todo passed → todo ⊆ s.cache.keys) :
    Sound next where
  slot key := by
    refine (sound.slot key).kept (by rw [cache]) (by rw [cache]) ?_ (performed key)
      (by rw [consumed])
    exact pending_congr (by rw [cache]) (by rw [holder]) (fun _ _ => by rw [threads])
  owner := by
    rw [threads, holder]
    exact sound.owner
  present := by
    rw [threads, cache]
    exact sound.present
  absent := by
    rw [cache]
    exact sound.absent
  walk := by
    rw [cache]
    exact walk

/-- A thread that holds no lock moves without taking one. -/
theorem Sound.thread_moved (sound : Sound s) {pc : Pc π}
    (threads : next.threads = Function.update s.threads thread pc)
    (unlocked : (s.threads thread).locks = none) (none : pc.locks = none)
    (own : ∀ key, pc.refers = some key → key ∈ s.cache.keys) (cache : next.cache = s.cache)
    (holder : next.holder = s.holder) (drainer : next.drainer = s.drainer)
    (log : next.log = s.log) : Sound next where
  slot key := by
    refine (sound.slot key).kept (by rw [cache]) (by rw [cache]) ?_ (by rw [log]) ?_
    · exact sound.pending_other threads (by simp [unlocked]) (by rw [cache]) (by rw [holder])
    · rw [State.consumed, log, drainer, State.consumed]
  owner := sound.owner_kept threads holder (by rw [none, unlocked])
  present := sound.present_goto threads (by rw [cache]) own
  absent := by
    rw [cache]
    exact sound.absent
  walk := by
    rw [cache, drainer]
    exact sound.walk

end Steps

/-- Every transition keeps the cache sound. -/
theorem sound_transition (sound : Sound s) (moved : Transition s action next) :
    Sound next := by
  cases moved with
  | miss => exact sound
  | @allocate key idle =>
    have slots : (s.cache.pre_allocate key).slots = s.cache.slots :=
      LatestSampleCache.slots_pre_allocate (sound.absent key)
    have grown : ∀ found ∈ s.cache.keys, found ∈ (s.cache.pre_allocate key).keys :=
      fun found member => LatestSampleCache.mem_pre_allocate.mpr (.inl member)
    exact
      { slot := by
          intro found
          have before := sound.slot found
          refine before.kept ?_ ?_ ?_ ?_ ?_
          · simp [State.record, slots]
          · simp [State.record, slots]
          · exact pending_congr (by simp [State.record, slots]) rfl (fun _ _ => rfl)
          · simp [State.record, operations]
          · simp [State.consumed, State.record, drains]
        owner := sound.owner
        present := fun thread found refers => grown found (sound.present thread found refers)
        absent := by
          intro found outside
          simp only [State.record, slots]
          exact sound.absent found (fun member => outside (grown found member))
        walk := by
          intro todo passed here
          simp [State.record, idle] at here }
  | @find thread key idle present =>
    refine sound.thread_moved rfl (by rw [idle]; rfl) rfl ?_ rfl rfl rfl rfl
    intro found refers
    obtain rfl := Option.some.inj refers
    exact present
  | @lock thread key hash data here free =>
    have refers : (s.threads thread).refers = some key := by rw [here]; rfl
    exact
      { slot := by
          intro found
          exact (sound.slot found).kept rfl rfl (sound.pending_lock here free found) rfl rfl
        owner := by
          intro found target
          have owner := sound.owner found target
          simp only [State.goto, State.setHolder]
          by_cases this : found = thread
          · subst this
            simp only [Function.update_self, Pc.locks, Option.some.injEq]
            by_cases same : target = key
            · subst same
              simp
            · have nowhere : s.holder target ≠ some found := by simp [← owner, here, Pc.locks]
              simp [same, Ne.symm same, nowhere]
          · rw [Function.update_of_ne this, owner]
            by_cases same : target = key
            · subst same
              simp [free, Ne.symm this]
            · rw [Function.update_of_ne same]
        present := by
          refine sound.present_goto rfl rfl ?_
          rintro found ⟨⟩
          exact sound.present thread key refers
        absent := sound.absent
        walk := sound.walk }
  | @count thread key hash data here =>
    have present : key ∈ s.cache.keys := sound.present thread key (by rw [here]; rfl)
    exact
      { slot := sound.slot_count here
        owner := sound.owner_kept rfl rfl (by rw [here]; rfl)
        present := by
          refine sound.present_goto rfl rfl ?_
          rintro found ⟨⟩
          exact present
        absent := sound.absent_setSlot present
        walk := sound.walk }
  | @store thread key data here =>
    have present : key ∈ s.cache.keys := sound.present thread key (by rw [here]; rfl)
    exact
      { slot := sound.slot_store here
        owner := sound.owner_kept rfl rfl (by rw [here]; rfl)
        present := by
          refine sound.present_goto rfl rfl ?_
          rintro found ⟨⟩
          exact present
        absent := sound.absent_setSlot present
        walk := sound.walk }
  | @unlock thread key here =>
    have held : s.holder key = some thread :=
      (sound.owner thread key).mp (by rw [here]; rfl)
    exact
      { slot := by
          intro found
          exact (sound.slot found).kept rfl rfl (sound.pending_unlock here found) rfl rfl
        owner := by
          intro found target
          have owner := sound.owner found target
          simp only [State.goto, State.setHolder]
          by_cases this : found = thread
          · subst this
            by_cases same : target = key
            · subst same
              simp [Pc.locks]
            · have nowhere : s.holder target ≠ some found := by
                simp [← owner, here, Pc.locks, Ne.symm same]
              simp [Pc.locks, same, nowhere]
          · rw [Function.update_of_ne this, owner]
            by_cases same : target = key
            · subst same
              simp [held, Ne.symm this]
            · rw [Function.update_of_ne same]
        present := by
          refine sound.present_goto rfl rfl ?_
          rintro found ⟨⟩
          exact sound.present thread key (by rw [here]; rfl)
        absent := sound.absent
        walk := sound.walk }
  | @dropRef thread key here =>
    refine sound.thread_moved rfl (by rw [here]; rfl) rfl ?_ rfl rfl rfl rfl
    intro found refers
    simp [Pc.refers] at refers
  | @begin order idle listed =>
    refine sound.drainer_moved rfl rfl rfl (fun _ => rfl) ?_ ?_
    · simp [State.consumed, idle, Drainer.passed]
    · rintro todo passed ⟨⟩
      exact listed.subset
  | @skip key todo passed thread here held =>
    refine sound.drainer_moved rfl rfl rfl ?_ ?_ ?_
    · simp [State.record, operations]
    · simp [State.consumed, State.record, here, Drainer.passed, drains]
    · rintro rest handed ⟨⟩
      exact fun found member => sound.walk _ _ here (List.mem_cons_of_mem _ member)
  | @take key todo passed here free =>
    have within := sound.walk _ _ here
    have present : key ∈ s.cache.keys := within (List.mem_cons_self ..)
    exact
      { slot := sound.slot_take here free
        owner := sound.owner
        present := sound.present
        absent := sound.absent_setSlot present
        walk := by
          rintro rest handed ⟨⟩
          exact fun found member => within (List.mem_cons_of_mem _ member) }
  | @finish passed here =>
    refine sound.drainer_moved rfl rfl rfl ?_ ?_ ?_
    · simp [State.record, operations]
    · simp [State.consumed, State.record, here, Drainer.passed, drains]
    · rintro rest handed ⟨⟩

/-- In every run the slots, the locks and the history agree. -/
theorem reachable_sound (reached : (machine π).Reachable s) : Sound s :=
  Machine.invariant Sound sound_init
    (fun _ _ _ _ sound stepped => sound_transition sound (step_transition stepped)) reached

/-- A put is one put. -/
theorem puts_putOperation (slot : LatestSampleSlot π) (data : π) :
    LatestRegister.puts [slot.putOperation data] = [data] := by
  unfold LatestSampleSlot.putOperation
  split <;> rfl

/-- A take is no put. -/
theorem puts_takeOperation (slot : LatestSampleSlot π) :
    LatestRegister.puts [slot.takeOperation] = [] := by
  unfold LatestSampleSlot.takeOperation
  split <;> rfl

/-- The frames brought to a slot are those its register has been given. -/
theorem reachable_frames (reached : (machine π).Reachable s) (key : U64) :
    frames key s.log = LatestRegister.puts (operations key s.log) := by
  refine Machine.invariant (fun s => frames key s.log = LatestRegister.puts (operations key s.log))
    rfl ?_ reached
  intro before action after _ same stepped
  have logged : ∀ event, frames key [event] = LatestRegister.puts (operations key [event]) →
      frames key (before.log ++ [event]) =
        LatestRegister.puts (operations key (before.log ++ [event])) := by
    intro event given
    rw [frames_snoc, operations_snoc, LatestRegister.puts_append, same, given]
  cases step_transition stepped with
  | count =>
    apply logged
    rw [frames_put, operations_put]
    split
    · exact (puts_putOperation _ _).symm
    · rfl
  | take =>
    apply logged
    rw [operations_visited]
    split
    · exact (puts_takeOperation _).symm
    · rfl
  | allocate | skip | finish => exact logged _ rfl
  | miss | find | lock | store | unlock | dropRef | begin => exact same

/-- Every frame brought to a slot has been overwritten and counted, has been passed to
the consumer under the hash of the slot, or is pending there; and a slot that a drain
passes by is left as it is. -/
structure Conserved (s : State π) : Prop where
  places : ∀ key, (frames key s.log).Perm
    (LatestRegister.overwritten (operations key s.log) ++ under key s.consumed ++
      (s.pending key).toList)
  counted : ∀ key, (s.cache.slots key).drop_count =
    BitVec.ofNat 64 (LatestRegister.overwritten (operations key s.log)).length
  routed : ∀ key, (s.cache.slots key).handler_hash = key
  skipped : ∀ key todo passed next, s.drainer = .drain (key :: todo) passed →
    s.holder key ≠ none → step s .visit = some next →
      next.cache = s.cache ∧ next.consumed = s.consumed ∧
        ∀ found, next.pending found = s.pending found

/-- In every run no frame is lost or doubled in a slot. -/
theorem reachable_conserved (reached : (machine π).Reachable s) : Conserved s := by
  have sound := reachable_sound reached
  refine ⟨?_, fun key => (sound.slot key).counted, fun key => (sound.slot key).own, ?_⟩
  · intro key
    rw [reachable_frames reached key, (sound.slot key).passed]
    exact (sound.slot key).legal.accounted
  · intro key todo passed next here held stepped
    obtain ⟨thread, locked⟩ := Option.ne_none_iff_exists'.mp held
    simp only [step, visit, here, locked] at stepped
    obtain rfl := Option.some.inj stepped
    refine ⟨rfl, ?_, fun _ => rfl⟩
    simp [State.consumed, State.record, here, Drainer.passed, drains]

section Effects

/-- The frames given up for another one, each with the frame that took its place. -/
def overwrites (log : List (Event π)) : List (π × π) :=
  log.filterMap fun
    | .put _ _ _ _ (.overwrite old new) => some (old, new)
    | _ => none

/-- A step that moves no frame. -/
structure Quiet (s next : State π) : Prop where
  keys : next.cache.keys = s.cache.keys
  pending : ∀ key, next.pending key = s.pending key
  frames : ∀ key, frames key next.log = frames key s.log
  overwrites : overwrites next.log = overwrites s.log

/-- The steps that may move a frame. -/
def Stirs (s : State π) : Action π → Prop
  | .pre_allocate _ => True
  | .work thread => ∃ key hash data, s.threads thread = .locked key hash data
  | .visit => s.yields ≠ none
  | _ => False

/-- The thread that acts. -/
def actor : Action π → Option Nat
  | .get_slot thread _ | .put thread _ _ | .work thread | .dropRef thread => some thread
  | .pre_allocate _ | .drain _ | .visit => none

/-- A step moves only the thread that takes it. -/
theorem threads_other (stepped : step s action = some next) {thread : Nat}
    (other : actor action ≠ some thread) : next.threads thread = s.threads thread := by
  have elsewhere : ∀ found, actor action = some found → thread ≠ found := by
    rintro found same rfl
    exact other same
  cases step_transition stepped with
  | find => exact Function.update_of_ne (elsewhere _ rfl) _ _
  | lock => exact Function.update_of_ne (elsewhere _ rfl) _ _
  | count => exact Function.update_of_ne (elsewhere _ rfl) _ _
  | store => exact Function.update_of_ne (elsewhere _ rfl) _ _
  | unlock => exact Function.update_of_ne (elsewhere _ rfl) _ _
  | dropRef => exact Function.update_of_ne (elsewhere _ rfl) _ _
  | _ => rfl

/-- Only an allocation adds a key. -/
theorem keys_kept (stepped : step s action = some next) (kept : ∀ key, action ≠ .pre_allocate key) :
    next.cache.keys = s.cache.keys := by
  cases step_transition stepped with
  | allocate => exact absurd rfl (kept _)
  | _ => rfl

/-- A step that does not stir a slot moves no frame. -/
theorem quiet_step (sound : Sound s) (stepped : step s action = some next)
    (calm : ¬ Stirs s action) : Quiet s next := by
  cases step_transition stepped with
  | miss => exact ⟨rfl, fun _ => rfl, fun _ => rfl, rfl⟩
  | allocate => exact absurd trivial calm
  | find idle present =>
    refine ⟨rfl, fun key => ?_, fun _ => rfl, rfl⟩
    exact sound.pending_other rfl (by simp [idle, Pc.locks]) rfl rfl
  | lock here free => exact ⟨rfl, sound.pending_lock here free, fun _ => rfl, rfl⟩
  | count here => exact absurd ⟨_, _, _, here⟩ calm
  | store here => exact ⟨rfl, sound.pending_store here, fun _ => rfl, rfl⟩
  | unlock here => exact ⟨rfl, sound.pending_unlock here, fun _ => rfl, rfl⟩
  | dropRef here =>
    refine ⟨rfl, fun key => ?_, fun _ => rfl, rfl⟩
    exact sound.pending_other rfl (by simp [here, Pc.locks]) rfl rfl
  | begin => exact ⟨rfl, fun _ => rfl, fun _ => rfl, rfl⟩
  | skip =>
    refine ⟨rfl, fun _ => rfl, fun key => ?_, ?_⟩
    · simp [State.record, frames]
    · simp [State.record, overwrites]
  | @take key todo passed here free =>
    have nothing : s.pending key = none := by
      have empty : s.yields = none := not_not.mp calm
      simp only [State.yields, here, free, LatestSampleSlot.take, Option.map_eq_none_iff] at empty
      rw [pending_free free, empty]
    refine ⟨rfl, fun found => ?_, fun found => ?_, ?_⟩
    · rw [pending_take free]
      split
      next same => rw [← same, nothing]
      next => rfl
    · simp [State.record, State.setSlot, frames]
    · simp [State.record, State.setSlot, overwrites]
  | finish =>
    refine ⟨rfl, fun _ => rfl, fun key => ?_, ?_⟩
    · simp [State.record, frames]
    · simp [State.record, overwrites]

/-- The put of a frame takes effect. -/
structure Stored (s next : State π) (key : U64) (data : π) : Prop where
  pending : next.pending = Function.update s.pending key (some data)
  frames : ∀ found, frames found next.log =
    frames found s.log ++ if key = found then [data] else []
  overwrites : overwrites next.log =
    overwrites s.log ++ ((s.pending key).map fun old => (old, data)).toList

/-- The count of a put stores its frame. -/
theorem stored_step (sound : Sound s) {thread : Nat} {key hash : U64} {data : π}
    (stepped : step s (.work thread) = some next)
    (here : s.threads thread = .locked key hash data) :
    Stored s next key data ∧ next.threads thread = .counted key data := by
  have held : s.holder key = some thread := (sound.owner thread key).mp (by simp [here, Pc.locks])
  simp only [step, work, here] at stepped
  obtain rfl := Option.some.inj stepped
  refine ⟨⟨?_, ?_, ?_⟩, Function.update_self thread _ _⟩
  · funext found
    rw [sound.pending_count here]
    by_cases same : key = found
    · subst same
      rw [if_pos rfl, Function.update_self]
    · rw [if_neg same, Function.update_of_ne (Ne.symm same)]
  · intro found
    by_cases same : key = found <;> simp [State.record, State.goto, State.setSlot, frames, same]
  · rw [pending_held held (by simp [here])]
    cases old : (s.cache.slots key).payload <;>
      simp [State.record, State.goto, State.setSlot, overwrites, LatestSampleSlot.putOperation, old]

/-- The visit of a slot passes its frame on. -/
structure Taken (s next : State π) (key : U64) (data : π) : Prop where
  present : key ∈ s.cache.keys
  held : s.pending key = some data
  pending : next.pending = Function.update s.pending key none
  frames : ∀ found, frames found next.log = frames found s.log
  overwrites : overwrites next.log = overwrites s.log

/-- A visit that yields takes the pending frame out. -/
theorem taken_step (sound : Sound s) {key : U64} {data : π} (yields : s.yields = some (key, data))
    (stepped : step s .visit = some next) : Taken s next key data := by
  cases step_transition stepped with
  | @skip found todo passed thread here held => simp [State.yields, here, held] at yields
  | @finish passed here => simp [State.yields, here] at yields
  | @take found todo passed here free =>
    have own := (sound.slot found).own
    simp only [State.yields, here, free, LatestSampleSlot.take, Option.map_eq_some_iff,
      Prod.mk.injEq] at yields
    obtain ⟨payload, held, rfl, rfl⟩ := yields
    rw [own]
    refine ⟨sound.walk _ _ here (List.mem_cons_self ..), (pending_free free).trans held, ?_,
      fun key => ?_, ?_⟩
    · funext key
      rw [pending_take free]
      by_cases same : found = key
      · subst same
        rw [if_pos rfl, Function.update_self]
      · rw [if_neg same, Function.update_of_ne (Ne.symm same)]
    · simp [State.record, State.setSlot, frames]
    · simp [State.record, State.setSlot, overwrites]

end Effects

end FlowKernel.Rust.SharedCache
