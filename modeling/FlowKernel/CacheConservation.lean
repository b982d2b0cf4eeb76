import FlowKernel.SharedCache

/-!
# Conservation in the shared cache

Each slot is a latest-only register, and every operation belongs to one slot. The
map does not grow while a loop over it runs, so a drain visits every slot exactly
once; between two visits the producers go on. Sums of the drop counts are taken
slot by slot, but each count only grows, so a later call finds at least what an
earlier one found.
-/

namespace FlowKernel.SharedCache

open Foundation

universe u
variable {π : Type u}

section Histories

/-- The operations on one slot. -/
def operations (key : U64) (log : List (Event π)) : List (LatestRegister.Event (HeldSample π)) :=
  log.filterMap fun
    | .put _ found operation | .visited _ found operation =>
        if found = key then some operation else none
    | _ => none

/-- The operations on all slots. -/
def performed (log : List (Event π)) : List (LatestRegister.Event (HeldSample π)) :=
  log.filterMap fun
    | .put _ _ operation | .visited _ _ operation => some operation
    | _ => none

/-- The slots that have been allocated. -/
def allocations (log : List (Event π)) : List U64 :=
  log.filterMap fun
    | .allocated key => some key
    | _ => none

/-- The results of a thread's calls of `get_total_dropped`. -/
def totals (thread : Nat) (log : List (Event π)) : List U64 :=
  log.filterMap fun
    | .summed found total => if found = thread then some total else none
    | _ => none

/-- The slots that a thread has visited since its latest drain began. -/
def visits (thread : Nat) (log : List (Event π)) : List U64 :=
  log.foldl (fun seen event =>
    match event with
    | .drainBegun found => if found = thread then [] else seen
    | .visited found key _ => if found = thread then seen ++ [key] else seen
    | _ => seen) []

variable (log : List (Event π)) (event : Event π)

/-- The operations of a longer history end in those of its last event. -/
@[simp] theorem operations_snoc (key : U64) :
    operations key (log ++ [event]) = operations key log ++ operations key [event] :=
  List.filterMap_append

/-- The operations on all slots end in that of the last event. -/
@[simp] theorem performed_snoc : performed (log ++ [event]) = performed log ++ performed [event] :=
  List.filterMap_append

/-- The allocations of a longer history end in that of its last event. -/
@[simp] theorem allocations_snoc :
    allocations (log ++ [event]) = allocations log ++ allocations [event] :=
  List.filterMap_append

end Histories

/-- What an event says about the events before it. A visit finds the newest frame put
and not taken, if there is one, in a slot that the drain has not visited yet, and a
drain ends when it has visited every slot. -/
def Lawful (before : List (Event π)) : Event π → Prop
  | .visited thread key operation => key ∉ visits thread before ∧
      (match LatestRegister.pending (operations key before) with
        | some sample => operation = .take sample
        | none => operation = .miss)
  | .put _ key operation => ∃ sample,
      (match LatestRegister.pending (operations key before) with
        | some old => operation = .overwrite old sample
        | none => operation = .put sample)
  | .drainEnded thread => ∀ key ∈ allocations before, key ∈ visits thread before
  | _ => True

/-- The thread walks the map under its lock. -/
def Pc.reading : Pc → Bool
  | .drain _ | .sum _ _ => true
  | _ => false

/-- What a step can do to the cache and its threads. -/
inductive Transition : State π → State π → Prop
  | stay {s : State π} : Transition s s
  | allocate {s : State π} {key : U64} (free : s.readers = []) :
      Transition s { s with
        cache := s.cache.pre_allocate key, log := s.log ++ [.allocated key] }
  | point {s : State π} {thread : Nat} {key : U64} (idle : s.threads thread = .idle)
      (present : key ∈ s.cache.keys) : Transition s (s.goto thread (.put key))
  | beginDrain {s : State π} {thread : Nat} {order : List U64} (idle : s.threads thread = .idle)
      (listed : order.Perm s.cache.keys) :
      Transition s (({ s with readers := thread :: s.readers }.goto thread (.drain order)).record
        (.drainBegun thread))
  | beginSum {s : State π} {thread : Nat} {order : List U64} (idle : s.threads thread = .idle)
      (listed : order.Perm s.cache.keys) :
      Transition s ({ s with readers := thread :: s.readers }.goto thread (.sum order 0))
  | put {s : State π} {thread : Nat} {key hash : U64} {data : π} {now : TimePoint}
      (here : s.threads thread = .put key) :
      Transition s (((s.setSlot key ((s.cache.slots key).put hash data now)).goto thread
        .idle).record (.put thread key (putOperation (s.cache.slots key)
          { handler_hash := hash, payload := data, put_time := now })))
  | visit {s : State π} {thread : Nat} {key : U64} {todo : List U64}
      (here : s.threads thread = .drain (key :: todo)) :
      Transition s (((s.setSlot key (s.cache.slots key).take.2).goto thread
        (.drain todo)).record (.visited thread key (takeOperation (s.cache.slots key))))
  | endDrain {s : State π} {thread : Nat} (here : s.threads thread = .drain []) :
      Transition s (({ s with readers := s.readers.erase thread }.goto thread .idle).record
        (.drainEnded thread))
  | load {s : State π} {thread : Nat} {key : U64} {todo : List U64} {total : U64}
      (here : s.threads thread = .sum (key :: todo) total) :
      Transition s (s.goto thread (.sum todo (total + (s.cache.slots key).drop_count)))
  | endSum {s : State π} {thread : Nat} {total : U64} (here : s.threads thread = .sum [] total) :
      Transition s (({ s with readers := s.readers.erase thread }.goto thread .idle).record
        (.summed thread total))

variable {s next : State π}

/-- A call of `get_slot` allocates and then points; every other step is one
transition. -/
theorem step_transitions {action : Action π} (stepped : step s action = some next) :
    ∃ mid, Transition s mid ∧ Transition mid next := by
  have once : Transition s next → ∃ mid, Transition s mid ∧ Transition mid next :=
    fun first => ⟨next, first, .stay⟩
  cases action with
  | pre_allocate key =>
    simp only [step, allocate] at stepped
    split at stepped
    next free =>
      obtain rfl := Option.some.inj stepped
      exact once (.allocate free)
    next => simp at stepped
  | get_slot thread key =>
    simp only [step, allocate] at stepped
    split at stepped
    next idle =>
      split at stepped
      next free =>
        obtain rfl := Option.some.inj stepped
        exact ⟨_, .allocate free, .point idle (LatestSampleCache.mem_pre_allocate.mpr (.inr rfl))⟩
      next => simp at stepped
    next => simp at stepped
  | get_slot_fast thread key =>
    simp only [step] at stepped
    split at stepped
    next idle =>
      split at stepped
      next present =>
        obtain rfl := Option.some.inj stepped
        exact once (.point idle present)
      next =>
        obtain rfl := Option.some.inj stepped
        exact once .stay
    next => simp at stepped
  | drain thread order =>
    simp only [step] at stepped
    split at stepped
    next idle =>
      split at stepped
      next listed =>
        obtain rfl := Option.some.inj stepped
        exact once (.beginDrain idle listed)
      next => simp at stepped
    next => simp at stepped
  | get_total_dropped thread order =>
    simp only [step] at stepped
    split at stepped
    next idle =>
      split at stepped
      next listed =>
        obtain rfl := Option.some.inj stepped
        exact once (.beginSum idle listed)
      next => simp at stepped
    next => simp at stepped
  | put thread hash data now =>
    simp only [step] at stepped
    split at stepped
    next key here =>
      obtain rfl := Option.some.inj stepped
      exact once (.put here)
    next => simp at stepped
  | visit thread =>
    simp only [step, visit] at stepped
    split at stepped
    next here =>
      obtain rfl := Option.some.inj stepped
      exact once (.endDrain here)
    next key todo here =>
      obtain rfl := Option.some.inj stepped
      exact once (.visit here)
    next total here =>
      obtain rfl := Option.some.inj stepped
      exact once (.endSum here)
    next key todo total here =>
      obtain rfl := Option.some.inj stepped
      exact once (.load here)
    next => simp at stepped
    next => simp at stepped

/-- What a thread's program counter says about the map and the log. -/
structure Placed (s : State π) (thread : Nat) (pc : Pc) : Prop where
  reading : thread ∈ s.readers ↔ pc.reading = true
  target : ∀ key, pc = .put key → key ∈ s.cache.keys
  walk : ∀ todo, pc = .drain todo → (visits thread s.log ++ todo).Perm s.cache.keys

/-- The slots, the places of the threads and the history agree in every state. -/
structure Sound (s : State π) : Prop where
  legal : ∀ key, LatestRegister.Legal (operations key s.log) (s.cache.slots key).held
  absent : ∀ key, key ∉ s.cache.keys → s.cache.slots key = .empty
  known : ∀ key, key ∈ s.cache.keys ↔ key ∈ allocations s.log
  placed : ∀ thread, Placed s thread (s.threads thread)
  distinct : s.readers.Nodup
  conserved : (LatestRegister.puts (performed s.log)).length =
    (LatestRegister.taken (performed s.log)).length +
      (LatestRegister.overwritten (performed s.log)).length + s.cache.full s.cache.keys
  lawful : Justified Lawful s.log

/-- A put is an operation on its own slot. -/
theorem operations_put (thread : Nat) (key found : U64)
    (operation : LatestRegister.Event (HeldSample π)) :
    operations found [.put thread key operation] = if key = found then [operation] else [] := by
  by_cases same : key = found <;> simp [operations, same]

/-- A visit is an operation on its own slot. -/
theorem operations_visited (thread : Nat) (key found : U64)
    (operation : LatestRegister.Event (HeldSample π)) :
    operations found [.visited thread key operation] =
      if key = found then [operation] else [] := by
  by_cases same : key = found <;> simp [operations, same]

section Threads

variable {thread : Nat} {pc : Pc}

/-- An event that is neither a visit nor the begin of a drain adds no visit. -/
theorem visits_other {event : Event π} {found : Nat} (log : List (Event π))
    (other : ∀ key operation, event ≠ .visited found key operation)
    (begun : event ≠ .drainBegun found) : visits found (log ++ [event]) = visits found log := by
  rw [visits, List.foldl_append]
  cases event with
  | drainBegun thread =>
    have distinct : thread ≠ found := fun same => begun (same ▸ rfl)
    simp [visits, distinct]
  | visited thread key operation =>
    have distinct : thread ≠ found := fun same => other key operation (same ▸ rfl)
    simp [visits, distinct]
  | _ => rfl

/-- One thread moves; the map keeps its keys. -/
theorem Sound.others (sound : Sound s)
    (threads : next.threads = Function.update s.threads thread pc)
    (readers : ∀ found, found ≠ thread → (found ∈ next.readers ↔ found ∈ s.readers))
    (keys : next.cache.keys = s.cache.keys)
    (visited : ∀ found, found ≠ thread → visits found next.log = visits found s.log)
    (own : Placed next thread pc) (found : Nat) : Placed next found (next.threads found) := by
  rw [threads]
  by_cases same : found = thread
  · subst same
    rw [Function.update_self]
    exact own
  · rw [Function.update_of_ne same]
    obtain ⟨reading, target, walk⟩ := sound.placed found
    exact
      { reading := (readers found same).trans reading
        target := by rwa [keys]
        walk := by
          rw [keys, visited found same]
          exact walk }

/-- A thread that is in no call is not among the readers. -/
theorem Sound.unread (sound : Sound s) (idle : s.threads thread = .idle) :
    thread ∉ s.readers := by
  rw [(sound.placed thread).reading, idle]
  simp [Pc.reading]

/-- A thread ends its drain or its sum. -/
theorem Sound.leaves (sound : Sound s)
    (threads : next.threads = Function.update s.threads thread .idle)
    (readers : next.readers = s.readers.erase thread) (keys : next.cache.keys = s.cache.keys)
    (visited : ∀ found, found ≠ thread → visits found next.log = visits found s.log) (found : Nat) :
    Placed next found (next.threads found) := by
  refine sound.others threads ?_ keys visited ⟨?_, by simp, by simp⟩ found
  · intro other different
    rw [readers]
    exact List.mem_erase_of_ne different
  · rw [readers]
    simpa [Pc.reading] using sound.distinct.not_mem_erase

/-- An event about no slot. -/
theorem Sound.noted (sound : Sound s) {event : Event π} (cache : next.cache = s.cache)
    (log : next.log = s.log ++ [event]) (silent : ∀ key, operations key [event] = [])
    (performs : performed [event] = []) (allocates : allocations [event] = [])
    (placed : ∀ found, Placed next found (next.threads found)) (distinct : next.readers.Nodup)
    (lawful : Lawful s.log event) : Sound next where
  legal key := by
    rw [log, cache, operations_snoc, silent, List.append_nil]
    exact sound.legal key
  absent := cache ▸ sound.absent
  known key := by
    rw [log, cache, allocations_snoc, allocates, List.append_nil]
    exact sound.known key
  placed := placed
  distinct := distinct
  conserved := by
    rw [log, cache, performed_snoc, performs, List.append_nil]
    exact sound.conserved
  lawful := log ▸ sound.lawful.snoc lawful

/-- The operation on one slot extends the history of that slot. -/
theorem Sound.operate (sound : Sound s) {key : U64} {slot : LatestSampleSlot π}
    {operation : LatestRegister.Event (HeldSample π)} {event : Event π}
    (logged : ∀ found, operations found [event] = if key = found then [operation] else [])
    (step : LatestRegister.Step (s.cache.slots key).held operation slot.held) (found : U64) :
    LatestRegister.Legal (operations found (s.log ++ [event]))
      ((s.cache.setSlot key slot).slots found).held := by
  rw [operations_snoc, logged]
  by_cases same : key = found
  · subst same
    rw [if_pos rfl, LatestSampleCache.slots_setSlot_self]
    exact (sound.legal key).snoc step
  · rw [if_neg same, List.append_nil, LatestSampleCache.slots_setSlot_other _ _ (Ne.symm same)]
    exact sound.legal found

/-- It balances what has been put with what has been taken, discarded and is held. -/
theorem Sound.balance (sound : Sound s) {key : U64} {slot : LatestSampleSlot π}
    {operation : LatestRegister.Event (HeldSample π)} {event : Event π}
    (present : key ∈ s.cache.keys) (logged : performed [event] = [operation])
    (step : LatestRegister.Step (s.cache.slots key).held operation slot.held) :
    (LatestRegister.puts (performed (s.log ++ [event]))).length =
      (LatestRegister.taken (performed (s.log ++ [event]))).length +
        (LatestRegister.overwritten (performed (s.log ++ [event]))).length +
          (s.cache.setSlot key slot).full s.cache.keys := by
  have moved := s.cache.full_setSlot key slot s.cache.distinct present
  have balanced := step.balanced
  have conserved := sound.conserved
  simp only [performed_snoc, logged, LatestRegister.puts_append, LatestRegister.taken_append,
    LatestRegister.overwritten_append, List.length_append]
  omega

/-- A slot of the map is no other one outside of it. -/
theorem Sound.absent_setSlot (sound : Sound s) {key : U64} {slot : LatestSampleSlot π}
    (present : key ∈ s.cache.keys) (found : U64) (outside : found ∉ s.cache.keys) :
    (s.cache.setSlot key slot).slots found = .empty := by
  have other : found ≠ key := fun same => outside (same ▸ present)
  rw [LatestSampleCache.slots_setSlot_other _ _ other]
  exact sound.absent found outside

end Threads

/-- A put is a step of the register. -/
theorem putOperation_step (slot : LatestSampleSlot π) (hash : U64) (data : π) (now : TimePoint) :
    LatestRegister.Step slot.held
      (putOperation slot { handler_hash := hash, payload := data, put_time := now })
        (slot.put hash data now).held := by
  unfold putOperation
  cases slot.held with
  | none => exact .put
  | some old => exact .overwrite

/-- A take is a step of the register. -/
theorem takeOperation_step (slot : LatestSampleSlot π) :
    LatestRegister.Step slot.held (takeOperation slot) slot.take.2.held := by
  unfold takeOperation
  cases slot.held with
  | none => exact .miss
  | some sample => exact .take

/-- The empty map is sound. -/
theorem sound_init : Sound (init π) where
  legal := fun _ => .nil
  absent := fun _ _ => rfl
  known := by simp [init, LatestSampleCache.empty, allocations]
  placed := fun _ => ⟨by simp [init, Pc.reading], by simp [init], by simp [init]⟩
  distinct := List.nodup_nil
  conserved := rfl
  lawful := .nil

/-- Every transition keeps the cache sound. -/
theorem sound_transition (sound : Sound s) (moved : Transition s next) : Sound next := by
  cases moved with
  | stay => exact sound
  | @allocate key free =>
    exact
      { legal := by
          intro found
          rw [operations_snoc, LatestSampleCache.slots_pre_allocate]
          simpa [operations] using sound.legal found
        absent := by
          intro found outside
          rw [LatestSampleCache.mem_pre_allocate, not_or] at outside
          rw [LatestSampleCache.slots_pre_allocate]
          exact sound.absent found outside.1
        known := by
          intro found
          rw [LatestSampleCache.mem_pre_allocate, sound.known, allocations_snoc, List.mem_append]
          simp [allocations]
        placed := by
          intro thread
          obtain ⟨reading, target, walk⟩ := sound.placed thread
          refine ⟨reading, ?_, ?_⟩
          · intro found here
            exact LatestSampleCache.mem_pre_allocate.mpr (.inl (target found here))
          · intro todo here
            have reader := reading.mpr (by rw [here]; rfl)
            rw [free] at reader
            simp at reader
        distinct := sound.distinct
        conserved := by
          rw [LatestSampleCache.full_pre_allocate (sound.absent key)]
          simpa [performed] using sound.conserved
        lawful := sound.lawful.snoc trivial }
  | @point thread key idle present =>
    exact { sound with
      placed := sound.others rfl (fun _ _ => Iff.rfl) rfl (fun _ _ => rfl)
        { reading := by simpa [idle, Pc.reading, State.goto] using (sound.placed thread).reading
          target := by
            rintro found ⟨⟩
            exact present
          walk := by simp } }
  | @beginDrain thread order idle listed =>
    refine sound.noted rfl rfl (fun _ => rfl) rfl rfl ?_
      (List.nodup_cons.mpr ⟨sound.unread idle, sound.distinct⟩) trivial
    refine sound.others rfl ?_ rfl ?_ ⟨by simp [State.record, State.goto, Pc.reading], by simp, ?_⟩
    · intro found other
      simp [State.record, State.goto, other]
    · intro found other
      exact visits_other _ (by simp) (by simp [Ne.symm other])
    · rintro todo ⟨⟩
      simpa [State.record, State.goto, visits] using listed
  | @beginSum thread order idle listed =>
    exact { sound with
      placed := by
        refine sound.others rfl ?_ rfl (fun _ _ => rfl)
          ⟨by simp [State.goto, Pc.reading], by simp, by simp⟩
        intro found other
        simp [State.goto, other]
      distinct := List.nodup_cons.mpr ⟨sound.unread idle, sound.distinct⟩ }
  | @put thread key hash data now here =>
    have present := (sound.placed thread).target key here
    have step := putOperation_step (s.cache.slots key) hash data now
    exact
      { legal := sound.operate (fun found => operations_put thread key found _) step
        absent := sound.absent_setSlot present
        known := by
          intro found
          simpa [State.record, State.goto, State.setSlot, allocations] using sound.known found
        placed := by
          refine sound.others rfl (fun _ _ => Iff.rfl) rfl ?_ ⟨?_, by simp, by simp⟩
          · exact fun found _ => visits_other _ (by simp) (by simp)
          · simpa [here, Pc.reading, State.record, State.goto, State.setSlot] using
              (sound.placed thread).reading
        distinct := sound.distinct
        conserved := sound.balance present rfl step
        lawful := by
          refine sound.lawful.snoc
            ⟨{ handler_hash := hash, payload := data, put_time := now }, ?_⟩
          rw [(sound.legal key).pending_eq]
          unfold putOperation
          cases (s.cache.slots key).held <;> rfl }
  | @visit thread key todo here =>
    have walk := (sound.placed thread).walk _ here
    have present : key ∈ s.cache.keys := walk.subset (by simp)
    have step := takeOperation_step (s.cache.slots key)
    exact
      { legal := sound.operate (fun found => operations_visited thread key found _) step
        absent := sound.absent_setSlot present
        known := by
          intro found
          simpa [State.record, State.goto, State.setSlot, allocations] using sound.known found
        placed := by
          refine sound.others rfl (fun _ _ => Iff.rfl) rfl ?_ ⟨?_, by simp, ?_⟩
          · intro found other
            exact visits_other _ (by simp [Ne.symm other]) (by simp)
          · simpa [here, Pc.reading, State.record, State.goto, State.setSlot] using
              (sound.placed thread).reading
          · rintro rest ⟨⟩
            simpa [State.record, State.goto, State.setSlot, visits] using walk
        distinct := sound.distinct
        conserved := sound.balance present rfl step
        lawful := by
          have fresh := (List.nodup_append.mp (walk.nodup_iff.mpr s.cache.distinct)).2.2
          refine sound.lawful.snoc ⟨fun seen => fresh key seen key List.mem_cons_self rfl, ?_⟩
          rw [(sound.legal key).pending_eq]
          unfold takeOperation
          cases (s.cache.slots key).held <;> rfl }
  | @endDrain thread here =>
    have walk := (sound.placed thread).walk _ here
    refine sound.noted rfl rfl (fun _ => rfl) rfl rfl ?_ (sound.distinct.erase thread) ?_
    · exact sound.leaves rfl rfl rfl fun found _ => visits_other _ (by simp) (by simp)
    · intro key allocated
      simpa using walk.symm.subset ((sound.known key).mpr allocated)
  | @load thread key todo total here =>
    exact { sound with
      placed := sound.others rfl (fun _ _ => Iff.rfl) rfl (fun _ _ => rfl)
        { reading := by simpa [here, Pc.reading, State.goto] using (sound.placed thread).reading
          target := by simp
          walk := by simp } }
  | @endSum thread total here =>
    refine sound.noted rfl rfl (fun _ => rfl) rfl rfl ?_ (sound.distinct.erase thread) trivial
    exact sound.leaves rfl rfl rfl fun found _ => visits_other _ (by simp) (by simp)

/-- In every run the slots, the threads and the history agree. -/
theorem reachable_sound (reached : (machine π).Reachable s) : Sound s :=
  Machine.invariant Sound sound_init
    (fun _ _ _ _ sound stepped => by
      obtain ⟨mid, first, second⟩ := step_transitions stepped
      exact sound_transition (sound_transition sound first) second) reached

section Counting

/-- No count of overwrites has reached 2^64. -/
def Bounded (s : State π) : Prop :=
  (LatestRegister.overwritten (performed s.log)).length < 2 ^ 64

/-- What a sum under way will come to: at least any earlier result of the thread, and
no more than what has been counted. -/
structure Summing (s : State π) (thread : Nat) (todo : List U64) (total : U64) : Prop where
  distinct : todo.Nodup
  within : total.toNat + s.cache.drops todo ≤ s.cache.drops s.cache.keys
  beyond : ∀ earlier ∈ totals thread s.log,
    earlier.toNat ≤ total.toNat + s.cache.drops todo

/-- The counters and the sums are those of the history. -/
structure Counted (s : State π) : Prop where
  drops : s.cache.drops s.cache.keys = (LatestRegister.overwritten (performed s.log)).length
  summing : ∀ thread todo total, s.threads thread = .sum todo total →
    Summing s thread todo total
  past : ∀ thread, ∀ earlier ∈ totals thread s.log,
    earlier.toNat ≤ s.cache.drops s.cache.keys
  sorted : ∀ thread, (totals thread s.log).Pairwise (· ≤ ·)

/-- Nothing has been counted. -/
theorem counted_init : Counted (init π) where
  drops := rfl
  summing := by simp [init]
  past := by simp [init, totals]
  sorted := by simp [init, totals]

/-- A thread moves; the counts stay. -/
theorem Counted.moved {thread : Nat} {pc : Pc} (counted : Counted s)
    (threads : next.threads = Function.update s.threads thread pc)
    (keys : next.cache.keys = s.cache.keys)
    (kept : ∀ hashes, next.cache.drops hashes = s.cache.drops hashes)
    (overwritten : LatestRegister.overwritten (performed next.log) =
      LatestRegister.overwritten (performed s.log))
    (returned : ∀ found, totals found next.log = totals found s.log)
    (own : ∀ todo total, pc = .sum todo total → Summing s thread todo total) : Counted next where
  drops := by rw [keys, kept, overwritten, counted.drops]
  summing := by
    intro found todo total here
    have before : Summing s found todo total := by
      rw [threads] at here
      by_cases same : found = thread
      · subst same
        rw [Function.update_self] at here
        exact own todo total here
      · rw [Function.update_of_ne same] at here
        exact counted.summing found todo total here
    obtain ⟨distinct, within, beyond⟩ := before
    exact
      { distinct := distinct
        within := by rwa [keys, kept, kept]
        beyond := by rwa [returned, kept] }
  past := by
    intro found
    rw [returned, keys, kept]
    exact counted.past found
  sorted := by
    intro found
    rw [returned]
    exact counted.sorted found

/-- A new slot has counted nothing. -/
theorem Counted.allocated (counted : Counted s) {key : U64}
    (absent : key ∉ s.cache.keys → s.cache.slots key = .empty) :
    Counted { s with
      cache := s.cache.pre_allocate key, log := s.log ++ [.allocated key] } := by
  have kept : ∀ hashes, (s.cache.pre_allocate key).drops hashes = s.cache.drops hashes := by
    intro hashes
    rw [LatestSampleCache.drops, LatestSampleCache.slots_pre_allocate]
    rfl
  have whole := LatestSampleCache.drops_pre_allocate absent
  exact
    { drops := by
        rw [whole]
        simpa [performed] using counted.drops
      summing := by
        intro thread todo total here
        obtain ⟨distinct, within, beyond⟩ := counted.summing thread todo total here
        refine ⟨distinct, ?_, ?_⟩
        · rw [whole, kept]
          exact within
        · rw [kept]
          simpa [totals] using beyond
      past := by
        rw [whole]
        simpa [totals] using counted.past
      sorted := by simpa [totals] using counted.sorted }

/-- A thread is done with its call, the others are where they were. -/
theorem summing_elsewhere {thread found : Nat} {todo : List U64} {total : U64}
    (here : Function.update s.threads thread .idle found = .sum todo total) :
    found ≠ thread ∧ s.threads found = .sum todo total := by
  have other : found ≠ thread := by
    rintro rfl
    simp at here
  rw [Function.update_of_ne other] at here
  exact ⟨other, here⟩

section Overwriting

variable {thread : Nat} {key hash : U64} {data : π} {now : TimePoint} {old : HeldSample π}

/-- An overwriting put is one more. -/
theorem overwritten_put : LatestRegister.overwritten (performed (s.log ++ [Event.put thread key
      (.overwrite old { handler_hash := hash, payload := data, put_time := now })])) =
    LatestRegister.overwritten (performed s.log) ++ [old] := by
  simp [performed, LatestRegister.overwritten]

/-- A put on a full slot is counted once, without wrapping. -/
theorem Counted.overwrote (counted : Counted s) (present : key ∈ s.cache.keys)
    (held : (s.cache.slots key).held = some old)
    (bounded : (LatestRegister.overwritten (performed s.log)).length + 1 < 2 ^ 64) :
    Counted (((s.setSlot key ((s.cache.slots key).put hash data now)).goto thread .idle).record
      (.put thread key
        (.overwrite old { handler_hash := hash, payload := data, put_time := now }))) := by
  have silent : ∀ found operation,
      totals found (s.log ++ [Event.put thread key operation]) = totals found s.log := by
    simp [totals]
  have room : (s.cache.slots key).drop_count.toNat + 1 < 2 ^ 64 := by
    have within := s.cache.drop_count_le_drops key present
    have drops := counted.drops
    omega
  have grown := fun hashes : List U64 => @LatestSampleCache.drops_put_full _ s.cache key hash
    data now (by simp [held]) room hashes
  have whole := grown _ s.cache.distinct
  rw [if_pos present] at whole
  simp only [State.record, State.goto, State.setSlot]
  exact
    { drops := by
        rw [overwritten_put, LatestSampleCache.keys_setSlot, whole, counted.drops,
          List.length_append]
        rfl
      summing := by
        intro found todo total there
        obtain ⟨-, elsewhere⟩ := summing_elsewhere there
        obtain ⟨distinct, within, beyond⟩ := counted.summing found todo total elsewhere
        have moved := grown todo distinct
        refine ⟨distinct, ?_, ?_⟩
        · rw [LatestSampleCache.keys_setSlot, whole, moved]
          split <;> omega
        · rw [moved, silent]
          intro earlier member
          have before := beyond earlier member
          omega
      past := by
        intro found
        rw [silent, LatestSampleCache.keys_setSlot, whole]
        exact fun earlier member => Nat.le_succ_of_le (counted.past found earlier member)
      sorted := by
        intro found
        rw [silent]
        exact counted.sorted found }

end Overwriting

/-- A sum is reported to its own thread. -/
theorem totals_summed (thread found : Nat) (total : U64) (log : List (Event π)) :
    totals found (log ++ [.summed thread total]) =
      totals found log ++ if thread = found then [total] else [] := by
  by_cases same : thread = found <;> simp [totals, same]

/-- A result is at least the earlier results of its thread, and counts nothing twice. -/
theorem Counted.summed (counted : Counted s) {thread : Nat} {total : U64}
    (here : s.threads thread = .sum [] total) :
    Counted (({ s with readers := s.readers.erase thread }.goto thread .idle).record
      (.summed thread total)) where
  drops := by simpa [State.record, State.goto, performed] using counted.drops
  summing := by
    intro found todo sum there
    obtain ⟨other, elsewhere⟩ := summing_elsewhere there
    obtain ⟨distinct, below, above⟩ := counted.summing found todo sum elsewhere
    refine ⟨distinct, below, ?_⟩
    simpa [State.record, State.goto, totals_summed, Ne.symm other] using above
  past := by
    intro found earlier member
    have within := (counted.summing thread _ _ here).within
    simp only [State.record, State.goto, totals_summed] at member
    rcases List.mem_append.mp member with old | new
    · exact counted.past found earlier old
    · split at new
      · rw [List.mem_singleton.mp new]
        exact Nat.le_of_add_right_le within
      · simp at new
  sorted := by
    intro found
    simp only [State.record, State.goto, totals_summed]
    split
    next same =>
      subst same
      have least : ∀ earlier ∈ totals thread s.log, earlier.toNat ≤ total.toNat :=
        (counted.summing thread _ _ here).beyond
      rw [List.pairwise_append]
      refine ⟨counted.sorted thread, List.pairwise_singleton _ _, ?_⟩
      intro earlier member latest only
      rw [List.mem_singleton.mp only]
      exact BitVec.le_def.mpr (least earlier member)
    next =>
      rw [List.append_nil]
      exact counted.sorted found

/-- Every transition keeps the counts, as long as they do not wrap. -/
theorem counted_transition (sound : Sound s) (counted : Counted s) (bounded : Bounded next)
    (moved : Transition s next) : Counted next := by
  cases moved with
  | stay => exact counted
  | @allocate key free => exact counted.allocated (sound.absent key)
  | @point thread key idle present =>
    exact counted.moved rfl rfl (fun _ => rfl) rfl (fun _ => rfl) (by simp)
  | @beginDrain thread order idle listed =>
    refine counted.moved rfl rfl (fun _ => rfl) ?_ ?_ (by simp)
    · simp [State.record, State.goto, performed]
    · simp [State.record, State.goto, totals]
  | @beginSum thread order idle listed =>
    refine counted.moved rfl rfl (fun _ => rfl) rfl (fun _ => rfl) ?_
    rintro todo total ⟨⟩
    have whole := s.cache.drops_perm listed
    refine ⟨listed.nodup_iff.mpr s.cache.distinct, by simp [whole], ?_⟩
    intro earlier member
    simpa [whole] using counted.past thread earlier member
  | @put thread key hash data now here =>
    cases held : (s.cache.slots key).held with
    | none =>
      refine counted.moved rfl rfl (s.cache.drops_put_empty key hash data now held) ?_ ?_ (by simp)
      · simp [State.record, State.goto, State.setSlot, putOperation, held, performed,
          LatestRegister.overwritten]
      · simp [State.record, State.goto, State.setSlot, totals]
    | some old =>
      simp only [putOperation, held] at bounded ⊢
      apply counted.overwrote ((sound.placed thread).target key here) held
      simp only [Bounded, State.record, State.goto, State.setSlot, overwritten_put,
        List.length_append, List.length_singleton] at bounded
      exact bounded
  | @visit thread key todo here =>
    refine counted.moved rfl rfl (s.cache.drops_take key) ?_ ?_ (by simp)
    · simp only [State.record, State.goto, State.setSlot, performed_snoc,
        LatestRegister.overwritten_append]
      unfold takeOperation
      cases (s.cache.slots key).held <;> simp [performed, LatestRegister.overwritten]
    · simp [State.record, State.goto, State.setSlot, totals]
  | @endDrain thread here =>
    refine counted.moved rfl rfl (fun _ => rfl) ?_ ?_ (by simp)
    · simp [State.record, State.goto, performed]
    · simp [State.record, State.goto, totals]
  | @load thread key todo total here =>
    obtain ⟨distinct, within, beyond⟩ := counted.summing thread _ _ here
    have split : s.cache.drops (key :: todo) =
        (s.cache.slots key).drop_count.toNat + s.cache.drops todo := rfl
    have room : s.cache.drops s.cache.keys < 2 ^ 64 := counted.drops ▸ bounded
    have sum : (total + (s.cache.slots key).drop_count).toNat =
        total.toNat + (s.cache.slots key).drop_count.toNat :=
      BitVec.toNat_add_of_lt (by omega)
    refine counted.moved rfl rfl (fun _ => rfl) rfl (fun _ => rfl) ?_
    rintro rest sum' ⟨⟩
    refine ⟨(List.nodup_cons.mp distinct).2, by omega, ?_⟩
    intro earlier member
    have before := beyond earlier member
    omega
  | @endSum thread total here => exact counted.summed here

/-- The log only grows, so what is bounded now was bounded before. -/
theorem bounded_before (bounded : Bounded next) (moved : Transition s next) : Bounded s := by
  have grown : ∀ event : Event π, (LatestRegister.overwritten (performed s.log)).length ≤
      (LatestRegister.overwritten (performed (s.log ++ [event]))).length := by
    intro event
    rw [performed_snoc, LatestRegister.overwritten_append, List.length_append]
    exact Nat.le_add_right _ _
  cases moved with
  | stay => exact bounded
  | point => exact bounded
  | beginSum => exact bounded
  | load => exact bounded
  | _ => exact Nat.lt_of_le_of_lt (grown _) bounded

/-- In every run whose counts do not wrap they are those of the history. -/
theorem reachable_counted (reached : (machine π).Reachable s) (bounded : Bounded s) :
    Counted s := by
  refine Machine.invariant (fun s => Bounded s → Counted s) (fun _ => counted_init) ?_ reached
    bounded
  intro before action after met inductionHypothesis stepped bounded
  obtain ⟨mid, first, second⟩ := step_transitions stepped
  have sound := reachable_sound met
  have earlier := bounded_before bounded second
  have counted := counted_transition sound (inductionHypothesis (bounded_before earlier first))
    earlier first
  exact counted_transition (sound_transition sound first) counted bounded second

end Counting

section Promises

/-- The slot that an action is about to touch. -/
def target (s : State π) : Action π → Option U64
  | .pre_allocate key | .get_slot _ key => some key
  | .put thread _ _ _ =>
      match s.threads thread with
      | .put key => some key
      | _ => none
  | .visit thread =>
      match s.threads thread with
      | .drain (key :: _) => some key
      | _ => none
  | _ => none

/-- A step leaves the other slots alone, and an allocation its own slot too if there
is one. -/
structure Local (s : State π) (action : Action π) (next : State π) : Prop where
  others : ∀ key, target s action ≠ some key →
    next.cache.slots key = s.cache.slots key ∧ (key ∈ next.cache.keys ↔ key ∈ s.cache.keys)
  allocated : ∀ key thread, action = .pre_allocate key ∨ action = .get_slot thread key →
    next.cache.slots key = (if key ∈ s.cache.keys then s.cache.slots key else .empty) ∧
      key ∈ next.cache.keys

/-- What the cache promises in every state of every run, and of its next step. -/
structure CacheContract (s : State π) : Prop where
  conserved : ∀ order : List U64, order.Perm s.cache.keys →
    (LatestRegister.puts (performed s.log)).length =
      (LatestRegister.taken (performed s.log)).length +
        (s.cache.get_total_dropped order).toNat + s.cache.full s.cache.keys
  once : ∀ key, (LatestRegister.taken (operations key s.log) ++
    (s.cache.slots key).held.toList).Sublist (LatestRegister.puts (operations key s.log))
  lawful : Justified Lawful s.log
  monotone : ∀ thread, (totals thread s.log).Pairwise (· ≤ ·)
  step : ∀ action next, step s action = some next → Local s action next

/-- An allocation concerns its own slot only. -/
theorem allocate_local (sound : Sound s) {key : U64} (stepped : allocate s key = some next) :
    (∀ found, found ≠ key → next.cache.slots found = s.cache.slots found ∧
      (found ∈ next.cache.keys ↔ found ∈ s.cache.keys)) ∧
        next.cache.slots key = (if key ∈ s.cache.keys then s.cache.slots key else .empty) ∧
          key ∈ next.cache.keys := by
  simp only [allocate] at stepped
  split at stepped
  next free =>
    obtain rfl := Option.some.inj stepped
    refine ⟨?_, ?_, LatestSampleCache.mem_pre_allocate.mpr (.inr rfl)⟩
    · intro found other
      refine ⟨congrFun (s.cache.slots_pre_allocate key) found, ?_⟩
      simp [State.record, LatestSampleCache.mem_pre_allocate, other]
    · simp only [State.record, LatestSampleCache.slots_pre_allocate]
      split
      next => rfl
      next absent => exact sound.absent key absent
  next => simp at stepped

/-- A step that keeps the cache. -/
theorem Local.still {action : Action π} (same : next.cache = s.cache)
    (calls : ∀ key thread, action ≠ .pre_allocate key ∧ action ≠ .get_slot thread key) :
    Local s action next where
  others := by
    intro key _
    rw [same]
    exact ⟨rfl, Iff.rfl⟩
  allocated := by
    rintro key thread (rfl | rfl)
    · exact absurd rfl (calls key thread).1
    · exact absurd rfl (calls key thread).2

/-- A step that writes one slot. -/
theorem Local.write {action : Action π} {key : U64} {slot : LatestSampleSlot π}
    (written : next.cache = s.cache.setSlot key slot) (aimed : target s action = some key)
    (calls : ∀ key thread, action ≠ .pre_allocate key ∧ action ≠ .get_slot thread key) :
    Local s action next where
  others := by
    intro found elsewhere
    have other : found ≠ key := by
      rintro rfl
      exact elsewhere aimed
    rw [written]
    exact ⟨LatestSampleCache.slots_setSlot_other _ _ other, Iff.rfl⟩
  allocated := by
    rintro key thread (rfl | rfl)
    · exact absurd rfl (calls key thread).1
    · exact absurd rfl (calls key thread).2

/-- Every step concerns the slot it names only. -/
theorem step_local (sound : Sound s) {action : Action π} (stepped : step s action = some next) :
    Local s action next := by
  cases action with
  | pre_allocate key =>
    obtain ⟨others, own⟩ := allocate_local sound stepped
    refine ⟨?_, ?_⟩
    · intro found elsewhere
      exact others found (fun same => elsewhere (same ▸ rfl))
    · rintro found thread (same | same)
      · obtain rfl := Action.pre_allocate.inj same
        exact own
      · exact nomatch same
  | get_slot thread key =>
    simp only [step] at stepped
    split at stepped
    next idle =>
      obtain ⟨mid, allocated, rfl⟩ := Option.map_eq_some_iff.mp stepped
      obtain ⟨others, own⟩ := allocate_local sound allocated
      refine ⟨?_, ?_⟩
      · intro found elsewhere
        exact others found (fun same => elsewhere (same ▸ rfl))
      · rintro found thread (same | same)
        · exact nomatch same
        · obtain ⟨-, rfl⟩ := Action.get_slot.inj same
          exact own
    next => simp at stepped
  | get_slot_fast thread key =>
    simp only [step] at stepped
    split at stepped
    next idle =>
      split at stepped
      · obtain rfl := Option.some.inj stepped
        exact .still rfl (by simp)
      · obtain rfl := Option.some.inj stepped
        exact .still rfl (by simp)
    next => simp at stepped
  | drain thread order =>
    simp only [step] at stepped
    split at stepped
    next idle =>
      split at stepped
      next listed =>
        obtain rfl := Option.some.inj stepped
        exact .still rfl (by simp)
      next => simp at stepped
    next => simp at stepped
  | get_total_dropped thread order =>
    simp only [step] at stepped
    split at stepped
    next idle =>
      split at stepped
      next listed =>
        obtain rfl := Option.some.inj stepped
        exact .still rfl (by simp)
      next => simp at stepped
    next => simp at stepped
  | put thread hash data now =>
    simp only [step] at stepped
    split at stepped
    next key here =>
      obtain rfl := Option.some.inj stepped
      exact .write rfl (by simp [target, here]) (by simp)
    next => simp at stepped
  | visit thread =>
    simp only [step, visit] at stepped
    split at stepped
    next here =>
      obtain rfl := Option.some.inj stepped
      exact .still rfl (by simp)
    next key todo here =>
      obtain rfl := Option.some.inj stepped
      exact .write rfl (by simp [target, here]) (by simp)
    next total here =>
      obtain rfl := Option.some.inj stepped
      exact .still rfl (by simp)
    next key todo total here =>
      obtain rfl := Option.some.inj stepped
      exact .still rfl (by simp)
    next => simp at stepped
    next => simp at stepped

/-- For every interleaving of any number of threads, as long as no count of overwrites
reaches 2^64. -/
theorem cache_contract (reached : (machine π).Reachable s) (bounded : Bounded s) :
    CacheContract s := by
  have sound := reachable_sound reached
  have counted := reachable_counted reached bounded
  refine ⟨?_, fun key => (sound.legal key).ordered, sound.lawful, counted.sorted,
    fun _ _ stepped => step_local sound stepped⟩
  intro order listed
  have same := s.cache.drops_perm listed
  have fits : s.cache.drops order < 2 ^ 64 := by
    rw [same, counted.drops]
    exact bounded
  rw [sound.conserved, LatestSampleCache.toNat_get_total_dropped fits, same, counted.drops]

/-- Two slots; a drain has visited the first when a put overwrites the second, between
two sums of another thread. -/
def crowdedRun : List (Action Bytes) :=
  [.pre_allocate 1, .get_slot 0 2, .put 0 2 [5] 0, .get_slot_fast 0 1, .put 0 1 [6] 1,
    .get_total_dropped 3 [2, 1], .visit 3, .visit 3, .visit 3, .drain 1 [1, 2], .visit 1,
    .get_slot_fast 0 2, .put 0 2 [7] 2, .get_total_dropped 3 [1, 2], .visit 3, .visit 1, .visit 3,
    .visit 1, .visit 3, .pre_allocate 1]

/-- The drain takes both frames, and the sum is read before and after the overwrite. -/
theorem crowdedRun_contract :
    ∃ s, (machine Bytes).exec (init Bytes) crowdedRun = some s ∧
      totals 3 s.log = [0, 1] ∧ (LatestRegister.taken (performed s.log)).length = 2 ∧
        CacheContract s := by
  have outcome : ((machine Bytes).exec (init Bytes) crowdedRun).map (fun s =>
      (totals 3 s.log, (LatestRegister.taken (performed s.log)).length,
        (LatestRegister.overwritten (performed s.log)).length)) = some ([0, 1], 2, 1) := by
    decide +kernel
  obtain ⟨s, ran, seen⟩ := Option.map_eq_some_iff.mp outcome
  simp only [Prod.mk.injEq] at seen
  obtain ⟨sums, handed, overwrites⟩ := seen
  have bounded : Bounded s := by
    rw [Bounded, overwrites]
    decide
  exact ⟨s, ran, sums, handed, cache_contract (Machine.reachable_of_exec ran) bounded⟩

end Promises

end FlowKernel.SharedCache
