import FlowKernel.SlotAccess

/-!
# The slot under its lock is a latest-only register

While no thread is between its test-and-set and its clear, the fields hold what the
atomic slot of the cache holds. A thread inside leads the fields through
intermediate values that depend on how far it has come; the atomic slot does not
move until the lock is cleared.
-/

namespace FlowKernel.SlotAccess

open Foundation

/-- Between the test-and-set and the clear. -/
def Pc.inside : Pc → Bool
  | .idle | .putLock _ _ | .takeLock => false
  | _ => true

/-- The arguments of a put that has the lock, and its readings of the clock. -/
def Pc.opening : Pc → Option (U64 × Bytes × List TimePoint)
  | .putTest hash data | .putCount hash data | .putPayload hash data | .putHash hash data
  | .putTime hash data => some (hash, data, [])
  | .putFlag sample | .putClear sample =>
      some (sample.handler_hash, sample.payload, [sample.put_time])
  | _ => none

/-- What the cells hold, as a sample. -/
def Cells.sample (cells : Cells) : HeldSample Bytes where
  handler_hash := cells.handler_hash
  payload := cells.payload
  put_time := cells.put_time

/-- The program counter of the thread that has the lock. -/
def State.current (s : State) : Pc :=
  match holder s.log with
  | some thread => s.threads thread
  | none => .idle

/-- The count of overwrites once a put into this slot has been counted. -/
def counted (slot : LatestSampleSlot Bytes) : U64 :=
  if slot.held.isSome then slot.drop_count + 1 else slot.drop_count

/-- The fields are those of the slot. -/
structure Rest (cells : Cells) (slot : LatestSampleSlot Bytes) : Prop where
  flag : cells.has_data = slot.held.isSome
  count : cells.drop_count = slot.drop_count
  fields : ∀ sample, slot.held = some sample → cells.sample = sample

/-- The fields at each point of a critical section. -/
def Content (cells : Cells) (slot : LatestSampleSlot Bytes) : Pc → Prop
  | .putCount _ _ | .takeFlag => Rest cells slot ∧ slot.held.isSome = true
  | .missClear => Rest cells slot ∧ slot.held = none
  | .putPayload _ _ => cells.drop_count = counted slot
  | .putHash _ data => cells.drop_count = counted slot ∧ cells.payload = data
  | .putTime hash data =>
      cells.drop_count = counted slot ∧ cells.payload = data ∧ cells.handler_hash = hash
  | .putFlag sample => cells.drop_count = counted slot ∧ cells.sample = sample
  | .putClear sample =>
      cells.drop_count = counted slot ∧ cells.sample = sample ∧ cells.has_data = true
  | .takeHash => (cells.has_data = false ∧ cells.drop_count = slot.drop_count) ∧
      slot.held = some cells.sample
  | .takePayload hash => (cells.has_data = false ∧ cells.drop_count = slot.drop_count) ∧
      slot.held = some { cells.sample with handler_hash := hash }
  | .takeTime hash data => (cells.has_data = false ∧ cells.drop_count = slot.drop_count) ∧
      slot.held = some { handler_hash := hash, payload := data, put_time := cells.put_time }
  | .takeClear sample => (cells.has_data = false ∧ cells.drop_count = slot.drop_count) ∧
      slot.held = some sample
  | _ => Rest cells slot

/-- What the log says while no put has the lock. -/
structure Settled (log : List Event) (slot : LatestSampleSlot Bytes) : Prop where
  renewed : fresh log = slot.held.isSome
  last : ∀ sample, slot.held = some sample →
    LastPut log sample.handler_hash sample.payload [sample.put_time]
  times : stamps log = (completed log).map HeldSample.put_time

/-- What it says while one has. -/
structure Opened (log : List Event) (hash : U64) (data : Bytes) (readings : List TimePoint) :
    Prop where
  renewed : fresh log = true
  last : LastPut log hash data readings
  times : stamps log = (completed log).map HeldSample.put_time ++ readings

/-- What the history says of the slot, where its holder is. -/
def Chronicle (log : List Event) (slot : LatestSampleSlot Bytes) (pc : Pc) : Prop :=
  match pc.opening with
  | some (hash, data, readings) => Opened log hash data readings
  | none => Settled log slot

/-- The events stand in lock order, and takes return what the last put wrote. -/
def Lawful (before : List Event) : Event → Prop
  | .lockedPut _ _ _ | .lockedTake _ => holder before = none
  | .stamped thread _ | .clearedPut thread _ => holder before = some thread
  | .clearedTake thread result => holder before = some thread ∧ fresh before = result.isSome ∧
      ∀ sample, result = some sample →
        LastPut before sample.handler_hash sample.payload [sample.put_time]

/-- The cells, the lock and the history agree with a slot. -/
structure Guarded (s : State) (slot : LatestSampleSlot Bytes)
    (operations : List (LatestRegister.Event (HeldSample Bytes))) : Prop where
  inside : ∀ thread, (s.threads thread).inside = true ↔ holder s.log = some thread
  lock : s.lock_ = (holder s.log).isSome
  content : Content s.toCells slot s.current
  chronicle : Chronicle s.log slot s.current
  legal : LatestRegister.Legal operations slot.held
  puts : LatestRegister.puts operations = completed s.log
  takes : LatestRegister.taken operations = taken s.log
  drops : slot.drop_count = BitVec.ofNat 64 (LatestRegister.overwritten operations).length
  lawful : Justified Lawful s.log

variable {s next : State} {slot : LatestSampleSlot Bytes}
  {operations : List (LatestRegister.Event (HeldSample Bytes))} {thread : Nat} {pc : Pc}

/-- The fresh cells are an empty slot. -/
theorem guarded_init : Guarded init .empty [] where
  inside := by simp [init, Pc.inside, holder]
  lock := rfl
  content := ⟨rfl, rfl, by simp [LatestSampleSlot.empty]⟩
  chronicle := ⟨rfl, by simp [LatestSampleSlot.empty], rfl⟩
  legal := .nil
  puts := rfl
  takes := rfl
  drops := rfl
  lawful := .nil

section Moving

/-- A thread inside is the one that holds the lock. -/
theorem Guarded.holds (guarded : Guarded s slot operations)
    (inside : (s.threads thread).inside = true) : s.current = s.threads thread := by
  rw [State.current, (guarded.inside thread).mp inside]

/-- The holder moves on. -/
theorem Guarded.move (guarded : Guarded s slot operations)
    (inside : (s.threads thread).inside = true) (stays : pc.inside = true)
    (threads : next.threads = Function.update s.threads thread pc) (lock : next.lock_ = s.lock_)
    (log : next.log = s.log) (opening : pc.opening = (s.threads thread).opening)
    (content : Content next.toCells slot pc) : Guarded next slot operations := by
  have held := (guarded.inside thread).mp inside
  have current : next.current = pc := by
    rw [State.current, log, held, threads]
    exact Function.update_self _ _ _
  exact { guarded with
    inside := by
      intro found
      rw [threads, log]
      by_cases same : found = thread
      · subst same
        simp [stays, held]
      · rw [Function.update_of_ne same]
        exact guarded.inside found
    lock := by rw [lock, log, guarded.lock]
    content := current.symm ▸ content
    chronicle := by
      have chronicle := guarded.chronicle
      rw [guarded.holds inside] at chronicle
      rw [current, log]
      unfold Chronicle at chronicle ⊢
      rw [opening]
      exact chronicle
    puts := log.symm ▸ guarded.puts
    takes := log.symm ▸ guarded.takes
    lawful := log.symm ▸ guarded.lawful }

/-- A thread outside moves on, or stays where it is. -/
theorem Guarded.wander (guarded : Guarded s slot operations)
    (outside : (s.threads thread).inside = false) (stays : pc.inside = false) :
    Guarded (s.goto thread pc) slot operations := by
  have elsewhere : holder s.log ≠ some thread := by
    intro held
    rw [(guarded.inside thread).mpr held] at outside
    exact Bool.noConfusion outside
  have current : (s.goto thread pc).current = s.current := by
    simp only [State.current, State.goto]
    cases held : holder s.log with
    | none => rfl
    | some found =>
      refine Function.update_of_ne ?_ _ _
      rintro rfl
      exact elsewhere held
  exact { guarded with
    inside := by
      intro found
      by_cases same : found = thread
      · subst same
        simp [State.goto, stays, elsewhere]
      · simp only [State.goto, Function.update_of_ne same]
        exact guarded.inside found
    content := by
      rw [current]
      exact guarded.content
    chronicle := current.symm ▸ guarded.chronicle }

/-- The holder of the lock changes with one event: nobody had it, or nobody has it
afterwards. -/
theorem Guarded.pass {event : Event} {after : LatestSampleSlot Bytes}
    {performed : List (LatestRegister.Event (HeldSample Bytes))}
    (guarded : Guarded s slot operations)
    (only : ∀ found, found ≠ thread → holder s.log ≠ some found)
    (threads : next.threads = Function.update s.threads thread pc)
    (log : next.log = s.log ++ [event])
    (holds : holder (s.log ++ [event]) = if pc.inside then some thread else none)
    (lock : next.lock_ = pc.inside) (content : Content next.toCells after pc)
    (idle : pc.inside = false → pc = .idle)
    (chronicle : Chronicle (s.log ++ [event]) after pc)
    (legal : LatestRegister.Legal performed after.held)
    (puts : LatestRegister.puts performed = completed (s.log ++ [event]))
    (takes : LatestRegister.taken performed = taken (s.log ++ [event]))
    (drops : after.drop_count = BitVec.ofNat 64 (LatestRegister.overwritten performed).length)
    (lawful : Lawful s.log event) : Guarded next after performed := by
  have current : next.current = pc := by
    rw [State.current, log, holds, threads]
    cases inside : pc.inside with
    | true => exact Function.update_self _ _ _
    | false => exact (idle inside).symm
  exact
    { inside := by
        intro found
        rw [threads, log, holds]
        by_cases same : found = thread
        · subst same
          cases inside : pc.inside <;> simp [inside]
        · have outside : (s.threads found).inside = false := by
            rw [← Bool.not_eq_true, guarded.inside]
            exact only found same
          rw [Function.update_of_ne same, outside]
          cases pc.inside <;> simp [Ne.symm same]
      lock := by
        rw [lock, log, holds]
        cases pc.inside <;> rfl
      content := current.symm ▸ content
      chronicle := by
        rw [current, log]
        exact chronicle
      legal := legal
      puts := by rw [puts, log]
      takes := by rw [takes, log]
      drops := drops
      lawful := by
        rw [log]
        exact guarded.lawful.snoc lawful }

end Moving

section Accessing

/-- With the lock free the cells are a slot. -/
theorem Guarded.settled (guarded : Guarded s slot operations) (free : holder s.log = none) :
    Rest s.toCells slot ∧ Settled s.log slot := by
  have content := guarded.content
  have chronicle := guarded.chronicle
  rw [State.current, free] at content chronicle
  exact ⟨content, chronicle⟩

/-- The test-and-set succeeds. -/
theorem Guarded.acquire (guarded : Guarded s slot operations) (free : s.lock_ = false) :
    holder s.log = none := by
  rw [guarded.lock] at free
  simpa using free

/-- Events that concern no put leave it settled. -/
theorem Settled.extend {log : List Event} {event : Event} (settled : Settled log slot)
    (quiet : event.opensPut = false) (kept : fresh (log ++ [event]) = fresh log)
    (untimed : stamps [event] = []) (uncompleted : completed [event] = []) :
    Settled (log ++ [event]) slot where
  renewed := kept.trans settled.renewed
  last := by
    intro sample held
    have last := (settled.last sample held).snoc quiet
    rwa [untimed, List.append_nil] at last
  times := by
    rw [stamps_snoc, completed_snoc, untimed, uncompleted, List.append_nil, List.append_nil]
    exact settled.times

/-- A put takes the lock. -/
theorem Guarded.lock_put (guarded : Guarded s slot operations) (hash : U64) (data : Bytes)
    (free : s.lock_ = false) :
    Guarded (({ s with lock_ := true }.goto thread (.putTest hash data)).record
      (.lockedPut thread hash data)) slot operations := by
  have unheld := guarded.acquire free
  obtain ⟨rest, settled⟩ := guarded.settled unheld
  refine @Guarded.pass _ _ _ _ thread (.putTest hash data) _ _ _ guarded ?_ rfl rfl ?_ rfl rest
    ?_ ⟨?_, lastPut_open, ?_⟩ guarded.legal ?_ ?_ guarded.drops unheld
  · simp [unheld]
  · simp [holder, Pc.inside]
  · simp [Pc.inside]
  · simp [fresh]
  · simpa [stamps, completed] using settled.times
  · simpa [completed] using guarded.puts
  · simpa [taken] using guarded.takes

/-- A take takes the lock. -/
theorem Guarded.lock_take (guarded : Guarded s slot operations) (free : s.lock_ = false) :
    Guarded (({ s with lock_ := true }.goto thread .takeTest).record (.lockedTake thread)) slot
      operations := by
  have unheld := guarded.acquire free
  obtain ⟨rest, settled⟩ := guarded.settled unheld
  refine @Guarded.pass _ _ _ _ thread .takeTest _ _ _ guarded ?_ rfl rfl ?_ rfl rest
    ?_ (settled.extend rfl ?_ rfl rfl) guarded.legal ?_ ?_ guarded.drops unheld
  · simp [unheld]
  · simp [holder, Pc.inside]
  · simp [Pc.inside]
  · simp [fresh]
  · simpa [completed] using guarded.puts
  · simpa [taken] using guarded.takes

/-- A put stores its time. -/
theorem Guarded.stamp (guarded : Guarded s slot operations) {hash : U64} {data : Bytes}
    (here : s.threads thread = .putTime hash data) (now : TimePoint) :
    Guarded (({ s with put_time := now }.goto thread
      (.putFlag { handler_hash := hash, payload := data, put_time := now })).record
        (.stamped thread now)) slot operations := by
  have inside : (s.threads thread).inside = true := by rw [here]; rfl
  have held := (guarded.inside thread).mp inside
  have content := guarded.content
  have chronicle := guarded.chronicle
  rw [guarded.holds inside, here] at content chronicle
  obtain ⟨count, payload, handler⟩ := content
  obtain ⟨renewed, last, times⟩ := chronicle
  refine @Guarded.pass _ _ _ _ thread (.putFlag _) _ _ _ guarded ?_ rfl rfl ?_ ?_ ⟨count, ?_⟩
    ?_ ⟨?_, last.snoc rfl, ?_⟩ guarded.legal ?_ ?_ guarded.drops held
  · intro found other same
    exact other (Option.some.inj (same.symm.trans held))
  · simpa [holder, Pc.inside] using held
  · rw [State.record, State.goto, guarded.lock, held]
    rfl
  · simp only [Cells.sample, State.record, State.goto, payload, handler]
  · simp [Pc.inside]
  · simpa [fresh] using renewed
  · simpa [stamps, completed] using times
  · simpa [completed] using guarded.puts
  · simpa [taken] using guarded.takes

/-- Clearing the lock, with what the operation has made of the slot. -/
theorem Guarded.clear {event : Event} {after : LatestSampleSlot Bytes}
    {operation : LatestRegister.Event (HeldSample Bytes)} (guarded : Guarded s slot operations)
    (inside : (s.threads thread).inside = true) (released : holder (s.log ++ [event]) = none)
    (rest : Rest s.toCells after) (settled : Settled (s.log ++ [event]) after)
    (legal : LatestRegister.Step slot.held operation after.held)
    (puts : LatestRegister.puts [operation] = completed [event])
    (takes : LatestRegister.taken [operation] = taken [event])
    (drops : after.drop_count = slot.drop_count +
      BitVec.ofNat 64 (LatestRegister.overwritten [operation]).length)
    (lawful : Lawful s.log event) :
    Guarded (({ s with lock_ := false }.goto thread .idle).record event) after
      (operations ++ [operation]) := by
  have held := (guarded.inside thread).mp inside
  refine @Guarded.pass _ _ _ _ thread .idle _ _ _ guarded ?_ rfl rfl released rfl rest
    (fun _ => rfl) settled (guarded.legal.snoc legal) ?_ ?_ ?_ lawful
  · intro found other same
    exact other (Option.some.inj (same.symm.trans held))
  · rw [LatestRegister.puts_append, guarded.puts, puts, completed_snoc]
  · rw [LatestRegister.taken_append, guarded.takes, takes, taken_snoc]
  · rw [drops, guarded.drops, LatestRegister.overwritten_append, List.length_append,
      BitVec.ofNat_add]

/-- A put takes effect. -/
theorem Guarded.clear_put (guarded : Guarded s slot operations) {sample : HeldSample Bytes}
    (here : s.threads thread = .putClear sample) :
    ∃ performed, Guarded (({ s with lock_ := false }.goto thread .idle).record
      (.clearedPut thread sample))
        (slot.put sample.handler_hash sample.payload sample.put_time) performed := by
  have inside : (s.threads thread).inside = true := by rw [here]; rfl
  have held := (guarded.inside thread).mp inside
  have content := guarded.content
  have chronicle := guarded.chronicle
  rw [guarded.holds inside, here] at content chronicle
  obtain ⟨count, fields, flag⟩ := content
  obtain ⟨renewed, last, times⟩ := chronicle
  have rest : Rest s.toCells (slot.put sample.handler_hash sample.payload sample.put_time) :=
    ⟨flag, count, fun found put => fields.trans (Option.some.inj put)⟩
  have settled : Settled (s.log ++ [Event.clearedPut thread sample])
      (slot.put sample.handler_hash sample.payload sample.put_time) := by
    refine ⟨by simpa [fresh, LatestSampleSlot.put] using renewed, ?_, ?_⟩
    · intro found put
      obtain rfl : sample = found := Option.some.inj put
      exact last.snoc rfl
    · simpa [stamps, completed] using times
  cases present : slot.held with
  | none =>
    refine ⟨_, @Guarded.clear _ _ _ thread _ _ (.put sample) guarded inside ?_ rest settled ?_ rfl
      rfl ?_ held⟩
    · simp [holder]
    · rw [present]
      exact .put
    · simp [LatestSampleSlot.put, present, LatestRegister.overwritten]
  | some old =>
    refine ⟨_, @Guarded.clear _ _ _ thread _ _ (.overwrite old sample) guarded inside ?_ rest
      settled ?_ rfl rfl ?_ held⟩
    · simp [holder]
    · rw [present]
      exact .overwrite
    · simp [LatestSampleSlot.put, present, LatestRegister.overwritten]

/-- A take finds nothing. -/
theorem Guarded.clear_miss (guarded : Guarded s slot operations)
    (here : s.threads thread = .missClear) :
    Guarded (({ s with lock_ := false }.goto thread .idle).record (.clearedTake thread none)) slot
      (operations ++ [.miss]) := by
  have inside : (s.threads thread).inside = true := by rw [here]; rfl
  have held := (guarded.inside thread).mp inside
  have content := guarded.content
  have settled := guarded.chronicle
  rw [guarded.holds inside, here] at content settled
  obtain ⟨rest, empty⟩ := content
  refine guarded.clear inside ?_ rest (Settled.extend settled rfl ?_ rfl rfl) ?_ rfl rfl ?_
    ⟨held, ?_, by simp⟩
  · simp [holder]
  · simp [fresh]
  · rw [empty]
    exact .miss
  · simp [LatestRegister.overwritten]
  · rw [Settled.renewed settled, empty, Option.isSome_none]

/-- A take takes effect. -/
theorem Guarded.clear_take (guarded : Guarded s slot operations) {sample : HeldSample Bytes}
    (here : s.threads thread = .takeClear sample) :
    Guarded (({ s with lock_ := false }.goto thread .idle).record
      (.clearedTake thread (some sample))) slot.take.2 (operations ++ [.take sample]) := by
  have inside : (s.threads thread).inside = true := by rw [here]; rfl
  have held := (guarded.inside thread).mp inside
  have content := guarded.content
  have settled : Settled s.log slot := by
    have chronicle := guarded.chronicle
    rwa [guarded.holds inside, here] at chronicle
  rw [guarded.holds inside, here] at content
  obtain ⟨⟨flag, count⟩, present⟩ := content
  have emptied : Settled (s.log ++ [Event.clearedTake thread (some sample)]) slot.take.2 := by
    refine ⟨by simp [fresh, LatestSampleSlot.take], by simp [LatestSampleSlot.take], ?_⟩
    simpa [stamps, completed] using settled.times
  refine guarded.clear inside ?_ ⟨flag, count, by simp [LatestSampleSlot.take]⟩ emptied ?_ rfl rfl
    ?_ ⟨held, ?_, ?_⟩
  · simp [holder]
  · rw [present]
    exact .take
  · simp [LatestSampleSlot.take, LatestRegister.overwritten]
  · rw [settled.renewed, present, Option.isSome_some]
  · intro found same
    obtain rfl : sample = found := Option.some.inj same
    exact settled.last sample present

/-- The holder's next access leads from one point of its critical section to the
next. -/
theorem Guarded.advance (guarded : Guarded s slot operations) {before : Pc}
    (here : s.threads thread = before)
    (threads : next.threads = Function.update s.threads thread pc) (lock : next.lock_ = s.lock_)
    (log : next.log = s.log) (inside : before.inside = true) (stays : pc.inside = true)
    (opening : pc.opening = before.opening)
    (content : Content s.toCells slot before → Content next.toCells slot pc) :
    ∃ after performed, Guarded next after performed := by
  subst here
  refine ⟨slot, operations, guarded.move inside stays threads lock log opening (content ?_)⟩
  rw [← guarded.holds inside]
  exact guarded.content

/-- Every access keeps the slot behind the lock. -/
theorem access_guarded (guarded : Guarded s slot operations) {now : TimePoint}
    (stepped : access s thread now = some next) :
    ∃ after performed, Guarded next after performed := by
  cases here : s.threads thread with
  | idle => simp [access, here] at stepped
  | putLock hash data =>
    simp only [access, here] at stepped
    split at stepped
    · obtain rfl := Option.some.inj stepped
      exact ⟨slot, operations, guarded⟩
    next free =>
      obtain rfl := Option.some.inj stepped
      exact ⟨slot, operations, guarded.lock_put hash data (by simpa using free)⟩
  | putTest hash data =>
    simp only [access, here] at stepped
    split at stepped
    next full =>
      obtain rfl := Option.some.inj stepped
      exact guarded.advance here rfl rfl rfl rfl rfl rfl fun rest => ⟨rest, rest.flag ▸ full⟩
    next empty =>
      obtain rfl := Option.some.inj stepped
      refine guarded.advance here rfl rfl rfl rfl rfl rfl ?_
      intro rest
      have absent : ¬ slot.held.isSome = true := Rest.flag rest ▸ empty
      simpa [Content, counted, absent, State.goto] using rest.count
  | putCount hash data =>
    simp only [access, here] at stepped
    obtain rfl := Option.some.inj stepped
    refine guarded.advance here rfl rfl rfl rfl rfl rfl ?_
    rintro ⟨rest, present⟩
    simp [Content, counted, present, rest.count, State.goto]
  | putPayload hash data =>
    simp only [access, here] at stepped
    obtain rfl := Option.some.inj stepped
    exact guarded.advance here rfl rfl rfl rfl rfl rfl fun count => ⟨count, rfl⟩
  | putHash hash data =>
    simp only [access, here] at stepped
    obtain rfl := Option.some.inj stepped
    exact guarded.advance here rfl rfl rfl rfl rfl rfl
      fun ⟨count, payload⟩ => ⟨count, payload, rfl⟩
  | putTime hash data =>
    simp only [access, here] at stepped
    obtain rfl := Option.some.inj stepped
    exact ⟨slot, operations, guarded.stamp here now⟩
  | putFlag sample =>
    simp only [access, here] at stepped
    obtain rfl := Option.some.inj stepped
    exact guarded.advance here rfl rfl rfl rfl rfl rfl
      fun ⟨count, fields⟩ => ⟨count, fields, rfl⟩
  | putClear sample =>
    simp only [access, here] at stepped
    obtain rfl := Option.some.inj stepped
    exact ⟨_, guarded.clear_put here⟩
  | takeLock =>
    simp only [access, here] at stepped
    split at stepped
    · obtain rfl := Option.some.inj stepped
      exact ⟨slot, operations, guarded⟩
    next free =>
      obtain rfl := Option.some.inj stepped
      exact ⟨slot, operations, guarded.lock_take (by simpa using free)⟩
  | takeTest =>
    simp only [access, here] at stepped
    split at stepped
    next full =>
      obtain rfl := Option.some.inj stepped
      exact guarded.advance here rfl rfl rfl rfl rfl rfl fun rest => ⟨rest, rest.flag ▸ full⟩
    next empty =>
      obtain rfl := Option.some.inj stepped
      refine guarded.advance here rfl rfl rfl rfl rfl rfl ?_
      intro rest
      have absent : ¬ slot.held.isSome = true := Rest.flag rest ▸ empty
      exact ⟨rest, by simpa using absent⟩
  | missClear =>
    simp only [access, here] at stepped
    obtain rfl := Option.some.inj stepped
    exact ⟨_, _, guarded.clear_miss here⟩
  | takeFlag =>
    simp only [access, here] at stepped
    obtain rfl := Option.some.inj stepped
    refine guarded.advance here rfl rfl rfl rfl rfl rfl ?_
    rintro ⟨rest, present⟩
    obtain ⟨sample, held⟩ := Option.isSome_iff_exists.mp present
    refine ⟨⟨rfl, rest.count⟩, ?_⟩
    rw [held]
    exact congrArg some (rest.fields sample held).symm
  | takeHash =>
    simp only [access, here] at stepped
    obtain rfl := Option.some.inj stepped
    exact guarded.advance here rfl rfl rfl rfl rfl rfl id
  | takePayload hash =>
    simp only [access, here] at stepped
    obtain rfl := Option.some.inj stepped
    exact guarded.advance here rfl rfl rfl rfl rfl rfl id
  | takeTime hash data =>
    simp only [access, here] at stepped
    obtain rfl := Option.some.inj stepped
    exact guarded.advance here rfl rfl rfl rfl rfl rfl id
  | takeClear sample =>
    simp only [access, here] at stepped
    obtain rfl := Option.some.inj stepped
    exact ⟨_, _, guarded.clear_take here⟩

/-- Every access keeps the cells guarded, by an operation or none. -/
theorem step_guarded (guarded : Guarded s slot operations) {action : Action}
    (stepped : step s action = some next) : ∃ after performed, Guarded next after performed := by
  cases action with
  | put thread hash data =>
    simp only [step] at stepped
    split at stepped
    next idle =>
      obtain rfl := Option.some.inj stepped
      exact ⟨slot, operations, guarded.wander (by rw [idle]; rfl) rfl⟩
    next => simp at stepped
  | take thread =>
    simp only [step] at stepped
    split at stepped
    next idle =>
      obtain rfl := Option.some.inj stepped
      exact ⟨slot, operations, guarded.wander (by rw [idle]; rfl) rfl⟩
    next => simp at stepped
  | access thread now => exact access_guarded guarded stepped

/-- In every run the cells are those of some slot. -/
theorem reachable_guarded (reached : machine.Reachable s) :
    ∃ slot operations, Guarded s slot operations :=
  Machine.invariant (fun s => ∃ slot operations, Guarded s slot operations)
    ⟨.empty, [], guarded_init⟩
    (fun _ _ _ _ ⟨_, _, guarded⟩ stepped => step_guarded guarded stepped) reached

end Accessing

section Promises

/-- What a slot promises to any number of threads. -/
structure RegisterContract (s : State) : Prop where
  lawful : Justified Lawful s.log
  dropped : s.lock_ = false →
    s.drop_count = BitVec.ofNat 64 (completed s.log).length -
      BitVec.ofNat 64 (taken s.log).length - if s.has_data then 1 else 0
  ordered : (stamps s.log).Pairwise (· ≤ ·) →
    ((taken s.log).map HeldSample.put_time).Pairwise (· ≤ ·)

/-- The times of the samples come in the order of the clock. -/
theorem Guarded.times (guarded : Guarded s slot operations) :
    ((completed s.log).map HeldSample.put_time).Sublist (stamps s.log) := by
  have chronicle := guarded.chronicle
  unfold Chronicle at chronicle
  split at chronicle
  · rw [chronicle.times]
    exact List.sublist_append_left _ _
  · rw [chronicle.times]

/-- For every number of threads and every interleaving of their accesses. -/
theorem register_contract (reached : machine.Reachable s) : RegisterContract s := by
  obtain ⟨slot, operations, guarded⟩ := reachable_guarded reached
  have ordered := guarded.legal.ordered
  have accounted := guarded.legal.accounted.length_eq
  rw [guarded.puts, guarded.takes] at ordered accounted
  refine ⟨guarded.lawful, ?_, ?_⟩
  · intro free
    obtain ⟨rest, _⟩ := guarded.settled (guarded.acquire free)
    rw [rest.count, rest.flag, guarded.drops, accounted, List.length_append, List.length_append,
      BitVec.ofNat_add, BitVec.ofNat_add]
    cases slot.held with
    | none =>
      simp only [Option.toList_none, List.length_nil, Option.isSome_none, Bool.false_eq_true, if_false]
      bv_omega
    | some sample =>
      simp only [Option.toList_some, List.length_singleton, Option.isSome_some, if_true]
      bv_omega
  · intro sorted
    have returned := ((List.sublist_append_left _ _).trans ordered).map HeldSample.put_time
    exact sorted.sublist (returned.trans guarded.times)

/-- One thread puts twice while another waits for the lock to put and to take. -/
def contendedSlot : List Action :=
  [.put 0 7 [1, 2], .put 1 8 [3]] ++ List.replicate 4 (.access 0 5) ++ [.access 1 6] ++
    List.replicate 3 (.access 0 6) ++ List.replicate 8 (.access 1 7) ++ [.take 0] ++
      List.replicate 7 (.access 0 9)

/-- Two threads at one slot. -/
theorem contendedSlot_contract :
    ∃ s, machine.exec init contendedSlot = some s ∧ s.lock_ = false ∧ s.drop_count = 1 ∧
      taken s.log = [{ handler_hash := 8, payload := [3], put_time := 7 }] ∧
        RegisterContract s := by
  have outcome : (machine.exec init contendedSlot).map (fun s =>
      (s.lock_, s.drop_count, taken s.log)) =
        some (false, 1, [{ handler_hash := 8, payload := [3], put_time := 7 }]) := by
    decide +kernel
  obtain ⟨s, ran, seen⟩ := Option.map_eq_some_iff.mp outcome
  simp only [Prod.mk.injEq] at seen
  obtain ⟨free, dropped, returned⟩ := seen
  exact ⟨s, ran, free, dropped, returned, register_contract (Machine.reachable_of_exec ran)⟩

end Promises

end FlowKernel.SlotAccess
