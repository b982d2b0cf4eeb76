import FlowKernel.Sources

/-!
# Every frame is delivered, pending, or accounted for

The log of a run, read as operations of the queue, is a legal history of a
bounded buffer; read as operations of one slot, it is a legal history of a
latest-only register. What has left a channel has been dispatched, up to the one
sample the reactor has in hand. The delivery guarantees follow from the libraries
about those two structures.
-/

namespace FlowKernel.Reactor

open Foundation

universe u
variable {κ : Type u}

/-- The buffer operations that a run's events stand for. -/
def queueOperations (log : List (Event κ)) : List (BoundedFifo.Event CriticalSample) :=
  log.filterMap fun
    | .offered _ sample true => some (.accept sample)
    | .offered _ _ false => some .reject
    | .popped sample => some (.take sample)
    | .emptied => some .miss
    | _ => none

/-- The register operations on the slot of one hash. -/
def slotOperations (hash : U64) (log : List (Event κ)) : List (LatestRegister.Event Frame) :=
  log.filterMap fun
    | .slot found operation => if found = hash then some operation else none
    | _ => none

/-- Frames that passed the checks of the data callback. -/
def receivedFrames (log : List (Event κ)) : List Frame :=
  log.filterMap fun
    | .received _ frame => some frame
    | _ => none

/-- Frames accepted by `critical_queue_`, in acceptance order. -/
def acceptedFrames (log : List (Event κ)) : List Frame :=
  log.filterMap fun
    | .offered _ sample true => some sample.payload
    | _ => none

/-- Frames whose push found the queue full. -/
def rejectedFrames (log : List (Event κ)) : List Frame :=
  log.filterMap fun
    | .offered _ sample false => some sample.payload
    | _ => none

/-- Invocations for samples out of the queue. -/
def queueCalls (log : List (Event κ)) : List (Call κ) :=
  log.filterMap fun
    | .dispatched call => some call
    | _ => none

/-- Invocations for samples out of the slot of one hash. -/
def slotCalls (hash : U64) (log : List (Event κ)) : List (Call κ) :=
  log.filterMap fun
    | .slotDispatched found call => if found = hash then some call else none
    | _ => none

/-- Frames put into the slot of one hash, in order. -/
def putFrames (hash : U64) (log : List (Event κ)) : List Frame :=
  LatestRegister.puts (slotOperations hash log)

/-- Frames that a later put into their slot has discarded. -/
def overwrittenFrames (hash : U64) (log : List (Event κ)) : List Frame :=
  LatestRegister.overwritten (slotOperations hash log)

/-- All frames put into slots, with the hash of the slot. -/
def storedFrames (log : List (Event κ)) : List (U64 × Frame) :=
  log.filterMap fun
    | .slot hash (.put frame) => some (hash, frame)
    | .slot hash (.overwrite _ frame) => some (hash, frame)
    | _ => none

/-- Discarded frames, with the frames that took their places. -/
def replacements (log : List (Event κ)) : List (Frame × Frame) :=
  log.filterMap fun
    | .slot _ (.overwrite old new) => some (old, new)
    | _ => none

section Logs

variable (hash : U64) (before after : List (Event κ))

/-- The operations on the queue, in two parts of a history. -/
@[simp] theorem queueOperations_append :
    queueOperations (before ++ after) = queueOperations before ++ queueOperations after :=
  List.filterMap_append

/-- The operations on a slot, in two parts of a history. -/
@[simp] theorem slotOperations_append :
    slotOperations hash (before ++ after) =
      slotOperations hash before ++ slotOperations hash after :=
  List.filterMap_append

/-- The frames received, in two parts of a history. -/
@[simp] theorem receivedFrames_append :
    receivedFrames (before ++ after) = receivedFrames before ++ receivedFrames after :=
  List.filterMap_append

/-- The frames the queue accepted, in two parts of a history. -/
@[simp] theorem acceptedFrames_append :
    acceptedFrames (before ++ after) = acceptedFrames before ++ acceptedFrames after :=
  List.filterMap_append

/-- The frames the queue refused, in two parts of a history. -/
@[simp] theorem rejectedFrames_append :
    rejectedFrames (before ++ after) = rejectedFrames before ++ rejectedFrames after :=
  List.filterMap_append

/-- The calls on frames from the queue, in two parts of a history. -/
@[simp] theorem queueCalls_append :
    queueCalls (before ++ after) = queueCalls before ++ queueCalls after :=
  List.filterMap_append

/-- The calls on frames from a slot, in two parts of a history. -/
@[simp] theorem slotCalls_append :
    slotCalls hash (before ++ after) = slotCalls hash before ++ slotCalls hash after :=
  List.filterMap_append

/-- The frames put into slots, in two parts of a history. -/
@[simp] theorem storedFrames_append :
    storedFrames (before ++ after) = storedFrames before ++ storedFrames after :=
  List.filterMap_append

/-- The frames given up for later ones, in two parts of a history. -/
@[simp] theorem replacements_append :
    replacements (before ++ after) = replacements before ++ replacements after :=
  List.filterMap_append

/-- The abstract buffer accepted what the queue accepted. -/
theorem accepted_queueOperations :
    (BoundedFifo.accepted (queueOperations before)).map CriticalSample.payload =
      acceptedFrames before := by
  rw [BoundedFifo.accepted, queueOperations, acceptedFrames, List.filterMap_filterMap,
    List.map_filterMap]
  congr 1
  funext event
  cases event with
  | offered priority sample pushed => cases pushed <;> rfl
  | _ => rfl

end Logs

/-- The account of the queue: the log is a history of a bounded buffer with these
samples, and what was popped has been dispatched or is in hand. -/
structure QueueAccount (queue : List CriticalSample) (hand : Option CriticalSample)
    (dropped : U64) (log : List (Event κ)) : Prop where
  legal : BoundedFifo.Legal queueLimit (queueOperations log) queue
  popped : (BoundedFifo.taken (queueOperations log)).map CriticalSample.payload =
    (queueCalls log).map Call.frame ++ hand.toList.map CriticalSample.payload
  counted : dropped = BitVec.ofNat 64 (rejectedFrames log).length

namespace QueueAccount

variable {queue : List CriticalSample} {hand : Option CriticalSample} {dropped : U64}
  {log : List (Event κ)}

/-- Events of the slots and of the cycle do not concern the queue. -/
theorem foreign (account : QueueAccount queue hand dropped log) {events : List (Event κ)}
    (operations : queueOperations events = []) (calls : queueCalls events = [])
    (rejects : rejectedFrames events = []) :
    QueueAccount queue hand dropped (log ++ events) where
  legal := by
    rw [queueOperations_append, operations, List.append_nil]
    exact account.legal
  popped := by
    rw [queueOperations_append, operations, queueCalls_append, calls, List.append_nil,
      List.append_nil]
    exact account.popped
  counted := by
    rw [rejectedFrames_append, rejects, List.append_nil]
    exact account.counted

/-- A frame that is accepted joins the queue. -/
theorem accept (account : QueueAccount queue hand dropped log) {priority : TopicPriority}
    {sample : CriticalSample} (room : queue.length < queueLimit) :
    QueueAccount (queue ++ [sample]) hand dropped
      (log ++ [Event.received priority sample.payload, .offered priority sample true]) where
  legal := by
    rw [queueOperations_append]
    exact account.legal.snoc (.accept room)
  popped := by
    rw [queueOperations_append, queueCalls_append, BoundedFifo.taken_append]
    simpa [queueOperations, queueCalls, BoundedFifo.taken] using account.popped
  counted := by
    rw [rejectedFrames_append]
    simpa [rejectedFrames] using account.counted

/-- A frame that the full queue refuses is counted as dropped. -/
theorem reject (account : QueueAccount queue hand dropped log) {priority : TopicPriority}
    {sample : CriticalSample} (full : ¬ queue.length < queueLimit) :
    QueueAccount queue hand (dropped + 1)
      (log ++ [Event.received priority sample.payload, .offered priority sample false]) where
  legal := by
    have brim : queue.length = queueLimit :=
      Nat.le_antisymm account.legal.bounded (Nat.le_of_not_lt full)
    rw [queueOperations_append]
    exact account.legal.snoc (.reject brim)
  popped := by
    rw [queueOperations_append, queueCalls_append, BoundedFifo.taken_append]
    simpa [queueOperations, queueCalls, BoundedFifo.taken] using account.popped
  counted := by
    rw [rejectedFrames_append, List.length_append, BitVec.ofNat_add, ← account.counted]
    rfl

/-- The front of the queue comes into the hand of the reactor. -/
theorem pop {cs : CriticalSample} (account : QueueAccount (cs :: queue) none dropped log) :
    QueueAccount queue (some cs) dropped (log ++ [Event.popped cs]) where
  legal := by
    rw [queueOperations_append]
    exact account.legal.snoc .take
  popped := by
    have before := account.popped
    rw [queueOperations_append, queueCalls_append, BoundedFifo.taken_append, List.map_append,
      before]
    simp [queueOperations, queueCalls, BoundedFifo.taken]
  counted := by
    rw [rejectedFrames_append]
    simpa [rejectedFrames] using account.counted

/-- A pop that finds nothing changes no account. -/
theorem emptied (account : QueueAccount [] hand dropped log) :
    QueueAccount [] hand dropped (log ++ [Event.emptied]) where
  legal := by
    rw [queueOperations_append]
    exact account.legal.snoc .miss
  popped := by
    rw [queueOperations_append, queueCalls_append, BoundedFifo.taken_append]
    simpa [queueOperations, queueCalls, BoundedFifo.taken] using account.popped
  counted := by
    rw [rejectedFrames_append]
    simpa [rejectedFrames] using account.counted

/-- The frame in hand is passed to its callback. -/
theorem dispatch {cs : CriticalSample} {call : Call κ}
    (account : QueueAccount queue (some cs) dropped log) (same : call.frame = cs.payload) :
    QueueAccount queue none dropped (log ++ [Event.dispatched call]) where
  legal := by
    rw [queueOperations_append]
    simpa [queueOperations] using account.legal
  popped := by
    have before := account.popped
    rw [queueOperations_append, queueCalls_append, BoundedFifo.taken_append, List.map_append,
      before]
    simp [queueOperations, queueCalls, BoundedFifo.taken, same]
  counted := by
    rw [rejectedFrames_append]
    simpa [rejectedFrames] using account.counted

/-- Accepted frames have been dispatched, are in hand or are still queued, in
acceptance order. -/
theorem conserved (account : QueueAccount queue hand dropped log) :
    acceptedFrames log = (queueCalls log).map Call.frame ++
      hand.toList.map CriticalSample.payload ++ queue.map CriticalSample.payload := by
  rw [← accepted_queueOperations, account.legal.conserved, List.map_append, account.popped]

end QueueAccount

/-- The frame in hand, if it came out of the slot of this hash. -/
def handOf (hash : U64) (hand : Option (HeldSample Frame)) : List Frame :=
  match hand with
  | some sample => if sample.handler_hash = hash then [sample.payload] else []
  | none => []

/-- The account of the slots: for each hash the log is a history of a latest-only
register, and what was taken has been dispatched or is in hand. -/
structure SlotAccount (slots : U64 → LatestSampleSlot Frame) (hand : Option (HeldSample Frame))
    (log : List (Event κ)) : Prop where
  legal : ∀ hash, LatestRegister.Legal (slotOperations hash log) (slots hash).payload?
  taken : ∀ hash, LatestRegister.taken (slotOperations hash log) =
    (slotCalls hash log).map Call.frame ++ handOf hash hand
  counted : ∀ hash, (slots hash).drop_count =
    BitVec.ofNat 64 (overwrittenFrames hash log).length

namespace SlotAccount

variable {slots : U64 → LatestSampleSlot Frame} {hand : Option (HeldSample Frame)}
  {log : List (Event κ)}

/-- Events that have nothing to do with a slot leave its account alone. -/
theorem foreign (account : SlotAccount slots hand log) {events : List (Event κ)}
    (operations : ∀ hash, slotOperations hash events = [])
    (calls : ∀ hash, slotCalls hash events = []) : SlotAccount slots hand (log ++ events) where
  legal := by
    intro hash
    rw [slotOperations_append, operations, List.append_nil]
    exact account.legal hash
  taken := by
    intro hash
    rw [slotOperations_append, operations, slotCalls_append, calls, List.append_nil,
      List.append_nil]
    exact account.taken hash
  counted := by
    intro hash
    rw [overwrittenFrames, slotOperations_append, operations, List.append_nil]
    exact account.counted hash

/-- One operation on the slot of one hash: the other slots keep their accounts. -/
theorem operate (account : SlotAccount slots hand log) {key : U64}
    {slot : LatestSampleSlot Frame} {after : Option (HeldSample Frame)} {events : List (Event κ)}
    {operation : LatestRegister.Event Frame}
    (operations : ∀ hash, slotOperations hash events = if key = hash then [operation] else [])
    (calls : ∀ hash, slotCalls hash events = [])
    (step : LatestRegister.Step (slots key).payload? operation slot.payload?)
    (hands : ∀ hash, handOf hash after =
      handOf hash hand ++ if key = hash then LatestRegister.taken [operation] else [])
    (counted : slot.drop_count = (slots key).drop_count +
      BitVec.ofNat 64 (LatestRegister.overwritten [operation]).length) :
    SlotAccount (Function.update slots key slot) after (log ++ events) where
  legal := by
    intro hash
    rw [slotOperations_append, operations]
    by_cases same : key = hash
    · subst same
      rw [if_pos rfl, Function.update_self]
      exact (account.legal key).snoc step
    · rw [if_neg same, List.append_nil, Function.update_of_ne (Ne.symm same)]
      exact account.legal hash
  taken := by
    intro hash
    rw [slotOperations_append, operations, slotCalls_append, calls, List.append_nil, hands,
      LatestRegister.taken_append, account.taken hash, List.append_assoc]
    by_cases same : key = hash
    · rw [if_pos same, if_pos same]
    · rw [if_neg same, if_neg same]
      rfl
  counted := by
    intro hash
    rw [overwrittenFrames, slotOperations_append, operations, LatestRegister.overwritten_append,
      List.length_append, BitVec.ofNat_add]
    have before := account.counted hash
    rw [overwrittenFrames] at before
    by_cases same : key = hash
    · subst same
      rw [if_pos rfl, Function.update_self, counted, before]
    · rw [if_neg same, Function.update_of_ne (Ne.symm same), before]
      simp [LatestRegister.overwritten]

/-- A put is the latest one of its slot. -/
theorem put (account : SlotAccount slots hand log) {key : U64} {frame : Frame} {now : TimePoint}
    {priority : TopicPriority} :
    SlotAccount (Function.update slots key ((slots key).put key frame now)) hand
      (log ++ [Event.received priority frame, .slot key ((slots key).putEvent frame)]) := by
  refine account.operate (fun hash => ?_) (fun hash => rfl) ((slots key).put_step key frame now)
    (fun hash => ?_) ?_
  · by_cases same : key = hash
    · simp [slotOperations, same]
    · simp [slotOperations, same]
  · cases present : (slots key).held <;>
      simp [LatestSampleSlot.putEvent, present, LatestRegister.taken]
  · cases present : (slots key).held <;>
      simp [LatestSampleSlot.putEvent, LatestSampleSlot.put, present, LatestRegister.overwritten]

/-- A visit empties the slot into the reactor's hand. -/
theorem visit (account : SlotAccount slots none log) {key : U64}
    (stored : ∀ sample, (slots key).held = some sample → sample.handler_hash = key) :
    SlotAccount (Function.update slots key (slots key).take.2) (slots key).held
      (log ++ [Event.slot key (slots key).takeEvent]) := by
  refine account.operate (fun hash => ?_) (fun hash => rfl) (slots key).take_step
    (fun hash => ?_) ?_
  · by_cases same : key = hash
    · simp [slotOperations, same]
    · simp [slotOperations, same]
  · cases present : (slots key).held with
    | none => simp [LatestSampleSlot.takeEvent, present, LatestRegister.taken, handOf]
    | some sample =>
      simp [LatestSampleSlot.takeEvent, present, LatestRegister.taken, handOf,
        stored sample present]
  · cases present : (slots key).held <;>
      simp [LatestSampleSlot.takeEvent, LatestSampleSlot.take, present,
        LatestRegister.overwritten]

/-- What was taken from a slot is passed to its callback. -/
theorem dispatch {sample : HeldSample Frame} {call : Call κ}
    (account : SlotAccount slots (some sample) log) (same : call.frame = sample.payload) :
    SlotAccount slots none (log ++ [Event.slotDispatched sample.handler_hash call]) where
  legal := by
    intro hash
    rw [slotOperations_append]
    simpa [slotOperations] using account.legal hash
  taken := by
    intro hash
    have before := account.taken hash
    rw [slotOperations_append, slotCalls_append, LatestRegister.taken_append, before]
    by_cases own : sample.handler_hash = hash
    · simp [slotOperations, slotCalls, LatestRegister.taken, handOf, own, same]
    · simp [slotOperations, slotCalls, LatestRegister.taken, handOf, own]
  counted := by
    intro hash
    rw [overwrittenFrames, slotOperations_append]
    simpa [slotOperations, overwrittenFrames] using account.counted hash

end SlotAccount

/-- The cycle's empty pop lies behind, and everything accepted before it has been
dispatched. -/
def Settled (log : List (Event κ)) : Prop :=
  ∃ earlier later, log = earlier ++ .emptied :: later ∧
    acceptedFrames earlier = (queueCalls earlier).map Call.frame ∧
    ∀ event ∈ later, event ≠ .cycleStarted

/-- Later events of the same cycle keep its empty pop behind. -/
theorem Settled.append {log events : List (Event κ)} (settled : Settled log)
    (same : ∀ event ∈ events, event ≠ .cycleStarted) :
    Settled (log ++ events) := by
  obtain ⟨earlier, later, rfl, dispatched, quiet⟩ := settled
  refine ⟨earlier, later ++ events, by simp, dispatched, ?_⟩
  intro event member
  rcases List.mem_append.mp member with old | new
  · exact quiet event old
  · exact same event new

/-- The account of the cycle: callbacks of the slots run behind the empty pop. -/
structure CycleAccount (emptied : Bool) (log : List (Event κ)) : Prop where
  settled : emptied = true → Settled log
  background : Justified
    (fun before event => ∀ hash call, event = .slotDispatched hash call → Settled before) log

namespace CycleAccount

variable {emptied : Bool} {log : List (Event κ)}

/-- Events within the cycle, other than callbacks of the slots. -/
theorem within (account : CycleAccount emptied log) {events : List (Event κ)}
    (same : ∀ event ∈ events, event ≠ .cycleStarted ∧
      ∀ hash call, event ≠ .slotDispatched hash call) :
    CycleAccount emptied (log ++ events) where
  settled := fun behind =>
    (account.settled behind).append (fun event member => (same event member).1)
  background := by
    apply account.background.append
    intro before event after split hash call dispatched
    have member : event ∈ events := by
      rw [split]
      exact List.mem_append_right _ List.mem_cons_self
    exact absurd dispatched ((same event member).2 hash call)

/-- An account of an emptied queue is one of a cycle. -/
theorem rest (account : CycleAccount emptied log) : CycleAccount false log where
  settled := by simp
  background := account.background

/-- A cycle begins with what the queue has then. -/
theorem cycle (account : CycleAccount false log) :
    CycleAccount false (log ++ [Event.cycleStarted]) where
  settled := by simp
  background := account.background.snoc (by simp)

/-- A queue found empty has been dispatched completely. -/
theorem emptied_now (account : CycleAccount emptied log)
    (dispatched : acceptedFrames log = (queueCalls log).map Call.frame) :
    CycleAccount true (log ++ [Event.emptied]) where
  settled := fun _ => ⟨log, [], rfl, dispatched, by simp⟩
  background := account.background.snoc (by simp)

/-- Slots are dispatched behind the queue. -/
theorem dispatch (account : CycleAccount true log) {hash : U64} {call : Call κ} :
    CycleAccount true (log ++ [Event.slotDispatched hash call]) where
  settled := fun _ => (account.settled rfl).append (by simp)
  background := account.background.snoc (fun _ _ _ => account.settled rfl)

end CycleAccount

/-- The three accounts: of the queue, of the slots, and of the cycle. -/
structure Carried (c : Channels κ) : Prop where
  queue : QueueAccount c.critical_queue c.hand c.dropped c.log
  slots : SlotAccount c.background_cache.slots c.slotHand c.log
  cycle : CycleAccount c.emptied c.log

variable {config : Config κ} {c next : Channels κ} {s : State κ}

/-- Events that concern neither channel nor the course of the cycle. -/
theorem Carried.aside (carried : Carried c) {events : List (Event κ)}
    (queued : queueOperations events = [] ∧ queueCalls events = [] ∧ rejectedFrames events = [])
    (slotted : ∀ hash, slotOperations hash events = [] ∧ slotCalls hash events = [])
    (same : ∀ event ∈ events, event ≠ .cycleStarted ∧
      ∀ hash call, event ≠ .slotDispatched hash call) :
    Carried { c with log := c.log ++ events } where
  queue := carried.queue.foreign queued.1 queued.2.1 queued.2.2
  slots := carried.slots.foreign (fun hash => (slotted hash).1) (fun hash => (slotted hash).2)
  cycle := carried.cycle.within same

/-- Nothing is carried yet. -/
theorem carried_init : Carried (init κ).channels where
  queue := ⟨.nil, rfl, rfl⟩
  slots := ⟨fun _ => .nil, fun _ => rfl, fun _ => rfl⟩
  cycle := ⟨nofun, Justified.nil⟩

/-- Every step of the channels keeps the accounts. -/
theorem carried_step (sourced : Sourced config c) (carried : Carried c)
    (step : ChannelStep config c next) : Carried next := by
  cases step with
  | silent => exact carried
  | rest => exact { carried with cycle := carried.cycle.rest }
  | @note event plain =>
    cases event with
    | stopping => exact carried.aside ⟨rfl, rfl, rfl⟩ (fun _ => ⟨rfl, rfl⟩) (by simp)
    | stopped => exact carried.aside ⟨rfl, rfl, rfl⟩ (fun _ => ⟨rfl, rfl⟩) (by simp)
    | _ => simp [Event.plain] at plain
  | reset => exact carried.aside ⟨rfl, rfl, rfl⟩ (fun _ => ⟨rfl, rfl⟩) (by simp)
  | begin => exact { carried with }
  | @allocate i handler stage registered cached =>
    exact { carried with
      slots := by
        rw [LatestSampleCache.slots_pre_allocate]
        exact carried.slots }
  | passOver => exact { carried with }
  | allocated => exact { carried with }
  | subscribe => exact { carried with }
  | skip => exact { carried with }
  | subscribed => exact { carried with }
  | armed =>
    exact
      { queue := carried.queue.foreign rfl rfl rfl
        slots := carried.slots.foreign (fun _ => rfl) (fun _ => rfl)
        cycle := (carried.cycle.within (by simp)).rest }
  | cycle fresh =>
    exact
      { queue := carried.queue.foreign rfl rfl rfl
        slots := carried.slots.foreign (fun _ => rfl) (fun _ => rfl)
        cycle := by
          have account := carried.cycle
          simp only [fresh] at account ⊢
          exact account.cycle }
  | accept known hash origin queued room =>
    exact
      { queue := carried.queue.accept room
        slots := carried.slots.foreign (fun _ => rfl) (fun _ => rfl)
        cycle := carried.cycle.within (by simp) }
  | reject known origin queued full =>
    exact
      { queue := carried.queue.reject full
        slots := carried.slots.foreign (fun _ => rfl) (fun _ => rfl)
        cycle := carried.cycle.within (by simp) }
  | put known origin cached present =>
    exact
      { queue := carried.queue.foreign rfl rfl rfl
        slots := carried.slots.put
        cycle := carried.cycle.within (by simp) }
  | unslotted known origin cached absent => exact absurd (sourced.present known cached) absent
  | pop free pending front =>
    have account := carried.queue
    rw [free, front] at account
    exact
      { queue := account.pop
        slots := carried.slots.foreign (fun _ => rfl) (fun _ => rfl)
        cycle := carried.cycle.within (by simp) }
  | emptied free empty =>
    have account := carried.queue
    have dispatched : acceptedFrames c.log = (queueCalls c.log).map Call.frame := by
      rw [account.conserved, free, empty]
      simp
    rw [empty] at account
    exact
      { queue := by
          rw [empty]
          exact account.emptied
        slots := carried.slots.foreign (fun _ => rfl) (fun _ => rfl)
        cycle := carried.cycle.emptied_now dispatched }
  | @dispatch cs index handler call held pending found invoked =>
    have account := carried.queue
    rw [held] at account
    exact
      { queue := account.dispatch (by rw [invoked]; rfl)
        slots := carried.slots.foreign (fun _ => rfl) (fun _ => rfl)
        cycle := carried.cycle.within (by simp) }
  | unindexed held missing => exact absurd missing (sourced.hand _ held).indexed
  | startDrain => exact { carried.aside ⟨rfl, rfl, rfl⟩ (fun _ => ⟨rfl, rfl⟩) (by simp) with }
  | @visit hash todo taken free more found =>
    have account := carried.slots
    rw [free] at account
    exact
      { queue := carried.queue.foreign rfl rfl rfl
        slots := by
          rw [found]
          exact account.visit (fun sample held => (sourced.slots hash sample held).1)
        cycle := carried.cycle.within (by simp) }
  | @slotDispatch sample index handler held settled found =>
    have account := carried.slots
    have course := carried.cycle
    rw [held] at account
    rw [settled] at course
    exact
      { queue := carried.queue.foreign rfl rfl rfl
        slots := account.dispatch rfl
        cycle := by
          simp only [settled]
          exact course.dispatch }
  | unindexedSlot held missing => exact absurd missing (sourced.slotHand _ held).indexed
  | drained => exact { carried.aside ⟨rfl, rfl, rfl⟩ (fun _ => ⟨rfl, rfl⟩) (by simp) with }

/-- Each received frame was offered to the queue or put into a slot. -/
def Routed (log : List (Event κ)) : Prop :=
  (receivedFrames log).Perm
    (acceptedFrames log ++ rejectedFrames log ++ (storedFrames log).map Prod.snd)

/-- The frames of two parts of a history, each passed to its own handler. -/
theorem Routed.extend {log events : List (Event κ)} (routed : Routed log)
    (latest : Routed events) : Routed (log ++ events) := by
  rw [Routed, List.perm_iff_count] at routed latest ⊢
  intro frame
  have earlier := routed frame
  have later := latest frame
  simp only [receivedFrames_append, acceptedFrames_append, rejectedFrames_append,
    storedFrames_append, List.map_append, List.count_append] at earlier later ⊢
  omega

/-- Every step of the channels passes its frame to the right handler. -/
theorem routed_step (sourced : Sourced config c) (routed : Routed c.log)
    (step : ChannelStep config c next) : Routed next.log := by
  cases step with
  | silent | rest | begin | allocate | passOver | allocated | subscribe | skip | subscribed =>
    exact routed
  | note plain =>
    apply routed.extend
    rename_i event
    cases event <;> first | exact List.Perm.refl [] | simp [Event.plain] at plain
  | unslotted known origin cached absent => exact absurd (sourced.present known cached) absent
  | @put ctx frame now known origin cached present =>
    apply routed.extend
    cases held : (c.background_cache.slots ctx.handler_hash).held <;>
      simp [Routed, receivedFrames, acceptedFrames, rejectedFrames, storedFrames,
        LatestSampleSlot.putEvent, held]
  | @visit hash todo taken free more found =>
    apply routed.extend
    cases held : (c.background_cache.slots hash).held <;>
      simp [Routed, receivedFrames, acceptedFrames, rejectedFrames, storedFrames,
        LatestSampleSlot.takeEvent, held]
  | _ =>
    exact routed.extend (by
      simp [Routed, receivedFrames, acceptedFrames, rejectedFrames, storedFrames])

/-- In every run the accounts hold, and every call is routed. -/
theorem reachable_carried (reached : (machine config).Reachable s) :
    Carried s.channels ∧ Routed s.log := by
  have all := channels_invariant (fun c => Sourced config c ∧ Carried c ∧ Routed c.log)
    ⟨sourced_init, carried_init, List.Perm.refl []⟩
    (fun _ _ holds step => ⟨sourced_step holds.1 step, carried_step holds.1 holds.2.1 step,
      routed_step holds.1 holds.2.2 step⟩) reached
  exact all.2

/-- The call goes to the handler whose subscription received the frame. -/
def OwnCall (config : Config κ) (call : Call κ) : Prop :=
  call.index = call.frame.registration ∧
    ∃ registration, config.registrations[call.frame.registration]? = some registration ∧
      call.callback = registration.callback

/-- With distinct hashes the index leads every frame back to its own handler. -/
theorem find_source
    (distinct : (config.registrations.map fun call => fnv1a_hash call.path).Nodup)
    {frame : Frame} {source target : Handler κ} {index : Nat}
    (registered : config.Source frame source)
    (found : config.registry.find source.path_hash = some (index, target)) :
    index = frame.registration ∧
      ∃ registration, config.registrations[frame.registration]? = some registration ∧
        target = Registry.handlerOf registration := by
  obtain ⟨call, present, _, rfl⟩ := source_registered registered
  have own := Registry.find_own distinct present
  obtain ⟨rfl, rfl⟩ : frame.registration = index ∧ Registry.handlerOf call = target := by
    simpa using own.symm.trans found
  exact ⟨rfl, call, present, rfl⟩

/-- Calls recorded for a slot go by the index entry of the slot's hash. -/
theorem mem_slotCalls {hash : U64} {log : List (Event κ)} {call : Call κ} :
    call ∈ slotCalls hash log ↔ .slotDispatched hash call ∈ log := by
  rw [slotCalls, List.mem_filterMap]
  constructor
  · rintro ⟨event, member, selected⟩
    cases event <;> simp at selected
    obtain ⟨rfl, rfl⟩ := selected
    exact member
  · intro member
    exact ⟨_, member, by simp⟩

/-- A call on a frame from the queue is one in the history. -/
theorem mem_queueCalls {log : List (Event κ)} {call : Call κ} :
    call ∈ queueCalls log ↔ .dispatched call ∈ log := by
  rw [queueCalls, List.mem_filterMap]
  constructor
  · rintro ⟨event, member, selected⟩
    cases event <;> simp at selected
    exact selected ▸ member
  · intro member
    exact ⟨_, member, rfl⟩

/-- The shipped handlers receive an E-Stop and two costmaps; the reactor dispatches
the E-Stop and then the later costmap. -/
def mixedRun : List Action :=
  defaultTurns 10 ++
    [.receive 0 0 0 estopPath emptyMessage 5, .receive 1 2 1 costmapPath emptyMessage 6,
      .receive 1 2 2 costmapPath emptyMessage 7, .callback 0] ++ defaultTurns 14

end FlowKernel.Reactor
