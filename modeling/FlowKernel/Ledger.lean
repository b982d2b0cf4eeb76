import FlowKernel.Delivery

/-!
# Counting frames from the last reset

A ledger counts what a run's events say about frames, and starts anew at each
uninterrupted `reset_stats()` with the frames pending there. Entries and exits
balance in every reachable state, whatever the 64-bit counters of the code do.
-/

namespace FlowKernel.Reactor

open Foundation

universe u
variable {κ : Type u}

/-- Frames since the last reset. `pending` and `full` are what the reset found in
the queue and in the slots. -/
structure Ledger where
  pending : Nat
  offered : Nat
  rejected : Nat
  critical : Nat
  normal : Nat
  full : Nat
  puts : Nat
  overwritten : Nat
  background : Nat

/-- Nothing has happened, with what is pending and full given. -/
def Ledger.fresh (pending full : Nat) : Ledger where
  pending := pending
  offered := 0
  rejected := 0
  critical := 0
  normal := 0
  full := full
  puts := 0
  overwritten := 0
  background := 0

/-- The priority of the registration whose subscription received the frame. -/
def Config.priorityOf (config : Config κ) (frame : Frame) : Option TopicPriority :=
  (config.registrations[frame.registration]?).map Registration.priority

/-- What one event adds. -/
def Ledger.add (config : Config κ) (ledger : Ledger) : Event κ → Ledger
  | .offered _ _ true => { ledger with offered := ledger.offered + 1 }
  | .offered _ _ false =>
      { ledger with offered := ledger.offered + 1, rejected := ledger.rejected + 1 }
  | .dispatched call =>
      if config.priorityOf call.frame = some .critical then
        { ledger with critical := ledger.critical + 1 }
      else if config.priorityOf call.frame = some .normal then
        { ledger with normal := ledger.normal + 1 }
      else ledger
  | .slot _ (.put _) => { ledger with puts := ledger.puts + 1 }
  | .slot _ (.overwrite _ _) =>
      { ledger with puts := ledger.puts + 1, overwritten := ledger.overwritten + 1 }
  | .slotDispatched _ _ => { ledger with background := ledger.background + 1 }
  | .reset pending full => .fresh pending full
  | _ => ledger

/-- The sums over a history. -/
def ledger (config : Config κ) (log : List (Event κ)) : Ledger :=
  log.foldl (Ledger.add config) (.fresh 0 0)

variable {config : Config κ} {c next : Channels κ} {s : State κ}

/-- The sums go on from those of an earlier history. -/
@[simp] theorem ledger_append (log events : List (Event κ)) :
    ledger config (log ++ events) = events.foldl (Ledger.add config) (ledger config log) :=
  List.foldl_append

/-- The entries and exits of the two channels. -/
structure Tallied (config : Config κ) (c : Channels κ) : Prop where
  queue : (ledger config c.log).offered + (ledger config c.log).pending =
    (ledger config c.log).critical + (ledger config c.log).normal + c.hand.toList.length +
      c.critical_queue.length + (ledger config c.log).rejected
  slots : (ledger config c.log).puts + (ledger config c.log).full =
    (ledger config c.log).background + c.slotHand.toList.length +
      c.background_cache.full c.background_cache.keys + (ledger config c.log).overwritten
  absent : ∀ hash, hash ∉ c.background_cache.keys → c.background_cache.slots hash = .empty
  drops : c.background_cache.drops c.background_cache.keys ≤ (replacements c.log).length

/-- A reading of the ledger that no new event changes stays as it was. -/
theorem ledger_kept {β : Type*} (reading : Ledger → β) {log events : List (Event κ)}
    (still : ∀ event ∈ events, ∀ book : Ledger, reading (book.add config event) = reading book) :
    reading (ledger config (log ++ events)) = reading (ledger config log) := by
  induction events using List.reverseRecOn with
  | nil => simp
  | append_singleton earlier event inductionHypothesis =>
    have before := inductionHypothesis
      (fun found member => still found (List.mem_append_left _ member))
    rw [← List.append_assoc, ledger_append, ← before]
    exact still event (by simp) _

/-- Events that the ledger does not count. -/
def Event.unlisted : Event κ → Bool
  | .received _ _ | .unslotted _ | .popped _ | .emptied | .unindexed _ | .cycleStarted
  | .drainStarted | .drained | .armed _ | .stopping _ | .stopped _ => true
  | _ => false

/-- Other events are not summed. -/
theorem ledger_unlisted {log events : List (Event κ)}
    (unlisted : ∀ event ∈ events, event.unlisted = true) :
    ledger config (log ++ events) = ledger config log := by
  apply ledger_kept id
  intro event member book
  have listed := unlisted event member
  cases event <;> first | rfl | simp [Event.unlisted] at listed

/-- Other events replace nothing. -/
theorem replacements_unlisted {events : List (Event κ)}
    (unlisted : ∀ event ∈ events, event.unlisted = true) : replacements events = [] := by
  rw [replacements, List.filterMap_eq_nil_iff]
  intro event member
  have listed := unlisted event member
  cases event <;> first | rfl | simp [Event.unlisted] at listed

/-- Events that are not summed leave the sums alone. -/
theorem Tallied.aside (tallied : Tallied config c) {events : List (Event κ)}
    (unlisted : ∀ event ∈ events, event.unlisted = true) :
    Tallied config { c with log := c.log ++ events } where
  queue := by
    rw [ledger_unlisted unlisted]
    exact tallied.queue
  slots := by
    rw [ledger_unlisted unlisted]
    exact tallied.slots
  absent := tallied.absent
  drops := by
    rw [replacements_append, replacements_unlisted unlisted, List.append_nil]
    exact tallied.drops

/-- A frame's priority is that of the handler it was received for. -/
theorem priorityOf_source {frame : Frame} {source : Handler κ}
    (received : config.Source frame source) : config.priorityOf frame = some source.priority := by
  obtain ⟨call, present, _, rfl⟩ := source_registered received
  rw [Config.priorityOf, present]
  rfl

/-- An entry for the dispatch of a CRITICAL or NORMAL frame. -/
theorem add_dispatched {book : Ledger} {call : Call κ} {priority : TopicPriority}
    (known : config.priorityOf call.frame = some priority) (queued : priority ≠ .background) :
    book.add config (.dispatched call) =
      if priority = .critical then { book with critical := book.critical + 1 }
      else { book with normal := book.normal + 1 } := by
  cases priority with
  | critical => simp [Ledger.add, known]
  | normal => simp [Ledger.add, known]
  | background => exact absurd rfl queued

/-- A write to a slot of the map leaves unallocated slots empty. -/
theorem Tallied.absent_setSlot (tallied : Tallied config c) {key : U64}
    {slot : LatestSampleSlot Frame} (kept : key ∉ c.background_cache.keys → slot = .empty) :
    ∀ hash, hash ∉ (c.background_cache.setSlot key slot).keys →
      (c.background_cache.setSlot key slot).slots hash = .empty := by
  intro hash outside
  by_cases same : hash = key
  · subst same
    rw [LatestSampleCache.slots_setSlot_self]
    exact kept outside
  · rw [LatestSampleCache.slots_setSlot_other _ _ same]
    exact tallied.absent hash outside

section Slots

variable (slot : LatestSampleSlot Frame) (ctx : CallbackContext) (frame : Frame) (hash : U64)
  (log : List (Event κ))

/-- A put enters the ledger once, and once more if it overwrites. -/
theorem ledger_put : ledger config (log ++
    [Event.received ctx.priority frame, .slot ctx.handler_hash (slot.putEvent frame)]) =
      { ledger config log with
        puts := (ledger config log).puts + 1
        overwritten := (ledger config log).overwritten + slot.held.toList.length } := by
  cases held : slot.held <;> simp [Ledger.add, LatestSampleSlot.putEvent, held]

/-- A put replaces what the slot holds. -/
theorem replacements_put : (replacements (log ++
    [Event.received ctx.priority frame, .slot ctx.handler_hash (slot.putEvent frame)])).length =
      (replacements log).length + slot.held.toList.length := by
  cases held : slot.held <;> simp [replacements, LatestSampleSlot.putEvent, held]

/-- A take does not. -/
theorem ledger_take :
    ledger config (log ++ [Event.slot hash slot.takeEvent]) = ledger config log := by
  cases held : slot.held <;> simp [Ledger.add, LatestSampleSlot.takeEvent, held]

/-- A take replaces nothing. -/
theorem replacements_take :
    replacements (log ++ [Event.slot hash slot.takeEvent]) = replacements log := by
  cases held : slot.held <;> simp [replacements, LatestSampleSlot.takeEvent, held]

end Slots

/-- All sums start at zero. -/
theorem tallied_init : Tallied config (init κ).channels where
  queue := by simp [State.channels, init, ledger, Ledger.fresh, ReactorPc.hand]
  slots := by
    simp [State.channels, init, ledger, Ledger.fresh, ReactorPc.slotHand, LatestSampleCache.empty,
      LatestSampleCache.full]
  absent := fun _ _ => rfl
  drops := by simp [State.channels, init, LatestSampleCache.empty, LatestSampleCache.drops]

/-- Every step of the channels keeps the sums. -/
theorem tallied_step (sourced : Sourced config c) (tallied : Tallied config c)
    (step : ChannelStep config c next) : Tallied config next := by
  have queue := tallied.queue
  have slots := tallied.slots
  have drops := tallied.drops
  cases step with
  | silent => exact tallied
  | rest => exact { tallied with }
  | @note event plain =>
    refine tallied.aside ?_
    intro found member
    rw [List.mem_singleton.mp member]
    cases event <;> first | rfl | simp [Event.plain] at plain
  | reset free idle =>
    exact { tallied with
      queue := by simp [Ledger.add, Ledger.fresh, free]
      slots := by simp [Ledger.add, Ledger.fresh, idle]
      drops := by simpa [replacements] using drops }
  | begin | passOver | allocated | subscribe | skip | subscribed => exact { tallied with }
  | @allocate i handler stage registered cached =>
    have absent := tallied.absent handler.path_hash
    exact { tallied with
      slots := by
        rw [LatestSampleCache.full_pre_allocate absent]
        exact slots
      absent := by
        intro hash outside
        rw [LatestSampleCache.mem_pre_allocate, not_or] at outside
        rw [LatestSampleCache.slots_pre_allocate]
        exact tallied.absent hash outside.1
      drops := by
        rw [LatestSampleCache.drops_pre_allocate absent]
        exact drops }
  | armed | cycle | emptied | startDrain | drained =>
    exact { tallied.aside (by simp [Event.unlisted]) with }
  | accept known hash origin queued room =>
    exact { tallied with
      queue := by
        simp only [ledger_append, List.foldl_cons, List.foldl_nil, Ledger.add, List.length_append,
          List.length_singleton]
        omega
      slots := by simpa [Ledger.add] using slots
      drops := by simpa [replacements] using drops }
  | reject known origin queued full =>
    exact { tallied with
      queue := by
        simp only [ledger_append, List.foldl_cons, List.foldl_nil, Ledger.add]
        omega
      slots := by simpa [Ledger.add] using slots
      drops := by simpa [replacements] using drops }
  | @put ctx frame now known origin cached present =>
    have written := c.background_cache.full_put ctx.handler_hash ctx.handler_hash frame now present
    have counted := c.background_cache.drops_put_le ctx.handler_hash ctx.handler_hash frame now
      present
    have charged := @ledger_put _ config (c.background_cache.slots ctx.handler_hash) ctx frame c.log
    have replaced := replacements_put (c.background_cache.slots ctx.handler_hash) ctx frame c.log
    exact
      { queue := by
          rw [charged]
          exact queue
        slots := by
          rw [charged]
          simp only [LatestSampleCache.keys_setSlot]
          omega
        absent := tallied.absent_setSlot (fun missing => absurd present missing)
        drops := by
          rw [replaced]
          simp only [LatestSampleCache.keys_setSlot]
          omega }
  | unslotted known origin cached absent => exact absurd (sourced.present known cached) absent
  | pop free pending front =>
    exact { tallied with
      queue := by
        rw [free, front] at queue
        simp only [ledger_append, List.foldl_cons, List.foldl_nil, Ledger.add] at queue ⊢
        simp at queue ⊢
        omega
      slots := by simpa [Ledger.add] using slots
      drops := by simpa [replacements] using drops }
  | @dispatch cs index handler call held pending found invoked =>
    obtain ⟨source, received, _, queued⟩ := sourced.hand cs held
    have known : config.priorityOf call.frame = some source.priority := by
      rw [invoked]
      exact priorityOf_source received
    have entry : ∀ book : Ledger, book.add config (.dispatched call) = _ :=
      fun _ => add_dispatched known queued
    rw [held] at queue
    simp only [Option.toList_some, List.length_singleton] at queue
    exact { tallied with
      queue := by
        simp only [ledger_append, List.foldl_cons, List.foldl_nil, entry]
        split
        · simp only [Option.toList_none, List.length_nil]
          omega
        · simp only [Option.toList_none, List.length_nil]
          omega
      slots := by
        simp only [ledger_append, List.foldl_cons, List.foldl_nil, entry]
        split
        · exact slots
        · exact slots
      drops := by simpa [replacements] using drops }
  | unindexed held missing => exact absurd missing (sourced.hand _ held).indexed
  | @visit hash todo taken free more found =>
    have absent := tallied.absent hash
    have written := c.background_cache.full_take hash absent
    have unlisted := @ledger_take _ config (c.background_cache.slots hash) hash c.log
    have silent := replacements_take (c.background_cache.slots hash) hash c.log
    rw [free, Option.toList_none, List.length_nil] at slots
    exact
      { queue := by
          rw [unlisted]
          exact queue
        slots := by
          rw [unlisted, found]
          simp only [LatestSampleCache.keys_setSlot]
          omega
        absent := by
          apply tallied.absent_setSlot
          intro outside
          rw [absent outside]
          rfl
        drops := by
          rw [silent, LatestSampleCache.keys_setSlot, LatestSampleCache.drops_take]
          exact drops }
  | @slotDispatch sample index handler held settled found =>
    rw [held] at slots
    simp only [Option.toList_some, List.length_singleton] at slots
    exact { tallied with
      queue := by simpa [Ledger.add] using queue
      slots := by
        simp only [ledger_append, List.foldl_cons, List.foldl_nil, Ledger.add, Option.toList_none,
          List.length_nil]
        omega
      drops := by simpa [replacements] using drops }
  | unindexedSlot held missing => exact absurd missing (sourced.slotHand _ held).indexed

/-- In every run the channels hold what the sums leave. -/
theorem reachable_tallied (reached : (machine config).Reachable s) :
    Tallied config s.channels := by
  have all := channels_invariant (fun c => Sourced config c ∧ Tallied config c)
    ⟨sourced_init, tallied_init⟩
    (fun _ _ holds step => ⟨sourced_step holds.1 step, tallied_step holds.1 holds.2 step⟩) reached
  exact all.2

end FlowKernel.Reactor
