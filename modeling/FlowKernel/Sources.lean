import FlowKernel.Channels

/-!
# Where the frames in the channels come from

Every sample in the queue and in the slots carries the path hash of the handler
under whose subscription it was received, and is in the channel that belongs to
that handler's priority. So each call that the log records is the one the index
yields for that hash. No frame ever meets a missing slot, because slots are
allocated before the first subscription, nor a missing index entry.
-/

namespace FlowKernel.Reactor

open Foundation

universe u
variable {κ : Type u}

/-- The handler under whose subscription a frame was received. -/
def Config.Source (config : Config κ) (frame : Frame) (source : Handler κ) : Prop :=
  config.registry.handlers[frame.registration]? = some source ∧
    config.keyexpr source.path = true

/-- A queue sample belongs to a CRITICAL or NORMAL handler. -/
def Queued (config : Config κ) (cs : CriticalSample) : Prop :=
  ∃ source, config.Source cs.payload source ∧ cs.handler_hash = source.path_hash ∧
    source.priority ≠ .background

/-- A frame in the slot of a hash belongs to a BACKGROUND handler with that hash. -/
def Cached (config : Config κ) (hash : U64) (frame : Frame) : Prop :=
  ∃ source, config.Source frame source ∧ hash = source.path_hash ∧
    source.priority = .background

/-- What an event says about the handler its frame was received for. -/
def Event.Sourced (config : Config κ) : Event κ → Prop
  | .received priority frame => ∃ source, config.Source frame source ∧
      priority = source.priority
  | .offered priority sample _ => ∃ source, config.Source sample.payload source ∧
      priority = source.priority ∧ priority ≠ .background
  | .slot hash operation => ∀ frame ∈ LatestRegister.puts [operation], Cached config hash frame
  | .dispatched call => ∃ source index target, config.Source call.frame source ∧
      source.priority ≠ .background ∧
      config.registry.find source.path_hash = some (index, target) ∧
      call = queueCall index target call.frame
  | .slotDispatched hash call => ∃ source index target, config.Source call.frame source ∧
      source.priority = .background ∧ hash = source.path_hash ∧
      config.registry.find hash = some (index, target) ∧ call = slotCall index target call.frame
  | .unindexed _ | .unslotted _ => False
  | _ => True

/-- `run()` has not subscribed anything yet. -/
def Stage.unsubscribed : Stage → Prop
  | .fresh | .allocating _ => True
  | _ => False

/-- `run()` is past the allocation of this handler's slot. -/
def Stage.allocated (i : Nat) : Stage → Prop
  | .fresh => False
  | .allocating next => i < next
  | _ => True

/-- Every frame and context is one that a registration accounts for. -/
structure Sourced (config : Config κ) (c : Channels κ) : Prop where
  contexts : ∀ ctx ∈ c.contexts, ∃ handler,
    config.registry.handlers[ctx.registration]? = some handler ∧
      config.keyexpr handler.path = true ∧
        ctx.handler_hash = handler.path_hash ∧ ctx.priority = handler.priority
  waiting : c.stage.unsubscribed → c.contexts = []
  slotted : ∀ i handler, config.registry.handlers[i]? = some handler →
    handler.priority = .background → c.stage.allocated i →
      handler.path_hash ∈ c.background_cache.keys
  queue : ∀ cs ∈ c.critical_queue, Queued config cs
  hand : ∀ cs, c.hand = some cs → Queued config cs
  slots : ∀ hash sample, (c.background_cache.slots hash).held = some sample →
    sample.handler_hash = hash ∧ Cached config hash sample.payload
  slotHand : ∀ sample, c.slotHand = some sample →
    Cached config sample.handler_hash sample.payload
  log : ∀ event ∈ c.log, event.Sourced config

variable {config : Config κ} {c next : Channels κ} {s : State κ}

/-- The log stays sourced if the new events are. -/
theorem Sourced.extend (sourced : Sourced config c) {events : List (Event κ)}
    (latest : ∀ event ∈ events, event.Sourced config) :
    ∀ event ∈ c.log ++ events, event.Sourced config := by
  intro event member
  rcases List.mem_append.mp member with old | new
  · exact sourced.log event old
  · exact latest event new

/-- A frame's handler is what its registration became. -/
theorem source_registered {frame : Frame} {source : Handler κ}
    (received : config.Source frame source) :
    ∃ call, config.registrations[frame.registration]? = some call ∧
      config.keyexpr call.path = true ∧ Registry.handlerOf call = source := by
  obtain ⟨registered, valid⟩ := received
  rw [Config.registry, Registry.handlers_registerAll, List.getElem?_map,
    Option.map_eq_some_iff] at registered
  obtain ⟨call, present, rfl⟩ := registered
  exact ⟨call, present, valid, rfl⟩

/-- The hash of a registered handler is never missing from the index. -/
theorem source_found {frame : Frame} {source : Handler κ}
    (registered : config.Source frame source) :
    ∃ index target, config.registry.find source.path_hash = some (index, target) := by
  obtain ⟨call, present, _, rfl⟩ := source_registered registered
  obtain ⟨index, target, found, _⟩ := Registry.find_registered present
  exact ⟨index, _, found⟩

/-- So neither channel holds a sample without a handler. -/
theorem Queued.indexed {cs : CriticalSample} (queued : Queued config cs) :
    config.registry.find cs.handler_hash ≠ none := by
  obtain ⟨source, received, hash, _⟩ := queued
  obtain ⟨index, target, found⟩ := source_found received
  simp [hash, found]

/-- What lies in a slot has a handler. -/
theorem Cached.indexed {hash : U64} {frame : Frame} (cached : Cached config hash frame) :
    config.registry.find hash ≠ none := by
  obtain ⟨source, received, rfl, _⟩ := cached
  obtain ⟨index, target, found⟩ := source_found received
  simp [found]

/-- Once a subscription exists, every BACKGROUND handler has its slot. -/
theorem Sourced.present (sourced : Sourced config c) {ctx : CallbackContext}
    (known : ctx ∈ c.contexts) (cached : ctx.priority = .background) :
    ctx.handler_hash ∈ c.background_cache.keys := by
  obtain ⟨handler, registered, _, hash, priority⟩ := sourced.contexts ctx known
  rw [hash]
  apply sourced.slotted ctx.registration handler registered (priority.symm.trans cached)
  have subscribed : ¬ c.stage.unsubscribed := by
    intro unsubscribed
    rw [sourced.waiting unsubscribed] at known
    simp at known
  cases stage : c.stage with
  | fresh => simp [stage, Stage.unsubscribed] at subscribed
  | allocating i => simp [stage, Stage.unsubscribed] at subscribed
  | subscribing i => trivial
  | serving => trivial

/-- There are no frames. -/
theorem sourced_init : Sourced config (init κ).channels where
  contexts := by simp [State.channels, init]
  waiting := fun _ => rfl
  slotted := by simp [State.channels, init, ReactorPc.stage, Stage.allocated]
  queue := by simp [State.channels, init]
  hand := by simp [State.channels, init, ReactorPc.hand]
  slots := by simp [State.channels, init, LatestSampleCache.empty, LatestSampleSlot.empty]
  slotHand := by simp [State.channels, init, ReactorPc.slotHand]
  log := by simp [State.channels, init]

/-- The frame of a data callback belongs to the handler of its context. -/
theorem Sourced.origin (sourced : Sourced config c) {ctx : CallbackContext} {frame : Frame}
    (known : ctx ∈ c.contexts) (origin : frame.registration = ctx.registration) :
    ∃ source, config.Source frame source ∧ ctx.handler_hash = source.path_hash ∧
      ctx.priority = source.priority := by
  obtain ⟨handler, registered, valid, hash, priority⟩ := sourced.contexts ctx known
  exact ⟨handler, ⟨origin ▸ registered, valid⟩, hash, priority⟩

/-- Once subscriptions are being made, every slot that is needed is there. -/
theorem Sourced.subscribing (sourced : Sourced config c) {i : Nat}
    (stage : c.stage = .subscribing i) (later : Stage) (begun : ¬ later.unsubscribed) :
    Sourced config { c with stage := later } :=
  { sourced with
    waiting := fun waits => absurd waits begun
    slotted := by
      intro j found present background _
      apply sourced.slotted j found present background
      rw [stage]
      trivial }

/-- What is put into a slot is all that changes in the slots. -/
theorem Sourced.setSlot (sourced : Sourced config c) {hash : U64} {slot : LatestSampleSlot Frame}
    (inside : ∀ sample, slot.held = some sample →
      sample.handler_hash = hash ∧ Cached config hash sample.payload) (key : U64)
    (sample : HeldSample Frame)
    (held : ((c.background_cache.setSlot hash slot).slots key).held = some sample) :
    sample.handler_hash = key ∧ Cached config key sample.payload := by
  by_cases same : key = hash
  · subst same
    simp only [LatestSampleCache.setSlot, Function.update_self] at held
    exact inside sample held
  · simp only [LatestSampleCache.setSlot, Function.update_of_ne same] at held
    exact sourced.slots key sample held

/-- What a data callback logs about a frame for the queue. -/
theorem offer_sourced {priority : TopicPriority} {sample : CriticalSample} {pushed : Bool}
    {source : Handler κ} (registered : config.Source sample.payload source)
    (own : priority = source.priority) (queued : priority ≠ .background) :
    ∀ event ∈ [Event.received priority sample.payload, .offered priority sample pushed],
      event.Sourced config := by
  intro event member
  rcases List.mem_pair.mp member with rfl | rfl
  · exact ⟨source, registered, own⟩
  · exact ⟨source, registered, own, queued⟩

/-- Every step of the channels keeps the sources. -/
theorem sourced_step (sourced : Sourced config c) (step : ChannelStep config c next) :
    Sourced config next := by
  cases step with
  | silent => exact sourced
  | rest => exact { sourced with }
  | @note event plain =>
    exact { sourced with
      log := sourced.extend (by
        intro found member
        rw [List.mem_singleton.mp member]
        cases event <;> trivial) }
  | reset | armed | cycle | emptied | startDrain | drained =>
    exact { sourced with log := sourced.extend (by simp [Event.Sourced]) }
  | begin stage =>
    exact { sourced with
      contexts := by simp
      waiting := fun _ => rfl
      slotted := by simp [Stage.allocated] }
  | @allocate i handler stage registered cached =>
    exact { sourced with
      waiting := fun _ => sourced.waiting (by rw [stage]; trivial)
      slotted := by
        intro j found present background allocated
        rw [LatestSampleCache.mem_pre_allocate]
        rcases Nat.lt_succ_iff_lt_or_eq.mp allocated with earlier | rfl
        · exact .inl (sourced.slotted j found present background (by rw [stage]; exact earlier))
        · obtain rfl : handler = found := Option.some.inj (registered.symm.trans present)
          exact .inr rfl
      slots := by
        rw [LatestSampleCache.slots_pre_allocate]
        exact sourced.slots }
  | @passOver i handler stage registered queued =>
    exact { sourced with
      waiting := fun _ => sourced.waiting (by rw [stage]; trivial)
      slotted := by
        intro j found present background allocated
        rcases Nat.lt_succ_iff_lt_or_eq.mp allocated with earlier | rfl
        · exact sourced.slotted j found present background (by rw [stage]; exact earlier)
        · obtain rfl : handler = found := Option.some.inj (registered.symm.trans present)
          exact absurd background queued }
  | @allocated i stage done =>
    exact { sourced with
      waiting := by simp [Stage.unsubscribed]
      slotted := by
        intro j found present background _
        apply sourced.slotted j found present background
        rw [stage]
        exact Nat.lt_of_lt_of_le (List.getElem?_eq_some_iff.mp present).1
          (List.getElem?_eq_none_iff.mp done) }
  | @subscribe i handler stage registered valid =>
    have begun := sourced.subscribing stage (.subscribing (i + 1)) (by simp [Stage.unsubscribed])
    exact { begun with
      contexts := by
        intro ctx member
        rcases List.mem_append.mp member with old | new
        · exact sourced.contexts ctx old
        · rw [List.mem_singleton.mp new]
          exact ⟨handler, registered, valid, rfl, rfl⟩
      waiting := by simp [Stage.unsubscribed] }
  | skip stage => exact sourced.subscribing stage _ (by simp [Stage.unsubscribed])
  | subscribed stage => exact sourced.subscribing stage _ (by simp [Stage.unsubscribed])
  | @accept ctx sample known hash origin queued room =>
    obtain ⟨source, registered, hashes, priority⟩ := sourced.origin known origin
    exact { sourced with
      queue := by
        intro cs member
        rcases List.mem_append.mp member with old | new
        · exact sourced.queue cs old
        · rw [List.mem_singleton.mp new]
          exact ⟨source, registered, hash.trans hashes, priority ▸ queued⟩
      log := sourced.extend (offer_sourced registered priority queued) }
  | @reject ctx sample known origin queued full =>
    obtain ⟨source, registered, hashes, priority⟩ := sourced.origin known origin
    exact { sourced with
      log := sourced.extend (offer_sourced registered priority queued) }
  | @put ctx frame now known origin cached present =>
    obtain ⟨source, registered, hashes, priority⟩ := sourced.origin known origin
    exact { sourced with
      slots := by
        apply sourced.setSlot
        intro sample held
        simp only [LatestSampleSlot.put, Option.some.injEq] at held
        subst held
        exact ⟨rfl, source, registered, hashes, priority.symm.trans cached⟩
      log := sourced.extend (by
        simp only [List.mem_cons, List.not_mem_nil, or_false, forall_eq_or_imp, forall_eq,
          Event.Sourced, LatestSampleSlot.puts_putEvent]
        exact ⟨⟨source, registered, priority⟩, source, registered, hashes,
          priority.symm.trans cached⟩) }
  | @unslotted ctx frame known origin cached absent =>
    exact absurd (sourced.present known cached) absent
  | @pop cs rest free pending front =>
    exact { sourced with
      queue := by
        intro found member
        apply sourced.queue found
        rw [front]
        exact List.mem_cons_of_mem _ member
      hand := by
        rintro found ⟨⟩
        exact sourced.queue cs (by rw [front]; exact List.mem_cons_self)
      log := sourced.extend (by simp [Event.Sourced]) }
  | @dispatch cs index handler call held pending found invoked =>
    obtain ⟨source, registered, hash, queued⟩ := sourced.hand cs held
    exact { sourced with
      hand := by simp
      log := sourced.extend (by
        simp only [List.mem_singleton, forall_eq, Event.Sourced]
        subst invoked
        exact ⟨source, index, handler, registered, queued, hash ▸ found, rfl⟩) }
  | unindexed held missing => exact absurd missing (sourced.hand _ held).indexed
  | @visit hash todo taken free more found =>
    exact { sourced with
      slots := sourced.setSlot (by simp [LatestSampleSlot.take])
      slotHand := by
        intro sample present
        obtain ⟨rfl, cached⟩ := sourced.slots hash sample (found.symm.trans present)
        exact cached
      log := sourced.extend (by simp [Event.Sourced, LatestSampleSlot.puts_takeEvent]) }
  | @slotDispatch sample index handler held settled found =>
    obtain ⟨source, registered, hash, cached⟩ := sourced.slotHand sample held
    exact { sourced with
      slotHand := by simp
      log := sourced.extend (by
        simp only [List.mem_singleton, forall_eq, Event.Sourced]
        exact ⟨source, index, handler, registered, cached, hash, found, rfl⟩) }
  | unindexedSlot held missing => exact absurd missing (sourced.slotHand _ held).indexed

/-- In every run the frames come from registered handlers. -/
theorem reachable_sourced (reached : (machine config).Reachable s) : Sourced config s.channels :=
  channels_invariant (Sourced config) sourced_init (fun _ _ => sourced_step) reached

end FlowKernel.Reactor
