import FlowKernel.Delivery
import FlowKernel.StartUp

/-!
# When a frame reaches the handler it was received for

Frames are routed by path hash, and the index keeps the first registration with a
hash. A handler whose hash was registered before is shadowed: its frames invoke
the earlier callback and are charged to the earlier priority. This module says
for which lists of registrations that makes no difference, and shows the
difference for the others.
-/

namespace FlowKernel.Reactor

open Foundation

universe u
variable {κ : Type u} {config : Config κ} {s : State κ}

/-- The call invokes the callback of the registration whose subscription received
the frame, and charges the latency window and the processed counter of that
registration's priority. -/
def Charged (config : Config κ) (call : Call κ) : Prop :=
  ∃ registration, config.registrations[call.frame.registration]? = some registration ∧
    call.callback = registration.callback ∧ call.latency = registration.priority ∧
      call.processed = registration.priority

/-- In every run, every dispatched frame is charged to its own registration. -/
def RoutesOwn (config : Config κ) : Prop :=
  ∀ s, (machine config).Reachable s →
    (∀ call ∈ queueCalls s.log, Charged config call) ∧
      ∀ hash, ∀ call ∈ slotCalls hash s.log, Charged config call

/-- The first registration with the same path hash. -/
def Config.first (config : Config κ) (registration : Registration κ) :
    Option (Registration κ) :=
  config.registrations.find? fun other =>
    fnv1a_hash other.path = fnv1a_hash registration.path

/-- No registration that can be subscribed is shadowed by a different one: the
first registration with its hash has the same callback, and the same priority
too unless its frames travel through a slot. -/
def Unshadowed (config : Config κ) : Prop :=
  ∀ registration ∈ config.registrations, config.keyexpr registration.path = true →
    ∀ first, config.first registration = some first →
      first.callback = registration.callback ∧
        (registration.priority = .background ∨ first.priority = registration.priority)

/-- The index leads to the first registration with the hash. -/
theorem find_first {registration : Registration κ} {index : Nat} {target : Handler κ} :
    config.registry.find (fnv1a_hash registration.path) = some (index, target) →
      ∃ first, config.first registration = some first ∧ target = Registry.handlerOf first := by
  intro found
  rw [Registry.find_eq_some, Config.registry, Registry.handler_index_registerAll,
    Registry.handlers_registerAll, List.getElem?_map, Option.map_eq_some_iff] at found
  obtain ⟨position, first, present, rfl⟩ := found
  obtain ⟨inside, same, earlier⟩ := List.findIdx?_eq_some_iff_getElem.mp position
  obtain ⟨_, rfl⟩ := List.getElem?_eq_some_iff.mp present
  refine ⟨_, List.find?_eq_some_iff_getElem.mpr ⟨same, index, inside, rfl, ?_⟩, rfl⟩
  intro j before
  simpa using earlier j before

/-- Distinct hashes exclude shadowing. -/
theorem unshadowed_of_distinct
    (distinct : (config.registrations.map fun call => fnv1a_hash call.path).Nodup) :
    Unshadowed config := by
  intro registration member _ first shadowing
  obtain ⟨i, registered⟩ := List.mem_iff_getElem?.mp member
  obtain ⟨shadow, same, becomes⟩ :=
    @find_first _ config _ _ _ (Registry.find_own distinct registered)
  obtain rfl : first = shadow := Option.some.inj (shadowing.symm.trans same)
  exact ⟨(congrArg Handler.callback becomes).symm, .inr (congrArg Handler.priority becomes).symm⟩

/-- Without shadowing, every dispatch is charged to its own registration. -/
theorem routesOwn_of_unshadowed (unshadowed : Unshadowed config) : RoutesOwn config := by
  intro s reached
  have sourced : Sourced config s.channels := reachable_sourced reached
  constructor
  · intro call member
    obtain ⟨source, index, target, received, queued, found, invoked⟩ :=
      sourced.log _ (mem_queueCalls.mp member)
    obtain ⟨registration, present, valid, rfl⟩ := source_registered received
    obtain ⟨first, shadowing, rfl⟩ := find_first found
    obtain ⟨callback, priority⟩ :=
      unshadowed registration (List.mem_of_getElem? present) valid first shadowing
    have charged : first.priority = registration.priority := priority.resolve_left queued
    refine ⟨registration, present, ?_, ?_, ?_⟩
    · rw [invoked]
      exact callback
    · rw [invoked]
      exact charged
    · rw [invoked, queueCall, ← charged]
      cases kind : first.priority with
      | critical => simp [Registry.handlerOf, kind]
      | normal => simp [Registry.handlerOf, kind]
      | background => exact absurd (charged.symm.trans kind) queued
  · intro hash call member
    obtain ⟨source, index, target, received, cached, hashed, found, invoked⟩ :=
      sourced.log _ (mem_slotCalls.mp member)
    obtain ⟨registration, present, valid, rfl⟩ := source_registered received
    rw [hashed] at found
    obtain ⟨first, shadowing, rfl⟩ := find_first found
    obtain ⟨callback, _⟩ :=
      unshadowed registration (List.mem_of_getElem? present) valid first shadowing
    have background : registration.priority = .background := cached
    rw [invoked]
    exact ⟨registration, present, callback, background.symm, background.symm⟩

/-- The first cycle gets to its queue loop with nothing counted. -/
theorem pop_reached (reached : (machine config).Reachable s) (here : s.reactor = .loopTest)
    (running : s.running = true) (dropped : s.dropped = 0) (stats : s.stats = .zero) :
    ∃ next, (machine config).Reachable next ∧ next.reactor = .pop 0 0 ∧
      next.critical_queue = s.critical_queue ∧ next.background_cache = s.background_cache := by
  have entered : step config s granting =
      some ({ s with reactor := .loadDropped }.record [.cycleStarted]) := by
    simp [step, granting, walking, reactorStep, here, running]
  have loaded := (reached.after granting entered).after granting rfl
  have read := loaded.after granting rfl
  have fresh : ¬ (s.dropped - s.stats.last_queue_dropped > 0) := by
    rw [dropped, stats]
    decide
  have stored : step config
      ({ s with reactor := .storeLast s.dropped (s.dropped - s.stats.last_queue_dropped) }.record
        [.cycleStarted]) granting =
      some ({ s with
        stats := { s.stats with last_queue_dropped := s.dropped }
        reactor := .pop 0 0 }.record [.cycleStarted]) := by
    simp only [step, granting, walking, reactorStep, State.record, if_neg fresh]
  exact ⟨_, read.after granting stored, rfl, rfl, rfl⟩

/-- Any subscription of an untouched reactor can receive a frame. -/
theorem receive_reached (reached : (machine config).Reachable s) (untouched : Untouched s)
    {ctx : CallbackContext} (known : ctx ∈ s.contexts) (payload : Bytes) :
    ∃ next frame, (machine config).Reachable next ∧ frame.registration = ctx.registration ∧
      frame.payload = payload ∧ Callback config s 0 ctx frame 0 next := by
  obtain ⟨position, subscribed⟩ := List.mem_iff_getElem?.mp known
  have idle : s.callbacks 0 = .idle := untouched.callbacks 0
  have stepped : step config s (.receive 0 position 0 [] payload 0) =
      some (zenoh_data_callback config s 0 ctx
        { registration := ctx.registration, serial := 0, key := [], payload } 0) := by
    simp only [step, idle, subscribed]
  exact ⟨_, { registration := ctx.registration, serial := 0, key := [], payload },
    reached.after (.receive 0 position 0 [] payload 0) stepped, rfl, rfl,
    callback_cases config s 0 ctx _ 0⟩

/-- A sample in hand is dispatched to the handler its hash finds. -/
theorem dispatch_logs (s : State κ) {critical normal : U64} {cs : CriticalSample} {index : Nat}
    {target : Handler κ} (here : s.reactor = .dispatch critical normal cs)
    (found : config.registry.find cs.handler_hash = some (index, target)) :
    ∃ next, step config s granting = some next ∧
      next.log = s.log ++ [Event.dispatched (queueCall index target cs.payload)] := by
  by_cases kind : target.priority = .critical
  · exact ⟨_, by simp only [step, granting, walking, reactorStep, here, found, if_pos kind]; rfl,
      by simp [State.record, queueCall, kind]⟩
  · exact ⟨_, by simp only [step, granting, walking, reactorStep, here, found, if_neg kind]; rfl,
      by simp [State.record, queueCall, kind]⟩

/-- A verified frame under any subscription of the queue can be dispatched. -/
theorem queueCall_reached (reached : (machine config).Reachable s) (here : s.reactor = .loopTest)
    (untouched : Untouched s) {ctx : CallbackContext} (known : ctx ∈ s.contexts)
    (queued : ctx.priority ≠ .background) {payload : Bytes} (nonempty : payload ≠ [])
    (verified : config.verify payload = true) {index : Nat} {target : Handler κ}
    (found : config.registry.find ctx.handler_hash = some (index, target)) :
    ∃ last frame, (machine config).Reachable last ∧ frame.registration = ctx.registration ∧
      queueCall index target frame ∈ queueCalls last.log := by
  obtain ⟨offered, frame, arrived, origin, same, outcome⟩ :=
    receive_reached reached untouched known payload
  cases outcome with
  | ignored unfit => simp [same, nonempty, verified] at unfit
  | rejected _ full => simp [untouched.queue, queueLimit] at full
  | put cached => exact absurd cached queued
  | unslotted cached => exact absurd cached queued
  | accepted _ room waking =>
    obtain ⟨ready, atPop, pc, queue, _⟩ :=
      pop_reached arrived here untouched.running untouched.dropped untouched.stats
    have front : ready.critical_queue = [sampleOf ctx frame 0] := by
      rw [queue, untouched.queue]
      rfl
    have popped : step config ready granting = some ({ ready with
        critical_queue := [], reactor := .dispatch 0 0 (sampleOf ctx frame 0) }.record
          [Event.popped (sampleOf ctx frame 0)]) := by
      simp [step, granting, walking, reactorStep, pc, front, BoundedFifo.pop]
    obtain ⟨last, dispatched, log⟩ := dispatch_logs
      ({ ready with critical_queue := [], reactor := .dispatch 0 0 (sampleOf ctx frame 0) }.record
        [Event.popped (sampleOf ctx frame 0)]) rfl found
    refine ⟨last, frame, (atPop.after granting popped).after granting dispatched, origin, ?_⟩
    rw [mem_queueCalls, log]
    exact List.mem_append_right _ List.mem_cons_self

/-- With nothing queued the cycle goes on to its slots. -/
theorem startDrain_reached (reached : (machine config).Reachable s) (here : s.reactor = .pop 0 0)
    (queue : s.critical_queue = []) :
    ∃ next, (machine config).Reachable next ∧ next.reactor = .startDrain ∧
      next.background_cache = s.background_cache := by
  have emptied : step config s granting =
      some ({ s with reactor := .addCriticalProcessed 0 0 }.record [.emptied]) := by
    simp [step, granting, walking, reactorStep, here, queue, BoundedFifo.pop]
  have counted := ((reached.after granting emptied).after granting rfl).after granting rfl
  exact ⟨_, (counted.after granting rfl).after granting rfl, rfl, rfl⟩

/-- A full slot is dispatched to the handler its hash finds. -/
theorem visit_logs (s : State κ) {hash : U64} {todo : List U64} {background : U64}
    {sample : HeldSample Frame} {index : Nat} {target : Handler κ}
    (here : s.reactor = .drain (hash :: todo) background)
    (held : (s.background_cache.slots hash).held = some sample)
    (found : config.registry.find sample.handler_hash = some (index, target)) :
    ∃ visited next, step config s granting = some visited ∧
      step config visited granting = some next ∧
      next.log = s.log ++ [Event.slot hash (s.background_cache.slots hash).takeEvent,
        .slotDispatched sample.handler_hash (slotCall index target sample.payload)] := by
  have taken : (s.background_cache.slots hash).take.1 = some sample := held
  refine ⟨_, _, by simp only [step, granting, walking, reactorStep, here, taken]; rfl,
    by simp only [step, granting, walking, reactorStep, found]; rfl, ?_⟩
  simp [State.record, State.setSlot, slotCall]

/-- A verified frame under any subscription of a slot can be dispatched. -/
theorem slotCall_reached (reached : (machine config).Reachable s) (here : s.reactor = .loopTest)
    (untouched : Untouched s) {ctx : CallbackContext} (known : ctx ∈ s.contexts)
    (cached : ctx.priority = .background) {payload : Bytes} (nonempty : payload ≠ [])
    (verified : config.verify payload = true) {index : Nat} {target : Handler κ}
    (found : config.registry.find ctx.handler_hash = some (index, target)) :
    ∃ last frame, (machine config).Reachable last ∧ frame.registration = ctx.registration ∧
      slotCall index target frame ∈ slotCalls ctx.handler_hash last.log := by
  have allocated : ctx.handler_hash ∈ s.background_cache.keys :=
    (reachable_sourced reached).present known cached
  obtain ⟨stored, frame, arrived, origin, same, outcome⟩ :=
    receive_reached reached untouched known payload
  cases outcome with
  | ignored unfit => simp [same, nonempty, verified] at unfit
  | accepted queued => exact absurd cached queued
  | rejected queued => exact absurd cached queued
  | unslotted _ absent => exact absurd allocated absent
  | put _ present =>
    obtain ⟨ready, atPop, pc, queue, kept⟩ :=
      pop_reached arrived here untouched.running untouched.dropped untouched.stats
    obtain ⟨started, atDrain, drain, cache⟩ :=
      startDrain_reached atPop pc (queue.trans untouched.queue)
    have slots : started.background_cache = s.background_cache.setSlot ctx.handler_hash
        ((s.background_cache.slots ctx.handler_hash).put ctx.handler_hash frame 0) :=
      cache.trans kept
    have held : (started.background_cache.slots ctx.handler_hash).held =
        some { handler_hash := ctx.handler_hash, payload := frame, put_time := 0 } := by
      rw [slots]
      simp [LatestSampleCache.setSlot, LatestSampleSlot.put]
    have listed : (ctx.handler_hash :: started.background_cache.keys.erase ctx.handler_hash).Perm
        started.background_cache.keys := by
      apply (List.perm_cons_erase _).symm
      rw [slots]
      exact present
    have ordered : step config started
        (walking (ctx.handler_hash :: started.background_cache.keys.erase ctx.handler_hash)) =
        some ({ started with reactor := .drain (ctx.handler_hash ::
          started.background_cache.keys.erase ctx.handler_hash) 0 }.record [.drainStarted]) := by
      simp only [step, walking, reactorStep, drain, if_pos listed]
    obtain ⟨visited, last, visits, dispatches, log⟩ := visit_logs
      ({ started with reactor := .drain (ctx.handler_hash ::
          started.background_cache.keys.erase ctx.handler_hash) 0 }.record [.drainStarted])
      rfl held found
    have draining := atDrain.after
      (walking (ctx.handler_hash :: started.background_cache.keys.erase ctx.handler_hash)) ordered
    refine ⟨last, frame, (draining.after granting visits).after granting dispatches, origin, ?_⟩
    rw [mem_slotCalls, log]
    exact List.mem_append_right _ (List.mem_cons_of_mem _ List.mem_cons_self)

/-- A shadowed registration is exposed by the first frame that its subscription
receives. -/
theorem unshadowed_of_routesOwn
    (accepts : ∃ payload, payload ≠ [] ∧ config.verify payload = true)
    (routes : RoutesOwn config) : Unshadowed config := by
  intro registration member valid first shadowing
  obtain ⟨payload, nonempty, verified⟩ := accepts
  obtain ⟨i, registered⟩ := List.mem_iff_getElem?.mp member
  obtain ⟨j, target, found, _⟩ := Registry.find_registered registered
  obtain ⟨shadow, same, becomes⟩ := @find_first _ config _ _ _ found
  obtain rfl : first = shadow := Option.some.inj (shadowing.symm.trans same)
  obtain ⟨s, reached, here, untouched, subscribed⟩ := loop_reached config
  have handler : config.registry.handlers[i]? = some (Registry.handlerOf registration) := by
    rw [Config.registry, Registry.handlers_registerAll, List.getElem?_map, registered]
    rfl
  have known := subscribed i (Registry.handlerOf registration) handler valid
  have own : ∀ call : Call κ, call.frame.registration = i → Charged config call →
      call.callback = registration.callback ∧ call.latency = registration.priority := by
    rintro call origin ⟨found, present, callback, latency, _⟩
    rw [origin, registered] at present
    obtain rfl := Option.some.inj present
    exact ⟨callback, latency⟩
  by_cases cached : registration.priority = .background
  · obtain ⟨last, frame, arrived, origin, dispatched⟩ :=
      slotCall_reached reached here untouched known cached nonempty verified found
    have charged := (routes last arrived).2 _ _ dispatched
    have callback := (own (slotCall j _ frame) origin charged).1
    rw [becomes] at callback
    exact ⟨callback, .inl cached⟩
  · obtain ⟨last, frame, arrived, origin, dispatched⟩ :=
      queueCall_reached reached here untouched known cached nonempty verified found
    have charged := (routes last arrived).1 _ dispatched
    obtain ⟨callback, latency⟩ := own (queueCall j _ frame) origin charged
    rw [becomes] at callback latency
    exact ⟨callback, .inr latency⟩

/-- Frames are charged to the registration they were received for exactly when no
registration is shadowed. The verifier need only accept some message. -/
theorem routesOwn_iff_unshadowed
    (accepts : ∃ payload, payload ≠ [] ∧ config.verify payload = true) :
    RoutesOwn config ↔ Unshadowed config :=
  ⟨unshadowed_of_routesOwn accepts, routesOwn_of_unshadowed⟩

/-- The shipped handlers have distinct paths. -/
theorem defaultConfig_routesOwn :
    (RoutesOwn defaultConfig ↔ Unshadowed defaultConfig) ∧ Unshadowed defaultConfig :=
  ⟨routesOwn_iff_unshadowed ⟨emptyMessage, by decide, by decide⟩,
    unshadowed_of_distinct (by decide +kernel)⟩

/-- The E-Stop path registered for BACKGROUND and then for CRITICAL. -/
def shadowedRegistrations : List (Registration TopicPriority) :=
  [{ path := estopPath, priority := .background, callback := .background },
    { path := estopPath, priority := .critical, callback := .critical }]

/-- An E-Stop received by the CRITICAL subscription, up to its dispatch. -/
def shadowedRun : List Action :=
  turns [fnv1a_hash estopPath] 8 ++ [.receive 0 1 0 estopPath emptyMessage 0] ++
    turns [fnv1a_hash estopPath] 6

/-- A frame reaches the callback of the first handler with its path. -/
theorem shadowedRun_misroutes : ¬ RoutesOwn (plainConfig shadowedRegistrations) := by
  intro routes
  have outcome : ((machine (plainConfig shadowedRegistrations)).exec (init TopicPriority)
      shadowedRun).map (fun s => (queueCalls s.log).map fun call =>
        (call.frame.registration, call.callback)) = some [(1, .background)] := by
    decide +kernel
  obtain ⟨s, ran, seen⟩ := Option.map_eq_some_iff.mp outcome
  obtain ⟨call, member, same⟩ : ∃ call ∈ queueCalls s.log,
      (call.frame.registration, call.callback) = (1, .background) := by
    apply List.mem_map.mp
    rw [seen]
    exact List.mem_cons_self
  obtain ⟨registration, present, callback, _⟩ :=
    (routes s (Machine.reachable_of_exec ran)).1 call member
  simp only [Prod.mk.injEq] at same
  rw [same.1] at present
  obtain rfl : registration = _ := (Option.some.inj present).symm
  rw [same.2] at callback
  exact absurd callback (by decide)

end FlowKernel.Reactor
