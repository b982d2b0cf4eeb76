import FlowKernel.Rust.CachePlaces
import FlowKernel.Rust.Reactor

/-!
# What a step of the Rust reactor can do

Every step is one of the transitions below. A task and the thread of the same number in
the cache move together, the slots of the map are those of the BACKGROUND handlers, and
the main loop runs only when every key expression parses.
-/

namespace FlowKernel.Rust.Reactor

open Foundation

universe u
variable {κ : Type u}

/-- The steps, each with the tests it has passed and the state it leaves. -/
inductive Transition (setup : Setup κ) : State κ → Action → State κ → Prop
  | enter {s : State κ} {declared : Except String Unit} {idx : Nat}
      (here : s.main = .spawning idx) (ended : setup.handlers[idx]? = none) :
      Transition setup s (.spawn declared) { s with main := .pop 0 0 }
  | fail {s : State κ} {declared : Except String Unit} {idx : Nat} {error : ReactorError}
      (here : s.main = .spawning idx) :
      Transition setup s (.spawn declared) { s with main := .failed error }
  | spawn {s : State κ} {declared : Except String Unit} {idx : Nat} {handler : Handler κ}
      (here : s.main = .spawning idx) (handlers : setup.handlers[idx]? = some handler)
      (parsed : setup.keyExpr handler.path = .ok ()) :
      Transition setup s (.spawn declared)
        ({ s with main := .spawning (idx + 1) }.goto idx .waiting)
  | receive {s : State κ} {worker : Nat} {payload : Bytes} (here : s.workers worker = .waiting) :
      Transition setup s (.receive worker payload)
        (({ s with received := s.received + 1 }.goto worker
          (.holding ⟨worker, s.received, payload⟩)).record (.received ⟨worker, s.received, payload⟩))
  | offer {s : State κ} {worker : Nat} {frame : Frame} {next : Work}
      (here : s.workers worker = .holding frame) (free : next = .notifying ∨ next = .waiting) :
      Transition setup s (.work worker) (offer s worker frame next)
  | find {s : State κ} {worker : Nat} {frame : Frame} {handler : Handler κ}
      {cache : SharedCache.State Frame} (here : s.workers worker = .holding frame)
      (handlers : setup.handlers[worker]? = some handler)
      (background : handler.priority = .background)
      (present : handler.path_hash ∈ s.background_cache.cache.keys)
      (cached : SharedCache.step s.background_cache (.get_slot worker handler.path_hash) =
        some cache) :
      Transition setup s (.work worker)
        ({ s with background_cache := cache }.goto worker (.found frame))
  | missing {s : State κ} {worker : Nat} {frame : Frame} {handler : Handler κ}
      {cache : SharedCache.State Frame}
      (handlers : setup.handlers[worker]? = some handler)
      (background : handler.priority = .background)
      (absent : handler.path_hash ∉ s.background_cache.cache.keys) :
      Transition setup s (.work worker)
        (({ s with background_cache := cache }.goto worker .waiting).record (.unslotted frame))
  | notify {s : State κ} {worker : Nat} (here : s.workers worker = .notifying) :
      Transition setup s (.work worker) ({ s with wakeup := true }.goto worker .waiting)
  | lock {s : State κ} {worker : Nat} {frame : Frame} {handler : Handler κ}
      {cache : SharedCache.State Frame} (here : s.workers worker = .found frame)
      (handlers : setup.handlers[worker]? = some handler)
      (cached : SharedCache.step s.background_cache (.put worker handler.path_hash frame) =
        some cache) :
      Transition setup s (.work worker)
        ({ s with background_cache := cache }.goto worker (.locked frame))
  | count {s : State κ} {worker : Nat} {frame : Frame} {handler : Handler κ}
      {cache : SharedCache.State Frame} (here : s.workers worker = .locked frame)
      (handlers : setup.handlers[worker]? = some handler)
      (cached : SharedCache.step s.background_cache (.work worker) = some cache) :
      Transition setup s (.work worker)
        ({ s with background_cache := cache }.goto worker .writing)
  | write {s : State κ} {worker : Nat} {cache : SharedCache.State Frame}
      (here : s.workers worker = .writing)
      (cached : SharedCache.step s.background_cache (.work worker) = some cache) :
      Transition setup s (.work worker) { s with background_cache := cache }
  | dropRef {s : State κ} {worker : Nat} {cache : SharedCache.State Frame}
      (here : s.workers worker = .writing)
      (cached : SharedCache.step s.background_cache (.dropRef worker) = some cache) :
      Transition setup s (.work worker)
        ({ s with background_cache := cache }.goto worker .waiting)
  | pop {s : State κ} {critical_count normal_count : U64} {sample : CriticalSample}
      {queue : List CriticalSample} (here : s.main = .pop critical_count normal_count)
      (front : s.critical_queue = sample :: queue) :
      Transition setup s .loop { s with
        critical_queue := queue, main := .dispatch sample critical_count normal_count }
  | invoke {s : State κ} {critical_count normal_count : U64} {sample : CriticalSample}
      {handler : Handler κ} (here : s.main = .dispatch sample critical_count normal_count)
      (handlers : setup.handlers[sample.handler_idx]? = some handler)
      (critical : handler.priority = .critical) :
      Transition setup s .loop ({ s with main := .pop (critical_count + 1) normal_count }.record
        (.invoked ⟨sample.handler_idx, handler.callback, sample.payload, none⟩))
  | hand {s : State κ} {critical_count normal_count : U64} {sample : CriticalSample}
      {handler : Handler κ} (here : s.main = .dispatch sample critical_count normal_count)
      (handlers : setup.handlers[sample.handler_idx]? = some handler)
      (relaxed : handler.priority ≠ .critical) :
      Transition setup s .loop { s with
        main := .pop critical_count (normal_count + 1)
        pool := s.pool.spawn_blocking
          ⟨sample.handler_idx, handler.callback, sample.payload, none⟩ }
  | turn {s : State κ} {main : Main} {counters : Counters}
      (onward : (∃ critical_count normal_count, s.main = .pop critical_count normal_count ∧
          s.critical_queue = [] ∧ main = .addCritical critical_count normal_count ∧
            counters = s.counters) ∨
        (∃ critical_count normal_count, s.main = .addCritical critical_count normal_count ∧
          main = .addNormal normal_count ∧ counters = { s.counters with
            critical_processed := s.counters.critical_processed + critical_count }) ∨
        (∃ normal_count, s.main = .addNormal normal_count ∧ main = .beginDrain ∧
          counters = { s.counters with
            normal_processed := s.counters.normal_processed + normal_count }) ∨
        ∃ background_count, s.main = .addBackground background_count ∧ main = .wait ∧
          counters = { s.counters with
            background_processed := s.counters.background_processed + background_count }) :
      Transition setup s .loop { s with main := main, counters := counters }
  | beginDrain {s : State κ} {order : List U64} {cache : SharedCache.State Frame}
      (here : s.main = .beginDrain)
      (cached : SharedCache.step s.background_cache (.drain order) = some cache) :
      Transition setup s (.drain order)
        { s with background_cache := cache, main := .drain 0 }
  | finish {s : State κ} {background_count : U64} {passed : List (U64 × Frame)}
      {cache : SharedCache.State Frame} (here : s.main = .drain background_count)
      (ended : s.background_cache.drainer = .drain [] passed)
      (cached : SharedCache.step s.background_cache .visit = some cache) :
      Transition setup s .loop
        { s with background_cache := cache, main := .addBackground background_count }
  | skim {s : State κ} {background_count : U64} {cache : SharedCache.State Frame}
      (here : s.main = .drain background_count) (nothing : s.background_cache.yields = none)
      (cached : SharedCache.step s.background_cache .visit = some cache) :
      Transition setup s .loop { s with background_cache := cache }
  | consume {s : State κ} {background_count hash : U64} {frame : Frame} {idx : Nat}
      {handler : Handler κ} {cache : SharedCache.State Frame}
      (here : s.main = .drain background_count)
      (yields : s.background_cache.yields = some (hash, frame))
      (cached : SharedCache.step s.background_cache .visit = some cache)
      (indexed : handler_index setup.handlers hash = some idx)
      (handlers : setup.handlers[idx]? = some handler) :
      Transition setup s .loop { s with
        background_cache := cache
        main := .drain (background_count + 1)
        pool := s.pool.spawn_blocking ⟨idx, handler.callback, frame, some hash⟩ }
  | unindexed {s : State κ} {background_count hash : U64} {frame : Frame}
      {cache : SharedCache.State Frame} (here : s.main = .drain background_count)
      (yields : s.background_cache.yields = some (hash, frame))
      (cached : SharedCache.step s.background_cache .visit = some cache)
      (absent : handler_index setup.handlers hash = none) :
      Transition setup s .loop ({ s with background_cache := cache }.record (.unindexed frame))
  | wake {s : State κ} {timeout wakeup : Bool} (here : s.main = .wait) :
      Transition setup s (.wake timeout) { s with main := .pop 0 0, wakeup := wakeup }
  | start {s : State κ} {task : Nat} {call : Call κ} (queued : s.pool.tasks[task]? = some call) :
      Transition setup s (.start task) { s with pool := s.pool.start task call }
  | run {s : State κ} {task : Nat} {call : Call κ} (taken : s.pool.started[task]? = some call) :
      Transition setup s (.invoke task)
        ({ s with pool := s.pool.invoke task call }.record (.invoked call))
  | complete {s : State κ} {task : Nat} {call : Call κ}
      (busy : s.pool.running[task]? = some call) :
      Transition setup s (.complete task)
        ({ s with pool := s.pool.complete task }.record (.completed call))

variable {setup : Setup κ} {s next : State κ} {action : Action}

/-- A step of the cache inside one of the reactor. -/
theorem cached_eq_some {operation : SharedCache.Action Frame}
    (stepped : s.cached operation = some next) :
    ∃ cache, SharedCache.step s.background_cache operation = some cache ∧
      next = { s with background_cache := cache } := by
  obtain ⟨cache, cached, rfl⟩ := Option.map_eq_some_iff.mp stepped
  exact ⟨cache, cached, rfl⟩

/-- Every round of the loop over the handlers is one of the transitions. -/
theorem spawn_transition {declared : Except String Unit}
    (stepped : spawn setup s declared = some next) :
    Transition setup s (.spawn declared) next := by
  simp only [spawn] at stepped
  split at stepped
  next idx here =>
    split at stepped
    next ended =>
      obtain rfl := Option.some.inj stepped
      exact .enter here ended
    next handler handlers =>
      split at stepped
      next message refused =>
        obtain rfl := Option.some.inj stepped
        exact .fail here
      next parsed =>
        split at stepped
        next message refused =>
          obtain rfl := Option.some.inj stepped
          exact .fail here
        next =>
          obtain rfl := Option.some.inj stepped
          exact .spawn here handlers parsed
  next => simp at stepped

/-- Every step of a task is one of the transitions. -/
theorem work_transition {worker : Nat} (stepped : work setup s worker = some next) :
    Transition setup s (.work worker) next := by
  simp only [work] at stepped
  split at stepped
  next => simp at stepped
  next handler handlers =>
    split at stepped
    next => simp at stepped
    next => simp at stepped
    next frame here =>
      split at stepped
      next =>
        obtain rfl := Option.some.inj stepped
        exact .offer here (.inl rfl)
      next =>
        obtain rfl := Option.some.inj stepped
        exact .offer here (.inr rfl)
      next background =>
        obtain ⟨mid, moved, rfl⟩ := Option.map_eq_some_iff.mp stepped
        obtain ⟨cache, cached, rfl⟩ := cached_eq_some moved
        split
        next present => exact .find here handlers background present cached
        next absent => exact .missing handlers background absent
    next here =>
      obtain rfl := Option.some.inj stepped
      exact .notify here
    next frame here =>
      obtain ⟨mid, moved, rfl⟩ := Option.map_eq_some_iff.mp stepped
      obtain ⟨cache, cached, rfl⟩ := cached_eq_some moved
      exact .lock here handlers cached
    next frame here =>
      obtain ⟨mid, moved, rfl⟩ := Option.map_eq_some_iff.mp stepped
      obtain ⟨cache, cached, rfl⟩ := cached_eq_some moved
      exact .count here handlers cached
    next here =>
      split at stepped
      next =>
        obtain ⟨mid, moved, rfl⟩ := Option.map_eq_some_iff.mp stepped
        obtain ⟨cache, cached, rfl⟩ := cached_eq_some moved
        exact .dropRef here cached
      next =>
        obtain ⟨cache, cached, rfl⟩ := cached_eq_some stepped
        exact .write here cached

/-- Every step of the loop is one of the transitions. -/
theorem loop_transition (stepped : loop setup s = some next) : Transition setup s .loop next := by
  simp only [loop] at stepped
  split at stepped
  next => simp at stepped
  next => simp at stepped
  next => simp at stepped
  next => simp at stepped
  next critical_count normal_count here =>
    by_cases front : s.critical_queue = []
    · have popped : BoundedFifo.pop s.critical_queue = none := by
        rw [front]
        rfl
      rw [popped] at stepped
      obtain rfl := Option.some.inj stepped
      exact .turn (.inl ⟨_, _, here, front, rfl, rfl⟩)
    · obtain ⟨sample, queue, front⟩ := List.exists_cons_of_ne_nil front
      have popped : BoundedFifo.pop s.critical_queue = some (sample, queue) := by
        rw [front]
        rfl
      rw [popped] at stepped
      obtain rfl := Option.some.inj stepped
      exact .pop here front
  next sample critical_count normal_count here =>
    simp only [dispatch] at stepped
    obtain ⟨handler, handlers, rfl⟩ := Option.map_eq_some_iff.mp stepped
    cases priority : handler.priority with
    | critical => exact .invoke here handlers priority
    | normal => exact .hand here handlers (by simp [priority])
    | background => exact .hand here handlers (by simp [priority])
  next critical_count normal_count here =>
    obtain rfl := Option.some.inj stepped
    exact .turn (.inr (.inl ⟨_, _, here, rfl, rfl⟩))
  next normal_count here =>
    obtain rfl := Option.some.inj stepped
    exact .turn (.inr (.inr (.inl ⟨_, here, rfl, rfl⟩)))
  next background_count here =>
    split at stepped
    next => simp at stepped
    next passed ended =>
      obtain ⟨mid, moved, rfl⟩ := Option.map_eq_some_iff.mp stepped
      obtain ⟨cache, cached, rfl⟩ := cached_eq_some moved
      exact .finish here ended cached
    next =>
      split at stepped
      next nothing =>
        obtain ⟨cache, cached, rfl⟩ := cached_eq_some stepped
        exact .skim here nothing cached
      next hash frame yields =>
        obtain ⟨mid, moved, consumed⟩ := Option.bind_eq_some_iff.mp stepped
        obtain ⟨cache, cached, rfl⟩ := cached_eq_some moved
        simp only [consume] at consumed
        split at consumed
        next absent =>
          obtain rfl := Option.some.inj consumed
          exact .unindexed here yields cached absent
        next idx indexed =>
          obtain ⟨handler, handlers, rfl⟩ := Option.map_eq_some_iff.mp consumed
          exact .consume here yields cached indexed handlers
  next background_count here =>
    obtain rfl := Option.some.inj stepped
    exact .turn (.inr (.inr (.inr ⟨_, here, rfl, rfl⟩)))

/-- Every step of the reactor is one of the transitions. -/
theorem step_transition (stepped : step setup s action = some next) :
    Transition setup s action next := by
  cases action with
  | spawn declared => exact spawn_transition stepped
  | receive worker payload =>
    simp only [step, receive] at stepped
    split at stepped
    next here =>
      obtain rfl := Option.some.inj stepped
      exact .receive here
    next => simp at stepped
  | work worker => exact work_transition stepped
  | loop => exact loop_transition stepped
  | drain order =>
    simp only [step] at stepped
    split at stepped
    next here =>
      obtain ⟨mid, moved, rfl⟩ := Option.map_eq_some_iff.mp stepped
      obtain ⟨cache, cached, rfl⟩ := cached_eq_some moved
      exact .beginDrain here cached
    next => simp at stepped
  | wake timeout =>
    simp only [step] at stepped
    split at stepped
    next here =>
      split at stepped
      next =>
        obtain rfl := Option.some.inj stepped
        exact .wake here
      next =>
        split at stepped
        next =>
          obtain rfl := Option.some.inj stepped
          exact .wake here
        next => simp at stepped
    next => simp at stepped
  | start task =>
    simp only [step] at stepped
    obtain ⟨call, queued, rfl⟩ := Option.map_eq_some_iff.mp stepped
    exact .start queued
  | invoke task =>
    simp only [step] at stepped
    obtain ⟨call, taken, rfl⟩ := Option.map_eq_some_iff.mp stepped
    exact .run taken
  | complete task =>
    simp only [step] at stepped
    obtain ⟨call, busy, rfl⟩ := Option.map_eq_some_iff.mp stepped
    exact .complete busy

section Registrations

/-- The last handler with a hash takes its place in the map. -/
theorem handler_index_snoc (handlers : List (Handler κ)) (handler : Handler κ) (hash : U64) :
    handler_index (handlers ++ [handler]) hash =
      if hash = handler.path_hash then some handlers.length else handler_index handlers hash := by
  rw [handler_index, List.zipIdx_append, List.foldl_append]
  by_cases same : hash = handler.path_hash
  · simp [same]
  · simp [same, handler_index]

/-- A hash leads to the last handler that has it. -/
theorem handler_index_eq_some {handlers : List (Handler κ)} {hash : U64} {idx : Nat} :
    handler_index handlers hash = some idx ↔
      (∃ handler, handlers[idx]? = some handler ∧ handler.path_hash = hash) ∧
        ∀ later other, idx < later → handlers[later]? = some other → other.path_hash ≠ hash := by
  induction handlers using List.reverseRecOn with
  | nil => simp [handler_index]
  | append_singleton handlers handler inductionHypothesis =>
    have last : (handlers ++ [handler])[handlers.length]? = some handler := by simp
    have within : ∀ {i : Nat} {found : Handler κ}, (handlers ++ [handler])[i]? = some found →
        i ≠ handlers.length → handlers[i]? = some found := by
      intro i found present other
      have bound : i < (handlers ++ [handler]).length :=
        (List.getElem?_eq_some_iff.mp present).1
      rw [List.length_append, List.length_singleton] at bound
      rwa [List.getElem?_append_left (by omega)] at present
    have beyond : ∀ {i : Nat} {found : Handler κ}, handlers[i]? = some found →
        i < handlers.length ∧ (handlers ++ [handler])[i]? = some found := by
      intro i found present
      have bound : i < handlers.length := (List.getElem?_eq_some_iff.mp present).1
      exact ⟨bound, by rwa [List.getElem?_append_left bound]⟩
    rw [handler_index_snoc]
    by_cases same : hash = handler.path_hash
    · rw [if_pos same]
      constructor
      · intro found
        obtain rfl := Option.some.inj found
        refine ⟨⟨handler, last, same.symm⟩, ?_⟩
        intro later other after present
        have bound := (List.getElem?_eq_some_iff.mp present).1
        rw [List.length_append, List.length_singleton] at bound
        omega
      · rintro ⟨⟨found, present, -⟩, latest⟩
        by_cases end_ : idx = handlers.length
        · rw [end_]
        · have bound := (beyond (within present end_)).1
          exact absurd same.symm (latest _ handler bound last)
    · rw [if_neg same, inductionHypothesis]
      constructor
      · rintro ⟨⟨found, present, hash_eq⟩, latest⟩
        refine ⟨⟨found, (beyond present).2, hash_eq⟩, ?_⟩
        intro later other after there
        by_cases end_ : later = handlers.length
        · rw [end_, last] at there
          rw [← Option.some.inj there]
          exact Ne.symm same
        · exact latest later other after (within there end_)
      · rintro ⟨⟨found, present, hash_eq⟩, latest⟩
        have other : idx ≠ handlers.length := by
          rintro rfl
          rw [last] at present
          obtain rfl := Option.some.inj present
          exact same hash_eq.symm
        refine ⟨⟨found, within present other, hash_eq⟩, ?_⟩
        exact fun later other after there => latest later other after (beyond there).2

/-- Every handler's hash leads somewhere. -/
theorem handler_index_isSome {handlers : List (Handler κ)} {handler : Handler κ}
    (member : handler ∈ handlers) : (handler_index handlers handler.path_hash).isSome := by
  induction handlers using List.reverseRecOn with
  | nil => simp at member
  | append_singleton handlers last inductionHypothesis =>
    rw [handler_index_snoc]
    split
    · rfl
    next other =>
      rcases List.mem_append.mp member with earlier | new
      · exact inductionHypothesis earlier
      · exact absurd (congrArg Handler.path_hash (List.mem_singleton.mp new)) other

/-- What the registrations leave behind: slots for the BACKGROUND handlers, all of them
empty, and nobody in the cache. -/
structure Registered (reactor : DataFlowReactor κ) : Prop where
  reached : (SharedCache.machine Frame).Reachable reactor.background_cache
  readers : reactor.background_cache.readers = []
  threads : reactor.background_cache.threads = fun _ => .idle
  drainer : reactor.background_cache.drainer = .idle
  holder : reactor.background_cache.holder = fun _ => none
  pending : ∀ key, reactor.background_cache.pending key = none
  frames : ∀ key, SharedCache.frames key reactor.background_cache.log = []
  overwrites : SharedCache.overwrites reactor.background_cache.log = []
  keys : ∀ hash, hash ∈ reactor.background_cache.cache.keys ↔
    ∃ handler ∈ reactor.handlers, handler.priority = .background ∧ handler.path_hash = hash

/-- One more registration. -/
theorem Registered.register {reactor : DataFlowReactor κ} (registered : Registered reactor)
    (config : HandlerConfig κ) : Registered (reactor.register_handler config) := by
  have sound := SharedCache.reachable_sound registered.reached
  by_cases background : config.priority = .background
  · have stepped : SharedCache.step reactor.background_cache
        (.pre_allocate (fnv1a_hash config.path)) =
          some (reactor.register_handler config).background_cache := by
      simp [SharedCache.step, registered.readers, registered.drainer,
        DataFlowReactor.register_handler, background]
    have slots : (reactor.background_cache.cache.pre_allocate (fnv1a_hash config.path)).slots =
        reactor.background_cache.cache.slots :=
      LatestSampleCache.slots_pre_allocate (sound.absent _)
    have cache : (reactor.register_handler config).background_cache =
        { reactor.background_cache with
          cache := reactor.background_cache.cache.pre_allocate (fnv1a_hash config.path) }.record
            (.allocated (fnv1a_hash config.path)) := by
      simp [DataFlowReactor.register_handler, background]
    refine ⟨registered.reached.after (.pre_allocate (fnv1a_hash config.path)) stepped, ?_, ?_, ?_,
      ?_, ?_, ?_, ?_, ?_⟩
    · rw [cache]
      exact registered.readers
    · rw [cache]
      exact registered.threads
    · rw [cache]
      exact registered.drainer
    · rw [cache]
      exact registered.holder
    · intro key
      rw [cache, ← registered.pending key]
      exact SharedCache.pending_congr (by simp [SharedCache.State.record, slots]) rfl
        (fun _ _ => rfl)
    · intro key
      rw [cache, ← registered.frames key]
      simp [SharedCache.State.record, SharedCache.frames]
    · rw [cache, ← registered.overwrites]
      simp [SharedCache.State.record, SharedCache.overwrites]
    · intro hash
      rw [cache]
      simp only [SharedCache.State.record, LatestSampleCache.mem_pre_allocate, registered.keys,
        DataFlowReactor.register_handler]
      constructor
      · rintro (⟨handler, member, rest⟩ | rfl)
        · exact ⟨handler, List.mem_append_left _ member, rest⟩
        · exact ⟨_, List.mem_append_right _ (List.mem_singleton.mpr rfl), background, rfl⟩
      · rintro ⟨handler, member, priority, rfl⟩
        rcases List.mem_append.mp member with earlier | new
        · exact .inl ⟨handler, earlier, priority, rfl⟩
        · exact .inr (by rw [List.mem_singleton.mp new])
  · have cache : (reactor.register_handler config).background_cache =
        reactor.background_cache := by
      cases priority : config.priority with
      | background => exact absurd priority background
      | critical => simp [DataFlowReactor.register_handler, priority]
      | normal => simp [DataFlowReactor.register_handler, priority]
    obtain ⟨reached, readers, threads, drainer, holder, pending, frames, overwrites, keys⟩ :=
      registered
    rw [← cache] at reached readers threads drainer holder pending frames overwrites
    refine ⟨reached, readers, threads, drainer, holder, pending, frames, overwrites,
      fun hash => ?_⟩
    rw [cache, keys hash]
    constructor
    · rintro ⟨handler, member, rest⟩
      exact ⟨handler, List.mem_append_left _ member, rest⟩
    · rintro ⟨handler, member, priority, same⟩
      rcases List.mem_append.mp member with earlier | new
      · exact ⟨handler, earlier, priority, same⟩
      · rw [List.mem_singleton.mp new] at priority
        exact absurd priority background

/-- The registrations leave the handlers, the slots and nothing pending. -/
theorem registered_reactor (setup : Setup κ) : Registered setup.reactor := by
  have fresh : Registered (DataFlowReactor.new : DataFlowReactor κ) :=
    ⟨.start, rfl, rfl, rfl, rfl, fun _ => rfl, fun _ => rfl, rfl,
      by simp [DataFlowReactor.new, SharedCache.init, LatestSampleCache.new]⟩
  suffices all : ∀ (configs : List (HandlerConfig κ)) (reactor : DataFlowReactor κ),
      Registered reactor → Registered (configs.foldl .register_handler reactor) from
    all setup.configs .new fresh
  intro configs
  induction configs with
  | nil => exact fun _ registered => registered
  | cons config rest inductionHypothesis =>
    exact fun _ registered => inductionHypothesis _ (registered.register config)

end Registrations

/-- A handler is there, and its key expression parses. -/
def Declares (setup : Setup κ) (idx : Nat) : Prop :=
  ∃ handler, setup.handlers[idx]? = some handler ∧ setup.keyExpr handler.path = .ok ()

/-- `run()` is past the loop over the handlers. -/
def Main.looping : Main → Bool
  | .spawning _ | .failed _ => false
  | _ => true

/-- Where the thread of a task is in the cache. -/
def Placed (setup : Setup κ) (worker : Nat) : Work → SharedCache.Pc Frame → Prop
  | .found _, pc => ∃ handler, setup.handlers[worker]? = some handler ∧
      handler.priority = .background ∧ pc = .found handler.path_hash
  | .locked frame, pc => ∃ handler, setup.handlers[worker]? = some handler ∧
      handler.priority = .background ∧ pc = .locked handler.path_hash handler.path_hash frame
  | .writing, pc => ∃ handler, setup.handlers[worker]? = some handler ∧
      handler.priority = .background ∧ ((∃ frame, pc = .counted handler.path_hash frame) ∨
        pc = .stored handler.path_hash ∨ pc = .found handler.path_hash)
  | .absent, pc | .waiting, pc | .holding _, pc | .notifying, pc => pc = .idle

/-- The tasks, the loop and the threads of the cache are at the same places. -/
structure Linked (setup : Setup κ) (s : State κ) : Prop where
  reached : (SharedCache.machine Frame).Reachable s.background_cache
  keys : s.background_cache.cache.keys = setup.reactor.background_cache.cache.keys
  placed : ∀ worker, Placed setup worker (s.workers worker) (s.background_cache.threads worker)
  declared : ∀ worker, s.workers worker ≠ .absent → ∀ idx ≤ worker, Declares setup idx
  starting : ∀ idx, s.main = .spawning idx → (∀ earlier < idx, Declares setup earlier) ∧
    ∀ later, idx ≤ later → s.workers later = .absent
  looping : s.main.looping = true →
    ∀ handler ∈ setup.handlers, setup.keyExpr handler.path = .ok ()

/-- Where a worker stands, its cache stands too. -/
theorem Linked.at_work {setup : Setup κ} {s : State κ} (linked : Linked setup s) {worker : Nat}
    {work : Work} (here : s.workers worker = work) :
    Placed setup worker work (s.background_cache.threads worker) :=
  here ▸ linked.placed worker

/-- Nothing has been spawned. -/
theorem linked_init (setup : Setup κ) : Linked setup (init setup) where
  reached := (registered_reactor setup).reached
  keys := rfl
  placed worker := by
    rw [show (init setup).background_cache.threads = fun _ => .idle from
      (registered_reactor setup).threads]
    rfl
  declared worker spawned := absurd rfl spawned
  starting := by
    rintro idx ⟨⟩
    exact ⟨fun earlier below => absurd below (Nat.not_lt_zero earlier), fun _ _ => rfl⟩
  looping running := by simp [init, Main.looping] at running

section Moves

variable {worker : Nat} {work : Work}

/-- A step of the reactor's cache is one of a run of the cache. -/
theorem Linked.cached (linked : Linked setup s) {operation : SharedCache.Action Frame}
    {cache : SharedCache.State Frame}
    (cached : SharedCache.step s.background_cache operation = some cache) :
    (SharedCache.machine Frame).Reachable cache :=
  linked.reached.after operation cached

/-- One task moves, and nobody else does. -/
theorem Linked.worked (linked : Linked setup s) (spawned : s.workers worker ≠ .absent)
    (workers : next.workers = Function.update s.workers worker work)
    (reached : (SharedCache.machine Frame).Reachable next.background_cache)
    (keys : next.background_cache.cache.keys = s.background_cache.cache.keys)
    (others : ∀ found, found ≠ worker →
      next.background_cache.threads found = s.background_cache.threads found)
    (own : Placed setup worker work (next.background_cache.threads worker))
    (main : next.main = s.main) : Linked setup next where
  reached := reached
  keys := keys.trans linked.keys
  placed found := by
    rw [workers]
    by_cases same : found = worker
    · subst same
      rw [Function.update_self]
      exact own
    · rw [Function.update_of_ne same, others found same]
      exact linked.placed found
  declared found there := by
    by_cases same : found = worker
    · subst same
      exact linked.declared found spawned
    · rw [workers, Function.update_of_ne same] at there
      exact linked.declared found there
  starting idx here := by
    rw [main] at here
    obtain ⟨declared, absent⟩ := linked.starting idx here
    refine ⟨declared, fun later above => ?_⟩
    have other : later ≠ worker := by
      rintro rfl
      exact spawned (absent later above)
    rw [workers, Function.update_of_ne other]
    exact absent later above
  looping := by
    rw [main]
    exact linked.looping

/-- The same, by a step of the task in the cache. -/
theorem Linked.acted (linked : Linked setup s) {operation : SharedCache.Action Frame}
    (cached : SharedCache.step s.background_cache operation = some next.background_cache)
    (mine : SharedCache.actor operation = some worker) (spawned : s.workers worker ≠ .absent)
    (workers : next.workers = Function.update s.workers worker work)
    (own : Placed setup worker work (next.background_cache.threads worker))
    (main : next.main = s.main) : Linked setup next := by
  refine linked.worked spawned workers (linked.cached cached) (SharedCache.keys_kept cached ?_) ?_
    own main
  · rintro key rfl
    simp [SharedCache.actor] at mine
  · intro found other
    apply SharedCache.threads_other cached
    rw [mine]
    exact fun same => other (Option.some.inj same).symm

/-- No task moves; the loop stays the loop. -/
theorem Linked.turn (linked : Linked setup s) (workers : next.workers = s.workers)
    (reached : (SharedCache.machine Frame).Reachable next.background_cache)
    (keys : next.background_cache.cache.keys = s.background_cache.cache.keys)
    (threads : next.background_cache.threads = s.background_cache.threads)
    (main : next.main = s.main ∨ s.main.looping = true ∧ next.main.looping = true) :
    Linked setup next where
  reached := reached
  keys := keys.trans linked.keys
  placed := by
    rw [workers, threads]
    exact linked.placed
  declared := by
    rw [workers]
    exact linked.declared
  starting idx here := by
    rcases main with same | ⟨-, running⟩
    · rw [workers]
      exact linked.starting idx (same ▸ here)
    · rw [here] at running
      simp [Main.looping] at running
  looping := by
    rcases main with same | ⟨before, -⟩
    · rw [same]
      exact linked.looping
    · exact fun _ => linked.looping before

/-- The same, by a step of the loop in the cache. -/
theorem Linked.walked (linked : Linked setup s) {operation : SharedCache.Action Frame}
    (cached : SharedCache.step s.background_cache operation = some next.background_cache)
    (fixed : ∀ key, operation ≠ .pre_allocate key) (nobody : SharedCache.actor operation = none)
    (workers : next.workers = s.workers)
    (main : next.main = s.main ∨ s.main.looping = true ∧ next.main.looping = true) :
    Linked setup next :=
  linked.turn workers (linked.cached cached) (SharedCache.keys_kept cached fixed)
    (funext fun _ => SharedCache.threads_other cached (by simp [nobody])) main

end Moves

/-- Every transition keeps the places in step. -/
theorem linked_transition (linked : Linked setup s) (moved : Transition setup s action next) :
    Linked setup next := by
  cases moved with
  | @enter declared idx here ended =>
    obtain ⟨declared, -⟩ := linked.starting idx here
    refine ⟨linked.reached, linked.keys, linked.placed, linked.declared, ?_, ?_⟩
    · rintro found ⟨⟩
    · intro _ handler member
      obtain ⟨earlier, bound, rfl⟩ := List.mem_iff_getElem.mp member
      have below : earlier < idx := Nat.lt_of_lt_of_le bound (List.getElem?_eq_none_iff.mp ended)
      obtain ⟨found, there, parsed⟩ := declared earlier below
      rw [List.getElem?_eq_getElem bound] at there
      exact Option.some.inj there ▸ parsed
  | fail here =>
    refine ⟨linked.reached, linked.keys, linked.placed, linked.declared, ?_, ?_⟩
    · rintro found ⟨⟩
    · intro running
      simp [Main.looping] at running
  | @spawn declared idx handler here handlers parsed =>
    obtain ⟨declared, absent⟩ := linked.starting idx here
    have all : ∀ earlier ≤ idx, Declares setup earlier := by
      intro earlier within
      rcases Nat.lt_or_eq_of_le within with below | rfl
      · exact declared earlier below
      · exact ⟨handler, handlers, parsed⟩
    have idle : s.background_cache.threads idx = .idle :=
      linked.at_work (absent idx (Nat.le_refl idx))
    refine ⟨linked.reached, linked.keys, ?_, ?_, ?_, ?_⟩
    · intro worker
      by_cases same : worker = idx
      · subst same
        simpa [State.goto, Placed] using idle
      · simpa [State.goto, Function.update_of_ne same] using linked.placed worker
    · intro worker there
      by_cases same : worker = idx
      · subst same
        exact all
      · exact linked.declared worker (by simpa [State.goto, same] using there)
    · rintro found ⟨⟩
      refine ⟨fun earlier below => all earlier (Nat.le_of_lt_succ below), fun later above => ?_⟩
      have other : later ≠ idx := by omega
      simpa [State.goto, Function.update_of_ne other] using absent later (by omega)
    · intro running
      simp [State.goto, Main.looping] at running
  | @receive worker payload here =>
    have placed : s.background_cache.threads worker = .idle := linked.at_work here
    exact linked.worked (by simp [here]) rfl linked.reached rfl (fun _ _ => rfl) placed rfl
  | @offer worker frame next here free =>
    have placed := linked.at_work here
    refine linked.worked (by simp [here]) rfl linked.reached rfl (fun _ _ => rfl) ?_ rfl
    rcases free with rfl | rfl <;> exact placed
  | @find worker frame handler cache here handlers background present cached =>
    have idle : s.background_cache.threads worker = .idle := linked.at_work here
    refine linked.acted cached rfl (by simp [here]) rfl ⟨handler, handlers, background, ?_⟩ rfl
    simp only [SharedCache.step, idle, if_pos present] at cached
    obtain rfl := Option.some.inj cached
    exact Function.update_self worker _ _
  | @missing worker frame handler cache handlers background absent =>
    have present := ((registered_reactor setup).keys handler.path_hash).mpr
      ⟨handler, List.mem_of_getElem? handlers, background, rfl⟩
    exact absurd (linked.keys ▸ present) absent
  | @notify worker here =>
    have placed : s.background_cache.threads worker = .idle := linked.at_work here
    exact linked.worked (by simp [here]) rfl linked.reached rfl (fun _ _ => rfl) placed rfl
  | @lock worker frame handler cache here handlers cached =>
    obtain ⟨found, there, background, pc⟩ := linked.at_work here
    obtain rfl : handler = found := Option.some.inj (handlers.symm.trans there)
    refine linked.acted cached rfl (by simp [here]) rfl ⟨handler, handlers, background, ?_⟩ rfl
    simp only [SharedCache.step, pc] at cached
    split at cached
    next =>
      obtain rfl := Option.some.inj cached
      exact Function.update_self worker _ _
    next => simp at cached
  | @count worker frame handler cache here handlers cached =>
    obtain ⟨found, there, background, pc⟩ := linked.at_work here
    have after := (SharedCache.stored_step (SharedCache.reachable_sound linked.reached) cached pc).2
    exact linked.acted cached rfl (by simp [here]) rfl
      ⟨found, there, background, .inl ⟨frame, after⟩⟩ rfl
  | @write worker cache here cached =>
    obtain ⟨handler, there, background, pc⟩ := linked.at_work here
    refine linked.acted cached rfl (by simp [here]) (Function.update_eq_self worker _).symm ?_ rfl
    rw [here]
    refine ⟨handler, there, background, ?_⟩
    rcases pc with ⟨frame, pc⟩ | pc | pc
    · simp only [SharedCache.step, SharedCache.work, pc] at cached
      obtain rfl := Option.some.inj cached
      exact .inr (.inl (Function.update_self worker _ _))
    · simp only [SharedCache.step, SharedCache.work, pc] at cached
      obtain rfl := Option.some.inj cached
      exact .inr (.inr (Function.update_self worker _ _))
    · simp [SharedCache.step, SharedCache.work, pc] at cached
  | @dropRef worker cache here cached =>
    refine linked.acted cached rfl (by simp [here]) rfl ?_ rfl
    simp only [SharedCache.step] at cached
    split at cached
    next =>
      obtain rfl := Option.some.inj cached
      exact Function.update_self worker _ _
    next => simp at cached
  | pop here front =>
    exact linked.turn rfl linked.reached rfl rfl (.inr ⟨by rw [here]; rfl, rfl⟩)
  | invoke here handlers critical =>
    exact linked.turn rfl linked.reached rfl rfl (.inr ⟨by rw [here]; rfl, rfl⟩)
  | hand here handlers relaxed =>
    exact linked.turn rfl linked.reached rfl rfl (.inr ⟨by rw [here]; rfl, rfl⟩)
  | turn onward =>
    refine linked.turn rfl linked.reached rfl rfl (.inr ?_)
    rcases onward with ⟨_, _, here, _, rfl, _⟩ | ⟨_, _, here, rfl, _⟩ | ⟨_, here, rfl, _⟩ |
      ⟨_, here, rfl, _⟩
    all_goals exact ⟨by rw [here]; rfl, rfl⟩
  | beginDrain here cached =>
    exact linked.walked cached (by simp) rfl rfl (.inr ⟨by rw [here]; rfl, rfl⟩)
  | finish here ended cached =>
    exact linked.walked cached (by simp) rfl rfl (.inr ⟨by rw [here]; rfl, rfl⟩)
  | skim here nothing cached => exact linked.walked cached (by simp) rfl rfl (.inl rfl)
  | consume here yields cached indexed handlers =>
    exact linked.walked cached (by simp) rfl rfl (.inr ⟨by rw [here]; rfl, rfl⟩)
  | unindexed here yields cached absent => exact linked.walked cached (by simp) rfl rfl (.inl rfl)
  | wake here => exact linked.turn rfl linked.reached rfl rfl (.inr ⟨by rw [here]; rfl, rfl⟩)
  | start | run | complete => exact linked.turn rfl linked.reached rfl rfl (.inl rfl)

/-- In every run the reactor and its cache are in step. -/
theorem reachable_linked (reached : (machine setup).Reachable s) : Linked setup s :=
  Machine.invariant (Linked setup) (linked_init setup)
    (fun _ _ _ _ linked stepped => linked_transition linked (step_transition stepped)) reached

end FlowKernel.Rust.Reactor
