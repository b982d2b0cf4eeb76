import FlowKernel.Reactor
import FlowKernel.Rust.HandlerRouting

/-!
# Where the routing of the Rust reactor fails

If two BACKGROUND handlers share a slot, a frame of one can be overwritten by a frame of
the other; if a later handler with another callback has the hash of a BACKGROUND
handler, a frame of the latter can go to that callback. Together with the converse this
says exactly which registrations are safe.
-/

namespace FlowKernel.Rust

open Foundation

universe u

namespace SharedCache

variable {π : Type u} {s : State π} {thread : Nat} {key : U64} {data : π}

/-- A thread finds its slot. -/
theorem find_step (idle : s.threads thread = .idle) (present : key ∈ s.cache.keys) :
    step s (.get_slot thread key) =
      some ({ s with readers := thread :: s.readers }.goto thread (.found key)) := by
  simp only [step, idle, if_pos present]

/-- A thread takes the free lock. -/
theorem lock_step {hash : U64} (here : s.threads thread = .found key)
    (free : s.holder key = none) :
    step s (.put thread hash data) =
      some ((s.setHolder key (some thread)).goto thread (.locked key hash data)) := by
  simp only [step, here, free]

/-- A thread counts the overwrite of its put. -/
theorem count_step {hash : U64} (here : s.threads thread = .locked key hash data) :
    step s (.work thread) = some (((s.setSlot key (s.cache.slots key).count).goto thread
      (.counted key data)).record
        (.put thread key hash data ((s.cache.slots key).putOperation data))) := by
  simp only [step, work, here]

/-- A thread stores the frame of its put. -/
theorem store_step (here : s.threads thread = .counted key data) :
    step s (.work thread) =
      some ((s.setSlot key ((s.cache.slots key).store data)).goto thread (.stored key)) := by
  simp only [step, work, here]

/-- A thread gives the lock up. -/
theorem unlock_step (here : s.threads thread = .stored key) :
    step s (.work thread) = some ((s.setHolder key none).goto thread (.found key)) := by
  simp only [step, work, here]

/-- A thread leaves its slot. -/
theorem dropRef_step (here : s.threads thread = .found key) :
    step s (.dropRef thread) =
      some ({ s with readers := s.readers.erase thread }.goto thread .idle) := by
  simp only [step, here]

/-- A whole put of a thread that nobody disturbs, step by step. -/
structure PutRun (s : State π) (thread : Nat) (key : U64) (data : π)
    (found locked counted stored unlocked left : State π) : Prop where
  find : step s (.get_slot thread key) = some found
  lock : step found (.put thread key data) = some locked
  atLocked : locked.threads thread = .locked key key data
  count : step locked (.work thread) = some counted
  atCounted : counted.threads thread = .counted key data
  store : step counted (.work thread) = some stored
  atStored : stored.threads thread = .stored key
  unlock : step stored (.work thread) = some unlocked
  atUnlocked : unlocked.threads thread = .found key
  dropRef : step unlocked (.dropRef thread) = some left
  holder : left.holder = s.holder
  drainer : left.drainer = s.drainer

/-- A thread alone can put from the beginning to the end. -/
theorem put_run (data : π) (idle : s.threads thread = .idle) (present : key ∈ s.cache.keys)
    (free : s.holder key = none) :
    ∃ found locked counted stored unlocked left,
      PutRun s thread key data found locked counted stored unlocked left := by
  refine ⟨_, _, _, _, _, _, find_step idle present, lock_step (Function.update_self ..) free,
    Function.update_self .., count_step (Function.update_self ..), Function.update_self ..,
    store_step (Function.update_self ..), Function.update_self ..,
    unlock_step (Function.update_self ..), Function.update_self ..,
    dropRef_step (Function.update_self ..), ?_, rfl⟩
  funext found
  by_cases same : found = key
  · subst same
    simp [State.goto, State.setHolder, State.setSlot, State.record, free]
  · simp [State.goto, State.setHolder, State.setSlot, State.record, same]

/-- Only the count moves frames. -/
theorem PutRun.effect {found locked counted stored unlocked left : State π}
    (run : PutRun s thread key data found locked counted stored unlocked left)
    (reached : (machine π).Reachable s) :
    left.pending = Function.update s.pending key (some data) ∧
      overwrites left.log =
        overwrites s.log ++ ((s.pending key).map fun old => (old, data)).toList := by
  have atFound := reached.after (.get_slot thread key) run.find
  have atLocked := atFound.after (.put thread key data) run.lock
  have atCounted := atLocked.after (.work thread) run.count
  have atStored := atCounted.after (.work thread) run.store
  have atUnlocked := atStored.after (.work thread) run.unlock
  have first := quiet_step (reachable_sound reached) run.find (by simp [Stirs])
  have second := quiet_step (reachable_sound atFound) run.lock (by simp [Stirs])
  have third := (stored_step (reachable_sound atLocked) run.count run.atLocked).1
  have fourth := quiet_step (reachable_sound atCounted) run.store (by simp [Stirs, run.atCounted])
  have fifth := quiet_step (reachable_sound atStored) run.unlock (by simp [Stirs, run.atStored])
  have sixth := quiet_step (reachable_sound atUnlocked) run.dropRef (by simp [Stirs])
  have before : locked.pending = s.pending :=
    funext fun found => (second.pending found).trans (first.pending found)
  refine ⟨?_, ?_⟩
  · rw [funext sixth.pending, funext fifth.pending, funext fourth.pending, third.pending, before]
  · rw [sixth.overwrites, fifth.overwrites, fourth.overwrites, third.overwrites,
      second.overwrites, first.overwrites, before]

end SharedCache

namespace Reactor

variable {κ : Type u} {setup : Setup κ} {s : State κ}

/-- A run with one more step. -/
theorem reachable_step {next : State κ} {action : Action} (reached : (machine setup).Reachable s)
    (stepped : step setup s action = some next) : (machine setup).Reachable next :=
  reached.after action stepped

/-- What one undisturbed put of a task changes. -/
structure AfterPut (s next : State κ) (key : U64) (frame : Frame) : Prop where
  main : next.main = s.main
  pool : next.pool = s.pool
  queue : next.critical_queue = s.critical_queue
  workers : next.workers = s.workers
  holder : next.background_cache.holder = s.background_cache.holder
  drainer : next.background_cache.drainer = s.background_cache.drainer
  slots : next.view.slots = Function.update s.view.slots key (some frame)
  overwritten : next.view.overwritten =
    s.view.overwritten ++ ((s.view.slots key).map fun old => (old, frame)).toList

/-- A task alone can store the frame it receives. -/
theorem put_run (reached : (machine setup).Reachable s) {worker : Nat} {handler : Handler κ}
    (waiting : s.workers worker = .waiting) (handlers : setup.handlers[worker]? = some handler)
    (background : handler.priority = .background)
    (free : s.background_cache.holder handler.path_hash = none) :
    ∃ next, (machine setup).Reachable next ∧
      AfterPut s next handler.path_hash ⟨worker, s.received, []⟩ := by
  have linked := reachable_linked reached
  have idle : s.background_cache.threads worker = .idle := linked.at_work waiting
  have present : handler.path_hash ∈ s.background_cache.cache.keys := by
    rw [linked.keys]
    exact ((registered_reactor setup).keys _).mpr
      ⟨handler, List.mem_of_getElem? handlers, background, rfl⟩
  let frame : Frame := ⟨worker, s.received, []⟩
  obtain ⟨found, locked, counted, stored, unlocked, left, run⟩ :=
    SharedCache.put_run frame idle present free
  obtain ⟨slots, overwritten⟩ := run.effect linked.reached
  let s1 := ({ s with received := s.received + 1 }.goto worker (.holding frame)).record
    (.received frame)
  let s2 := { s1 with background_cache := found }.goto worker (.found frame)
  let s3 := { s2 with background_cache := locked }.goto worker (.locked frame)
  let s4 := { s3 with background_cache := counted }.goto worker .writing
  let s5 := { s4 with background_cache := stored }
  let s6 := { s5 with background_cache := unlocked }
  let s7 := { s6 with background_cache := left }.goto worker .waiting
  have to1 : step setup s (.receive worker []) = some s1 := by
    simp [step, receive, waiting, s1, frame]
  have to2 : step setup s1 (.work worker) = some s2 := by
    simp [step, work, handlers, background, State.cached, s1, s2, State.goto, State.record,
      run.find, present]
  have to3 : step setup s2 (.work worker) = some s3 := by
    simp [step, work, handlers, State.cached, s2, s3, State.goto, run.lock]
  have to4 : step setup s3 (.work worker) = some s4 := by
    simp [step, work, handlers, State.cached, s3, s4, State.goto, run.count]
  have to5 : step setup s4 (.work worker) = some s5 := by
    simp [step, work, handlers, State.cached, s4, s5, State.goto, run.atCounted, run.store]
  have to6 : step setup s5 (.work worker) = some s6 := by
    simp [step, work, handlers, State.cached, s4, s5, s6, State.goto, run.atStored, run.unlock]
  have to7 : step setup s6 (.work worker) = some s7 := by
    simp [step, work, handlers, State.cached, s4, s5, s6, s7, State.goto, run.atUnlocked,
      run.dropRef]
  have at4 : (machine setup).Reachable s4 :=
    reachable_step (reachable_step (reachable_step (reachable_step reached to1) to2) to3) to4
  have at7 : (machine setup).Reachable s7 :=
    reachable_step (reachable_step (reachable_step at4 to5) to6) to7
  refine ⟨s7, at7, rfl, rfl, rfl, ?_, run.holder, run.drainer, slots, overwritten⟩
  funext other
  by_cases same : other = worker
  · subst same
    simp [s7, State.goto, waiting]
  · simp [s7, s6, s5, s4, s3, s2, s1, State.goto, State.record, same]

/-- The first rounds of the loop over the handlers. -/
theorem spawn_run (count : Nat) (declared : ∀ idx < count, Declares setup idx) :
    ∃ next, (machine setup).Reachable next ∧ next.main = .spawning count ∧
      (∀ idx < count, next.workers idx = .waiting) ∧
        next.background_cache = (init setup).background_cache ∧ next.critical_queue = [] ∧
          next.pool = ⟨[], [], []⟩ := by
  induction count with
  | zero => exact ⟨init setup, .start, rfl, by simp, rfl, rfl, rfl⟩
  | succ count inductionHypothesis =>
    obtain ⟨s, reached, main, waiting, cache, queue, pool⟩ :=
      inductionHypothesis fun idx below => declared idx (Nat.lt_succ_of_lt below)
    obtain ⟨handler, handlers, parsed⟩ := declared count (Nat.lt_succ_self count)
    have stepped : step setup s (.spawn (.ok ())) =
        some ({ s with main := .spawning (count + 1) }.goto count .waiting) := by
      simp [step, spawn, main, handlers, parsed]
    refine ⟨_, reachable_step reached stepped, rfl, ?_, cache, queue, pool⟩
    intro idx below
    by_cases same : idx = count
    · subst same
      exact Function.update_self ..
    · exact (Function.update_of_ne same _ _).trans (waiting idx (by omega))

/-- Two handlers that share a slot. -/
theorem overwrite_run {left right : Nat} {first second : Handler κ} (distinct : left ≠ right)
    (there : setup.handlers[left]? = some first) (here : setup.handlers[right]? = some second)
    (firstLoose : first.priority = .background) (secondLoose : second.priority = .background)
    (leftDeclared : ∀ idx ≤ left, Declares setup idx)
    (rightDeclared : ∀ idx ≤ right, Declares setup idx)
    (same : first.path_hash = second.path_hash) :
    ∃ s, (machine setup).Reachable s ∧ ¬ Routed setup s.view := by
  have declared : ∀ idx < max left right + 1, Declares setup idx := by
    intro idx below
    rcases Nat.le_total left right with order | order
    · exact rightDeclared idx (by omega)
    · exact leftDeclared idx (by omega)
  obtain ⟨s, reached, -, waiting, cache, -, -⟩ := spawn_run (max left right + 1) declared
  have holder : s.background_cache.holder = fun _ => none := by
    rw [cache]
    exact (registered_reactor setup).holder
  obtain ⟨mid, reachedMid, put⟩ := put_run reached (waiting left (by omega)) there firstLoose
    (by rw [holder])
  obtain ⟨last, reachedLast, again⟩ := put_run reachedMid
    (by rw [put.workers]; exact waiting right (by omega)) here secondLoose
      (by rw [put.holder, holder])
  refine ⟨last, reachedLast, fun routed => distinct ?_⟩
  have lost : ((⟨left, s.received, []⟩ : Frame), (⟨right, mid.received, []⟩ : Frame)) ∈
      last.view.overwritten := by
    rw [again.overwritten, put.slots, same]
    simp
  exact (routed.newer _ _ lost).1

/-- The main loop, entered with an empty queue and one frame in a slot, hands that frame
to the handler that the index names. -/
theorem drain_run (reached : (machine setup).Reachable s)
    (main : s.main = .spawning setup.handlers.length) (queue : s.critical_queue = [])
    (pool : s.pool = ⟨[], [], []⟩) (idle : s.background_cache.drainer = .idle) {key : U64}
    {frame : Frame}
    (present : key ∈ s.background_cache.cache.keys)
    (free : s.background_cache.holder key = none)
    (held : s.background_cache.pending key = some frame)
    {last : Nat} {other : Handler κ} (indexed : handler_index setup.handlers key = some last)
    (there : setup.handlers[last]? = some other) :
    ∃ next, (machine setup).Reachable next ∧
      (⟨last, other.callback, frame, some key⟩ : Call κ) ∈ calls next.log := by
  have sound := SharedCache.reachable_sound (reachable_linked reached).reached
  have payload : (s.background_cache.cache.slots key).payload = some frame :=
    (SharedCache.pending_free free).symm.trans held
  have hash : (s.background_cache.cache.slots key).handler_hash = key := (sound.slot key).own
  let order := key :: s.background_cache.cache.keys.erase key
  have listed : order.Perm s.background_cache.cache.keys := (List.perm_cons_erase present).symm
  let draining := { s.background_cache with drainer := .drain order [] }
  have begun : SharedCache.step s.background_cache (.drain order) = some draining := by
    simp [SharedCache.step, idle, listed, draining]
  have yields : draining.yields = some (key, frame) := by
    simp [SharedCache.State.yields, draining, order, free, LatestSampleSlot.take, payload, hash]
  obtain ⟨visited, visit⟩ : ∃ visited, SharedCache.step draining .visit = some visited := by
    simp [SharedCache.step, SharedCache.visit, draining, order, free]
  let call : Call κ := ⟨last, other.callback, frame, some key⟩
  let s1 := { s with main := .pop 0 0 }
  let s2 := { s1 with main := .addCritical 0 0 }
  let s3 := { s2 with
    main := .addNormal 0
    counters := { s2.counters with critical_processed := s2.counters.critical_processed + 0 } }
  let s4 := { s3 with
    main := .beginDrain
    counters := { s3.counters with normal_processed := s3.counters.normal_processed + 0 } }
  let s5 := { s4 with background_cache := draining, main := .drain 0 }
  let s6 := { s5 with
    background_cache := visited, main := .drain (0 + 1), pool := ⟨[call], [], []⟩ }
  let s7 := { s6 with pool := ⟨[], [call], []⟩ }
  let s8 := { s7 with pool := ⟨[], [], [call]⟩ }.record (.invoked call)
  have to1 : step setup s (.spawn (.ok ())) = some s1 := by simp [step, spawn, main, s1]
  have to2 : step setup s1 .loop = some s2 := by
    simp [step, loop, s1, s2, queue, BoundedFifo.pop]
  have to3 : step setup s2 .loop = some s3 := by simp [step, loop, s2, s3]
  have to4 : step setup s3 .loop = some s4 := by simp [step, loop, s3, s4]
  have to5 : step setup s4 (.drain order) = some s5 := by
    simp [step, State.cached, s1, s2, s3, s4, s5, begun]
  have walking : draining.drainer = .drain (key :: s.background_cache.cache.keys.erase key) [] :=
    rfl
  have to6 : step setup s5 .loop = some s6 := by
    simp [step, loop, s5, s6, walking, yields, State.cached, visit, consume, indexed, there, call,
      s1, s2, s3, s4, pool, Pool.spawn_blocking]
  have to7 : step setup s6 (.start 0) = some s7 := by simp [step, s6, s7, Pool.start]
  have to8 : step setup s7 (.invoke 0) = some s8 := by simp [step, s7, s8, Pool.invoke]
  have at4 : (machine setup).Reachable s4 :=
    reachable_step (reachable_step (reachable_step (reachable_step reached to1) to2) to3) to4
  have at7 : (machine setup).Reachable s7 :=
    reachable_step (reachable_step (reachable_step at4 to5) to6) to7
  refine ⟨s8, reachable_step at7 to8, ?_⟩
  simp [s8, State.record, calls, call]

/-- A later handler with the hash of a BACKGROUND handler and with another callback. -/
theorem misroute_run (parsed : ∀ handler ∈ setup.handlers, setup.keyExpr handler.path = .ok ())
    {idx last : Nat} {handler other : Handler κ} (here : setup.handlers[idx]? = some handler)
    (background : handler.priority = .background) (there : setup.handlers[last]? = some other)
    (same : other.path_hash = handler.path_hash)
    (latest : ∀ (later : Nat) (another : Handler κ), last < later →
      setup.handlers[later]? = some another → another.path_hash ≠ handler.path_hash)
    (differs : other.callback ≠ handler.callback) :
    ∃ s, (machine setup).Reachable s ∧ ¬ Routed setup s.view := by
  have declared : ∀ found < setup.handlers.length, Declares setup found := fun found below =>
    ⟨_, List.getElem?_eq_getElem below, parsed _ (List.getElem_mem below)⟩
  have within : idx < setup.handlers.length := (List.getElem?_eq_some_iff.mp here).1
  have registered := registered_reactor setup
  obtain ⟨s, reached, main, waiting, cache, queue, pool⟩ := spawn_run _ declared
  have holder : s.background_cache.holder = fun _ => none := by
    rw [cache]
    exact registered.holder
  have drainer : s.background_cache.drainer = .idle := by
    rw [cache]
    exact registered.drainer
  obtain ⟨mid, reachedMid, put⟩ := put_run reached (waiting idx within) here background
    (by rw [holder])
  have present : handler.path_hash ∈ mid.background_cache.cache.keys := by
    rw [(reachable_linked reachedMid).keys]
    exact (registered.keys _).mpr ⟨handler, List.mem_of_getElem? here, background, rfl⟩
  have held : mid.background_cache.pending handler.path_hash = some ⟨idx, s.received, []⟩ :=
    (congrFun put.slots handler.path_hash).trans (Function.update_self ..)
  have indexed : handler_index setup.handlers handler.path_hash = some last :=
    handler_index_eq_some.mpr ⟨⟨other, there, same⟩, latest⟩
  obtain ⟨next, reachedNext, called⟩ := drain_run reachedMid (put.main.trans main)
    (put.queue.trans queue) (put.pool.trans pool) (put.drainer.trans drainer) present
      (by rw [put.holder, holder]) held indexed there
  refine ⟨next, reachedNext, fun routed => differs ?_⟩
  obtain ⟨owner, found, callback⟩ := routed.own _ called
  obtain rfl : handler = owner := Option.some.inj (here.symm.trans found)
  exact callback

/-- If every frame is routed, no handler is shadowed. -/
theorem unshadowed_of_routed
    (routed : ∀ s : State κ, (machine setup).Reachable s → Routed setup s.view) :
    Unshadowed setup where
  slots := by
    intro left right first second there here firstLoose secondLoose leftDeclared rightDeclared same
    by_contra distinct
    obtain ⟨s, reached, broken⟩ := overwrite_run distinct there here firstLoose secondLoose
      leftDeclared rightDeclared same
    exact broken (routed s reached)
  index := by
    intro parsed idx last handler other here background there same latest
    by_contra differs
    obtain ⟨s, reached, broken⟩ := misroute_run parsed here background there same latest differs
    exact broken (routed s reached)

/-- Every run routes every frame to its own handler exactly if the registrations leave no
BACKGROUND handler shadowed. -/
theorem routed_iff_unshadowed (setup : Setup κ) :
    (∀ s : State κ, (machine setup).Reachable s → Routed setup s.view) ↔ Unshadowed setup :=
  ⟨unshadowed_of_routed, fun unshadowed _ reached => routed_of_unshadowed unshadowed reached⟩

/-- The handlers are those of the registrations. -/
theorem handlers_eq (setup : Setup κ) : setup.handlers = setup.configs.map fun config =>
    ⟨config.path, fnv1a_hash config.path, config.priority, config.callback⟩ := by
  suffices all : ∀ (configs : List (HandlerConfig κ)) (reactor : DataFlowReactor κ),
      (configs.foldl .register_handler reactor).handlers = reactor.handlers ++
        configs.map fun config =>
          ⟨config.path, fnv1a_hash config.path, config.priority, config.callback⟩ from
    all setup.configs .new
  intro configs
  induction configs with
  | nil => simp
  | cons config rest inductionHypothesis =>
    intro reactor
    rw [List.foldl_cons, inductionHypothesis]
    simp [DataFlowReactor.register_handler]

/-- Handlers whose paths have distinct hashes shadow nobody. -/
theorem unshadowed_of_distinct
    (distinct : (setup.configs.map fun config => fnv1a_hash config.path).Nodup) :
    Unshadowed setup := by
  have hashes : setup.handlers.map Handler.path_hash =
      setup.configs.map fun config => fnv1a_hash config.path := by
    rw [handlers_eq, List.map_map]
    rfl
  have alone : ∀ {left right : Nat} {first second : Handler κ},
      setup.handlers[left]? = some first → setup.handlers[right]? = some second →
        first.path_hash = second.path_hash → left = right := by
    intro left right first second there here same
    rw [← hashes] at distinct
    have bound : left < (setup.handlers.map Handler.path_hash).length := by
      simpa using (List.getElem?_eq_some_iff.mp there).1
    apply (List.getElem?_inj bound distinct).mp
    rw [List.getElem?_map, List.getElem?_map, there, here, Option.map_some, Option.map_some, same]
  refine ⟨fun _ _ _ _ there here _ _ _ _ same => alone there here same, ?_⟩
  intro _ idx last handler other here _ there same _
  obtain rfl := alone here there same.symm
  exact congrArg Handler.callback (Option.some.inj (there.symm.trans here))

section Examples

open FlowKernel.Reactor (estopPath telemetryPath costmapPath)

/-- Registrations whose paths all parse. -/
def plainSetup (configs : List (HandlerConfig Nat)) : Setup Nat where
  configs := configs
  keyExpr := fun _ => .ok ()

/-- The handlers of `examples/basic_pubsub.rs`. -/
def basicPubsub : Setup Nat :=
  plainSetup [⟨estopPath, .critical, 0⟩, ⟨telemetryPath, .normal, 1⟩,
    ⟨costmapPath, .background, 2⟩]

/-- The handlers of the example are safe. -/
theorem basicPubsub_routed :
    ((∀ s : State Nat, (machine basicPubsub).Reachable s → Routed basicPubsub s.view) ↔
      Unshadowed basicPubsub) ∧ Unshadowed basicPubsub :=
  ⟨routed_iff_unshadowed basicPubsub, unshadowed_of_distinct (by decide +kernel)⟩

/-- The costmap path registered for BACKGROUND and then for NORMAL. -/
def repeatedSetup : Setup Nat :=
  plainSetup [⟨costmapPath, .background, 0⟩, ⟨costmapPath, .normal, 1⟩]

/-- A frame received by the BACKGROUND subscriber, up to its callback. -/
def repeatedRun : List Action :=
  [.spawn (.ok ()), .spawn (.ok ()), .spawn (.ok ()), .receive 0 [7], .work 0, .work 0, .work 0,
    .work 0, .work 0, .work 0, .loop, .loop, .loop, .drain [fnv1a_hash costmapPath], .loop,
    .start 0, .invoke 0]

/-- A frame reaches the callback of another handler with its hash. -/
theorem repeatedRun_misroutes :
    ¬ ∀ s : State Nat, (machine repeatedSetup).Reachable s → Routed repeatedSetup s.view := by
  intro routed
  have outcome : ((machine repeatedSetup).exec (init repeatedSetup) repeatedRun).map
      (fun s => (calls s.log).map fun call => (call.frame.handler, call.callback)) =
        some [(0, 1)] := by
    decide +kernel
  obtain ⟨s, ran, seen⟩ := Option.map_eq_some_iff.mp outcome
  obtain ⟨call, member, same⟩ : ∃ call ∈ calls s.log, (call.frame.handler, call.callback) =
      (0, 1) := by
    apply List.mem_map.mp
    rw [seen]
    exact List.mem_cons_self
  obtain ⟨handler, present, callback⟩ :=
    (routed s (Machine.reachable_of_exec ran)).own call member
  obtain ⟨first, second⟩ := Prod.mk.inj same
  rw [first, handlers_eq] at present
  obtain rfl : handler = _ := (Option.some.inj present).symm
  rw [second] at callback
  exact absurd callback (by decide)

end Examples

end Reactor

end FlowKernel.Rust
