import Mathlib.Algebra.BigOperators.Group.List.Basic
import FlowKernel.Foundation.Progress
import FlowKernel.Rust.Misrouting

/-!
# How soon the loop of the Rust reactor comes to a frame

The main loop waits for the permit of `wakeup` or for its timeout. No CRITICAL frame is
left waiting for the timeout: while one is queued, the permit is there or about to be
set, unless the loop has still to look at the queue. The loop never waits for a task, as
`drain` passes over the slots that are locked; between two waits it takes a number of
steps bounded by the capacity of the queue, the number of slots, and what the tasks do
meanwhile; and at its next wait it has dispatched whatever it was woken for.
-/

namespace FlowKernel.Rust.Reactor

open Foundation
open FlowKernel.Reactor (costmapPath)

universe u
variable {κ : Type u}

/-- The loop has still to find the queue empty before it waits. -/
def Main.popping : Main → Bool
  | .spawning _ | .failed _ | .pop .. | .dispatch .. => true
  | .addCritical .. | .addNormal _ | .beginDrain | .drain _ | .addBackground _ | .wait => false

/-- The loop is inside its drain. -/
def Main.draining : Main → Bool
  | .drain _ => true
  | _ => false

/-- The slots that a drain has still to visit. -/
def remaining : SharedCache.Drainer Frame → Nat
  | .idle => 0
  | .drain todo _ => todo.length

/-- The most steps of the loop before it waits, if no task adds to its queue. -/
def Main.ahead (queue slots todo : Nat) : Main → Nat
  | .spawning _ | .failed _ | .wait => 0
  | .addBackground _ => 1
  | .drain _ => 2 + todo
  | .beginDrain => 3 + slots
  | .addNormal _ => 4 + slots
  | .addCritical .. => 5 + slots
  | .pop .. => 6 + slots + 2 * queue
  | .dispatch .. => 7 + slots + 2 * queue

/-- The slots of the BACKGROUND handlers. -/
def Setup.slots (setup : Setup κ) : Nat :=
  setup.reactor.background_cache.cache.keys.length

/-- The most steps before the loop pops again. -/
def State.ahead (setup : Setup κ) (s : State κ) : Nat :=
  s.main.ahead s.critical_queue.length setup.slots (remaining s.background_cache.drainer)

/-- A step of the loop that is not the end of its wait. -/
def Action.loops : Action → Bool
  | .loop | .drain _ => true
  | _ => false

/-- A step of a task. -/
def Action.works : Action → Bool
  | .work _ => true
  | _ => false

/-- The end of a wait. -/
def Action.wakes : Action → Bool
  | .wake _ => true
  | _ => false

/-- The sample of a CRITICAL handler. -/
def Urgent (setup : Setup κ) (sample : CriticalSample) : Prop :=
  ∃ handler, setup.handlers[sample.handler_idx]? = some handler ∧ handler.priority = .critical

/-- A sample from the queue has reached its callback, or, where that is not CRITICAL, the
pool has a closure that has still to call it. -/
def Passed (setup : Setup κ) (v : View κ) (sample : CriticalSample) : Prop :=
  ∃ handler, setup.handlers[sample.handler_idx]? = some handler ∧
    (.invoked ⟨sample.handler_idx, handler.callback, sample.payload, none⟩ ∈ v.log ∨
      handler.priority ≠ .critical ∧
        ⟨sample.handler_idx, handler.callback, sample.payload, none⟩ ∈ v.pool.pending)

/-- What the loop does for the frames, once it runs. -/
structure ResponseContract (setup : Setup κ) (s : State κ) : Prop where
  woken : ∀ sample ∈ s.critical_queue, Urgent setup sample →
    s.main.popping = true ∨ s.wakeup = true ∨ ∃ worker, s.workers worker = .notifying
  returns : ∃ actions final, (∀ action ∈ actions, action.loops = true) ∧
    (machine setup).exec s actions = some final ∧ final.main = .wait ∧
      actions.length ≤ s.ahead setup
  bounded : ∀ actions final, (machine setup).exec s actions = some final →
    actions.countP Action.loops ≤ s.ahead setup + 2 * actions.countP Action.works +
      (6 + setup.slots + 2 * queueLimit) * actions.countP Action.wakes
  served : ∀ actions final, (machine setup).exec s actions = some final →
    actions.any Action.wakes = true → final.main.popping = false →
      ∀ sample ∈ s.critical_queue, Passed setup final.view sample

/-- What the loop relies on. -/
structure Alert (setup : Setup κ) (s : State κ) : Prop where
  woken : ∀ sample ∈ s.critical_queue, Urgent setup sample →
    s.main.popping = true ∨ s.wakeup = true ∨ ∃ worker, s.workers worker = .notifying
  known : ∀ sample ∈ s.critical_queue ++ s.main.sample,
    (setup.handlers[sample.handler_idx]?).isSome = true
  room : s.critical_queue.length ≤ queueLimit
  walking : s.background_cache.drainer.resting = !s.main.draining

variable {setup : Setup κ} {s next : State κ} {action : Action}

/-- The loop has not been entered. -/
theorem alert_init (setup : Setup κ) : Alert setup (init setup) where
  woken := by simp [init]
  known := by simp [init, Main.sample]
  room := Nat.zero_le _
  walking := congrArg SharedCache.Drainer.resting (registered_reactor setup).drainer

/-- A step that offers nothing to the queue, and after which every permit and every
`notify_one` under way is still there or the loop looks at the queue. -/
theorem Alert.kept (alert : Alert setup s)
    (queue : next.critical_queue <:+ s.critical_queue)
    (sample : next.main.sample ⊆ s.critical_queue ++ s.main.sample)
    (popping : s.main.popping = true → next.main.popping = true ∨ next.critical_queue = [])
    (wakeup : next.main.popping = true ∨ (s.wakeup = true → next.wakeup = true))
    (notifying : ∀ worker, s.workers worker = .notifying → next.workers worker = .notifying)
    (walking : next.background_cache.drainer.resting = !next.main.draining) :
    Alert setup next where
  woken found member urgent := by
    rcases wakeup with looking | wakeup
    · exact .inl looking
    rcases alert.woken found (queue.subset member) urgent with before | permit | ⟨worker, there⟩
    · rcases popping before with after | empty
      · exact .inl after
      · simp [empty] at member
    · exact .inr (.inl (wakeup permit))
    · exact .inr (.inr ⟨worker, notifying worker there⟩)
  known found member := by
    apply alert.known
    rcases List.mem_append.mp member with queued | taken
    · exact List.mem_append_left _ (queue.subset queued)
    · exact sample taken
  room := queue.length_le.trans alert.room
  walking := walking

/-- A task that goes on, and is not about to notify. -/
theorem notifying_goto {worker : Nat} {work : Work} (other : s.workers worker ≠ .notifying)
    (found : Nat) (there : s.workers found = .notifying) :
    (s.goto worker work).workers found = .notifying := by
  have apart : found ≠ worker := by
    rintro rfl
    exact other there
  simpa [State.goto, Function.update_of_ne apart] using there

/-- The task of a CRITICAL handler notifies after it has offered. -/
theorem offer_notifies {worker : Nat} {frame : Frame} {work : Work} {handler : Handler κ}
    (stepped : step setup s (.work worker) = some (offer s worker frame work))
    (here : s.workers worker = .holding frame)
    (handlers : setup.handlers[worker]? = some handler) (critical : handler.priority = .critical) :
    work = .notifying := by
  have computed : step setup s (.work worker) = some (offer s worker frame .notifying) := by
    simp [step, Reactor.work, handlers, here, critical]
  have same := Option.some.inj (stepped.symm.trans computed)
  have place := congrArg (fun next => next.workers worker) same
  simpa [offer, State.record, State.goto] using place

/-- Only a drain moves the drainer. -/
theorem drainer_kept {cache after : SharedCache.State Frame} {operation : SharedCache.Action Frame}
    (stepped : SharedCache.step cache operation = some after) {worker : Nat}
    (mine : SharedCache.actor operation = some worker) : after.drainer = cache.drainer := by
  cases SharedCache.step_transition stepped with
  | allocate | begin | skip | take | finish => simp [SharedCache.actor] at mine
  | _ => rfl

/-- A visit takes the next slot off the list, and goes on. -/
theorem drainer_visit {cache after : SharedCache.State Frame} {key : U64} {todo : List U64}
    {passed : List (U64 × Frame)} (stepped : SharedCache.step cache .visit = some after)
    (here : cache.drainer = .drain (key :: todo) passed) :
    ∃ taken, after.drainer = .drain todo taken := by
  cases SharedCache.step_transition stepped with
  | skip found held | take found free =>
    obtain ⟨⟨rfl, rfl⟩, rfl⟩ : (_ = key ∧ _ = todo) ∧ _ = passed := by
      simpa using found.symm.trans here
    exact ⟨_, rfl⟩
  | finish found => simp [found] at here

/-- The last step of a drain. -/
theorem loop_finishes {background_count : U64} {passed : List (U64 × Frame)}
    (stepped : step setup s .loop = some next) (here : s.main = .drain background_count)
    (ended : s.background_cache.drainer = .drain [] passed) :
    next.main = .addBackground background_count ∧ next.background_cache.drainer = .idle := by
  have computed : step setup s .loop = some { s with
      background_cache := { s.background_cache with drainer := .idle }.record (.drained passed)
      main := .addBackground background_count } := by
    simp [step, loop, here, ended, State.cached, SharedCache.step, SharedCache.visit]
  obtain rfl := Option.some.inj (computed.symm.trans stepped)
  exact ⟨rfl, rfl⟩

/-- Inside the drain the cache has one under way. -/
theorem Alert.draining (alert : Alert setup s) {background_count : U64}
    (here : s.main = .drain background_count) :
    ∃ todo passed, s.background_cache.drainer = .drain todo passed := by
  have walking := alert.walking
  cases drainer : s.background_cache.drainer with
  | idle => simp [drainer, here, SharedCache.Drainer.resting, Main.draining] at walking
  | drain todo passed => exact ⟨todo, passed, rfl⟩

/-- Elsewhere the cache rests. -/
theorem Alert.resting (alert : Alert setup s) (elsewhere : s.main.draining = false) :
    s.background_cache.drainer = .idle := by
  have walking := alert.walking
  cases drainer : s.background_cache.drainer with
  | idle => rfl
  | drain todo passed => simp [drainer, elsewhere, SharedCache.Drainer.resting] at walking

/-- A visit that does not end the walk leaves one slot less to visit. -/
theorem loop_visits (alert : Alert setup s) {background_count : U64}
    {cache : SharedCache.State Frame} (here : s.main = .drain background_count)
    (going : ∀ passed, s.background_cache.drainer ≠ .drain [] passed)
    (cached : SharedCache.step s.background_cache .visit = some cache) :
    cache.drainer.resting = false ∧
      remaining cache.drainer + 1 = remaining s.background_cache.drainer := by
  obtain ⟨todo, passed, drainer⟩ := alert.draining here
  cases todo with
  | nil => exact absurd drainer (going passed)
  | cons key todo =>
    obtain ⟨taken, after⟩ := drainer_visit cached drainer
    rw [after, drainer]
    exact ⟨rfl, rfl⟩

/-- A drain that goes on has a slot before it. -/
theorem loop_going (stepped : step setup s .loop = some next) {background_count : U64}
    (here : s.main = .drain background_count) (stays : next.main.draining = true)
    (passed : List (U64 × Frame)) : s.background_cache.drainer ≠ .drain [] passed := by
  intro ended
  rw [(loop_finishes stepped here ended).1] at stays
  simp [Main.draining] at stays

/-- An offer to the queue. -/
theorem Alert.offered (linked : Linked setup s) (alert : Alert setup s) {worker : Nat}
    {frame : Frame} {work : Work} (here : s.workers worker = .holding frame)
    (stepped : step setup s (.work worker) = some (offer s worker frame work)) :
    Alert setup (offer s worker frame work) := by
  obtain ⟨handler, handlers, -⟩ :=
    linked.declared worker (by simp [here]) worker (Nat.le_refl worker)
  have others := @notifying_goto _ s worker work (by simp [here])
  by_cases room : s.critical_queue.length < queueLimit
  · have queue : (offer s worker frame work).critical_queue =
        s.critical_queue ++ [⟨worker, frame⟩] := by
      simp [offer, BoundedFifo.push, room, State.record, State.goto]
    refine ⟨?_, ?_, ?_, alert.walking⟩
    · intro sample member urgent
      rw [queue] at member
      rcases List.mem_append.mp member with earlier | new
      · rcases alert.woken sample earlier urgent with popping | permit | ⟨found, there⟩
        · exact .inl popping
        · exact .inr (.inl permit)
        · exact .inr (.inr ⟨found, others found there⟩)
      · obtain rfl := List.mem_singleton.mp new
        obtain ⟨found, present, critical⟩ := urgent
        have notifies := offer_notifies stepped here present critical
        exact .inr (.inr ⟨worker, by simp [offer, State.record, State.goto, notifies]⟩)
    · intro sample member
      rw [queue] at member
      rcases List.mem_append.mp member with queued | taken
      · rcases List.mem_append.mp queued with earlier | new
        · exact alert.known sample (List.mem_append_left _ earlier)
        · obtain rfl := List.mem_singleton.mp new
          rw [handlers]
          rfl
      · exact alert.known sample (List.mem_append_right _ taken)
    · rw [queue, List.length_append]
      exact room
  · have queue : (offer s worker frame work).critical_queue = s.critical_queue := by
      simp [offer, BoundedFifo.push, room, State.record, State.goto]
    exact alert.kept (queue ▸ List.suffix_refl _) (List.subset_append_right _ _) .inl (.inr id)
      others alert.walking

/-- Every step keeps the loop and the drain of the cache in step. -/
theorem alert_step (linked : Linked setup s) (alert : Alert setup s)
    (stepped : step setup s action = some next) : Alert setup next := by
  have same := List.suffix_refl s.critical_queue
  have known := List.subset_append_right s.critical_queue s.main.sample
  have idle : s.main.draining = false → s.background_cache.drainer.resting = true := by
    intro elsewhere
    rw [alert.resting elsewhere]
    rfl
  -- the task and its cache move, the loop and the drain do not
  have acted : ∀ {worker : Nat} {work : Work} {cache : SharedCache.State Frame}
      {operation : SharedCache.Action Frame}, s.workers worker ≠ .notifying →
      SharedCache.step s.background_cache operation = some cache →
      SharedCache.actor operation = some worker →
      Alert setup ({ s with background_cache := cache }.goto worker work) := by
    intro worker work cache operation other cached mine
    refine alert.kept same known .inl (.inr id) (notifying_goto other) ?_
    exact (congrArg _ (drainer_kept cached mine)).trans alert.walking
  cases step_transition stepped with
  -- the loop has a look at the queue before it waits
  | enter here | fail here | invoke here | hand here | wake here =>
    exact alert.kept same (by simp [State.record, Main.sample]) (fun _ => .inl rfl) (.inl rfl)
      (fun _ there => there) (idle (by rw [here]; rfl))
  | @spawn declared idx handler here handlers parsed =>
    have absent : s.workers idx = .absent := (linked.starting idx here).2 idx (Nat.le_refl idx)
    exact alert.kept same (by simp [State.goto, Main.sample]) (fun _ => .inl rfl) (.inl rfl)
      (notifying_goto (by simp [absent])) (idle (by rw [here]; rfl))
  | receive here =>
    exact alert.kept same known .inl (.inr id) (notifying_goto (by simp [here])) alert.walking
  | offer here free => exact alert.offered linked here stepped
  | find here _ _ _ cached | lock here _ cached | count here _ cached | dropRef here cached =>
    exact acted (by simp [here]) cached rfl
  | missing handlers background absent => exact absurd (linked.slotted handlers background) absent
  | notify here => exact ⟨fun _ _ _ => .inr (.inl rfl), alert.known, alert.room, alert.walking⟩
  | write here cached =>
    exact alert.kept same known .inl (.inr id) (fun _ there => there)
      ((congrArg _ (drainer_kept cached rfl)).trans alert.walking)
  | @pop critical_count normal_count sample queue here front =>
    refine alert.kept ⟨[sample], front.symm⟩ ?_ (fun _ => .inl rfl) (.inl rfl)
      (fun _ there => there) (idle (by rw [here]; rfl))
    simp [Main.sample, front]
  | turn onward =>
    rcases onward with ⟨_, _, here, empty, rfl, _⟩ | ⟨_, _, here, rfl, _⟩ | ⟨_, here, rfl, _⟩ |
      ⟨_, here, rfl, _⟩
    · exact alert.kept same (by simp [Main.sample]) (fun _ => .inr empty) (.inr id)
        (fun _ there => there) (idle (by rw [here]; rfl))
    all_goals
      exact alert.kept same (by simp [Main.sample]) (by simp [here, Main.popping]) (.inr id)
        (fun _ there => there) (idle (by rw [here]; rfl))
  | @beginDrain order cache here cached =>
    refine alert.kept same (by simp [Main.sample]) (by simp [here, Main.popping]) (.inr id)
      (fun _ there => there) ?_
    cases SharedCache.step_transition cached with
    | begin => rfl
  | finish here ended cached =>
    refine alert.kept same (by simp [Main.sample]) (by simp [here, Main.popping]) (.inr id)
      (fun _ there => there) ?_
    exact congrArg _ (loop_finishes stepped here ended).2
  | skim here nothing cached =>
    have going := loop_going stepped here (by simp [here, Main.draining])
    refine alert.kept same known .inl (.inr id) (fun _ there => there) ?_
    simpa [here, Main.draining] using (loop_visits alert here going cached).1
  | consume here yields cached indexed handlers =>
    have going := loop_going stepped here rfl
    refine alert.kept same (by simp [Main.sample]) (by simp [here, Main.popping]) (.inr id)
      (fun _ there => there) ?_
    simpa [Main.draining] using (loop_visits alert here going cached).1
  | unindexed here yields cached absent => exact absurd absent (linked.indexed yields cached)
  | start | run | complete =>
    exact alert.kept same known .inl (.inr id) (fun _ there => there) alert.walking

/-- In every run the loop and the drain of the cache are in step. -/
theorem reachable_alert (reached : (machine setup).Reachable s) : Alert setup s :=
  Machine.invariant (Alert setup) (alert_init setup)
    (fun _ _ _ met alert stepped => alert_step (reachable_linked met) alert stepped) reached

/-- One more sample in the queue is two more steps. -/
theorem Main.ahead_grown (main : Main) (queue slots todo : Nat) :
    main.ahead (queue + 1) slots todo ≤ main.ahead queue slots todo + 2 := by
  cases main <;> simp only [Main.ahead] <;> omega

/-- The credit of a step that is not the loop's. -/
def credit (setup : Setup κ) (action : Action) : Nat :=
  (if action.works then 2 else 0) +
    if action.wakes then 6 + setup.slots + 2 * queueLimit else 0

/-- Every step of the loop brings it nearer to its wait, a task sets it back by two steps
at most, and the end of a wait by a whole iteration. -/
theorem ahead_step (linked : Linked setup s) (alert : Alert setup s)
    (looping : s.main.looping = true) (stepped : step setup s action = some next) :
    next.main.looping = true ∧
      next.ahead setup + (if action.loops then 1 else 0) ≤ s.ahead setup + credit setup action := by
  have acted : ∀ {worker : Nat} {work : Work} {cache : SharedCache.State Frame}
      {operation : SharedCache.Action Frame},
      SharedCache.step s.background_cache operation = some cache →
      SharedCache.actor operation = some worker →
      ({ s with background_cache := cache }.goto worker work).ahead setup = s.ahead setup := by
    intro worker work cache operation cached mine
    simp only [State.ahead, State.goto, drainer_kept cached mine]
  cases step_transition stepped with
  | enter here | fail here | spawn here => simp [here, Main.looping] at looping
  | receive here => exact ⟨looping, Nat.le_refl _⟩
  | @offer worker frame work here free =>
    refine ⟨looping, ?_⟩
    have grown := s.main.ahead_grown s.critical_queue.length setup.slots
      (remaining s.background_cache.drainer)
    by_cases room : s.critical_queue.length < queueLimit
    · simpa [State.ahead, offer, BoundedFifo.push, room, State.record, State.goto, credit,
        Action.loops, Action.works, Action.wakes] using grown
    · simp [State.ahead, offer, BoundedFifo.push, room, State.record, State.goto, Action.loops]
  | missing handlers background absent => exact absurd (linked.slotted handlers background) absent
  | find here _ _ _ cached | lock here _ cached | count here _ cached | dropRef here cached =>
    exact ⟨looping, (acted cached rfl).le.trans (Nat.le_add_right _ _)⟩
  | notify here => exact ⟨looping, Nat.le_add_right _ _⟩
  | @write worker cache here cached =>
    refine ⟨looping, ?_⟩
    have kept : State.ahead setup { s with background_cache := cache } = s.ahead setup := by
      simp only [State.ahead, drainer_kept cached rfl]
    exact kept.le.trans (Nat.le_add_right _ _)
  | pop here front =>
    refine ⟨rfl, ?_⟩
    simp only [State.ahead, here, front, Main.ahead, List.length_cons, Action.loops, if_true]
    omega
  | invoke here | hand here | finish here =>
    refine ⟨rfl, ?_⟩
    simp only [State.ahead, State.record, here, Main.ahead, Action.loops, if_true]
    omega
  | turn onward =>
    rcases onward with ⟨_, _, here, _, rfl, _⟩ | ⟨_, _, here, rfl, _⟩ | ⟨_, here, rfl, _⟩ |
      ⟨_, here, rfl, _⟩
    all_goals
      refine ⟨rfl, ?_⟩
      simp only [State.ahead, here, Main.ahead, Action.loops, if_true]
      omega
  | @beginDrain order cache here cached =>
    refine ⟨rfl, ?_⟩
    cases SharedCache.step_transition cached with
    | begin idle listed =>
      have slots : order.length = setup.slots :=
        listed.length_eq.trans (congrArg List.length linked.keys)
      simp only [State.ahead, here, Main.ahead, remaining, slots, Action.loops, if_true]
      omega
  | skim here nothing cached =>
    refine ⟨looping, ?_⟩
    have fewer := (loop_visits alert here
      (loop_going stepped here (by simp [here, Main.draining])) cached).2
    simp only [State.ahead, here, Main.ahead, Action.loops, if_true]
    omega
  | consume here yields cached indexed handlers =>
    refine ⟨rfl, ?_⟩
    have fewer := (loop_visits alert here (loop_going stepped here rfl) cached).2
    simp only [State.ahead, here, Main.ahead, Action.loops, if_true]
    omega
  | unindexed here yields cached absent => exact absurd absent (linked.indexed yields cached)
  | wake here =>
    refine ⟨rfl, ?_⟩
    have room := alert.room
    simp only [State.ahead, here, Main.ahead, credit, Action.loops, Action.works, Action.wakes,
      Bool.false_eq_true, if_true, if_false]
    omega
  | start | run | complete => exact ⟨looping, Nat.le_refl _⟩

/-- Nothing that a task does keeps the loop from its next step. -/
theorem loop_possible (linked : Linked setup s) (alert : Alert setup s)
    (looping : s.main.looping = true) (unended : s.main ≠ .wait) :
    ∃ action, action.loops = true ∧ (step setup s action).isSome = true := by
  cases here : s.main with
  | spawning idx | failed error => simp [here, Main.looping] at looping
  | pop critical_count normal_count =>
    cases queue : s.critical_queue with
    | nil => exact ⟨.loop, rfl, by simp [step, loop, here, queue, BoundedFifo.pop]⟩
    | cons sample rest => exact ⟨.loop, rfl, by simp [step, loop, here, queue, BoundedFifo.pop]⟩
  | dispatch sample critical_count normal_count =>
    have known := alert.known sample (List.mem_append_right _ (by simp [here, Main.sample]))
    obtain ⟨handler, handlers⟩ := Option.isSome_iff_exists.mp known
    exact ⟨.loop, rfl, by simp [step, loop, here, dispatch, handlers]⟩
  | addCritical critical_count normal_count => exact ⟨.loop, rfl, by simp [step, loop, here]⟩
  | addNormal normal_count => exact ⟨.loop, rfl, by simp [step, loop, here]⟩
  | beginDrain =>
    have idle := alert.resting (by rw [here]; rfl)
    exact ⟨.drain s.background_cache.cache.keys, rfl,
      by simp [step, here, State.cached, SharedCache.step, idle]⟩
  | drain background_count =>
    obtain ⟨todo, passed, drainer⟩ := alert.draining here
    have visited : (SharedCache.step s.background_cache .visit).isSome = true := by
      cases todo with
      | nil => simp [SharedCache.step, SharedCache.visit, drainer]
      | cons key todo =>
        cases held : s.background_cache.holder key with
        | none => simp [SharedCache.step, SharedCache.visit, drainer, held]
        | some thread => simp [SharedCache.step, SharedCache.visit, drainer, held]
    obtain ⟨cache, cached⟩ := Option.isSome_iff_exists.mp visited
    cases todo with
    | nil => exact ⟨.loop, rfl, by simp [step, loop, here, drainer, State.cached, cached]⟩
    | cons key todo =>
      cases yields : s.background_cache.yields with
      | none =>
        exact ⟨.loop, rfl, by simp [step, loop, here, drainer, yields, State.cached, cached]⟩
      | some pair =>
        obtain ⟨hash, frame⟩ := pair
        obtain ⟨idx, indexed⟩ := Option.ne_none_iff_exists'.mp (linked.indexed yields cached)
        obtain ⟨⟨handler, handlers, -⟩, -⟩ := handler_index_eq_some.mp indexed
        exact ⟨.loop, rfl, by simp [step, loop, here, drainer, yields, State.cached, cached,
          consume, indexed, handlers]⟩
  | addBackground background_count => exact ⟨.loop, rfl, by simp [step, loop, here]⟩
  | wait => exact absurd here unended

section Service

variable {v w : View κ} {sample : CriticalSample}

/-- A sample is where the loop will come to it, or the loop has come to it. -/
def Carried (setup : Setup κ) (v : View κ) (sample : CriticalSample) : Prop :=
  sample ∈ v.queue ∨ sample ∈ v.loop ∨ Passed setup v sample

/-- What has been passed on stays so. -/
theorem Passed.grown (passed : Passed setup v sample) (log : v.log ⊆ w.log)
    (pending : v.pool.pending ⊆ w.pool.pending) : Passed setup w sample := by
  obtain ⟨handler, handlers, done⟩ := passed
  exact ⟨handler, handlers, done.imp (fun invoked => log invoked)
    fun ⟨relaxed, waiting⟩ => ⟨relaxed, pending waiting⟩⟩

/-- A closure that calls its callback is the only one to be pending no more, and is in the
log. -/
theorem Passed.moved (passed : Passed setup v sample) (moved : Move setup v action w) :
    Passed setup w sample := by
  have same := List.Subset.refl v.pool.pending
  have quiet := List.Subset.refl v.log
  have given : ∀ call, v.pool.pending ⊆ (v.pool.spawn_blocking call).pending := by
    intro call
    rw [Pool.pending_spawn]
    exact List.subset_append_left _ _
  cases moved with
  | still => exact passed
  | receive declared free => exact passed.grown (List.subset_append_left _ _) same
  | offer here => exact passed.grown (List.subset_append_left _ _) same
  | store declared here handlers background => exact passed.grown quiet same
  | pop front free => exact passed.grown quiet same
  | invoke here handlers critical => exact passed.grown (List.subset_append_left _ _) same
  | hand | take => exact passed.grown quiet (given _)
  | start queued => exact passed.grown quiet (Pool.pending_start queued).symm.subset
  | run taken =>
    obtain ⟨handler, handlers, invoked | ⟨relaxed, waiting⟩⟩ := passed
    · exact ⟨handler, handlers, .inl (List.mem_append_left _ invoked)⟩
    · rcases List.mem_cons.mp ((Pool.pending_invoke taken).mem_iff.mp waiting) with own | left
      · exact ⟨handler, handlers, .inl (List.mem_append_right _ (by simp [own]))⟩
      · exact ⟨handler, handlers, .inr ⟨relaxed, left⟩⟩
  | complete busy => exact passed.grown (List.subset_append_left _ _) same

/-- A sample on its way to its callback stays on it. -/
theorem Carried.moved (carried : Carried setup v sample) (moved : Move setup v action w) :
    Carried setup w sample := by
  rcases carried with queued | taken | passed
  · cases moved with
    | offer here =>
      refine .inl ?_
      dsimp only
      split
      · exact List.mem_append_left _ queued
      · exact queued
    | pop front free =>
      rw [front] at queued
      rcases List.mem_cons.mp queued with rfl | behind
      · exact .inr (.inl (List.mem_singleton.mpr rfl))
      · exact .inl behind
    | _ => exact .inl queued
  · cases moved with
    | pop front free => simp [free] at taken
    | invoke here handlers critical =>
      rw [here] at taken
      obtain rfl := List.mem_singleton.mp taken
      exact .inr (.inr ⟨_, handlers, .inl (List.mem_append_right _ (List.mem_singleton.mpr rfl))⟩)
    | hand here handlers relaxed =>
      rw [here] at taken
      obtain rfl := List.mem_singleton.mp taken
      exact .inr (.inr ⟨_, handlers, .inr ⟨relaxed, by simp⟩⟩)
    | _ => exact .inr (.inl taken)
  · exact .inr (.inr (passed.moved moved))

/-- The loop leaves the queue when it has found it empty. -/
theorem popping_ends (moved : Transition setup s action next) (before : s.main.popping = true)
    (after : next.main.popping = false) : s.critical_queue = [] ∧ s.main.sample = [] := by
  have unmoved : next.main = s.main → s.critical_queue = [] ∧ s.main.sample = [] := by
    intro same
    rw [same, before] at after
    exact absurd after (by simp)
  cases moved with
  | turn onward =>
    rcases onward with ⟨_, _, here, empty, rfl, _⟩ | ⟨_, _, here, rfl, _⟩ | ⟨_, here, rfl, _⟩ |
      ⟨_, here, rfl, _⟩
    · exact ⟨empty, by rw [here]; rfl⟩
    all_goals simp [here, Main.popping] at before
  | enter | fail | spawn | pop | invoke | hand | wake =>
    exact absurd after (by simp [Main.popping, State.goto, State.record])
  | beginDrain here | finish here | consume here => simp [here, Main.popping] at before
  | _ => exact unmoved rfl

/-- A sample that was queued when a wait ended is dispatched before the next one. -/
theorem dispatched_exec (reached : (machine setup).Reachable s)
    (queued : sample ∈ s.critical_queue) {actions : List Action} {final : State κ}
    (replayed : (machine setup).exec s actions = some final)
    (woken : actions.any Action.wakes = true) (past : final.main.popping = false) :
    Passed setup final.view sample := by
  have move : ∀ {before after : State κ} {action : Action}, (machine setup).Reachable before →
      (machine setup).step before action = some after →
      Move setup before.view action after.view :=
    fun met stepped => step_move (reachable_linked met) (step_transition stepped)
  refine (Machine.exec_establishes
    (fun s => (machine setup).Reachable s ∧ Carried setup s.view sample)
    (fun s => (machine setup).Reachable s ∧ Carried setup s.view sample ∧
      (s.main.popping = false → Passed setup s.view sample)) Action.wakes ?_ ?_ ?_
    ⟨reached, .inl queued⟩ replayed woken).2.2 past
  · rintro before action after ⟨met, carried⟩ stepped
    exact ⟨met.after action stepped, carried.moved (move met stepped)⟩
  · rintro before action after ⟨met, carried⟩ wakes stepped
    refine ⟨met.after action stepped, carried.moved (move met stepped), fun unseen => ?_⟩
    cases step_transition stepped with
    | wake here => simp [Main.popping] at unseen
    | _ => simp [Action.wakes] at wakes
  · rintro before action after ⟨met, carried, rest⟩ stepped
    have moved := move met stepped
    refine ⟨met.after action stepped, carried.moved moved, fun unseen => ?_⟩
    cases popping : before.main.popping with
    | false => exact (rest popping).moved moved
    | true =>
      obtain ⟨empty, free⟩ := popping_ends (step_transition stepped) popping unseen
      rcases carried with queued | taken | passed
      · simp [State.view, empty] at queued
      · simp [State.view, free] at taken
      · exact passed.moved moved

end Service

/-- In every state of the main loop: no CRITICAL sample is queued without a permit or a
`notify_one` that is under way, unless the loop has still to look at the queue; whatever
the tasks do, the loop comes back to its wait after a bounded number of steps, and it can
do so alone; and once it has waited, it has dispatched all that is queued now when it
next leaves the queue. -/
theorem response_contract (reached : (machine setup).Reachable s)
    (looping : s.main.looping = true) : ResponseContract setup s where
  woken := (reachable_alert reached).woken
  returns := by
    have progress : ∀ state : State κ,
        (machine setup).Reachable state ∧ state.main.looping = true → ¬ state.main = .wait →
          ∃ action after, action.loops = true ∧ (machine setup).step state action = some after ∧
            ((machine setup).Reachable after ∧ after.main.looping = true) ∧
              after.ahead setup < state.ahead setup := by
      rintro state ⟨met, running⟩ unended
      have linked := reachable_linked met
      have alert := reachable_alert met
      obtain ⟨action, own, possible⟩ := loop_possible linked alert running unended
      obtain ⟨after, stepped⟩ := Option.isSome_iff_exists.mp possible
      obtain ⟨stays, lower⟩ := ahead_step linked alert running stepped
      have free : credit setup action = 0 := by
        cases action <;> first | rfl | simp [Action.loops] at own
      rw [own, free] at lower
      exact ⟨action, after, own, stepped, ⟨met.after action stepped, stays⟩,
        by simpa only [if_true, Nat.add_zero, Nat.succ_le_iff] using lower⟩
    obtain ⟨actions, final, own, replayed, _, waits, short⟩ :=
      Machine.exec_completes (fun s => (machine setup).Reachable s ∧ s.main.looping = true)
        (fun s : State κ => s.main = .wait) (fun action : Action => action.loops = true)
        (State.ahead setup) progress ⟨reached, looping⟩
    exact ⟨actions, final, own, replayed, waits, short⟩
  bounded := by
    intro actions final replayed
    have paid := Machine.exec_amortized
      (fun s => (machine setup).Reachable s ∧ s.main.looping = true) (State.ahead setup)
      (fun action => if action.loops then 1 else 0) (credit setup)
      (fun before action after ⟨met, running⟩ stepped => by
        obtain ⟨stays, covered⟩ :=
          ahead_step (reachable_linked met) (reachable_alert met) running stepped
        exact ⟨⟨met.after action stepped, stays⟩, covered⟩)
      ⟨reached, looping⟩ replayed
    have total : (actions.map (credit setup)).sum = 2 * actions.countP Action.works +
        (6 + setup.slots + 2 * queueLimit) * actions.countP Action.wakes := by
      rw [← Machine.sum_credit, ← Machine.sum_credit, ← List.sum_map_add]
      rfl
    rw [Machine.sum_credit, total] at paid
    omega
  served := fun _ _ replayed woken past _ queued =>
    dispatched_exec reached queued replayed woken past

/-- The loop has come to its wait, and an E-Stop is queued whose task has still to notify. -/
def sleepingRun : List Action :=
  List.replicate 4 (.spawn (.ok ())) ++ [.loop, .loop, .loop,
    .drain [fnv1a_hash costmapPath], .loop, .loop, .loop, .receive 0 [1], .work 0]

/-- The loop is about to sleep with a frame in the queue and no permit. -/
theorem sleepingRun_responds : ∃ s, (machine basicPubsub).exec (init basicPubsub) sleepingRun =
      some s ∧
    s.main.popping = false ∧ s.critical_queue.length = 1 ∧ s.wakeup = false ∧
      s.workers 0 = .notifying ∧ ResponseContract basicPubsub s := by
  have outcome : ((machine basicPubsub).exec (init basicPubsub) sleepingRun).map (fun s =>
      (s.main.popping, s.critical_queue.length, s.wakeup, decide (s.workers 0 = .notifying),
        s.main.looping)) = some (false, 1, false, true, true) := by
    decide +kernel
  obtain ⟨s, ran, seen⟩ := Option.map_eq_some_iff.mp outcome
  simp only [Prod.mk.injEq, decide_eq_true_eq] at seen
  obtain ⟨past, queued, unset, owing, looping⟩ := seen
  exact ⟨s, ran, past, queued, unset, owing,
    response_contract (Machine.reachable_of_exec ran) looping⟩

end FlowKernel.Rust.Reactor
