import FlowKernel.CycleReport
import FlowKernel.RunEnd

/-!
# How soon a frame is served

What waits in the queue or in a slot is handled before the reactor has gone round its loop
twice, whatever the other threads do meanwhile: `handle_events` looks at the queue until it
finds it empty, and then at every slot. A data callback that is accepted costs the reactor
two accesses more, and no other thread can keep it from its next access.
-/

namespace FlowKernel.Reactor

open Foundation

universe u
variable {κ : Type u}

/-- Calls of `handle_events` that have begun. -/
def starts (events : List (Event κ)) : Nat :=
  events.countP fun
    | .cycleStarted => true
    | _ => false

/-- A sample of the queue has reached its callback, or the index has no handler for it. -/
def Handled (config : Config κ) (cs : CriticalSample) (events : List (Event κ)) : Prop :=
  match config.poppedCall cs with
  | some call => .dispatched call ∈ events
  | none => .unindexed cs.payload ∈ events

/-- The same for a sample of a slot, unless a newer frame has taken its place. -/
def Served (config : Config κ) (hash : U64) (sample : HeldSample Frame)
    (events : List (Event κ)) : Prop :=
  (match config.drained sample with
    | some call => .slotDispatched sample.handler_hash call ∈ events
    | none => .unindexed sample.payload ∈ events) ∨
  ∃ newer, .slot hash (.overwrite sample.payload newer) ∈ events

/-- Inside the loop of `run()`. -/
def ReactorPc.looping (pc : ReactorPc) : Prop :=
  pc.cycling = true ∨ pc = .loopTest ∨ pc = .returned

/-- The accesses that one call of `handle_events` can take, if the queue was full. -/
def State.round (s : State κ) : Nat :=
  26 + 3 * s.background_cache.keys.length + 2 * queueLimit

/-- Within how many of its accesses the reactor serves what is there. -/
structure ServiceContract (config : Config κ) (s : State κ) : Prop where
  possible : ∀ actions final, (machine config).exec s actions = some final →
    final.reactor ≠ .returned → ∃ answers next, reactorStep config final answers = some next
  timely : ∀ actions final, (machine config).exec s actions = some final →
    s.ending config + s.round + 2 * actions.countP Action.receives < actions.countP Action.runs →
      ∃ events, final.log = s.log ++ events ∧ (∀ cs ∈ s.critical_queue, Handled config cs events) ∧
        ∀ hash ∈ s.background_cache.keys, ∀ sample,
          (s.background_cache.slots hash).held = some sample → Served config hash sample events

/-- The cycle has still to find the queue empty. -/
def ReactorPc.fetching (pc : ReactorPc) : Bool :=
  pc.cycling && !pc.emptied

/-- The cycle has still to visit the slot. -/
def ReactorPc.visits (hash : U64) : ReactorPc → Bool
  | .addCriticalProcessed _ _ | .addNormalProcessed _ _ | .storeCriticalLast _ _
  | .storeNormalLast _ | .startDrain => true
  | .drain todo _ | .dispatchSlot todo _ _ => hash ∈ todo
  | pc => pc.fetching

variable {config : Config κ} {s next : State κ} {action : Action} {events more : List (Event κ)}
  {cs : CriticalSample} {hash : U64} {sample : HeldSample Frame}

/-- The cycles begun, in two parts of a history. -/
theorem starts_append (left right : List (Event κ)) :
    starts (left ++ right) = starts left + starts right :=
  List.countP_append

/-- What has been handled stays so. -/
theorem Handled.grown (handled : Handled config cs events) :
    Handled config cs (events ++ more) := by
  unfold Handled at handled ⊢
  split at handled <;> exact List.mem_append_left _ handled

/-- What is handled behind a part of the history is handled. -/
theorem Handled.now (handled : Handled config cs more) : Handled config cs (events ++ more) := by
  unfold Handled at handled ⊢
  split at handled <;> exact List.mem_append_right _ handled

/-- A sample of the queue, from one state on: it has been handled, or is still to be, at the
latest by the cycle that begins next. -/
def Fetched (config : Config κ) (cs : CriticalSample) (events : List (Event κ)) (s : State κ) :
    Prop :=
  Handled config cs events ∨
    (cs ∈ s.critical_queue ∨ s.reactor.hand = some cs) ∧
      (starts events = 0 ∨ starts events = 1 ∧ s.reactor.fetching = true)

/-- What an access of `run()` does to the samples of the queue. -/
inductive Fetch (config : Config κ) (s next : State κ) (events : List (Event κ)) : Prop
  | still (queue : next.critical_queue = s.critical_queue)
      (hand : next.reactor.hand = s.reactor.hand)
      (fetching : s.reactor.fetching = true → next.reactor.fetching = true)
      (same : starts events = 0)
  | enter (queue : next.critical_queue = s.critical_queue) (here : s.reactor = .loopTest)
      (inside : next.reactor.fetching = true) (new : starts events = 1)
  | empty (queue : s.critical_queue = []) (hand : s.reactor.hand = none)
  | pop {cs : CriticalSample} (queue : s.critical_queue = cs :: next.critical_queue)
      (free : s.reactor.hand = none) (hand : next.reactor.hand = some cs)
      (inside : next.reactor.fetching = true) (same : starts events = 0)
  | handle {cs : CriticalSample} (queue : next.critical_queue = s.critical_queue)
      (hand : s.reactor.hand = some cs) (handled : Handled config cs events)
      (inside : next.reactor.fetching = true) (same : starts events = 0)

/-- An access of the reactor fetches the front, handles what it has fetched, or leaves the
queue alone. -/
theorem access_fetch {answers : Answers} (access : Access config s answers s.reactor next) :
    ∃ events, next.log = s.log ++ events ∧ Fetch config s next events := by
  obtain ⟨running, started, contexts, queue, dropped, cache, stats, latencies, sessions, wakeup,
    callbacks, stops, resetting, reactor, log⟩ := s
  cases access with
  | enter => exact ⟨_, rfl, .enter rfl rfl rfl rfl⟩
  | emptied empty => exact ⟨_, rfl, .empty empty rfl⟩
  | pop front => exact ⟨_, rfl, .pop front rfl rfl rfl rfl⟩
  | unindexed missing =>
    exact ⟨_, rfl, .handle rfl rfl (by simp [Handled, Config.poppedCall, missing]) rfl rfl⟩
  | dispatchCritical found urgent =>
    exact ⟨_, rfl, .handle rfl rfl
      (by simp [Handled, Config.poppedCall, found, queueCall, urgent]) rfl rfl⟩
  | dispatchNormal found other =>
    exact ⟨_, rfl, .handle rfl rfl
      (by simp [Handled, Config.poppedCall, found, queueCall, other]) rfl rfl⟩
  | armFirst | arm | startDrain | drained | visitEmpty | visit | unindexedSlot | dispatchSlot =>
    exact ⟨_, rfl, .still rfl rfl id rfl⟩
  | _ => exact ⟨[], (List.append_nil _).symm, .still rfl rfl id rfl⟩

/-- The other threads add to the queue, and do not move the reactor. -/
theorem other_fetch (other : ∀ answers, action ≠ .reactor answers)
    (stepped : step config s action = some next) :
    ∃ events, next.log = s.log ++ events ∧ starts events = 0 ∧ next.reactor = s.reactor ∧
      s.critical_queue ⊆ next.critical_queue ∧
        next.background_cache.keys = s.background_cache.keys := by
  have same := List.Subset.refl s.critical_queue
  cases step_transition stepped with
  | access => exact absurd rfl (other _)
  | receive idle known outcome =>
    cases outcome with
    | ignored => exact ⟨[], (List.append_nil _).symm, rfl, rfl, same, rfl⟩
    | accepted => exact ⟨_, rfl, rfl, rfl, List.subset_append_left _ _, rfl⟩
    | rejected | put | unslotted => exact ⟨_, rfl, rfl, rfl, same, rfl⟩
  | stop | stopWrite | reset => exact ⟨_, rfl, rfl, rfl, same, rfl⟩
  | resetStep stepped =>
    obtain ⟨stats, latencies, resetting, rfl⟩ := resetStep_frame stepped
    exact ⟨[], (List.append_nil _).symm, rfl, rfl, same, rfl⟩
  | write | beginReset => exact ⟨[], (List.append_nil _).symm, rfl, rfl, same, rfl⟩

/-- Every step adds to the history. -/
theorem step_log (stepped : step config s action = some next) :
    ∃ events, next.log = s.log ++ events := by
  rcases action.reactor_or_other.symm with other | ⟨answers, rfl⟩
  · obtain ⟨events, log, _⟩ := other_fetch other stepped
    exact ⟨events, log⟩
  · obtain ⟨events, log, _⟩ := access_fetch (reactorStep_access stepped)
    exact ⟨events, log⟩

/-- A sample that has been fetched stays with the reactor until it is handled. -/
theorem fetched_step (fetched : Fetched config cs events s)
    (stepped : step config s action = some next) :
    ∃ more, next.log = s.log ++ more ∧ Fetched config cs (events ++ more) next := by
  rcases action.reactor_or_other.symm with other | ⟨answers, rfl⟩
  · obtain ⟨more, log, same, reactor, grown, _⟩ := other_fetch other stepped
    refine ⟨more, log, fetched.imp Handled.grown ?_⟩
    rw [starts_append, same, reactor, Nat.add_zero]
    exact fun ⟨place, still⟩ => ⟨place.imp_left (fun queued => grown queued), still⟩
  · obtain ⟨more, log, fetch⟩ := access_fetch (reactorStep_access stepped)
    refine ⟨more, log, ?_⟩
    rcases fetched with handled | ⟨place, still⟩
    · exact .inl handled.grown
    unfold Fetched
    rw [starts_append]
    cases fetch with
    | still queue hand fetching same =>
      rw [queue, hand, same, Nat.add_zero]
      exact .inr ⟨place, still.imp_right fun ⟨once, inside⟩ => ⟨once, fetching inside⟩⟩
    | enter queue here inside new =>
      have fresh : starts events = 0 := by
        rcases still with fresh | ⟨_, fetching⟩
        · exact fresh
        · rw [here] at fetching
          exact absurd fetching Bool.false_ne_true
      rw [queue, fresh, new]
      refine .inr ⟨.inl ?_, .inr ⟨rfl, inside⟩⟩
      rcases place with queued | held
      · exact queued
      · simp [here, ReactorPc.hand] at held
    | empty queue hand => simp [queue, hand] at place
    | @pop front queue free hand inside same =>
      rw [same, Nat.add_zero, hand]
      have once : starts events = 0 ∨ starts events = 1 ∧ next.reactor.fetching = true :=
        still.imp_right fun ⟨once, _⟩ => ⟨once, inside⟩
      rw [queue, free] at place
      rcases place with queued | held
      · rcases List.mem_cons.mp queued with rfl | behind
        · exact .inr ⟨.inr rfl, once⟩
        · exact .inr ⟨.inl behind, once⟩
      · simp at held
    | @handle held queue hand handled inside same =>
      rw [same, Nat.add_zero, queue]
      rcases place with queued | own
      · exact .inr ⟨.inl queued, still.imp_right fun ⟨once, _⟩ => ⟨once, inside⟩⟩
      · obtain rfl := Option.some.inj (hand.symm.trans own)
        exact .inl handled.now

/-- What has been served stays so. -/
theorem Served.grown (served : Served config hash sample events) :
    Served config hash sample (events ++ more) := by
  rcases served with passed | ⟨newer, replaced⟩
  · left
    split at passed <;> exact List.mem_append_left _ passed
  · exact .inr ⟨newer, List.mem_append_left _ replaced⟩

/-- What is served behind a part of the history is served. -/
theorem Served.now (served : Served config hash sample more) :
    Served config hash sample (events ++ more) := by
  rcases served with passed | ⟨newer, replaced⟩
  · left
    split at passed <;> exact List.mem_append_right _ passed
  · exact .inr ⟨newer, List.mem_append_right _ replaced⟩

/-- A sample of a slot, from one state on: it has been served, or is still to be, at the
latest by the cycle that begins next. -/
def Kept (config : Config κ) (hash : U64) (sample : HeldSample Frame) (events : List (Event κ))
    (s : State κ) : Prop :=
  Served config hash sample events ∨
    (hash ∈ s.background_cache.keys ∧ (s.background_cache.slots hash).held = some sample ∧
      (starts events = 0 ∨ starts events = 1 ∧ s.reactor.visits hash = true)) ∨
    s.reactor.slotHand = some sample ∧ starts events ≤ 1

/-- What an access of `run()` does to the sample of a slot. -/
inductive Visit (config : Config κ) (hash : U64) (s next : State κ) (events : List (Event κ)) :
    Prop
  | still (keys : hash ∈ s.background_cache.keys → hash ∈ next.background_cache.keys)
      (held : (next.background_cache.slots hash).held = (s.background_cache.slots hash).held)
      (free : s.reactor.slotHand = none)
      (visits : hash ∈ s.background_cache.keys → s.reactor.visits hash = true →
        next.reactor.visits hash = true)
      (same : starts events = 0)
  | enter (cache : next.background_cache = s.background_cache) (here : s.reactor = .loopTest)
      (inside : next.reactor.visits hash = true) (new : starts events = 1)
  | take (free : s.reactor.slotHand = none)
      (taken : next.reactor.slotHand = (s.background_cache.slots hash).held)
      (same : starts events = 0)
  | serve {sample : HeldSample Frame} (cache : next.background_cache = s.background_cache)
      (hand : s.reactor.slotHand = some sample) (served : Served config hash sample events)
      (visits : s.reactor.visits hash = true → next.reactor.visits hash = true)
      (same : starts events = 0)

/-- The drain has the rest of its walk before it. -/
theorem visits_drain (hash : U64) (todo : List U64) (background : U64) :
    (ReactorPc.drain todo background).visits hash = decide (hash ∈ todo) :=
  rfl

/-- While it dispatches it has the same rest before it. -/
theorem visits_dispatchSlot (hash : U64) (todo : List U64) (background : U64)
    (sample : HeldSample Frame) :
    (ReactorPc.dispatchSlot todo background sample).visits hash = decide (hash ∈ todo) :=
  rfl

/-- A visit of another slot leaves this one to be visited. -/
theorem visits_later {found : U64} {todo : List U64} {background : U64} (apart : hash ≠ found)
    (visits : (ReactorPc.drain (found :: todo) background).visits hash = true) :
    decide (hash ∈ todo) = true := by
  rw [visits_drain, decide_eq_true_iff, List.mem_cons] at visits
  exact decide_eq_true (visits.resolve_left apart)

/-- An access of the reactor visits the slot, or leaves it alone. -/
theorem access_visit (hash : U64) {answers : Answers}
    (access : Access config s answers s.reactor next) :
    ∃ events, next.log = s.log ++ events ∧ Visit config hash s next events := by
  obtain ⟨running, started, contexts, queue, dropped, cache, stats, latencies, sessions, wakeup,
    callbacks, stops, resetting, reactor, log⟩ := s
  cases access with
  | enter => exact ⟨_, rfl, .enter rfl rfl rfl rfl⟩
  | allocate found cached =>
    refine ⟨[], (List.append_nil _).symm, .still ?_ ?_ rfl (fun _ => id) rfl⟩
    · exact fun member => LatestSampleCache.mem_pre_allocate.mpr (.inl member)
    · simp
  | startDrain listed =>
    refine ⟨_, rfl, .still id rfl rfl (fun member _ => ?_) rfl⟩
    have visited : hash ∈ answers.order := listed.mem_iff.mpr member
    exact (visits_drain _ _ _).trans (decide_eq_true visited)
  | drained =>
    refine ⟨_, rfl, .still id rfl rfl (fun _ here => ?_) rfl⟩
    have visited : hash ∈ [] := of_decide_eq_true ((visits_drain hash _ _).symm.trans here)
    exact absurd visited List.not_mem_nil
  | @visitEmpty found todo background nothing =>
    refine ⟨_, rfl, ?_⟩
    by_cases same : hash = found
    · subst same
      exact .take rfl nothing.symm rfl
    · refine .still id ?_ rfl (fun _ here => ?_) rfl
      · exact congrArg LatestSampleSlot.held (cache.slots_setSlot_other _ same)
      · exact (visits_drain _ _ _).trans (visits_later same here)
  | @visit found todo background sample taken =>
    refine ⟨_, rfl, ?_⟩
    by_cases same : hash = found
    · subst same
      exact .take rfl taken.symm rfl
    · refine .still id ?_ rfl (fun _ here => ?_) rfl
      · exact congrArg LatestSampleSlot.held (cache.slots_setSlot_other _ same)
      · exact (visits_dispatchSlot _ _ _ _).trans (visits_later same here)
  | unindexedSlot missing =>
    exact ⟨_, rfl, .serve rfl rfl (.inl (by simp [Config.drained, missing])) id rfl⟩
  | dispatchSlot found =>
    exact ⟨_, rfl, .serve rfl rfl (.inl (by simp [Config.drained, found, slotCall])) id rfl⟩
  | armFirst | arm | emptied | pop | unindexed | dispatchCritical | dispatchNormal =>
    exact ⟨_, rfl, .still id rfl rfl (fun _ => id) rfl⟩
  | _ => exact ⟨[], (List.append_nil _).symm, .still id rfl rfl (fun _ => id) rfl⟩

/-- The other threads leave the sample in its slot, or put a newer frame in its place. -/
theorem other_visit (other : ∀ answers, action ≠ .reactor answers)
    (held : (s.background_cache.slots hash).held = some sample)
    (stepped : step config s action = some next) :
    ∃ events, next.log = s.log ++ events ∧ starts events = 0 ∧ next.reactor = s.reactor ∧
      next.background_cache.keys = s.background_cache.keys ∧
        ((next.background_cache.slots hash).held = some sample ∨
          Served config hash sample events) := by
  cases step_transition stepped with
  | access => exact absurd rfl (other _)
  | @receive thread context serial key payload now ctx next idle known outcome =>
    cases outcome with
    | ignored => exact ⟨[], (List.append_nil _).symm, rfl, rfl, rfl, .inl held⟩
    | accepted | rejected | unslotted => exact ⟨_, rfl, rfl, rfl, rfl, .inl held⟩
    | put cached present =>
      refine ⟨_, rfl, rfl, rfl, rfl, ?_⟩
      by_cases same : hash = ctx.handler_hash
      · refine .inr (.inr ⟨{ registration := ctx.registration, serial, key, payload },
          List.mem_cons_of_mem _ (List.mem_singleton.mpr ?_)⟩)
        rw [← same, LatestSampleSlot.putEvent, held]
      · refine .inl (Eq.trans ?_ held)
        exact congrArg LatestSampleSlot.held (s.background_cache.slots_setSlot_other _ same)
  | stop | stopWrite | reset => exact ⟨_, rfl, rfl, rfl, rfl, .inl held⟩
  | resetStep stepped =>
    obtain ⟨stats, latencies, resetting, rfl⟩ := resetStep_frame stepped
    exact ⟨[], (List.append_nil _).symm, rfl, rfl, rfl, .inl held⟩
  | write | beginReset => exact ⟨[], (List.append_nil _).symm, rfl, rfl, rfl, .inl held⟩

/-- A sample in its slot stays there until it is replaced or served. -/
theorem kept_step (kept : Kept config hash sample events s)
    (stepped : step config s action = some next) :
    ∃ more, next.log = s.log ++ more ∧ Kept config hash sample (events ++ more) next := by
  rcases kept with served | pending
  · obtain ⟨more, log⟩ := step_log stepped
    exact ⟨more, log, .inl served.grown⟩
  rcases action.reactor_or_other.symm with other | ⟨answers, rfl⟩
  · rcases pending with ⟨listed, held, still⟩ | ⟨hand, once⟩
    · obtain ⟨more, log, same, reactor, keys, outcome⟩ := other_visit other held stepped
      refine ⟨more, log, ?_⟩
      rcases outcome with left | served
      · refine .inr (.inl ⟨keys ▸ listed, left, ?_⟩)
        rw [starts_append, same, reactor, Nat.add_zero]
        exact still
      · exact .inl served.now
    · obtain ⟨more, log, same, reactor, _⟩ := other_fetch other stepped
      refine ⟨more, log, .inr (.inr ⟨reactor ▸ hand, ?_⟩)⟩
      rw [starts_append, same]
      exact once
  · obtain ⟨more, log, visit⟩ := access_visit hash (reactorStep_access stepped)
    refine ⟨more, log, ?_⟩
    unfold Kept
    rw [starts_append]
    cases visit with
    | still keys same free visits quiet =>
      rcases pending with ⟨listed, held, still⟩ | ⟨hand, _⟩
      · rw [quiet, Nat.add_zero]
        exact .inr (.inl ⟨keys listed, same.trans held,
          still.imp_right fun ⟨once, inside⟩ => ⟨once, visits listed inside⟩⟩)
      · rw [free] at hand
        exact absurd hand nofun
    | enter cache here inside new =>
      rcases pending with ⟨listed, held, still⟩ | ⟨hand, _⟩
      · have fresh : starts events = 0 := by
          rcases still with fresh | ⟨_, visits⟩
          · exact fresh
          · rw [here] at visits
            exact absurd visits Bool.false_ne_true
        rw [cache, fresh, new]
        exact .inr (.inl ⟨listed, held, .inr ⟨rfl, inside⟩⟩)
      · rw [here] at hand
        exact absurd hand nofun
    | take free taken same =>
      rcases pending with ⟨listed, held, still⟩ | ⟨hand, _⟩
      · refine .inr (.inr ⟨taken.trans held, ?_⟩)
        omega
      · rw [free] at hand
        exact absurd hand nofun
    | serve cache hand served visits same =>
      rcases pending with ⟨listed, held, still⟩ | ⟨own, _⟩
      · rw [cache, same, Nat.add_zero]
        exact .inr (.inl ⟨listed, held,
          still.imp_right fun ⟨once, inside⟩ => ⟨once, visits inside⟩⟩)
      · obtain rfl := Option.some.inj (hand.symm.trans own)
        exact .inl served.now

/-- A run only adds to the log. -/
theorem exec_log {final : State κ} {actions : List Action}
    (replayed : (machine config).exec s actions = some final) :
    ∃ events, final.log = s.log ++ events :=
  Machine.exec_preserves (fun state : State κ => ∃ events, state.log = s.log ++ events)
    (fun _ _ _ ⟨events, log⟩ stepped => by
      obtain ⟨more, grown⟩ := step_log stepped
      exact ⟨events ++ more, by rw [grown, log, List.append_assoc]⟩)
    ⟨[], (List.append_nil _).symm⟩ replayed

/-- What each step keeps with the events so far, a run keeps with all of its events. -/
theorem exec_followed (Pending : List (Event κ) → State κ → Prop)
    (kept : ∀ events before action after, Pending events before →
      step config before action = some after →
        ∃ more, after.log = before.log ++ more ∧ Pending (events ++ more) after)
    {final : State κ} {actions : List Action} (holds : Pending [] s)
    (replayed : (machine config).exec s actions = some final) {events : List (Event κ)}
    (log : final.log = s.log ++ events) : Pending events final := by
  obtain ⟨found, recorded, pending⟩ := Machine.exec_preserves
    (fun state : State κ => ∃ events, state.log = s.log ++ events ∧ Pending events state)
    (fun before action after holds stepped => by
      obtain ⟨events, log, pending⟩ := holds
      obtain ⟨more, grown, kept⟩ := kept events before action after pending stepped
      exact ⟨events ++ more, by rw [grown, log, List.append_assoc], kept⟩)
    ⟨[], (List.append_nil _).symm, holds⟩ replayed
  exact List.append_cancel_left (recorded.symm.trans log) ▸ pending

/-- The queue never holds more than its limit. -/
theorem reachable_room (reached : (machine config).Reachable s) :
    s.critical_queue.length ≤ queueLimit :=
  (reachable_carried reached).1.queue.legal.bounded

/-- The reactor is in its loop, over a number of slots. -/
structure Loops (config : Config κ) (slots : Nat) (s : State κ) : Prop where
  reached : (machine config).Reachable s
  looping : s.reactor.looping
  slots : s.background_cache.keys.length = slots

/-- An access of the loop brings the end of the cycle nearer, or begins the next cycle. -/
theorem access_round {slots round : Nat} (loops : Loops config slots s) {answers : Answers}
    (enough : round = 26 + 3 * slots + 2 * queueLimit)
    (stepped : reactorStep config s answers = some next) :
    next.reactor.looping ∧ next.background_cache.keys = s.background_cache.keys ∧
      next.ending config + 1 + round * starts s.log ≤
        s.ending config + round * starts next.log := by
  by_cases inside : s.reactor.cycling = true
  · obtain ⟨events, log⟩ := @step_log κ config s next (.reactor answers) stepped
    have grown : round * starts s.log ≤ round * starts next.log := by
      rw [log, starts_append]
      exact Nat.mul_le_mul_left _ (Nat.le_add_right _ _)
    have lower := cycling_ending inside stepped
    refine ⟨?_, access_keys (reactorStep_access stepped) inside, by omega⟩
    exact (reactorStep_cycle inside stepped).cycling.imp_right .inl
  · have room := reachable_room loops.reached
    obtain ⟨_, looping, same⟩ := loops
    have access := reactorStep_access stepped
    rcases looping with cycling | here | ended
    · exact absurd cycling inside
    · rw [here] at access
      cases access with
      | enter running =>
        refine ⟨.inl rfl, rfl, ?_⟩
        have one : starts (s.log ++ [Event.cycleStarted]) = starts s.log + 1 := starts_append _ _
        have before : s.ending config = 1 := by rw [State.ending, here]; rfl
        change 3 * s.background_cache.keys.length + 2 * s.critical_queue.length + 25 + 1 + 1 +
          round * starts s.log ≤ s.ending config + round * starts (s.log ++ [Event.cycleStarted])
        rw [one, before, Nat.mul_add]
        omega
      | leave stopped =>
        refine ⟨.inr (.inr rfl), rfl, ?_⟩
        have before : s.ending config = 1 := by rw [State.ending, here]; rfl
        rw [before]
        exact Nat.le_refl _
    · rw [ended] at access
      cases access

/-- Every step takes from the round under way, or begins the next. -/
theorem step_round {slots round : Nat} (enough : round = 26 + 3 * slots + 2 * queueLimit)
    (loops : Loops config slots s) (stepped : step config s action = some next) :
    Loops config slots next ∧
      next.ending config + (if action.runs then 1 else 0) + round * starts s.log ≤
        s.ending config + (if action.receives then 2 else 0) + round * starts next.log := by
  have reached : (machine config).Reachable next := loops.reached.after action stepped
  rcases action.reactor_or_other.symm with other | ⟨answers, rfl⟩
  · obtain ⟨events, log, same, reactor, _, keys⟩ := other_fetch other stepped
    refine ⟨⟨reached, reactor ▸ loops.looping, keys ▸ loops.slots⟩, ?_⟩
    have paid := other_ending other stepped
    have idle : action.runs = false := by
      cases action <;> first | rfl | exact absurd rfl (other _)
    rw [log, starts_append, same, idle]
    exact Nat.add_le_add_right paid _
  · obtain ⟨looping, keys, paid⟩ := access_round loops enough stepped
    exact ⟨⟨reached, looping, keys ▸ loops.slots⟩, paid⟩

/-- After as many accesses of its own as two rounds can take, the reactor has begun two cycles. -/
theorem starts_twice (reached : (machine config).Reachable s) (looping : s.reactor.looping)
    {final : State κ} {actions : List Action}
    (replayed : (machine config).exec s actions = some final)
    (many : s.ending config + s.round + 2 * actions.countP Action.receives <
      actions.countP Action.runs) {events : List (Event κ)} (log : final.log = s.log ++ events) :
    1 < starts events := by
  have paid := Machine.exec_balanced (fun _ : Action => True)
    (Loops config s.background_cache.keys.length) (State.ending config)
    (fun state : State κ => s.round * starts state.log)
    (fun action => if action.runs then 1 else 0) (fun action => if action.receives then 2 else 0)
    (fun _ _ _ loops _ stepped => step_round rfl loops stepped) ⟨reached, looping, rfl⟩
    (fun _ _ => trivial) replayed
  rw [Machine.sum_credit, Machine.sum_credit, log, starts_append, Nat.mul_add] at paid
  have more : s.round * 1 < s.round * starts events := by omega
  exact Nat.lt_of_mul_lt_mul_left more

/-- While the reactor is in its loop it always has a next access, and whatever the other
threads do, what waits in the queue or in a slot is served within a number of its own
accesses: those that its cycle has left, one round over the slots and a full queue, and two
for each data callback that comes meanwhile. -/
theorem service_contract (reached : (machine config).Reachable s) (looping : s.reactor.looping) :
    ServiceContract config s where
  possible := fun _ _ _ unended => run_possible config unended
  timely := by
    intro actions final replayed many
    obtain ⟨events, log⟩ := exec_log replayed
    have twice := starts_twice reached looping replayed many log
    refine ⟨events, log, ?_, ?_⟩
    · intro cs queued
      have fetched : Fetched config cs events final := exec_followed (Fetched config cs)
        (fun _ _ _ _ fetched stepped => fetched_step fetched stepped)
        (.inr ⟨.inl queued, .inl rfl⟩) replayed log
      rcases fetched with handled | ⟨_, still⟩
      · exact handled
      · omega
    · intro hash listed sample held
      have kept : Kept config hash sample events final := exec_followed (Kept config hash sample)
        (fun _ _ _ _ kept stepped => kept_step kept stepped)
        (.inr (.inl ⟨listed, held, .inl rfl⟩)) replayed log
      rcases kept with served | ⟨_, _, still⟩ | ⟨_, once⟩
      · exact served
      · omega
      · omega

/-- An E-Stop and a costmap wait before the first cycle. -/
theorem pendingRun_served :
    ∃ s, (machine defaultConfig).Reachable s ∧ s.critical_queue.length = 1 ∧
      s.reactor.looping ∧ ServiceContract defaultConfig s := by
  have outcome : ((machine defaultConfig).exec (init TopicPriority) pendingRun).map
      (fun s => (s.reactor, s.critical_queue.length)) = some (.loopTest, 1) := by
    decide +kernel
  obtain ⟨s, ran, seen⟩ := Option.map_eq_some_iff.mp outcome
  simp only [Prod.mk.injEq] at seen
  obtain ⟨here, pending⟩ := seen
  have looping : s.reactor.looping := .inr (.inl here)
  have reached := Machine.reachable_of_exec ran
  exact ⟨s, reached, pending, looping, service_contract reached looping⟩

end FlowKernel.Reactor
