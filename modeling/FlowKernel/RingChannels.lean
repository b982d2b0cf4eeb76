import FlowKernel.Foundation.Simulation
import FlowKernel.RingSteps

/-!
# The channels over the memory of the queue

Seen through its channels, the reactor over the ring is the reactor over a list: each step
is one of the things that can happen to the channels. What is proved of the channels for each
of these is therefore true of the memory of the ring.

The counter `dropped_` is what the view does not share with the memory: it lags behind the
refusals while a push is between the load of `head_` and the increment.
-/

namespace FlowKernel.RingReactor

open Foundation Reactor

universe u
variable {κ : Type u} {threads : Nat}

/-- The view of the channels: the samples in the memory of the ring, and the refusals. -/
def State.channels (s : State κ threads) : Channels κ :=
  { s.reactor.channels with critical_queue := s.items, dropped := s.refusals }

/-- What the queue of the reactor promises, of its memory. -/
structure RingContract (config : Config κ) (s : State κ threads) : Prop where
  refines : ∀ actions final, (machine config threads).exec s actions = some final →
    Relation.ReflTransGen (ChannelStep config) s.channels final.channels
  queue_order : acceptedFrames s.reactor.log = (queueCalls s.reactor.log).map Call.frame ++
    s.reactor.reactor.hand.toList.map CriticalSample.payload ++
      (s.items).map CriticalSample.payload
  queue_handler : ∀ call ∈ queueCalls s.reactor.log, OwnCall config call
  queue_first : Justified (fun before event =>
    ∀ hash call, event = .slotDispatched hash call → Settled before) s.reactor.log
  routed : Routed s.reactor.log
  counted : (∀ thread, s.ring.producers thread ≠ .countDrop) →
    s.ring.dropped = BitVec.ofNat 64 (rejectedFrames s.reactor.log).length
  counting : (∃ thread, s.ring.producers thread = .countDrop) →
    s.ring.dropped + 1 = BitVec.ofNat 64 (rejectedFrames s.reactor.log).length

variable {config : Config κ} {s next : State κ threads}

/-- The channels of a state over the ring. -/
theorem channels_eq {queue : List CriticalSample} {dropped : U64} (held : s.items = queue)
    (counted : s.refusals = dropped) :
    s.channels = { s.reactor.channels with critical_queue := queue, dropped := dropped } := by
  rw [State.channels, held, counted]

/-- An access of `run()` outside the loop over the queue neither reads nor writes it, so it
does to the channels what it does to them over any queue. -/
theorem access_beside {before after : Reactor.State κ} {answers : Answers}
    (access : Access config before answers before.reactor after)
    (apart : ∀ critical normal, before.reactor ≠ .pop critical normal)
    (queue : List CriticalSample) (dropped : U64) :
    ChannelStep config
      { before.channels with critical_queue := queue, dropped := dropped }
      { after.channels with critical_queue := queue, dropped := dropped } := by
  obtain ⟨running, started, contexts, list, counter, cache, stats, latencies, sessions, wakeup,
    callbacks, stops, resetting, reactor, log⟩ := before
  cases access with
  | emptied | pop => exact absurd rfl (apart _ _)
  | storeRunning => exact .begin rfl
  | allocated done => exact .allocated rfl done
  | allocate next cached => exact .allocate rfl next cached
  | passOver next queued => exact .passOver rfl next queued
  | subscribed => exact .subscribed rfl
  | subscribe next valid => exact .subscribe rfl next valid
  | skip => exact .skip rfl
  | armFirst | arm => exact .armed
  | enter => exact .cycle rfl
  | unindexed missing => exact .unindexed rfl missing
  | dispatchCritical found urgent =>
    exact .dispatch rfl rfl found (by simp [queueCall, urgent])
  | dispatchNormal found other =>
    exact .dispatch rfl rfl found (by simp [queueCall, other])
  | startDrain listed => exact .startDrain rfl listed
  | drained => exact .drained rfl rfl
  | visitEmpty nothing => exact .visit rfl rfl nothing.symm
  | visit taken => exact .visit rfl rfl taken.symm
  | unindexedSlot missing => exact .unindexedSlot rfl missing
  | dispatchSlot found => exact .slotDispatch rfl rfl found
  | timeout => exact .rest
  | _ => exact .silent

/-- A step that leaves the ring alone is what it would be over a list. -/
theorem beside_channels {action : Reactor.Action} {reactor : Reactor.State κ}
    (unreceived : ∀ thread context serial key payload now,
      action ≠ .receive thread context serial key payload now)
    (unreset : ∀ order, action ≠ .reset order)
    (apart : ∀ answers critical normal, action = .reactor answers →
      s.reactor.reactor ≠ .pop critical normal)
    (moved : Reactor.step config s.reads action = some reactor) :
    ChannelStep config s.channels
      { reactor.channels with critical_queue := s.items, dropped := s.refusals } := by
  cases step_transition moved with
  | receive => exact absurd rfl (unreceived _ _ _ _ _ _)
  | reset => exact absurd rfl (unreset _)
  | write | beginReset => exact .silent
  | stop | stopWrite => exact .note rfl
  | resetStep stepped =>
    obtain ⟨stats, latencies, resetting, rfl⟩ := resetStep_frame stepped
    exact .silent
  | @access answers _ access =>
    exact access_beside access (fun critical normal => apart answers critical normal rfl) _ _

/-- Every effect over the list is a step of the channels. -/
theorem effect_channels (effect : Effect config s next) :
    ChannelStep config s.channels next.channels := by
  obtain ⟨reactor, ring, pushing⟩ := next
  cases effect with
  | quiet moved items refusals =>
    dsimp only at moved
    subst moved
    rw [channels_eq items refusals]
    exact .silent
  | @refuse call subscribed full moved items refusals =>
    dsimp only at moved
    subst moved
    rw [channels_eq items refusals]
    exact ChannelStep.reject subscribed.known subscribed.origin subscribed.queued
      (Nat.not_lt.mpr full.ge)
  | @accept thread call subscribed room idle moved items refusals =>
    dsimp only at moved
    subst moved
    rw [channels_eq items refusals]
    exact ChannelStep.accept subscribed.known subscribed.hash subscribed.origin subscribed.queued
      room
  | pop here moved items refusals =>
    obtain ⟨⟨running, started, contexts, queue, dropped, cache, stats, latencies, sessions, wakeup,
      callbacks, stops, resetting, reactor, log⟩, memory, calls⟩ := s
    dsimp only at moved here
    subst moved here
    rw [channels_eq rfl refusals]
    exact ChannelStep.pop rfl rfl items
  | emptied here moved empty items refusals =>
    obtain ⟨⟨running, started, contexts, queue, dropped, cache, stats, latencies, sessions, wakeup,
      callbacks, stops, resetting, reactor, log⟩, memory, calls⟩ := s
    dsimp only at moved here
    subst moved here
    rw [channels_eq items refusals]
    exact ChannelStep.emptied rfl empty
  | aside known origin cached outcome memory calls =>
    dsimp only at outcome memory calls
    subst memory calls
    cases outcome with
    | ignored => exact .silent
    | accepted queued | rejected queued => exact absurd cached queued
    | put cached present => exact .put known origin cached present
    | unslotted cached absent => exact .unslotted known origin cached absent
  | beside unreceived unreset apart moved memory calls =>
    dsimp only at memory calls
    subst memory calls
    exact beside_channels unreceived unreset apart moved

/-- The reactor over the ring, seen through its channels, is the reactor over a list. -/
theorem channels_simulation (config : Config κ) (threads : Nat) :
    Simulation (machine config threads) Linked State.channels (ChannelStep config) where
  initially := linked_init
  kept := by
    intro before action after linked stepped
    have moved : step config before action = some after := stepped
    exact (step_effect linked moved).1
  simulated := fun _ _ _ linked stepped => effect_channels (step_effect linked stepped).2

/-- The channels start as they do over the list. -/
theorem channels_init : (init κ threads).channels = (Reactor.init κ).channels :=
  channels_eq items_init rfl

/-- So what is known of the channels is known of the ring. -/
theorem reachable_carried (reached : (machine config threads).Reachable s) :
    Sourced config s.channels ∧ Carried s.channels ∧ Routed s.channels.log :=
  (channels_simulation config threads).invariant
    (fun c => Sourced config c ∧ Carried c ∧ Routed c.log)
    (channels_init ▸ ⟨sourced_init, carried_init, List.Perm.refl []⟩)
    (fun _ _ holds step => ⟨sourced_step holds.1 step, carried_step holds.1 holds.2.1 step,
      routed_step holds.1 holds.2.2 step⟩) reached

/-- In every interleaving of the accesses of any number of Zenoh threads, of the reactor and
of `reset_stats()`, with handlers of pairwise distinct path hashes: each run is one of the
reactor over a list; the accepted frames are, in this order, those dispatched, the one in
hand and those in the memory of the ring; each is dispatched to the handler it was received
for, and before the slots are; each frame that has passed `push` or `put` is accepted,
refused or in its slot; and `dropped_` is behind the refusals by no more than the push that
has yet to increment it. -/
theorem ring_contract
    (distinct : (config.registrations.map fun call => fnv1a_hash call.path).Nodup)
    (reached : (machine config threads).Reachable s) : RingContract config s := by
  have linked := (channels_simulation config threads).linked reached
  obtain ⟨sourced, carried, routed⟩ := reachable_carried reached
  obtain ⟨holder, front, items, described⟩ := linked.described
  have refusals : BitVec.ofNat 64 (MpscQueue.fulls s.ring.history) =
      BitVec.ofNat 64 (rejectedFrames s.reactor.log).length := carried.queue.counted
  exact
    { refines := fun _ _ replayed => (channels_simulation config threads).runs reached replayed
      queue_order := carried.queue.conserved
      queue_handler := by
        intro call member
        obtain ⟨source, index, target, registered, _, found, invoked⟩ :=
          sourced.log _ (mem_queueCalls.mp member)
        obtain ⟨same, registration, present, rfl⟩ := find_source distinct registered found
        rw [invoked]
        exact ⟨same, registration, present, rfl⟩
      queue_first := carried.cycle.background
      routed := routed
      counted := fun settled => (described.counted settled).trans refusals
      counting := by
        rintro ⟨thread, counting⟩
        exact (described.holds counting rfl).2.2.trans refusals }

/-- The two worker threads that call back by default. -/
def rx0 : Fin 2 := ⟨0, Nat.zero_lt_two⟩

/-- The second thread of Zenoh. -/
def rx1 : Fin 2 := ⟨1, Nat.one_lt_two⟩

/-- One E-Stop is dispatched while the push of it still holds the lock, and another one is
accepted after it. -/
def ringRun : List (Action 2) :=
  (defaultTurns 10).map .other ++
    [.receive rx0 0 0 estopPath emptyMessage 5, .push rx0, .push rx0, .push rx0, .push rx0,
      .push rx0, .receive rx1 0 1 estopPath emptyMessage 6, .push rx1] ++
    (defaultTurns 4).map .other ++ [.pop, .pop, .pop, .pop, .pop] ++
    (defaultTurns 1).map .other ++
    [.push rx0, .push rx1, .push rx1, .push rx1, .push rx1, .push rx1]

/-- One frame dispatched and one in the ring. -/
theorem ringRun_contract :
    ∃ s, (machine defaultConfig 2).Reachable s ∧ (queueCalls s.reactor.log).length = 1 ∧
      (s.items).length = 1 ∧ RingContract defaultConfig s := by
  have distinct : (defaultConfig.registrations.map fun call => fnv1a_hash call.path).Nodup := by
    decide +kernel
  have outcome : ((machine defaultConfig 2).exec (init TopicPriority 2) ringRun).map (fun s =>
      ((queueCalls s.reactor.log).length, (s.items).length)) =
        some (1, 1) := by decide +kernel
  obtain ⟨s, ran, seen⟩ := Option.map_eq_some_iff.mp outcome
  simp only [Prod.mk.injEq] at seen
  have reached := Machine.reachable_of_exec ran
  exact ⟨s, reached, seen.1, seen.2, ring_contract distinct reached⟩

end FlowKernel.RingReactor
