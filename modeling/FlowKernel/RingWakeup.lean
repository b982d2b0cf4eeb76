import FlowKernel.RingChannels
import FlowKernel.Wakeup

/-!
# The wakeup protocol over the memory of the queue

Between the store of `tail_` and the write to `wakeup_fd_` a CRITICAL push has the lock to
release and its callback to return to. The reactor may take the sample, or go to its wait,
anywhere in between. Seen through the protocol, a callback owes its write from the store of
`tail_` on, and the reactor over the ring is the reactor over a list.
-/

namespace FlowKernel.RingReactor

open Foundation OneShotPoll Reactor

universe u
variable {κ : Type u} {threads : Nat}

/-- The view of the wakeup protocol. -/
def State.signals (s : State κ threads) : Signals κ :=
  { s.reactor.signals with critical_queue := s.items, callbacks := s.owed }

/-- What holds of the ring at a wait. -/
structure RingWakeup (config : Config κ) (s : State κ threads) : Prop where
  watched : s.reactor.wakeup.polls + s.reactor.wakeup.cqes = 1
  urgent : ∀ frame, config.Urgent frame →
    (owing s.owed frame).encard < queuedCopies s.items frame → 0 < s.reactor.wakeup.cqes
  settled : ∀ frame, config.Urgent frame → frame ∈ s.items.map CriticalSample.payload →
    (∀ i, s.owed i ≠ .write frame) → 0 < s.reactor.wakeup.cqes
  stopped : .stopped true ∈ s.reactor.log → 0 < s.reactor.wakeup.cqes

variable {config : Config κ} {s next : State κ threads}

/-- The protocol's part of a state over the ring. -/
theorem signals_eq {queue : List CriticalSample} {callbacks : Nat → CallbackPc}
    (held : s.items = queue) (owed : s.owed = callbacks) :
    s.signals = { s.reactor.signals with critical_queue := queue, callbacks := callbacks } := by
  rw [State.signals, held, owed]

/-- An access of `run()` outside the loop over the queue neither reads nor writes it. -/
theorem access_protocol {before after : Reactor.State κ} {answers : Answers}
    (access : Access config before answers before.reactor after)
    (apart : ∀ critical normal, before.reactor ≠ .pop critical normal)
    (queue : List CriticalSample) (callbacks : Nat → CallbackPc) :
    SignalStep config
      { before.signals with critical_queue := queue, callbacks := callbacks }
      { after.signals with critical_queue := queue, callbacks := callbacks } := by
  obtain ⟨running, started, contexts, list, counter, cache, stats, latencies, sessions, wakeup,
    threads, stops, resetting, reactor, log⟩ := before
  cases access with
  | emptied | pop => exact absurd rfl (apart _ _)
  | storeRunning => exact .begin rfl
  | armFirst => exact .armed (.inl rfl)
  | arm => exact .armed (.inr rfl)
  | enter alive => exact .enter rfl alive
  | leave => exact .leave rfl
  | unindexed | dispatchCritical | dispatchNormal | startDrain | drained | visitEmpty | visit
  | unindexedSlot | dispatchSlot => exact .note (by simp [Event.signal])
  | wake completed => exact .wake rfl completed
  | timeout quiet => exact .timeout rfl quiet
  | readEventfd => exact .read rfl
  | cqeSeen => exact .seen rfl
  | _ => exact .silent

/-- A callback that is to write is not inside `push`. -/
theorem owed_writing (linked : Linked s) {thread : Nat} {frame : Frame}
    (writing : s.reactor.callbacks thread = .write frame) (own : CallbackPc)
    (inside : thread < threads) :
    owes (s.ring.producers ⟨thread, inside⟩) (s.pushing ⟨thread, inside⟩) own = own := by
  cases called : s.pushing ⟨thread, inside⟩ with
  | none => exact owes_none _ own
  | some call =>
    have idle := (linked.subscribed ⟨thread, inside⟩ call called).2
    exact absurd (idle.symm.trans writing) nofun

/-- The write of a callback is its own. -/
theorem owed_write (linked : Linked s) {thread : Nat} {frame : Frame}
    (writing : s.reactor.callbacks thread = .write frame)
    (ring : next.ring = s.ring) (pushing : next.pushing = s.pushing)
    (callbacks : next.reactor.callbacks =
      Function.update s.reactor.callbacks thread .idle) :
    s.owed thread = .write frame ∧ next.owed = Function.update s.owed thread .idle := by
  constructor
  · rw [State.owed]
    split
    next inside => rw [owed_writing linked writing, writing]
    next => exact writing
  · funext i
    rw [State.owed, ring, pushing, callbacks]
    by_cases same : i = thread
    · subst same
      rw [Function.update_self, Function.update_self]
      split
      next inside => exact owed_writing linked writing .idle inside
      next => rfl
    · rw [Function.update_of_ne same, Function.update_of_ne same]
      rfl

/-- A step of the reactor beside the ring is one of the protocol. -/
theorem beside_signals (linked : Linked s) {action : Reactor.Action}
    (unreceived : ∀ thread context serial key payload now,
      action ≠ .receive thread context serial key payload now)
    (unreset : ∀ order, action ≠ .reset order)
    (apart : ∀ answers critical normal, action = .reactor answers →
      s.reactor.reactor ≠ .pop critical normal)
    (moved : Reactor.step config s.reads action = some next.reactor)
    (ring : next.ring = s.ring) (pushing : next.pushing = s.pushing) :
    SignalStep config s.signals next.signals := by
  obtain ⟨reactor, memory, calls⟩ := next
  dsimp only at ring pushing moved
  subst ring pushing
  cases step_transition moved with
  | receive => exact absurd rfl (unreceived _ _ _ _ _ _)
  | reset => exact absurd rfl (unreset _)
  | write writing =>
    obtain ⟨owed, written⟩ := @owed_write _ _ s { s with
      reactor := { s.reads with wakeup := s.reads.wakeup.write }.setCallback _ .idle } linked _ _
      writing rfl rfl rfl
    rw [signals_eq rfl written]
    exact SignalStep.write owed
  | stop idle => exact .stopping idle
  | stopWrite owing => exact .stopped owing
  | beginReset => exact .silent
  | resetStep stepped =>
    obtain ⟨stats, latencies, resetting, rfl⟩ := resetStep_frame stepped
    exact .silent
  | @access answers _ access =>
    have callbacks := (access_contexts access linked.fresh).2.1
    have owed : State.owed { s with reactor } = s.owed := owed_same rfl rfl callbacks
    rw [signals_eq rfl owed]
    exact access_protocol access (fun critical normal => apart answers critical normal rfl) _ _

/-- Every effect over the list is a step of the protocol. -/
theorem effect_signals (linked : Linked s) (sourced : Sourced config s.channels)
    (effect : Effect config s next) : SignalStep config s.signals next.signals := by
  cases effect with
  | quiet moved items refusals owed =>
    rw [signals_eq items owed, moved]
    exact .silent
  | refuse subscribed full moved items refusals owed =>
    rw [signals_eq items owed, moved]
    exact .note (by simp [Event.signal])
  | @accept thread call subscribed room idle moved items refusals owed =>
    rw [signals_eq items owed, moved]
    refine @SignalStep.accept _ config s.signals thread call.sample
      (Function.update s.owed thread (owes .unlock (some call) .idle)) _ idle
      (by simp [Event.signal]) (fun found other => Function.update_of_ne other _ _) ?_
    rintro ⟨source, received, critical⟩
    obtain ⟨_, registered, _, priority⟩ := sourced.origin subscribed.known subscribed.origin
    obtain rfl : source = _ := Option.some.inj (received.1.symm.trans registered.1)
    rw [Function.update_self]
    exact if_pos (priority.trans critical)
  | pop here moved items refusals owed =>
    rw [signals_eq rfl owed, moved]
    obtain ⟨⟨running, started, contexts, queue, dropped, cache, stats, latencies, sessions, wakeup,
      callbacks, stops, resetting, reactor, log⟩, memory, calls⟩ := s
    dsimp only at here
    subst here
    exact SignalStep.take rfl items
  | emptied here moved empty items refusals owed =>
    rw [signals_eq items owed, moved]
    obtain ⟨⟨running, started, contexts, queue, dropped, cache, stats, latencies, sessions, wakeup,
      callbacks, stops, resetting, reactor, log⟩, memory, calls⟩ := s
    dsimp only at here
    subst here
    exact SignalStep.listen rfl empty
  | aside known origin cached outcome ring pushing =>
    obtain ⟨reactor, memory, calls⟩ := next
    dsimp only at outcome ring pushing
    subst ring pushing
    cases outcome with
    | ignored => exact .silent
    | accepted queued | rejected queued => exact absurd cached queued
    | put | unslotted => exact .note (by simp [Event.signal])
  | beside unreceived unreset apart moved ring pushing =>
    exact beside_signals linked unreceived unreset apart moved ring pushing

/-- The same holds of the protocol. -/
theorem signals_simulation (config : Config κ) (threads : Nat) :
    Simulation (machine config threads) (fun s => Linked s ∧ Sourced config s.channels)
      State.signals (SignalStep config) where
  initially := ⟨linked_init, channels_init ▸ sourced_init⟩
  kept := by
    intro before action after ⟨linked, sourced⟩ stepped
    obtain ⟨later, effect⟩ := step_effect linked stepped
    exact ⟨later, sourced_step sourced (effect_channels effect)⟩
  simulated := by
    intro before action after ⟨linked, sourced⟩ stepped
    exact effect_signals linked sourced (step_effect linked stepped).2

/-- No callback owes anything. -/
theorem owed_init : (init κ threads).owed = fun _ => .idle := by
  funext i
  rw [State.owed]
  split <;> rfl

/-- The protocol starts as it does over the list. -/
theorem signals_init : (init κ threads).signals = (Reactor.init κ).signals :=
  signals_eq items_init owed_init

/-- In every run over the ring a queued CRITICAL frame is not slept over. -/
theorem reachable_guarded (reached : (machine config threads).Reachable s) :
    Guarded config s.signals :=
  (signals_simulation config threads).invariant (Guarded config) (signals_init ▸ guarded_init)
    (fun _ _ => guarded_step) reached

/-- In every interleaving of the accesses of `push` and `pop` with the writes, with `stop()`
and with the reactor in which no submission has failed, at every wait: the eventfd has one
outstanding poll or pending completion; and a completion is pending if a CRITICAL sample lies
in the ring for which no callback has a write to make, after its store of `tail_`, or if a
`stop()` that began after `run()` set `running_` has finished. -/
theorem ring_wakeup (reached : (machine config threads).Reachable s)
    (submitted : .armed false ∉ s.reactor.log) (waiting : s.reactor.reactor = .wait) :
    RingWakeup config s := by
  have guarded : Guarded config s.signals := reachable_guarded reached
  have phase : s.signals.phase = .listening := congrArg ReactorPc.phase waiting
  have watched : s.reactor.wakeup.watches = 1 := by
    have one := guarded.watched submitted
    rw [phase] at one
    exact one
  have urgent : ∀ frame, config.Urgent frame →
      (owing s.owed frame).encard < queuedCopies s.items frame → 0 < s.reactor.wakeup.cqes := by
    intro frame urgent finished
    apply Port.completed guarded.prompt watched
    by_contra unwritten
    have zero : s.reactor.wakeup.counter = 0 := Nat.eq_zero_of_not_pos unwritten
    exact absurd (guarded.urgent phase zero frame urgent) (not_le.mpr finished)
  refine ⟨watched, urgent, ?_, ?_⟩
  · intro frame commanded queued written
    apply urgent frame commanded
    have none_owed : owing s.owed frame = ∅ := Set.eq_empty_iff_forall_notMem.mpr written
    have copies : 0 < queuedCopies s.items frame := List.count_pos_iff.mpr queued
    rw [none_owed, Set.encard_empty]
    exact_mod_cast copies
  · intro stopped
    apply Port.completed guarded.prompt watched
    exact guarded.unread stopped (by rw [phase]; rfl)

/-- The reactor reaches its first wait, a push has stored `tail_` and the callback has made
its write while the lock of another push is taken. -/
def ringWaiting : List (Action 2) :=
  (defaultTurns 14).map .other ++ [.pop, .pop] ++ (defaultTurns 14).map .other ++
    [.receive rx0 0 0 estopPath emptyMessage 5, .push rx0, .push rx0, .push rx0, .push rx0,
      .push rx0, .push rx0, .other (.callback 0), .receive rx1 0 1 estopPath emptyMessage 6,
      .push rx1]

/-- A CRITICAL frame in the ring with its completion pending. -/
theorem ringWaiting_wakeup :
    ∃ s, (machine defaultConfig 2).Reachable s ∧ s.items.length = 1 ∧
      s.reactor.wakeup.cqes = 1 ∧ RingWakeup defaultConfig s := by
  have outcome : ((machine defaultConfig 2).exec (init TopicPriority 2) ringWaiting).map
      (fun s => (s.reactor.reactor, s.reactor.log.any Event.unsubmitted, s.items.length,
        s.reactor.wakeup.cqes)) = some (.wait, false, 1, 1) := by decide +kernel
  obtain ⟨s, ran, seen⟩ := Option.map_eq_some_iff.mp outcome
  simp only [Prod.mk.injEq] at seen
  obtain ⟨waiting, unfailed, queued, completed⟩ := seen
  have submitted : .armed false ∉ s.reactor.log := by
    intro failed
    exact Bool.false_ne_true (unfailed.symm.trans (any_unsubmitted.mpr failed))
  have reached := Machine.reachable_of_exec ran
  exact ⟨s, reached, queued, completed, ring_wakeup reached submitted waiting⟩

end FlowKernel.RingReactor
