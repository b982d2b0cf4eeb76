import FlowKernel.Signals
import Mathlib.Data.Set.Card

/-!
# Wakeups are never lost, until an arm fails

While every submission finds a free entry, the eventfd has exactly one watch at
every wait: an outstanding poll or its completion. A thread that has finished its
write has left the counter positive, and the reactor zeroes the counter only
before it drains the queue again; so a CRITICAL frame that is still queued at the
wait, or a finished `stop()`, has its completion pending.

The watch is renewed only after a completion. A submission that finds no free
entry therefore ends the watching for good: no completion arrives, every wait ends
at its timeout, and the submission is never tried again.
-/

namespace FlowKernel.Reactor

open Foundation OneShotPoll

universe u
variable {κ : Type u}

/-- Watches on the eventfd in each part of `run()`, if no submission has failed. -/
def Phase.watches : Phase → Nat
  | .fresh | .preparing | .arming => 0
  | _ => 1

/-- Parts of `run()` in which a completion has been or is about to be consumed, or
the first watch is yet to come. -/
def Phase.renews : Phase → Bool
  | .fresh | .preparing | .reading | .seeing | .arming => true
  | _ => false

/-- Parts of a cycle before the counter is zeroed. -/
def Phase.unread : Phase → Bool
  | .taking | .listening | .reading => true
  | _ => false

/-- Threads that have pushed this frame and have yet to write to `wakeup_fd_`. -/
def owing (callbacks : Nat → CallbackPc) (frame : Frame) : Set Nat :=
  { thread | callbacks thread = .write frame }

/-- How often a frame is queued. -/
def queuedCopies (queue : List CriticalSample) (frame : Frame) : Nat :=
  (queue.map CriticalSample.payload).count frame

/-- What the protocol maintains. A frame is queued more often than threads owe a
write for it if and only if some thread that pushed it has finished. -/
structure Guarded (config : Config κ) (c : Signals κ) : Prop where
  prompt : c.wakeup.Prompt
  watched : .armed false ∉ c.log → c.wakeup.watches = c.phase.watches
  unwatched : .armed false ∈ c.log → c.wakeup.watches = 0 ∧ c.phase.renews = false
  completed : c.phase = .reading ∨ c.phase = .seeing → 0 < c.wakeup.cqes
  urgent : c.phase = .listening → c.wakeup.counter = 0 → ∀ frame, config.Urgent frame →
    (queuedCopies c.critical_queue frame : ℕ∞) ≤ (owing c.callbacks frame).encard
  starting : c.phase = .fresh → c.started = false
  halted : .stopping true ∈ c.log → c.started = true ∧ c.running = false
  halting : ∀ thread, c.stops thread = .write true → .stopping true ∈ c.log
  halts : .stopped true ∈ c.log → .stopping true ∈ c.log
  unread : .stopped true ∈ c.log → c.phase.unread = true → 0 < c.wakeup.counter

variable {config : Config κ} {c next : Signals κ} {s : State κ}

/-- The events that the invariant speaks of. -/
def Event.guards : Event κ → Bool
  | .armed false | .stopping true | .stopped true => true
  | _ => false

/-- The events of the invariant are signals. -/
theorem guards_signal {event : Event κ} (other : event.signal = false) : event.guards = false := by
  cases event with
  | armed => simp [Event.signal] at other
  | stopping => simp [Event.signal] at other
  | stopped => simp [Event.signal] at other
  | _ => rfl

/-- Other events leave the protocol where it is. -/
theorem Guarded.note (guarded : Guarded config c) {events : List (Event κ)}
    (other : ∀ event ∈ events, event.guards = false) :
    Guarded config { c with log := c.log ++ events } where
  prompt := guarded.prompt
  watched := by
    rw [mem_append_unmarked other rfl]
    exact guarded.watched
  unwatched := by
    rw [mem_append_unmarked other rfl]
    exact guarded.unwatched
  completed := guarded.completed
  urgent := guarded.urgent
  starting := guarded.starting
  halted := by
    rw [mem_append_unmarked other rfl]
    exact guarded.halted
  halting := by
    intro thread owed
    rw [mem_append_unmarked other rfl]
    exact guarded.halting thread owed
  halts := by
    rw [mem_append_unmarked other rfl, mem_append_unmarked other rfl]
    exact guarded.halts
  unread := by
    rw [mem_append_unmarked other rfl]
    exact guarded.unread

/-- The reactor goes on to a part of `run()` with as many watches. -/
theorem Guarded.move (guarded : Guarded config c) (phase : Phase)
    (watches : phase.watches = c.phase.watches)
    (renews : c.wakeup.watches = 0 → c.phase.renews = false → phase.renews = false)
    (completed : phase = .reading ∨ phase = .seeing → 0 < c.wakeup.cqes)
    (emptied : phase = .listening → c.critical_queue = [])
    (begun : phase ≠ .fresh)
    (unread : .stopped true ∈ c.log → phase.unread = true → 0 < c.wakeup.counter) :
    Guarded config { c with phase := phase } :=
  { guarded with
    watched := by
      intro unfailed
      rw [watches]
      exact guarded.watched unfailed
    unwatched := by
      intro failed
      obtain ⟨none_, waits⟩ := guarded.unwatched failed
      exact ⟨none_, renews none_ waits⟩
    completed := completed
    urgent := by
      intro listening _ frame _
      simp [emptied listening, queuedCopies]
    starting := fun fresh => absurd fresh begun
    unread := unread }

/-- Where the watch is being renewed, no submission has failed. -/
theorem Guarded.unfailed (guarded : Guarded config c) (renews : c.phase.renews = true) :
    .armed false ∉ c.log := by
  intro failed
  have waits := (guarded.unwatched failed).2
  rw [renews] at waits
  cases waits

/-- A write to the eventfd leaves its counter positive. -/
theorem Guarded.write (guarded : Guarded config c) (callbacks : Nat → CallbackPc) :
    Guarded config { c with wakeup := c.wakeup.write, callbacks := callbacks } :=
  { guarded with
    prompt := Port.prompt_write
    watched := by simpa using guarded.watched
    unwatched := by simpa using guarded.unwatched
    completed := by
      intro phase
      have before := guarded.completed phase
      simp only [Port.write]
      omega
    urgent := by
      intro _ zero
      exact absurd zero (Nat.ne_of_gt Port.counter_write)
    unread := fun _ _ => Port.counter_write }

/-- Nobody waits, and nothing is queued. -/
theorem guarded_init : Guarded config (init κ).signals where
  prompt := fun _ => rfl
  watched := fun _ => rfl
  unwatched := by simp [State.signals, init]
  completed := by simp [State.signals, init, ReactorPc.phase]
  urgent := by simp [State.signals, init, ReactorPc.phase]
  starting := fun _ => rfl
  halted := by simp [State.signals, init]
  halting := by simp [State.signals, init]
  halts := by simp [State.signals, init]
  unread := by simp [State.signals, init]

/-- A thread that pushes a frame owes the write for it. -/
theorem owing_accept {thread : Nat} {sample : CriticalSample} {before after : Nat → CallbackPc}
    (idle : before thread = .idle) (others : ∀ found, found ≠ thread → after found = before found)
    (owed : config.Urgent sample.payload → after thread = .write sample.payload)
    {queue : List CriticalSample} {frame : Frame} (urgent : config.Urgent frame)
    (bounded : (queuedCopies queue frame : ℕ∞) ≤ (owing before frame).encard) :
    (queuedCopies (queue ++ [sample]) frame : ℕ∞) ≤ (owing after frame).encard := by
  have fresh : thread ∉ owing before frame := by
    simp [owing, idle]
  have kept : owing before frame ⊆ owing after frame := by
    intro found member
    have distinct : found ≠ thread := by
      rintro rfl
      exact fresh member
    rw [owing, Set.mem_ofPred_eq, others found distinct]
    exact member
  by_cases same : sample.payload = frame
  · have gained : insert thread (owing before frame) ⊆ owing after frame := by
      rw [Set.insert_subset_iff]
      refine ⟨?_, kept⟩
      rw [owing, Set.mem_ofPred_eq, ← same]
      exact owed (same ▸ urgent)
    calc (queuedCopies (queue ++ [sample]) frame : ℕ∞)
        = queuedCopies queue frame + 1 := by simp [queuedCopies, same]
      _ ≤ (owing before frame).encard + 1 := by gcongr
      _ = (insert thread (owing before frame)).encard :=
        (Set.encard_insert_of_notMem fresh).symm
      _ ≤ (owing after frame).encard := Set.encard_le_encard gained
  · calc (queuedCopies (queue ++ [sample]) frame : ℕ∞)
        = queuedCopies queue frame := by simp [queuedCopies, same]
      _ ≤ (owing before frame).encard := bounded
      _ ≤ (owing after frame).encard := Set.encard_le_encard kept

/-- Every step keeps a queued CRITICAL frame from being slept over. -/
theorem guarded_step (guarded : Guarded config c) (step : SignalStep config c next) :
    Guarded config next := by
  cases step with
  | silent => exact guarded
  | note other => exact guarded.note fun event member => guards_signal (other event member)
  | begin phase =>
    have asleep : c.started = false := guarded.starting phase
    exact { guarded with
      watched := by
        intro unfailed
        have before := guarded.watched unfailed
        rw [phase] at before
        exact before
      unwatched := fun failed => absurd failed (guarded.unfailed (by rw [phase]; rfl))
      completed := by simp
      urgent := by simp
      starting := by simp
      halted := by
        intro stopping
        have before := (guarded.halted stopping).1
        simp [asleep] at before
      unread := by simp [Phase.unread] }
  | @armed submitted phase =>
    have unfailed : .armed false ∉ c.log := by
      apply guarded.unfailed
      rcases phase with preparing | arming
      · rw [preparing]
        rfl
      · rw [arming]
        rfl
    have unwatched : c.wakeup.watches = 0 := by
      rw [guarded.watched unfailed]
      rcases phase with preparing | arming
      · rw [preparing]
        rfl
      · rw [arming]
        rfl
    exact
      { prompt := by
          cases submitted with
          | true => exact Port.prompt_arm guarded.prompt
          | false => exact guarded.prompt
        watched := by
          cases submitted with
          | true => simp [Phase.watches, unwatched]
          | false => simp
        unwatched := by
          cases submitted with
          | true => simp [unfailed]
          | false => simp [Phase.renews, unwatched]
        completed := by simp
        urgent := by simp
        starting := by simp
        halted := by simpa using guarded.halted
        halting := by simpa using guarded.halting
        halts := by simpa using guarded.halts
        unread := by simp [Phase.unread] }
  | enter phase running =>
    have unstopped : .stopped true ∉ c.log := by
      intro stopped
      have halted := (guarded.halted (guarded.halts stopped)).2
      simp [running] at halted
    have moved := guarded.move .taking (by rw [phase]; rfl) (fun _ _ => rfl) (by simp) (by simp)
      (by simp) (fun stopped _ => absurd stopped unstopped)
    exact moved.note (by simp [Event.guards])
  | leave phase =>
    exact guarded.move .returned (by rw [phase]; rfl) (fun _ _ => rfl) (by simp) (by simp)
      (by simp) (by simp [Phase.unread])
  | @take _ rest phase front =>
    have taken : Guarded config { c with critical_queue := rest } :=
      { guarded with urgent := by simp [phase] }
    exact taken.note (by simp [Event.guards])
  | listen phase empty =>
    have moved := guarded.move .listening (by rw [phase]; rfl) (fun _ _ => rfl) (by simp)
      (fun _ => empty) (by simp) (fun stopped _ => guarded.unread stopped (by rw [phase]; rfl))
    exact moved.note (by simp [Event.guards])
  | timeout phase quiet =>
    exact guarded.move .looping (by rw [phase]; rfl) (fun _ _ => rfl) (by simp) (by simp)
      (by simp) (by simp [Phase.unread])
  | wake phase completed =>
    have watched : c.wakeup.watches ≠ 0 := by
      rw [Port.watches]
      omega
    exact guarded.move .reading (by rw [phase]; rfl) (fun none_ _ => absurd none_ watched)
      (fun _ => completed) (by simp) (by simp)
      (fun stopped _ => guarded.unread stopped (by rw [phase]; rfl))
  | read phase =>
    have moved := guarded.move .seeing (by rw [phase]; rfl)
      (fun _ waits => by simp [phase, Phase.renews] at waits)
      (fun _ => guarded.completed (.inl phase)) (by simp) (by simp) (by simp [Phase.unread])
    exact { moved with
      prompt := Port.prompt_read
      urgent := by simp
      unread := by simp [Phase.unread] }
  | seen phase =>
    have consumed := Port.watches_seen (guarded.completed (.inr phase))
    exact { guarded with
      prompt := Port.prompt_seen guarded.prompt
      watched := by
        intro unfailed
        have before : c.wakeup.watches = 1 := by
          simpa [phase, Phase.watches] using guarded.watched unfailed
        have left : c.wakeup.seen.watches = 0 := by omega
        exact left
      unwatched := fun failed => absurd failed (guarded.unfailed (by rw [phase]; rfl))
      completed := by simp
      urgent := by simp
      starting := by simp
      unread := by simp [Phase.unread] }
  | accept idle other others owed =>
    have noted := guarded.note fun event member => guards_signal (other event member)
    exact { noted with
      urgent := fun phase zero _ urgent =>
        owing_accept idle others owed urgent (guarded.urgent phase zero _ urgent) }
  | write owed => exact guarded.write _
  | @stopping thread idle =>
    exact
      { prompt := guarded.prompt
        watched := by simpa using guarded.watched
        unwatched := by simpa using guarded.unwatched
        completed := guarded.completed
        urgent := guarded.urgent
        starting := guarded.starting
        halted := by
          intro stopping
          rcases List.mem_append.mp stopping with old | new
          · exact ⟨(guarded.halted old).1, rfl⟩
          · simp only [List.mem_singleton, Event.stopping.injEq] at new
            exact ⟨new.symm, rfl⟩
        halting := by
          intro found owed
          by_cases same : found = thread
          · subst same
            simp only [Function.update_self, StopPc.write.injEq] at owed
            simp [owed]
          · simp only [Function.update_of_ne same] at owed
            exact List.mem_append_left _ (guarded.halting found owed)
        halts := by
          intro stopped
          exact List.mem_append_left _ (guarded.halts (by simpa using stopped))
        unread := by simpa using guarded.unread }
  | @stopped thread afterRun owed =>
    have written := guarded.write c.callbacks
    exact
      { written with
        watched := by simpa using written.watched
        unwatched := by simpa using written.unwatched
        halted := by simpa using guarded.halted
        halting := by
          intro found owes
          by_cases same : found = thread
          · subst same
            simp at owes
          · simp only [Function.update_of_ne same] at owes
            exact List.mem_append_left _ (guarded.halting found owes)
        halts := by
          intro stopped
          rcases List.mem_append.mp stopped with old | new
          · exact List.mem_append_left _ (guarded.halts old)
          · simp only [List.mem_singleton, Event.stopped.injEq] at new
            exact List.mem_append_left _ (guarded.halting thread (new ▸ owed))
        unread := fun _ _ => Port.counter_write }

/-- In every run a queued CRITICAL frame is not slept over. -/
theorem reachable_guarded (reached : (machine config).Reachable s) : Guarded config s.signals :=
  signals_invariant (Guarded config) guarded_init (fun _ _ => guarded_step) reached

/-- What holds at a wait: exactly one watch, and no wakeup that is owed to the
reactor is missing. A pending completion ends the wait at once. -/
structure WakeupContract (config : Config κ) (s : State κ) : Prop where
  watched : s.wakeup.polls + s.wakeup.cqes = 1
  urgent : ∀ frame, config.Urgent frame →
    (owing s.callbacks frame).encard < queuedCopies s.critical_queue frame → 0 < s.wakeup.cqes
  stopped : .stopped true ∈ s.log → 0 < s.wakeup.cqes
  prompt : 0 < s.wakeup.cqes → ∀ answers,
    reactorStep config s answers = some { s with reactor := .readEventfd }

/-- In every interleaving of producers, `stop()` calls and the reactor in which no
submission has failed, at every wait: the eventfd has exactly one outstanding poll
or pending completion, and a completion is pending if a CRITICAL frame is queued
whose producer has finished its write, or if a `stop()` that began after `run()`
set `running_` has finished. -/
theorem wakeup_contract (reached : (machine config).Reachable s)
    (submitted : .armed false ∉ s.log) (waiting : s.reactor = .wait) :
    WakeupContract config s := by
  have guarded : Guarded config s.signals := reachable_guarded reached
  have phase : s.signals.phase = .listening := by
    simp [State.signals, waiting, ReactorPc.phase]
  have watched : s.wakeup.watches = 1 := by
    have one := guarded.watched submitted
    rw [phase] at one
    exact one
  exact
    { watched := watched
      urgent := by
        intro frame urgent finished
        apply Port.completed guarded.prompt watched
        by_contra unwritten
        have zero : s.wakeup.counter = 0 := Nat.eq_zero_of_not_pos unwritten
        exact absurd (guarded.urgent phase zero frame urgent) (not_le.mpr finished)
      stopped := by
        intro stopped
        apply Port.completed guarded.prompt watched
        exact guarded.unread stopped (by rw [phase]; rfl)
      prompt := by
        intro completed answers
        simp [reactorStep, waiting, completed] }

/-- An E-Stop arrives while the reactor is at its first wait. -/
def wakingRun : List Action :=
  defaultTurns 29 ++ [.receive 0 0 0 estopPath emptyMessage 5, .callback 0]

/-- A submission that found no free entry. -/
def Event.unsubmitted : Event κ → Bool
  | .armed false => true
  | _ => false

/-- The event of a failed arm. -/
theorem unsubmitted_iff {event : Event κ} : event.unsubmitted = true ↔ event = .armed false := by
  constructor
  · intro failed
    cases event with
    | armed submitted =>
      cases submitted with
      | false => rfl
      | true => simp [Event.unsubmitted] at failed
    | _ => simp [Event.unsubmitted] at failed
  · rintro rfl
    rfl

/-- A failed arm is found in the history. -/
theorem any_unsubmitted {log : List (Event κ)} :
    log.any Event.unsubmitted = true ↔ .armed false ∈ log := by
  rw [List.any_eq_true]
  constructor
  · rintro ⟨event, member, failed⟩
    exact unsubmitted_iff.mp failed ▸ member
  · intro member
    exact ⟨_, member, rfl⟩

/-- A CRITICAL frame with its completion pending. -/
theorem wakingRun_contract :
    ∃ s, (machine defaultConfig).exec (init TopicPriority) wakingRun = some s ∧
      s.critical_queue.length = 1 ∧ s.wakeup.cqes = 1 ∧ WakeupContract defaultConfig s := by
  have outcome : ((machine defaultConfig).exec (init TopicPriority) wakingRun).map (fun s =>
      (s.reactor, s.critical_queue.length, s.wakeup.cqes, s.log.any Event.unsubmitted)) =
        some (.wait, 1, 1, false) := by decide +kernel
  obtain ⟨s, ran, seen⟩ := Option.map_eq_some_iff.mp outcome
  simp only [Prod.mk.injEq] at seen
  obtain ⟨waiting, queued, completed, submitted⟩ := seen
  refine ⟨s, ran, queued, completed, ?_⟩
  apply wakeup_contract (Machine.reachable_of_exec ran) _ waiting
  intro failed
  rw [any_unsubmitted.mpr failed] at submitted
  simp at submitted

/-- After a failed submission the eventfd has no watch, whatever is written to it
and however many cycles go by, and every wait ends at its timeout. -/
structure Unwatched (config : Config κ) (s : State κ) : Prop where
  polls : s.wakeup.polls = 0
  cqes : s.wakeup.cqes = 0
  timeout : s.reactor = .wait → ∀ answers,
    reactorStep config s answers = some { s with reactor := .loopTest }

/-- The events since the latest failed submission. -/
def sinceFailure (log : List (Event κ)) : List (Event κ) :=
  (log.reverse.takeWhile fun event => !event.unsubmitted).reverse

/-- A cycle begins. -/
def Event.startsCycle : Event κ → Bool
  | .cycleStarted => true
  | _ => false

/-- A submission has failed, every later one was possible, and at least one
`handle_events` has begun and ended since. -/
def Retried (s : State κ) : Prop :=
  s.reactor = .loopTest ∧ .armed false ∈ s.log ∧
    (sinceFailure s.log).any Event.startsCycle = true

/-- A poll is outstanding or its completion is pending. -/
def Recovered (s : State κ) : Prop :=
  0 < s.wakeup.polls ∨ 0 < s.wakeup.cqes

/-- In every run, a `handle_events` that begins after a failed submission and finds
free entries ends with the eventfd watched again. -/
def Recovers (config : Config κ) : Prop :=
  ∀ s, (machine config).Reachable s → Retried s → Recovered s

/-- No run recovers from a failed submission: at no later moment is a poll
outstanding or a completion pending, at the end of a `handle_events` or elsewhere. -/
theorem never_recovers (reached : (machine config).Reachable s)
    (failed : .armed false ∈ s.log) : ¬ Recovered s ∧ Unwatched config s := by
  have guarded : Guarded config s.signals := reachable_guarded reached
  have unwatched : s.wakeup.polls + s.wakeup.cqes = 0 := (guarded.unwatched failed).1
  have quiet : s.wakeup.cqes = 0 := by omega
  constructor
  · rintro (outstanding | pending)
    · omega
    · omega
  · refine ⟨by omega, quiet, ?_⟩
    intro waiting answers
    simp [reactorStep, waiting, quiet]

/-- The first submission fails and no other; an E-Stop is received and its wakeup
written; two whole cycles follow. -/
def unarmedRun : List Action :=
  defaultTurns 9 ++
    [.reactor { now := 0, declared := true, sqe := false, order := [] },
      .receive 0 0 0 estopPath emptyMessage 5, .callback 0] ++ defaultTurns 42

/-- What the run ends in: a cycle behind the failure, and no poll. -/
theorem unarmedRun_outcome :
    ((machine defaultConfig).exec (init TopicPriority) unarmedRun).map (fun s =>
      (s.reactor, s.log.any Event.unsubmitted, (sinceFailure s.log).any Event.startsCycle,
        s.wakeup)) =
      some (.loopTest, true, true, { counter := 1, polls := 0, cqes := 0 }) := by
  decide +kernel

/-- A failed arm is not recovered from. -/
theorem unarmedRun_stalls : ¬ Recovers defaultConfig := by
  intro recovers
  obtain ⟨s, ran, seen⟩ := Option.map_eq_some_iff.mp unarmedRun_outcome
  simp only [Prod.mk.injEq] at seen
  obtain ⟨here, failed, retried, wakeup⟩ := seen
  have recovered := recovers s (Machine.reachable_of_exec ran)
    ⟨here, any_unsubmitted.mp failed, retried⟩
  rw [Recovered, wakeup] at recovered
  simp at recovered

/-- From then on every wait runs into its timeout. -/
theorem unarmedRun_unwatched :
    ∃ s, (machine defaultConfig).exec (init TopicPriority) unarmedRun = some s ∧ Retried s ∧
      ¬ Recovered s ∧ Unwatched defaultConfig s := by
  obtain ⟨s, ran, seen⟩ := Option.map_eq_some_iff.mp unarmedRun_outcome
  simp only [Prod.mk.injEq] at seen
  obtain ⟨here, failed, retried, _⟩ := seen
  exact ⟨s, ran, ⟨here, any_unsubmitted.mp failed, retried⟩,
    never_recovers (Machine.reachable_of_exec ran) (any_unsubmitted.mp failed)⟩

end FlowKernel.Reactor
