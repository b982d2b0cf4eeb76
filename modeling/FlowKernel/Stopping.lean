import FlowKernel.Signals

/-!
# Stopping the reactor

A `stop()` stores false to `running_` and then writes to the eventfd; `run()` stores
true as its first statement. Nothing orders the two stores. As long as `run()` does
not store after a `stop()` has, a finished `stop()` is final: `running_` stays false,
and the loop test that follows the `handle_events` in progress ends the run.

A `stop()` that comes before the first statement of `run()` is overwritten, and the
loop goes on for good.
-/

namespace FlowKernel.Reactor

open Foundation

universe u
variable {κ : Type u}

/-- Some `stop()` has stored false. -/
def Halted (log : List (Event κ)) : Prop :=
  ∃ afterRun, .stopping afterRun ∈ log

/-- Some `stop()` has returned. -/
def StopReturned (log : List (Event κ)) : Prop :=
  ∃ afterRun, .stopped afterRun ∈ log

/-- What a finished `stop()` promises. -/
structure StopContract (config : Config κ) (s : State κ) : Prop where
  running : StopReturned s.log → s.running = false
  cycles : Justified (fun before event => event = .cycleStarted → ¬ StopReturned before) s.log
  leaves : StopReturned s.log → s.reactor = .loopTest → ∀ answers,
    reactorStep config s answers = some { s with reactor := .returned }

/-- In every interleaving of `run()` with any number of `stop()` calls, a finished
`stop()` is final. -/
def StopLaw (config : Config κ) : Prop :=
  ∀ s, (machine config).Reachable s → StopContract config s

/-- `run()` stores true only if no `stop()` has stored false before. -/
def Unhalted (s : State κ) : Action → Prop
  | .reactor _ => s.reactor = .storeRunning → ¬ Halted s.log
  | _ => True

/-- The stores of the `stop()` calls, as the log and the threads tell of them. -/
structure Halts (c : Signals κ) : Prop where
  owing : ∀ thread afterRun, c.stops thread = .write afterRun → Halted c.log
  returned : StopReturned c.log → Halted c.log
  pending : Halted c.log → StopReturned c.log ∨ ∃ thread afterRun, c.stops thread = .write afterRun

/-- What the store of a `stop()` leads to, as long as `run()` does not overwrite it. -/
structure Final (c : Signals κ) : Prop where
  running : Halted c.log → c.running = false
  cycles : Justified (fun before event => event = .cycleStarted → ¬ StopReturned before) c.log

variable {config : Config κ} {c after : Signals κ} {s next : State κ}

/-- Once halted, a history stays so. -/
theorem Halted.append {log : List (Event κ)} (halted : Halted log) (events : List (Event κ)) :
    Halted (log ++ events) :=
  halted.imp fun _ => List.mem_append_left _

/-- An event that is no signal halts nothing. -/
theorem Event.plain_of_signal {event : Event κ} (aside : event.signal = false) :
    event.plain = false := by
  cases event with
  | stopping => exact absurd aside.symm Bool.false_ne_true
  | stopped => exact absurd aside.symm Bool.false_ne_true
  | _ => rfl

/-- Other events do not halt. -/
theorem halted_aside {log events : List (Event κ)}
    (aside : ∀ event ∈ events, event.plain = false) : Halted (log ++ events) ↔ Halted log :=
  exists_congr fun _ => mem_append_unmarked aside rfl

/-- Other events are no return of `stop()`. -/
theorem returned_aside {log events : List (Event κ)}
    (aside : ∀ event ∈ events, event.plain = false) :
    StopReturned (log ++ events) ↔ StopReturned log :=
  exists_congr fun _ => mem_append_unmarked aside rfl

/-- Events of other calls. -/
theorem Halts.aside (halts : Halts c) {events : List (Event κ)}
    (log : after.log = c.log ++ events) (aside : ∀ event ∈ events, event.plain = false)
    (stops : after.stops = c.stops) : Halts after where
  owing := by
    rw [log, stops, halted_aside aside]
    exact halts.owing
  returned := by
    rw [log, returned_aside aside, halted_aside aside]
    exact halts.returned
  pending := by
    rw [log, stops, returned_aside aside, halted_aside aside]
    exact halts.pending

/-- Nothing has been halted. -/
theorem halts_init : Halts (init κ).signals where
  owing := by simp [State.signals, init]
  returned := by simp [State.signals, init, StopReturned]
  pending := by simp [State.signals, init, Halted]

/-- Every step of the protocol keeps a halt in the history. -/
theorem halts_step (halts : Halts c) (step : SignalStep config c after) : Halts after := by
  cases step with
  | silent => exact halts
  | note other =>
    exact halts.aside rfl (fun event member => Event.plain_of_signal (other event member)) rfl
  | accept _ other =>
    exact halts.aside rfl (fun event member => Event.plain_of_signal (other event member)) rfl
  | armed => exact halts.aside rfl (by simp [Event.plain]) rfl
  | enter => exact halts.aside rfl (by simp [Event.plain]) rfl
  | take => exact halts.aside rfl (by simp [Event.plain]) rfl
  | listen => exact halts.aside rfl (by simp [Event.plain]) rfl
  | @stopping thread idle =>
    have now : Halted (c.log ++ [Event.stopping c.started]) := ⟨c.started, by simp⟩
    refine ⟨fun _ _ _ => now, fun _ => now, fun _ => .inr ⟨thread, c.started, ?_⟩⟩
    exact Function.update_self _ _ _
  | @stopped thread afterRun owed =>
    have before : Halted c.log := halts.owing thread afterRun owed
    have now : StopReturned (c.log ++ [Event.stopped afterRun]) := ⟨afterRun, by simp⟩
    exact ⟨fun _ _ _ => before.append _, fun _ => before.append _, fun _ => .inl now⟩
  | _ => exact halts.aside (List.append_nil _).symm (by simp) rfl

/-- In every run a `stop()` that has stored is in the history. -/
theorem reachable_halts (reached : (machine config).Reachable s) : Halts s.signals :=
  signals_invariant Halts halts_init (fun _ _ => halts_step) reached

/-- Events of other calls, when `running_` is left alone. -/
theorem Final.aside (final : Final c) {events : List (Event κ)}
    (log : after.log = c.log ++ events) (aside : ∀ event ∈ events, event.signal = false)
    (running : after.running = c.running) : Final after where
  running := by
    rw [log, running, halted_aside (fun event member => Event.plain_of_signal (aside event member))]
    exact final.running
  cycles := by
    rw [log]
    apply final.cycles.append
    rintro before event rest rfl rfl
    exact absurd (aside .cycleStarted (by simp)).symm Bool.false_ne_true

/-- A step that logs one event other than the beginning of a cycle. -/
theorem Final.log (final : Final c) {event : Event κ} (log : after.log = c.log ++ [event])
    (other : event ≠ .cycleStarted) (running : Halted after.log → after.running = false) :
    Final after where
  running := running
  cycles := by
    rw [log]
    exact final.cycles.snoc fun same => absurd same other

/-- A step that does not start a halted reactor keeps the stop final. -/
theorem final_step (halts : Halts c) (final : Final c) (step : SignalStep config c after)
    (unhalted : c.phase = .fresh → after.phase ≠ .fresh → ¬ Halted c.log) : Final after := by
  cases step with
  | note other => exact final.aside rfl other rfl
  | accept _ other => exact final.aside rfl other rfl
  | begin phase =>
    have first : ¬ Halted c.log := unhalted phase (by simp)
    exact ⟨fun halted => absurd halted first, final.cycles⟩
  | armed =>
    refine final.log rfl (by simp) ?_
    rw [halted_aside (by simp [Event.plain])]
    exact final.running
  | enter phase running =>
    have first : ¬ Halted c.log := by
      intro halted
      rw [final.running halted] at running
      exact Bool.false_ne_true running
    refine ⟨?_, final.cycles.snoc fun _ => mt halts.returned first⟩
    rw [halted_aside (by simp [Event.plain])]
    exact final.running
  | take => exact final.aside rfl (by simp [Event.signal]) rfl
  | listen => exact final.aside rfl (by simp [Event.signal]) rfl
  | stopping => exact final.log rfl (by simp) (fun _ => rfl)
  | stopped =>
    refine final.log rfl (by simp) ?_
    simpa [Halted] using final.running
  | _ => exact final.aside (List.append_nil _).symm (by simp) rfl

/-- Nothing has been stopped. -/
theorem final_init : Final (init κ).signals where
  running := fun _ => rfl
  cycles := .nil

/-- An action is an access of `run()`, or another thread's. -/
theorem Action.reactor_or_other (action : Action) :
    (∃ answers, action = .reactor answers) ∨ ∀ answers, action ≠ .reactor answers := by
  cases action with
  | reactor answers => exact .inl ⟨answers, rfl⟩
  | _ => exact .inr (by simp)

/-- Only `run()` itself moves its program counter. -/
theorem step_reactor {action : Action} (others : ∀ answers, action ≠ .reactor answers)
    (stepped : step config s action = some next) : next.reactor = s.reactor := by
  cases step_transition stepped with
  | receive idle known outcome =>
    cases outcome with
    | _ => rfl
  | access => exact absurd rfl (others _)
  | resetStep stepped =>
    obtain ⟨stats, latencies, resetting, rfl⟩ := resetStep_frame stepped
    rfl
  | _ => rfl

/-- A fresh reactor has its first store before it. -/
theorem phase_fresh {pc : ReactorPc} (fresh : pc.phase = .fresh) : pc = .storeRunning := by
  cases pc with
  | storeRunning => rfl
  | _ => simp [ReactorPc.phase] at fresh

/-- In a run that starts before any `stop()` returns, the stop is final. -/
theorem reachable_final (reached : (machine config).ReachableWithin Unhalted s) :
    Final s.signals := by
  apply Machine.invariant_within (fun s => Final s.signals) final_init _ reached
  intro before action after met final permitted stepped
  apply final_step (reachable_halts met.reachable) final
    (step_signals (reachable_sourced met.reachable) stepped)
  intro fresh left
  rcases action.reactor_or_other with ⟨answers, rfl⟩ | others
  · exact permitted (phase_fresh fresh)
  · have kept : after.reactor = before.reactor := step_reactor others stepped
    exact absurd ((congrArg ReactorPc.phase kept).trans fresh) left

/-- In every interleaving in which `run()` does not store true after a `stop()` has
stored false, a finished `stop()` is final: `running_` stays false, no call of
`handle_events` begins, and the next loop test ends the run. -/
theorem stop_contract (reached : (machine config).ReachableWithin Unhalted s) :
    StopContract config s := by
  have halts := reachable_halts reached.reachable
  have final := reachable_final reached
  have stays : StopReturned s.log → s.running = false :=
    fun returned => final.running (halts.returned returned)
  refine ⟨stays, final.cycles, ?_⟩
  intro returned here answers
  simp [reactorStep, here, stays returned]

/-- A `stop()` that has stored can write. -/
theorem stopWrite_step {thread : Nat} {afterRun : Bool} (owing : s.stops thread = .write afterRun) :
    ∃ after, step config s (.stopWrite thread) = some after ∧ after.running = s.running ∧
      after.log = s.log ++ [Event.stopped afterRun] := by
  simp only [step, owing]
  exact ⟨_, rfl, rfl, rfl⟩

/-- The condition cannot be spared: a run in which `run()` does store true after a
`stop()` has stored false can go on to a state that breaks the contract. -/
theorem late_start_breaks (reached : (machine config).Reachable s)
    (fresh : s.reactor = .storeRunning) (halted : Halted s.log) {answers : Answers}
    (stepped : step config s (.reactor answers) = some next) :
    ∃ schedule later, (machine config).exec next schedule = some later ∧
      ¬ StopContract config later := by
  have pending := (reachable_halts reached).pending halted
  have started : next.running = true ∧ next.stops = s.stops ∧ next.log = s.log := by
    simp only [step, reactorStep, fresh] at stepped
    obtain rfl := Option.some.inj stepped
    exact ⟨rfl, rfl, rfl⟩
  obtain ⟨running, stops, log⟩ := started
  rcases pending with returned | ⟨thread, afterRun, owing⟩
  · refine ⟨[], next, rfl, ?_⟩
    intro contract
    have halted := contract.running (log ▸ returned)
    exact Bool.false_ne_true (halted.symm.trans running)
  · have owed : next.stops thread = .write afterRun := stops ▸ owing
    obtain ⟨later, written, flag, logged⟩ := @stopWrite_step _ config next _ _ owed
    refine ⟨[.stopWrite thread], later, ?_, ?_⟩
    · exact Option.bind_eq_some_iff.mpr ⟨later, written, rfl⟩
    · intro contract
      have halted := contract.running ⟨afterRun, by simp [logged]⟩
      exact Bool.false_ne_true (halted.symm.trans (flag.trans running))

/-- The condition on a run, checked along it. -/
def unhalted (s : State κ) (action : Action) (_ : State κ) : Bool :=
  match action with
  | .reactor _ => s.reactor ≠ .storeRunning || s.log.all fun event => !event.plain
  | _ => true

/-- What the check accepts meets the condition. -/
theorem unhalted_of_check {action : Action} (passed : unhalted s action next = true) :
    Unhalted s action := by
  cases action with
  | reactor answers =>
    rintro fresh ⟨afterRun, member⟩
    simp only [unhalted, fresh, ne_eq, not_true_eq_false, decide_false, Bool.false_or,
      List.all_eq_true] at passed
    exact Bool.false_ne_true (passed _ member)
  | _ => trivial

/-- The end of a `stop()`. -/
def Event.stops : Event κ → Bool
  | .stopped _ => true
  | _ => false

/-- The return of a `stop()` is in the history. -/
theorem returned_of_any {log : List (Event κ)} (found : log.any Event.stops = true) :
    StopReturned log := by
  obtain ⟨event, member, stops⟩ := List.any_eq_true.mp found
  cases event with
  | stopped afterRun => exact ⟨afterRun, member⟩
  | _ => simp [Event.stops] at stops

/-- The reactor starts, is stopped by two threads in the middle of a cycle, and
comes to its end. -/
def stoppedRun : List Action :=
  defaultTurns 20 ++ [.stop 0, .stop 1, .stopWrite 1, .stopWrite 0] ++ defaultTurns 14

/-- A `stop()` behind the first store ends the run. -/
theorem stoppedRun_contract :
    ∃ s, (machine defaultConfig).execWithin unhalted (init TopicPriority) stoppedRun = some s ∧
      s.reactor = .returned ∧ StopReturned s.log ∧ StopContract defaultConfig s := by
  have outcome : ((machine defaultConfig).execWithin unhalted (init TopicPriority) stoppedRun).map
      (fun s => (s.reactor, s.log.any Event.stops)) = some (.returned, true) := by
    decide +kernel
  obtain ⟨s, ran, seen⟩ := Option.map_eq_some_iff.mp outcome
  simp only [Prod.mk.injEq] at seen
  obtain ⟨ended, stopped⟩ := seen
  have reached := Machine.ReachableWithin.exec
    (fun _ _ _ _ passed => unhalted_of_check passed) .start ran
  exact ⟨s, ran, ended, returned_of_any stopped, stop_contract reached⟩

/-- A `stop()` before the first statement of `run()`, and the reactor beyond its
first cycle. -/
def overwrittenRun : List Action :=
  [.stop 0, .stopWrite 0] ++ defaultTurns 40

/-- A `stop()` before the first store is overwritten. -/
theorem overwrittenRun_goes_on : ¬ StopLaw defaultConfig := by
  have outcome : ((machine defaultConfig).exec (init TopicPriority) overwrittenRun).map
      (fun s => (s.running, s.log.any Event.stops)) = some (true, true) := by
    decide +kernel
  obtain ⟨s, ran, seen⟩ := Option.map_eq_some_iff.mp outcome
  simp only [Prod.mk.injEq] at seen
  obtain ⟨running, stopped⟩ := seen
  intro law
  have contract := law s (Machine.reachable_of_exec ran)
  have halted := contract.running (returned_of_any stopped)
  exact Bool.false_ne_true (halted.symm.trans running)

end FlowKernel.Reactor
