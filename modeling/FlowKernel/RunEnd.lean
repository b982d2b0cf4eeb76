import FlowKernel.Cycle
import FlowKernel.Foundation.Progress
import FlowKernel.Stopping

/-!
# The end of `run()`

Once `running_` is false for good, `run()` finishes the cycle it is in and returns. It is
never kept from its next access by another thread, but a data callback that is accepted
meanwhile adds to its queue, and the loop over the queue does not test `running_`. So the
accesses that are left are bounded by what was there at the store and by what arrives
after it.
-/

namespace FlowKernel.Reactor

open Foundation

universe u
variable {κ : Type u}

/-- The most accesses before `run()` returns, if `running_` is false and nothing arrives. -/
def ReactorPc.ending (handlers queue slots : Nat) : ReactorPc → Nat
  | .returned => 0
  | .loopTest => 1
  | .armFirst => 2
  | .subscribe i => 3 + (handlers - i)
  | .preAllocate i => 4 + handlers + (handlers - i)
  | .storeRunning => 5 + 2 * handlers
  | pc => pc.work queue slots + 1

/-- The most steps that `run()` has before it once stopped. -/
def State.ending (config : Config κ) (s : State κ) : Nat :=
  s.reactor.ending config.registry.handlers.length s.critical_queue.length
    s.background_cache.keys.length

/-- An access of `run()`. -/
def Action.runs : Action → Bool
  | .reactor _ => true
  | _ => false

/-- A call of the data callback. -/
def Action.receives : Action → Bool
  | .receive .. => true
  | _ => false

/-- A `stop()` has stored false after `run()` has stored true. -/
def Heeded (log : List (Event κ)) : Prop :=
  .stopping true ∈ log

/-- What a `stop()` after the first store of `run()` leads to. -/
structure EndContract (config : Config κ) (s : State κ) : Prop where
  possible : ∀ actions final, (machine config).exec s actions = some final →
    final.reactor ≠ .returned → ∃ answers next, reactorStep config final answers = some next
  bounded : ∀ actions final, (machine config).exec s actions = some final →
    actions.countP Action.runs ≤ s.ending config + 2 * actions.countP Action.receives
  returns : ∃ actions final, (∀ action ∈ actions, action.runs = true) ∧
    (machine config).exec s actions = some final ∧ final.reactor = .returned ∧
      actions.length ≤ s.ending config

/-- `running_` is false and will not be set again. -/
structure Stopped (s : State κ) : Prop where
  running : s.running = false
  begun : s.reactor ≠ .storeRunning

/-- How `running_` and the log tell of a `stop()`. -/
structure Heeds (c : Signals κ) : Prop where
  fresh : c.started = false ↔ c.phase = .fresh
  early : c.started = false → ¬ Heeded c.log
  running : c.started = true → (c.running = false ↔ Heeded c.log)

variable {config : Config κ} {s next : State κ} {c after : Signals κ}

/-- Inside a cycle they are those of the cycle and the test. -/
theorem ReactorPc.ending_cycling {pc : ReactorPc} (inside : pc.cycling = true)
    (handlers queue slots : Nat) :
    pc.ending handlers queue slots = pc.work queue slots + 1 := by
  cases pc <;> first | rfl | simp [ReactorPc.cycling] at inside

/-- Inside a cycle there is a step left. -/
theorem ReactorPc.work_pos {pc : ReactorPc} (inside : pc.cycling = true) (queue slots : Nat) :
    0 < pc.work queue slots := by
  cases pc <;> simp [ReactorPc.cycling, ReactorPc.work] at inside ⊢

/-- Every access of a cycle brings its end nearer. -/
theorem cycling_ending (inside : s.reactor.cycling = true) {answers : Answers}
    (stepped : reactorStep config s answers = some next) :
    next.ending config < s.ending config := by
  have step := reactorStep_cycle inside stepped
  have before : s.ending config = s.work + 1 := ReactorPc.ending_cycling inside _ _ _
  have working : 0 < s.work := ReactorPc.work_pos inside _ _
  by_cases here : next.reactor = .loopTest
  · have after : next.ending config = 1 := by rw [State.ending, here]; rfl
    omega
  · have cycling := step.cycling.resolve_right here
    have after : next.ending config = next.work + 1 := ReactorPc.ending_cycling cycling _ _ _
    have lower := step.progress here
    omega

/-- With `running_` false every access of `run()` is one of the last. -/
theorem access_ending (stopped : Stopped s) {answers : Answers}
    (stepped : reactorStep config s answers = some next) :
    Stopped next ∧ next.ending config < s.ending config := by
  by_cases inside : s.reactor.cycling = true
  · have step := reactorStep_cycle inside stepped
    refine ⟨⟨step.running.trans stopped.running, ?_⟩, cycling_ending inside stepped⟩
    intro fresh
    rcases step.cycling with cycling | here
    · simp [fresh, ReactorPc.cycling] at cycling
    · simp [fresh] at here
  · have access := reactorStep_access stepped
    obtain ⟨stopped, begun⟩ := stopped
    obtain ⟨running, started, contexts, queue, dropped, cache, stats, latencies, sessions, wakeup,
      callbacks, stops, resetting, reactor, log⟩ := s
    cases access with
    | storeRunning => exact absurd rfl begun
    | allocated | subscribed =>
      exact ⟨⟨stopped, by simp⟩, by simp only [State.ending, ReactorPc.ending]; omega⟩
    | allocate found | passOver found | subscribe found | skip found =>
      have bound := (List.getElem?_eq_some_iff.mp found).choose
      exact ⟨⟨stopped, by simp⟩, by simp only [State.ending, ReactorPc.ending]; omega⟩
    | armFirst => exact ⟨⟨stopped, by simp [State.record]⟩, Nat.lt_succ_self 1⟩
    | enter alive => exact absurd (stopped.symm.trans alive) Bool.false_ne_true
    | leave => exact ⟨⟨stopped, by simp⟩, Nat.zero_lt_one⟩
    | _ => exact absurd rfl inside

/-- One more sample in the queue is two more accesses. -/
theorem ReactorPc.ending_grown (pc : ReactorPc) (handlers queue slots : Nat) :
    pc.ending handlers (queue + 1) slots ≤ pc.ending handlers queue slots + 2 := by
  cases pc <;> simp only [ReactorPc.ending, ReactorPc.work] <;> omega

/-- The other threads only add to the queue. -/
theorem other_ending {action : Action} (other : ∀ answers, action ≠ .reactor answers)
    (stepped : step config s action = some next) :
    next.ending config ≤ s.ending config + if action.receives then 2 else 0 := by
  cases step_transition stepped with
  | access => exact absurd rfl (other _)
  | receive idle known outcome =>
    cases outcome with
    | accepted =>
      simp only [State.ending, List.length_append, List.length_singleton]
      exact ReactorPc.ending_grown _ _ _ _
    | _ => exact Nat.le_add_right _ _
  | resetStep stepped =>
    obtain ⟨stats, latencies, resetting, rfl⟩ := resetStep_frame stepped
    exact Nat.le_refl _
  | _ => exact Nat.le_refl _

/-- They do not start `run()` again. -/
theorem Stopped.aside {action : Action} (stopped : Stopped s)
    (other : ∀ answers, action ≠ .reactor answers) (stepped : step config s action = some next) :
    Stopped next := by
  refine ⟨?_, step_reactor other stepped ▸ stopped.begun⟩
  cases step_transition stepped with
  | access => exact absurd rfl (other _)
  | receive idle known outcome =>
    cases outcome <;> exact stopped.running
  | stop => rfl
  | resetStep stepped =>
    obtain ⟨stats, latencies, resetting, rfl⟩ := resetStep_frame stepped
    exact stopped.running
  | _ => exact stopped.running

/-- Once stopped every step of `run()` takes from them, and a frame adds two. -/
theorem step_ending {action : Action} (stopped : Stopped s)
    (stepped : step config s action = some next) :
    Stopped next ∧ next.ending config + (if action.runs then 1 else 0) ≤
      s.ending config + if action.receives then 2 else 0 := by
  cases action with
  | reactor answers =>
    obtain ⟨kept, lower⟩ := access_ending stopped stepped
    exact ⟨kept, lower⟩
  | _ => exact ⟨stopped.aside (by simp) stepped, other_ending (by simp) stepped⟩

/-- `run()` always has a next access. -/
theorem run_possible (config : Config κ) (unended : s.reactor ≠ .returned) :
    ∃ answers next, reactorStep config s answers = some next := by
  by_cases inside : s.reactor.cycling = true
  · exact step_possible config inside
  · refine ⟨{ now := 0, declared := true, sqe := true, order := [] }, ?_⟩
    cases here : s.reactor with
    | storeRunning | armFirst => exact ⟨_, by simp only [reactorStep, here]; rfl⟩
    | preAllocate i | subscribe i =>
      simp only [reactorStep, here]
      split
      · exact ⟨_, rfl⟩
      · split <;> exact ⟨_, rfl⟩
    | loopTest =>
      simp only [reactorStep, here]
      split <;> exact ⟨_, rfl⟩
    | returned => exact absurd here unended
    | _ => simp [here, ReactorPc.cycling] at inside

/-- Other events are no stop. -/
theorem heeded_aside {log events : List (Event κ)}
    (aside : ∀ event ∈ events, event.plain = false) : Heeded (log ++ events) ↔ Heeded log :=
  mem_append_unmarked aside rfl

/-- `run()` itself neither stops nor is it told to. -/
theorem access_aside {answers : Answers} (access : Access config s answers s.reactor next) :
    next.stops = s.stops ∧ (Heeded next.log ↔ Heeded s.log) := by
  obtain ⟨running, started, contexts, queue, dropped, cache, stats, latencies, sessions, wakeup,
    callbacks, stops, resetting, reactor, log⟩ := s
  cases access with
  | armFirst | arm | enter | emptied | pop | unindexed | dispatchCritical | dispatchNormal
  | startDrain | drained | visitEmpty | visit | unindexedSlot | dispatchSlot =>
    exact ⟨rfl, heeded_aside (by simp [Event.plain])⟩
  | _ => exact ⟨rfl, Iff.rfl⟩

/-- Only `stop()` itself touches what a thread owes of it. -/
theorem stops_aside {action : Action} {thread : Nat} (plain : action ≠ .stop thread)
    (unwritten : action ≠ .stopWrite thread) (stepped : step config s action = some next) :
    next.stops thread = s.stops thread := by
  cases step_transition stepped with
  | receive idle known outcome =>
    cases outcome <;> rfl
  | @stop other =>
    have apart : thread ≠ other := by
      rintro rfl
      exact plain rfl
    exact Function.update_of_ne apart _ _
  | @stopWrite other =>
    have apart : thread ≠ other := by
      rintro rfl
      exact unwritten rfl
    exact Function.update_of_ne apart _ _
  | access access => rw [(access_aside access).1]
  | resetStep stepped =>
    obtain ⟨stats, latencies, resetting, rfl⟩ := resetStep_frame stepped
    rfl
  | _ => rfl

/-- Only `stop()` makes a difference to what is heeded. -/
theorem heeded_other {action : Action} (plain : ∀ thread, action ≠ .stop thread)
    (stepped : step config s action = some next) : Heeded next.log ↔ Heeded s.log := by
  cases step_transition stepped with
  | receive idle known outcome =>
    cases outcome with
    | ignored => exact Iff.rfl
    | _ => exact heeded_aside (by simp [Event.plain])
  | stop => exact absurd rfl (plain _)
  | stopWrite => simp [Heeded, State.record, State.setStop]
  | access access => exact (access_aside access).2
  | resetStep stepped =>
    obtain ⟨stats, latencies, resetting, rfl⟩ := resetStep_frame stepped
    exact Iff.rfl
  | reset => exact heeded_aside (by simp [Event.plain])
  | _ => exact Iff.rfl

/-- Events that are no stop leave the flag alone. -/
theorem Heeds.aside (heeds : Heeds c) {events : List (Event κ)}
    (log : after.log = c.log ++ events) (aside : ∀ event ∈ events, event.plain = false)
    (running : after.running = c.running) (started : after.started = c.started)
    (phase : after.phase = .fresh ↔ c.phase = .fresh) : Heeds after where
  fresh := by
    rw [started, phase]
    exact heeds.fresh
  early := by
    rw [started, log, heeded_aside aside]
    exact heeds.early
  running := by
    rw [started, running, log, heeded_aside aside]
    exact heeds.running

/-- Nothing has been stopped. -/
theorem heeds_init : Heeds (init κ).signals where
  fresh := by simp [State.signals, init, ReactorPc.phase]
  early := by simp [State.signals, init, Heeded]
  running := by simp [State.signals, init]

/-- Every step of the protocol keeps the flag and the history in agreement. -/
theorem heeds_step (heeds : Heeds c) (step : SignalStep config c after) : Heeds after := by
  cases step with
  | silent => exact heeds
  | note other =>
    exact heeds.aside rfl (fun event member => Event.plain_of_signal (other event member)) rfl rfl
      Iff.rfl
  | accept _ other =>
    exact heeds.aside rfl (fun event member => Event.plain_of_signal (other event member)) rfl rfl
      Iff.rfl
  | begin phase =>
    have unheeded : ¬ Heeded c.log := heeds.early (heeds.fresh.mpr phase)
    exact ⟨by simp, by simp, fun _ => by simp [unheeded]⟩
  | armed phase =>
    refine heeds.aside rfl (by simp [Event.plain]) rfl rfl ?_
    rcases phase with phase | phase <;> simp [phase]
  | enter phase =>
    exact heeds.aside rfl (by simp [Event.plain]) rfl rfl (by simp [phase])
  | listen phase =>
    exact heeds.aside rfl (by simp [Event.plain]) rfl rfl (by simp [phase])
  | take => exact heeds.aside rfl (by simp [Event.plain]) rfl rfl Iff.rfl
  | stopping =>
    refine ⟨heeds.fresh, ?_, ?_⟩
    · intro fresh
      have unheeded := heeds.early fresh
      simpa [Heeded, show c.started = false from fresh] using unheeded
    · intro begun
      have now : Heeded (c.log ++ [.stopping c.started]) := by
        rw [show c.started = true from begun]
        exact List.mem_append_right _ (List.mem_singleton_self _)
      exact ⟨fun _ => now, fun _ => rfl⟩
  | stopped =>
    refine ⟨heeds.fresh, ?_, ?_⟩
    · simpa [Heeded] using heeds.early
    · simpa [Heeded] using heeds.running
  | leave phase | timeout phase | wake phase | read phase | seen phase =>
    exact heeds.aside (List.append_nil _).symm (by simp) rfl rfl (by simp [phase])
  | write => exact heeds.aside (List.append_nil _).symm (by simp) rfl rfl Iff.rfl

/-- In every run `running_` is false behind a stop that came in time. -/
theorem reachable_heeds (reached : (machine config).Reachable s) : Heeds s.signals :=
  signals_invariant Heeds heeds_init (fun _ _ => heeds_step) reached

/-- The first store is the only place before itself. -/
theorem phase_fresh_iff {pc : ReactorPc} : pc.phase = .fresh ↔ pc = .storeRunning :=
  ⟨phase_fresh, fun here => here ▸ rfl⟩

/-- `running_` is false for good when a `stop()` has been heeded. -/
theorem stopped_of_heeded (reached : (machine config).Reachable s) (heeded : Heeded s.log) :
    Stopped s := by
  have heeds := reachable_heeds reached
  have begun : s.started = true := by
    rw [← Bool.not_eq_false]
    exact fun fresh => heeds.early fresh heeded
  refine ⟨(heeds.running begun).mpr heeded, ?_⟩
  intro fresh
  have unbegun : s.started = false := heeds.fresh.mpr (phase_fresh_iff.mpr fresh)
  exact Bool.false_ne_true (unbegun.symm.trans begun)

/-- `run()` returns only from a test that finds `running_` false. -/
theorem access_returned {answers : Answers} (stepped : reactorStep config s answers = some next)
    (ended : next.reactor = .returned) :
    s.reactor = .loopTest ∧ s.running = false ∧ next = { s with reactor := .returned } := by
  have access := reactorStep_access stepped
  obtain ⟨running, started, contexts, queue, dropped, cache, stats, latencies, sessions, wakeup,
    callbacks, stops, resetting, reactor, log⟩ := s
  cases access with
  | leave stopped => exact ⟨rfl, Bool.not_eq_true _ ▸ stopped, rfl⟩
  | _ => simp [State.record] at ended

/-- So a `stop()` has been heeded. -/
theorem reachable_returned (reached : (machine config).Reachable s) :
    s.reactor = .returned → Heeded s.log := by
  apply Machine.invariant (fun s => s.reactor = .returned → Heeded s.log)
    (by simp [machine, init]) _ reached
  intro before action after met holds stepped ended
  rcases action.reactor_or_other.symm with others | ⟨answers, rfl⟩
  · have heeded := holds ((step_reactor others stepped).symm.trans ended)
    cases step_transition stepped with
    | access => exact absurd rfl (others _)
    | receive idle known outcome =>
      cases outcome <;> first | exact heeded | exact List.mem_append_left _ heeded
    | stop | stopWrite | reset => exact List.mem_append_left _ heeded
    | resetStep stepped =>
      obtain ⟨stats, latencies, resetting, rfl⟩ := resetStep_frame stepped
      exact heeded
    | _ => exact heeded
  · obtain ⟨here, halted, rfl⟩ := access_returned stepped ended
    have heeds := reachable_heeds met
    have begun : before.started = true := by
      rw [← Bool.not_eq_false]
      intro fresh
      have unbegun := phase_fresh_iff.mp (heeds.fresh.mp fresh)
      simp [here] at unbegun
    exact (heeds.running begun).mp halted

/-- Own accesses alone end `run()`. -/
theorem run_returns (config : Config κ) (stopped : Stopped s) :
    ∃ actions final, (∀ action ∈ actions, action.runs = true) ∧
      (machine config).exec s actions = some final ∧ final.reactor = .returned ∧
        actions.length ≤ s.ending config := by
  have progress : ∀ state : State κ, Stopped state → ¬ state.reactor = .returned →
      ∃ action after, action.runs = true ∧ (machine config).step state action = some after ∧
        Stopped after ∧ after.ending config < state.ending config := by
    intro state stopped unended
    obtain ⟨answers, after, stepped⟩ := run_possible config unended
    obtain ⟨kept, lower⟩ := access_ending stopped stepped
    exact ⟨.reactor answers, after, rfl, stepped, kept, lower⟩
  obtain ⟨actions, final, own, replayed, _, ended, short⟩ :=
    Machine.exec_completes Stopped (fun s : State κ => s.reactor = .returned)
      (fun action : Action => action.runs = true) (State.ending config) progress stopped
  exact ⟨actions, final, own, replayed, ended, short⟩

/-- From a `stop()` on that has stored false after the first store of `run()`, whatever the
other threads do: `run()` always has a next access until it returns, its accesses are at
most those that the cycle had left and two more for each data callback that comes
meanwhile, and it returns if it is left alone. -/
theorem end_contract (reached : (machine config).Reachable s) (heeded : Heeded s.log) :
    EndContract config s where
  possible := fun _ _ _ unended => run_possible config unended
  bounded := by
    intro actions final replayed
    have paid := Machine.exec_amortized Stopped (State.ending config)
      (fun action => if action.runs then 1 else 0) (fun action => if action.receives then 2 else 0)
      (fun _ _ _ stopped stepped => step_ending stopped stepped)
      (stopped_of_heeded reached heeded) replayed
    rw [Machine.sum_credit, Machine.sum_credit] at paid
    omega
  returns := run_returns config (stopped_of_heeded reached heeded)

/-- The reactor is stopped in its first cycle, before it takes what was queued. -/
def haltedRun : List Action :=
  defaultTurns 9 ++ [.receive 1 0 0 estopPath emptyMessage 0, .stop 0]

/-- A run that has been stopped in time. -/
theorem haltedRun_ends :
    ∃ s, (machine defaultConfig).Reachable s ∧ Heeded s.log ∧ EndContract defaultConfig s := by
  have outcome : ((machine defaultConfig).exec (init TopicPriority) haltedRun).map
      (fun s => s.log.any fun | .stopping afterRun => afterRun | _ => false) = some true := by
    decide +kernel
  obtain ⟨s, ran, seen⟩ := Option.map_eq_some_iff.mp outcome
  have reached := Machine.reachable_of_exec ran
  have heeded : Heeded s.log := by
    obtain ⟨event, member, stops⟩ := List.any_eq_true.mp seen
    cases event with
    | stopping afterRun =>
      obtain rfl : afterRun = true := stops
      exact member
    | _ => simp at stops
  exact ⟨s, reached, heeded, end_contract reached heeded⟩

end FlowKernel.Reactor
