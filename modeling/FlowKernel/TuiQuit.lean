import FlowKernel.Foundation.Progress
import FlowKernel.TuiScreen

/-!
# Leaving the terminal interface

`stop()` stores false to `running_` and joins the refresh thread. It runs inside the
handler of the key Q, on the thread that also renders, and once more in the destructor.
It does not have the mutex there, so the refresh thread gets through the refresh it is in
and ends at its next test; the wait for it is bounded by what is left of that refresh.
-/

namespace FlowKernel.Tui

open Foundation

/-- The most steps that the refresh thread has before it once `running_` is false. -/
def RefreshPc.remaining (handlers : Nat) : RefreshPc → Nat
  | .absent | .ended => 0
  | .test => 1
  | .sleep => 2
  | .unlock => 3
  | .post => 4
  | .uptime => 5
  | .statuses entries => 6 + (handlers - entries.length)
  | .sessions => 7 + handlers
  | .latencies .background _ _ => 8 + handlers
  | .dropped .background _ => 9 + handlers
  | .processed .background => 10 + handlers
  | .latencies .normal _ _ => 11 + handlers
  | .dropped .normal _ => 12 + handlers
  | .processed .normal => 13 + handlers
  | .latencies .critical _ _ => 14 + handlers
  | .dropped .critical _ => 15 + handlers
  | .processed .critical => 16 + handlers
  | .lock => 17 + handlers

/-- What is left of `stop()`. -/
def UiPc.remaining : UiPc → Nat
  | .exit _ => 3
  | .joinable _ => 2
  | .join _ => 1
  | _ => 0

/-- A step of the refresh thread. -/
def Action.refreshes : Action → Bool
  | .refresh _ => true
  | _ => false

/-- A step of one of the two threads, as opposed to an event of the terminal. -/
def Action.internal : Action → Bool
  | .refresh _ | .ui _ => true
  | _ => false

/-- An event of the refresh thread, or of its end. -/
def Event.refreshes : Event → Bool
  | .drew _ _ => false
  | _ => true

/-- Once joined the refresh thread does nothing more. -/
def Quiet (before : List Event) (event : Event) : Prop :=
  .joined ∈ before → event.refreshes = false

/-- What `stop()` and the destructor guarantee. -/
structure QuitContract (handlers : Nat) (s : State) : Prop where
  quiet : Justified Quiet s.log
  destroyed : s.ui = .destroyed → s.refresh = .absent ∨ s.refresh = .ended
  bounded : s.ui.stopping = true → ∀ actions final, (machine handlers).exec s actions = some final →
    actions.countP Action.refreshes ≤ s.refresh.remaining handlers
  returns : s.ui.stopping = true → ∃ actions final, (∀ action ∈ actions, action.internal = true) ∧
    (machine handlers).exec s actions = some final ∧ final.ui.stopping = false ∧
      actions.length ≤ s.refresh.remaining handlers + s.ui.remaining

/-- The refresh thread and the attempts to end it. -/
structure Joining (s : State) : Prop where
  stopped : s.ui.stopping = true → s.running_ = false
  joined : s.joined = true → s.refresh = .ended
  told : .joined ∈ s.log → s.joined = true
  waiting : ∀ caller, s.ui = .join caller → s.refresh ≠ .absent ∧ s.joined = false
  destroyed : s.ui = .destroyed → s.refresh = .absent ∨ s.joined = true
  quiet : Justified Quiet s.log

variable {handlers : Nat} {s next : State}

/-- Nothing has been started or joined. -/
theorem joining_init : Joining init where
  stopped := by simp [init, UiPc.stopping]
  joined := by simp [init]
  told := by simp [init]
  waiting := by simp [init]
  destroyed := by simp [init]
  quiet := .nil

/-- A step of the refresh thread that has not ended. -/
theorem Joining.kept (joining : Joining s) {data_mutex_ : Option Owner} {screen : Screen}
    {pc : RefreshPc} {events : List Event} (running : s.refresh ≠ .ended) (absent : pc ≠ .absent)
    (started : s.refresh ≠ .absent) (aside : .joined ∉ events) :
    Joining { s with
      data_mutex_ := data_mutex_, screen := screen, refresh := pc, log := s.log ++ events } := by
  have unjoined : s.joined = false := by
    rw [← Bool.not_eq_true]
    exact fun joined => running (joining.joined joined)
  have silent : .joined ∉ s.log := fun member =>
    Bool.false_ne_true (unjoined.symm.trans (joining.told member))
  refine ⟨joining.stopped, by simp [unjoined], ?_, ?_, ?_, ?_⟩
  · intro member
    rcases List.mem_append.mp member with before | now
    · exact absurd before silent
    · exact absurd now aside
  · intro caller waiting
    exact ⟨absent, unjoined⟩
  · intro destroyed
    exact absurd (joining.destroyed destroyed) (by simp [unjoined, started])
  · apply joining.quiet.append
    rintro before event after rfl earlier
    rcases List.mem_append.mp earlier with old | new
    · exact absurd old silent
    · exact absurd (List.mem_append_left _ new) aside

/-- A step of the refresh thread keeps the attempts to end it in order. -/
theorem refresh_joining (joining : Joining s) {reading : Reading}
    (step : RefreshStep handlers s reading next) : Joining next := by
  cases step with
  | test here =>
    have kept := @Joining.kept s joining s.data_mutex_ s.screen
      (if s.running_ then .lock else .ended) [] (by simp [here]) (by split <;> simp)
      (by simp [here]) (by simp)
    simpa using kept
  | lock here => exact joining.kept (by simp [here]) (by simp) (by simp [here]) (by simp)
  | collect inside collected =>
    have present := collect_holds collected
    refine joining.kept ?_ ?_ ?_ (by simp)
    · rintro ended
      simp [ended, RefreshPc.collecting] at inside
    · rintro rfl
      simp [RefreshPc.holds, RefreshPc.collecting] at present
    · rintro absent
      simp [absent, RefreshPc.collecting] at inside
  | unlock here => exact joining.kept (by simp [here]) (by simp) (by simp [here]) (by simp)
  | wake here =>
    have kept := @Joining.kept s joining s.data_mutex_ s.screen .test [] (by simp [here]) (by simp)
      (by simp [here]) (by simp)
    simpa using kept

/-- A step of the event loop's thread that neither stops nor joins. -/
theorem Joining.moved (joining : Joining s) {data_mutex_ : Option Owner} {ui : UiPc}
    (kept : ui.stopping = true → s.ui.stopping = true) (unjoining : ∀ caller, ui ≠ .join caller)
    (undestroyed : ui ≠ .destroyed) :
    Joining { s with data_mutex_ := data_mutex_, ui := ui } :=
  { joining with
    stopped := fun stopping => joining.stopped (kept stopping)
    waiting := fun caller here => absurd here (unjoining caller)
    destroyed := fun here => absurd here undestroyed }

/-- So does a step of the loop that neither stops nor joins. -/
theorem Joining.plain (joining : Joining s) {data_mutex_ : Option Owner} {ui : UiPc}
    (plain : ui.plain = true) (kept : ui.stopping = true → s.ui.stopping = true) :
    Joining { s with data_mutex_ := data_mutex_, ui := ui } := by
  apply joining.moved kept
  · rintro caller rfl
    simp [UiPc.plain] at plain
  · rintro rfl
    simp [UiPc.plain] at plain

/-- Every step of the event loop keeps them in order. -/
theorem ui_joining (sync : Synchronised handlers s) (joining : Joining s) (step : UiStep s next) :
    Joining next := by
  cases step with
  | begin here =>
    exact
      { joining with
        stopped := by simp [UiPc.stopping]
        waiting := by simp
        destroyed := by simp }
  | spawn here =>
    have absent : s.refresh = .absent := sync.fresh (by rw [here]; rfl)
    exact
      { joining with
        stopped := by simp [UiPc.stopping]
        joined := fun joined => absurd (joining.joined joined) (by simp [absent])
        waiting := by simp
        destroyed := by simp }
  | lock | render => exact joining.moved (by simp [UiPc.stopping]) (by simp) (by simp)
  | drew here =>
    refine ⟨by simp [State.record, UiPc.stopping], joining.joined, ?_, by simp [State.record],
      by simp [State.record], joining.quiet.snoc fun _ => rfl⟩
    simpa [State.record] using joining.told
  | @unlock panel =>
    obtain ⟨plain, calm⟩ := panel.next_plain
    exact joining.plain plain (by simp [calm])
  | store here =>
    exact
      { joining with
        stopped := fun _ => rfl
        waiting := by simp
        destroyed := by simp }
  | joining here started unjoined =>
    exact
      { joining with
        stopped := fun _ => joining.stopped (by rw [here]; rfl)
        waiting := fun _ _ => ⟨started, unjoined⟩
        destroyed := by simp }
  | @join caller here ended =>
    obtain ⟨_, unjoined⟩ := joining.waiting caller here
    have silent : .joined ∉ s.log := fun member =>
      Bool.false_ne_true (unjoined.symm.trans (joining.told member))
    refine ⟨?_, fun _ => ended, fun _ => rfl, ?_, fun _ => .inr rfl, joining.quiet.snoc ?_⟩
    · cases caller <;> simp [State.record, Caller.next, UiPc.stopping]
    · cases caller <;> simp [State.record, Caller.next]
    · exact fun earlier => absurd earlier silent
  | @skip caller here gone =>
    exact
      { joining with
        stopped := by cases caller <;> simp [Caller.next, UiPc.stopping]
        waiting := by cases caller <;> simp [Caller.next]
        destroyed := fun _ => gone }
  | move outside plain kept => exact joining.plain plain kept

/-- In every run a joined thread has ended. -/
theorem reachable_joining (reached : (machine handlers).Reachable s) : Joining s := by
  apply Machine.invariant Joining joining_init _ reached
  intro before action after met joining stepped
  rcases step_cases stepped with ⟨reading, _, step⟩ | ⟨_, step⟩
  · exact refresh_joining joining step
  · exact ui_joining (reachable_synchronised met) joining step

/-- The next getter is nearer to the end of the refresh. -/
theorem after_remaining (handlers : Nat) (channel : TopicPriority) (processed dropped : U64) :
    (RefreshPc.after channel).remaining handlers <
      (RefreshPc.latencies channel processed dropped).remaining handlers := by
  cases channel <;> simp [RefreshPc.after, RefreshPc.remaining]

/-- Every access brings the refresh nearer to its end. -/
theorem collect_remaining {screen after : Screen} {pc later : RefreshPc} {reading : Reading}
    (collected : collect handlers screen pc reading = some (later, after)) :
    later.remaining handlers < pc.remaining handlers := by
  unfold collect at collected
  split at collected
  case h_1 channel _ | h_2 channel _ _ =>
    simp only [Option.some.injEq, Prod.mk.injEq] at collected
    obtain ⟨rfl, _⟩ := collected
    cases channel <;> simp [RefreshPc.remaining]
  case h_3 channel processed dropped _ =>
    simp only [Option.map_eq_some_iff, Prod.mk.injEq] at collected
    obtain ⟨_, _, rfl, _⟩ := collected
    exact after_remaining handlers channel processed dropped
  case h_5 statuses status =>
    split at collected
    next room =>
      simp only [Option.some.injEq, Prod.mk.injEq] at collected
      obtain ⟨rfl, _⟩ := collected
      simp only [RefreshPc.remaining, List.length_append, List.length_singleton]
      omega
    next => simp at collected
  case h_6 =>
    split at collected
    next => simp at collected
    next =>
      simp only [Option.some.injEq, Prod.mk.injEq] at collected
      obtain ⟨rfl, _⟩ := collected
      simp only [RefreshPc.remaining]
      omega
  case h_9 => simp at collected
  all_goals
    simp only [Option.some.injEq, Prod.mk.injEq] at collected
    obtain ⟨rfl, _⟩ := collected
    simp [RefreshPc.remaining]

/-- With `running_` false, every step of the refresh thread is one of the last. -/
theorem refresh_remaining (stopped : s.running_ = false) {reading : Reading}
    (step : RefreshStep handlers s reading next) :
    next.refresh.remaining handlers < s.refresh.remaining handlers := by
  cases step with
  | test here => simp [here, stopped, RefreshPc.remaining]
  | lock here =>
    simp only [here, State.record, RefreshPc.remaining]
    omega
  | collect _ collected => exact collect_remaining collected
  | unlock here =>
    simp only [here, State.record, RefreshPc.remaining]
    omega
  | wake here => simp [here, RefreshPc.remaining]

/-- Where the refresh thread has a step, unless the mutex is taken. -/
theorem refresh_possible (handlers : Nat) (started : s.refresh ≠ .absent)
    (unended : s.refresh ≠ .ended) (free : s.refresh = .lock → s.data_mutex_ = none) :
    ∃ reading next, refreshStep handlers s reading = some next := by
  cases here : s.refresh with
  | absent => exact absurd here started
  | ended => exact absurd here unended
  | test | unlock | sleep => exact ⟨.nothing, _, by simp [refreshStep, here]; rfl⟩
  | lock => exact ⟨.nothing, _, by simp only [refreshStep, here, free here]; rfl⟩
  | processed | dropped => exact ⟨.counter 0, _, by simp only [refreshStep, here, collect]; rfl⟩
  | latencies channel processed dropped =>
    exact ⟨.window [], _, by
      simp only [refreshStep, here, collect, LatencyStats.channelStats, List.isEmpty_nil, if_true]
      rfl⟩
  | sessions => exact ⟨.sessions [], _, by simp only [refreshStep, here, collect]; rfl⟩
  | statuses statuses =>
    by_cases room : statuses.length < handlers
    · exact ⟨.status { path := [] }, _, by
        simp only [refreshStep, here, collect, if_pos room]
        rfl⟩
    · exact ⟨.nothing, _, by
        simp only [refreshStep, here, collect, if_neg room]
        rfl⟩
  | uptime => exact ⟨.uptime 0, _, by simp only [refreshStep, here, collect]; rfl⟩
  | post => exact ⟨.nothing, _, by simp only [refreshStep, here, collect]; rfl⟩

/-- The event loop never touches what is left of the refresh thread, once there is one. -/
theorem ui_remaining (stopped : s.running_ = false) (started : s.ui.fresh = false)
    (step : UiStep s next) :
    (next.running_ = false ∧ next.ui.fresh = false) ∧ next.refresh = s.refresh := by
  cases step with
  | begin here | spawn here => simp [here, UiPc.fresh] at started
  | lock | render | drew | store | joining => exact ⟨⟨by first | exact stopped | rfl, rfl⟩, rfl⟩
  | @unlock panel => exact ⟨⟨stopped, (UiPc.of_plain panel.next_plain.1).1⟩, rfl⟩
  | @join caller | @skip caller => exact ⟨⟨stopped, by cases caller <;> rfl⟩, rfl⟩
  | move _ plain => exact ⟨⟨stopped, (UiPc.of_plain plain).1⟩, rfl⟩

/-- After `running_` has become false the refresh thread has a bounded number of steps
left, whatever happens between them. -/
theorem refreshes_bounded (stopped : s.running_ = false) (started : s.ui.fresh = false)
    {actions : List Action} {final : State}
    (replayed : (machine handlers).exec s actions = some final) :
    actions.countP Action.refreshes ≤ s.refresh.remaining handlers := by
  have bound := Machine.exec_counted (fun _ => True)
    (fun s : State => s.running_ = false ∧ s.ui.fresh = false)
    (fun s => s.refresh.remaining handlers) Action.refreshes ?_ ⟨stopped, started⟩
    (fun _ _ => trivial) replayed
  · omega
  rintro before action after ⟨stopped, started⟩ - stepped
  rcases step_cases stepped with ⟨reading, rfl, step⟩ | ⟨other, step⟩
  · have fewer := @refresh_remaining handlers _ _ stopped _ step
    have ui : after.ui = before.ui ∧ after.running_ = before.running_ := by
      cases step <;> exact ⟨rfl, rfl⟩
    rw [ui.1, ui.2]
    exact ⟨⟨stopped, started⟩, fewer⟩
  · obtain ⟨kept, same⟩ := ui_remaining stopped started step
    have quiet : action.refreshes = false := by
      cases action with
      | refresh reading => exact absurd rfl (other reading)
      | _ => rfl
    rw [same, quiet]
    exact ⟨kept, Nat.le_refl _⟩

/-- `stop()` goes on: by its own next step, or, while it waits, by one of the thread it
waits for. -/
theorem stop_progress (reached : (machine handlers).Reachable s)
    (stopping : s.ui.stopping = true) :
    ∃ action next, action.internal = true ∧ (machine handlers).step s action = some next ∧
      next.refresh.remaining handlers + next.ui.remaining <
        s.refresh.remaining handlers + s.ui.remaining := by
  have sync := reachable_synchronised reached
  have joining := reachable_joining reached
  cases here : s.ui with
  | exit caller =>
    exact ⟨.ui true, { s with ui := .joinable caller }, rfl,
      by simp [machine, step, uiStep, here], by simp [UiPc.remaining]⟩
  | joinable caller =>
    by_cases live : s.refresh ≠ .absent ∧ s.joined = false
    · exact ⟨.ui true, { s with ui := .join caller }, rfl,
        by simp only [machine, step, uiStep, here, if_pos live], by simp [UiPc.remaining]⟩
    · refine ⟨.ui true, { s with ui := caller.next }, rfl,
        by simp only [machine, step, uiStep, here, if_neg live], ?_⟩
      cases caller <;> simp [Caller.next, UiPc.remaining]
  | join caller =>
    by_cases ended : s.refresh = .ended
    · refine ⟨.ui true, { s with joined := true, ui := caller.next }.record .joined, rfl,
        by simp only [machine, step, uiStep, here, if_pos ended], ?_⟩
      cases caller <;> simp [State.record, Caller.next, UiPc.remaining]
    · obtain ⟨started, _⟩ := joining.waiting caller here
      have free : s.refresh = .lock → s.data_mutex_ = none := by
        intro locking
        have unheld : s.data_mutex_ ≠ some .refresh := by
          simp [sync.refresh, locking, RefreshPc.holds, RefreshPc.collecting]
        have undrawn : s.data_mutex_ ≠ some .ui := by simp [sync.ui, here, UiPc.holds]
        cases owner : s.data_mutex_ with
        | none => rfl
        | some thread =>
          cases thread with
          | ui => exact absurd owner undrawn
          | refresh => exact absurd owner unheld
      obtain ⟨reading, next, stepped⟩ := refresh_possible handlers started ended free
      have stopped := joining.stopped stopping
      have fewer := refresh_remaining stopped (refresh_cases stepped)
      have ui : next.ui = s.ui := by
        cases refresh_cases stepped <;> rfl
      refine ⟨.refresh reading, next, rfl, stepped, ?_⟩
      rw [ui, here]
      omega
  | _ => simp [here, UiPc.stopping] at stopping

/-- In every interleaving: a `stop()` that has stored false to `running_` always comes to
its end by steps of the two threads, of which the refresh thread takes at most the rest of
one refresh; after it has joined the thread no refresh goes on; and the destructor leaves
no refresh thread behind. -/
theorem quit_contract (reached : (machine handlers).Reachable s) : QuitContract handlers s where
  quiet := (reachable_joining reached).quiet
  destroyed := by
    intro destroyed
    have joining := reachable_joining reached
    exact (joining.destroyed destroyed).imp_right joining.joined
  bounded := by
    intro stopping actions final replayed
    have joining := reachable_joining reached
    refine refreshes_bounded (joining.stopped stopping) ?_ replayed
    cases here : s.ui with
    | constructed | spawn => simp [here, UiPc.stopping] at stopping
    | _ => rfl
  returns := by
    intro stopping
    have progress : ∀ state, (machine handlers).Reachable state → ¬ state.ui.stopping = false →
        ∃ action after, action.internal = true ∧
          (machine handlers).step state action = some after ∧ (machine handlers).Reachable after ∧
            after.refresh.remaining handlers + after.ui.remaining <
              state.refresh.remaining handlers + state.ui.remaining := by
      intro state met unfinished
      obtain ⟨action, after, internal, stepped, lower⟩ :=
        stop_progress met (by simpa using unfinished)
      exact ⟨action, after, internal, stepped, met.after action stepped, lower⟩
    obtain ⟨actions, final, internal, replayed, _, finished, short⟩ :=
      Machine.exec_completes (machine handlers).Reachable (fun s => s.ui.stopping = false)
        (fun action : Action => action.internal = true)
        (fun s => s.refresh.remaining handlers + s.ui.remaining) progress reached
    exact ⟨actions, final, internal, replayed, finished, short⟩

/-- The key Q during a refresh. -/
def quitRun : List Action :=
  List.replicate 2 (.ui true) ++ refreshRun.take 4 ++ [.key 'q'] ++ List.replicate 3 (.ui true)

/-- The key is pressed while a refresh is under way. -/
theorem quitRun_contract :
    ∃ s, (machine 0).Reachable s ∧ s.ui = .join .key ∧ s.refresh ≠ .ended ∧
      QuitContract 0 s := by
  have outcome : ((machine 0).exec init quitRun).map
      (fun s => decide (s.ui = .join .key ∧ s.refresh ≠ .ended)) = some true := by
    decide +kernel
  obtain ⟨s, ran, waiting⟩ := Option.map_eq_some_iff.mp outcome
  obtain ⟨joining, going⟩ := of_decide_eq_true waiting
  have reached := Machine.reachable_of_exec ran
  exact ⟨s, reached, joining, going, quit_contract reached⟩

end FlowKernel.Tui
