import FlowKernel.Tui

/-!
# What the screen shows

The refresh thread replaces the data one field at a time, between many accesses to the
reactor, and the panels are rendered one entry at a time. The mutex makes each of the two
one step for the other: a panel shows the data as one refresh left it, and a refresh
leaves what `refresh_data` makes of the readings it took itself.
-/

namespace FlowKernel.Tui

open Foundation

/-- Between two accesses to the reactor, under the lock. -/
def RefreshPc.collecting : RefreshPc → Bool
  | .processed _ | .dropped _ _ | .latencies _ _ _ | .sessions | .statuses _ | .uptime
  | .post => true
  | _ => false

/-- The refresh thread has the mutex. -/
def RefreshPc.holds : RefreshPc → Bool
  | .unlock => true
  | pc => pc.collecting

/-- The event loop has the mutex. -/
def UiPc.holds : UiPc → Bool
  | .render _ _ | .unlock _ => true
  | _ => false

/-- Inside `stop()`, after its store. -/
def UiPc.stopping : UiPc → Bool
  | .exit _ | .joinable _ | .join _ => true
  | _ => false

/-- `run()` has not created the refresh thread yet. -/
def UiPc.fresh : UiPc → Bool
  | .constructed | .spawn => true
  | _ => false

/-- Neither has the mutex, nor depends on the refresh thread. -/
def UiPc.plain : UiPc → Bool
  | .constructed | .spawn | .render _ _ | .unlock _ | .join _ | .destroyed => false
  | _ => true

/-- The steps of the refresh thread. -/
inductive RefreshStep (handlers : Nat) (s : State) (reading : Reading) : State → Prop
  | test (here : s.refresh = .test) :
      RefreshStep handlers s reading { s with refresh := if s.running_ then .lock else .ended }
  | lock (here : s.refresh = .lock) (free : s.data_mutex_ = none) :
      RefreshStep handlers s reading ({ s with
        data_mutex_ := some .refresh, refresh := .processed .critical }.record .locked)
  | collect {pc : RefreshPc} {screen : Screen} (inside : s.refresh.collecting = true)
      (collected : collect handlers s.screen s.refresh reading = some (pc, screen)) :
      RefreshStep handlers s reading
        ({ s with refresh := pc, screen := screen }.record (.read reading))
  | unlock (here : s.refresh = .unlock) :
      RefreshStep handlers s reading
        ({ s with data_mutex_ := none, refresh := .sleep }.record (.refreshed s.screen))
  | wake (here : s.refresh = .sleep) :
      RefreshStep handlers s reading { s with refresh := .test }

/-- The steps of the event loop's thread. Those that touch nothing but its program
counter are one case. -/
inductive UiStep (s : State) : State → Prop
  | begin (here : s.ui = .constructed) : UiStep s { s with running_ := true, ui := .spawn }
  | spawn (here : s.ui = .spawn) : UiStep s { s with refresh := .test, ui := .loop }
  | lock {panel : Panel} (here : s.ui = .lock panel) (free : s.data_mutex_ = none) :
      UiStep s { s with data_mutex_ := some .ui, ui := .render panel [] }
  | render {panel : Panel} {cells : List Cell} {cell : Cell} (here : s.ui = .render panel cells)
      (next : (s.screen.cells panel)[cells.length]? = some cell) :
      UiStep s { s with ui := .render panel (cells ++ [cell]) }
  | drew {panel : Panel} {cells : List Cell} (here : s.ui = .render panel cells)
      (last : (s.screen.cells panel)[cells.length]? = none) :
      UiStep s ({ s with ui := .unlock panel }.record (.drew panel cells))
  | unlock {panel : Panel} (here : s.ui = .unlock panel) :
      UiStep s { s with data_mutex_ := none, ui := panel.next }
  | store {caller : Caller} (here : s.ui = .stop caller) :
      UiStep s { s with running_ := false, ui := .exit caller }
  | joining {caller : Caller} (here : s.ui = .joinable caller) (started : s.refresh ≠ .absent)
      (unjoined : s.joined = false) : UiStep s { s with ui := .join caller }
  | join {caller : Caller} (here : s.ui = .join caller) (ended : s.refresh = .ended) :
      UiStep s ({ s with joined := true, ui := caller.next }.record .joined)
  | skip {caller : Caller} (here : s.ui = .joinable caller)
      (gone : s.refresh = .absent ∨ s.joined = true) : UiStep s { s with ui := caller.next }
  | move {ui : UiPc} (outside : s.ui.holds = false) (plain : ui.plain = true)
      (kept : ui.stopping = true → s.ui.stopping = true) : UiStep s { s with ui := ui }

variable {handlers : Nat} {s next : State}

/-- Behind a panel the mutex is free. -/
theorem Panel.next_holds (panel : Panel) : panel.next.holds = false := by
  cases panel <;> rfl

/-- Behind a panel the loop goes on, or the next one is drawn. -/
theorem Panel.next_plain (panel : Panel) :
    panel.next.plain = true ∧ panel.next.stopping = false := by
  cases panel <;> exact ⟨rfl, rfl⟩

/-- Every step of the refresh thread is one of these. -/
theorem refresh_cases {reading : Reading} (stepped : refreshStep handlers s reading = some next) :
    RefreshStep handlers s reading next := by
  cases here : s.refresh with
  | absent | ended => simp [refreshStep, here] at stepped
  | test =>
    simp only [refreshStep, here, Option.some.injEq] at stepped
    exact stepped ▸ .test here
  | lock =>
    simp only [refreshStep, here] at stepped
    split at stepped
    next free =>
      obtain rfl := Option.some.inj stepped
      exact .lock here free
    next => simp at stepped
  | unlock =>
    simp only [refreshStep, here, Option.some.injEq] at stepped
    exact stepped ▸ .unlock here
  | sleep =>
    simp only [refreshStep, here, Option.some.injEq] at stepped
    exact stepped ▸ .wake here
  | _ =>
    simp only [refreshStep, here, Option.map_eq_some_iff, Prod.exists] at stepped
    obtain ⟨pc, screen, collected, rfl⟩ := stepped
    exact .collect (by rw [here]; rfl) (here ▸ collected)

/-- Every step of the event loop is one of these. -/
theorem ui_cases {created : Bool} (stepped : uiStep s created = some next) : UiStep s next := by
  cases here : s.ui with
  | constructed =>
    simp only [uiStep, here, Option.some.injEq] at stepped
    exact stepped ▸ .begin here
  | spawn =>
    simp only [uiStep, here] at stepped
    split at stepped
    · exact Option.some.inj stepped ▸ .spawn here
    · exact Option.some.inj stepped ▸ .move (by rw [here]; rfl) rfl (by simp [UiPc.stopping])
  | loop | returned | threw | destroyed => simp [uiStep, here] at stepped
  | lock panel =>
    simp only [uiStep, here] at stepped
    split at stepped
    next free => exact Option.some.inj stepped ▸ .lock here free
    next => simp at stepped
  | render panel cells =>
    simp only [uiStep, here] at stepped
    split at stepped
    next cell next => exact Option.some.inj stepped ▸ .render here next
    next last => exact Option.some.inj stepped ▸ .drew here last
  | unlock panel =>
    simp only [uiStep, here, Option.some.injEq] at stepped
    exact stepped ▸ .unlock here
  | reset =>
    simp only [uiStep, here, Option.some.injEq] at stepped
    exact stepped ▸ .move (by rw [here]; rfl) rfl (by simp [UiPc.stopping])
  | stop caller =>
    simp only [uiStep, here, Option.some.injEq] at stepped
    exact stepped ▸ .store here
  | exit caller =>
    simp only [uiStep, here, Option.some.injEq] at stepped
    exact stepped ▸ .move (by rw [here]; rfl) rfl (by simp [here, UiPc.stopping])
  | joinable caller =>
    simp only [uiStep, here] at stepped
    split at stepped
    next live => exact Option.some.inj stepped ▸ .joining here live.1 live.2
    next gone =>
      refine Option.some.inj stepped ▸ .skip here ?_
      by_cases absent : s.refresh = .absent
      · exact .inl absent
      · exact .inr (by simpa [absent] using gone)
  | join caller =>
    simp only [uiStep, here] at stepped
    split at stepped
    next ended => exact Option.some.inj stepped ▸ .join here ended
    next => simp at stepped

/-- A key does not stop the loop on the spot. -/
theorem onKey_plain (char : Char) : (onKey char).plain = true ∧ (onKey char).stopping = false := by
  unfold onKey
  split
  · exact ⟨rfl, rfl⟩
  split
  · exact ⟨rfl, rfl⟩
  · exact ⟨rfl, rfl⟩

/-- Every step is one of the refresh thread, with its reading, or one of the event loop. -/
theorem step_cases {action : Action} (stepped : step handlers s action = some next) :
    (∃ reading, action = .refresh reading ∧ RefreshStep handlers s reading next) ∨
      ((∀ reading, action ≠ .refresh reading) ∧ UiStep s next) := by
  cases action with
  | refresh reading => exact .inl ⟨reading, rfl, refresh_cases stepped⟩
  | ui created => exact .inr ⟨by simp, ui_cases stepped⟩
  | draw | leave | fail =>
    simp only [step] at stepped
    split at stepped
    next here =>
      exact .inr ⟨by simp, Option.some.inj stepped ▸ .move (by rw [here]; rfl) rfl
        (by simp [UiPc.stopping])⟩
    next => simp at stepped
  | key char =>
    simp only [step] at stepped
    split at stepped
    next here =>
      obtain ⟨plain, calm⟩ := onKey_plain char
      exact .inr ⟨by simp, Option.some.inj stepped ▸ .move (by rw [here]; rfl) plain
        (by simp [calm])⟩
    next => simp at stepped
  | destroy =>
    simp only [step] at stepped
    split at stepped
    next here =>
      refine .inr ⟨by simp, Option.some.inj stepped ▸ .move ?_ rfl
        (by simp [UiPc.stopping])⟩
      rcases here with here | here <;> rw [here] <;> rfl
    next => simp at stepped

/-- The data as the last refresh left it. -/
def shown (log : List Event) : Screen :=
  log.foldl (fun screen event =>
    match event with
    | .refreshed latest => latest
    | _ => screen) {}

/-- The readings of the refresh under way, in order. -/
def readings (log : List Event) : List Reading :=
  log.foldl (fun found event =>
    match event with
    | .locked => []
    | .read reading => found ++ [reading]
    | _ => found) []

/-- `refresh_data` without interruption: what it makes of the readings it takes. -/
def refresh_data (handlers : Nat) (screen : Screen) (readings : List Reading) :
    Option (RefreshPc × Screen) :=
  readings.foldlM (fun (found : RefreshPc × Screen) reading =>
    collect handlers found.2 found.1 reading) (.processed .critical, screen)

/-- A panel is drawn from the data of one refresh, and a refresh leaves what it makes of
its own readings and nothing else. -/
def Faithful (handlers : Nat) (before : List Event) : Event → Prop
  | .drew panel cells => cells = (shown before).cells panel
  | .refreshed screen =>
      refresh_data handlers (shown before) (readings before) = some (.unlock, screen)
  | _ => True

section Logs

variable (log : List Event) (event : Event)

/-- What is shown changes with the end of a refresh. -/
theorem shown_snoc : shown (log ++ [event]) =
    match event with
    | .refreshed latest => latest
    | _ => shown log := by
  rw [shown, List.foldl_append]
  rfl

/-- The readings of a refresh begin with its lock. -/
theorem readings_snoc : readings (log ++ [event]) =
    match event with
    | .locked => []
    | .read reading => readings log ++ [reading]
    | _ => readings log := by
  rw [readings, List.foldl_append]
  rfl

/-- A refresh is made reading by reading. -/
theorem refresh_data_snoc (screen : Screen) (taken : List Reading) (reading : Reading) :
    refresh_data handlers screen (taken ++ [reading]) =
      (refresh_data handlers screen taken).bind fun found =>
        collect handlers found.2 found.1 reading := by
  rw [refresh_data, List.foldlM_append]
  change _ >>= _ = _ >>= _
  congr 1
  funext found
  simp

end Logs

/-- Who has the mutex, and what the screen's data is meanwhile. -/
structure Synchronised (handlers : Nat) (s : State) : Prop where
  fresh : s.ui.fresh = true → s.refresh = .absent
  ui : s.data_mutex_ = some .ui ↔ s.ui.holds = true
  refresh : s.data_mutex_ = some .refresh ↔ s.refresh.holds = true
  settled : s.refresh.holds = false → s.screen = shown s.log
  gathering : s.refresh.holds = true →
    refresh_data handlers (shown s.log) (readings s.log) = some (s.refresh, s.screen)
  rendering : ∀ panel cells, s.ui = .render panel cells →
    cells = ((shown s.log).cells panel).take cells.length
  log : Justified (Faithful handlers) s.log

/-- Nobody has the mutex, and nothing is shown. -/
theorem synchronised_init : Synchronised handlers init where
  fresh := fun _ => rfl
  ui := by simp [init, UiPc.holds]
  refresh := by simp [init, RefreshPc.holds, RefreshPc.collecting]
  settled := fun _ => rfl
  gathering := by simp [init, RefreshPc.holds, RefreshPc.collecting]
  rendering := by simp [init]
  log := .nil

/-- A refresh reads under the mutex. -/
theorem RefreshPc.holds_of_collecting {pc : RefreshPc} (inside : pc.collecting = true) :
    pc.holds = true := by
  cases pc with
  | unlock => rfl
  | _ => exact inside

/-- The refresh stays under the lock until it unlocks. -/
theorem collect_holds {screen after : Screen} {pc later : RefreshPc} {reading : Reading}
    (collected : collect handlers screen pc reading = some (later, after)) :
    later.holds = true := by
  unfold collect at collected
  split at collected
  case h_3 channel _ _ _ =>
    simp only [Option.map_eq_some_iff, Prod.mk.injEq] at collected
    obtain ⟨_, _, rfl, _⟩ := collected
    cases channel <;> rfl
  case h_5 | h_6 =>
    split at collected
    all_goals simp only [Option.some.injEq, Prod.mk.injEq, reduceCtorEq] at collected
    all_goals
      obtain ⟨rfl, _⟩ := collected
      rfl
  case h_9 => simp at collected
  all_goals
    simp only [Option.some.injEq, Prod.mk.injEq] at collected
    obtain ⟨rfl, _⟩ := collected
    rfl

/-- While the event loop has the mutex the refresh thread does not. -/
theorem Synchronised.apart (sync : Synchronised handlers s) (drawing : s.ui.holds = true) :
    s.refresh.holds = false := by
  have owner := sync.ui.mpr drawing
  rw [← Bool.not_eq_true]
  intro holds
  have other := owner.symm.trans (sync.refresh.mpr holds)
  simp at other

/-- A step of the refresh thread keeps the data and the history in agreement. -/
theorem refresh_synchronised (sync : Synchronised handlers s) {reading : Reading}
    (step : RefreshStep handlers s reading next) : Synchronised handlers next := by
  have free : s.refresh.holds = true → s.ui.holds = false := by
    intro holds
    rw [← Bool.not_eq_true]
    intro drawing
    exact Bool.false_ne_true ((sync.apart drawing).symm.trans holds)
  have started : ∀ {pc later : RefreshPc}, s.refresh = pc → pc ≠ .absent →
      s.ui.fresh = true → later = .absent :=
    fun here running fresh => absurd (here.symm.trans (sync.fresh fresh)) running
  cases step with
  | test here =>
    have outside : s.refresh.holds = false := by rw [here]; rfl
    have after : RefreshPc.holds (if s.running_ then .lock else .ended) = false := by
      split <;> rfl
    exact
      { sync with
        fresh := started here (by simp)
        refresh := by
          constructor
          · intro owner
            exact absurd (sync.refresh.mp owner) (by simp [outside])
          · intro holds
            exact absurd holds (by simp [after])
        settled := fun _ => sync.settled outside
        gathering := fun holds => absurd holds (by simp [after]) }
  | lock here unowned =>
    have outside : s.refresh.holds = false := by rw [here]; rfl
    have idle : s.ui.holds = false := by
      rw [← Bool.not_eq_true]
      intro drawing
      simpa [unowned] using sync.ui.mpr drawing
    refine ⟨started here (by simp), by simp [State.record, idle], by simp [State.record,
      RefreshPc.holds, RefreshPc.collecting], by simp [State.record, RefreshPc.holds,
      RefreshPc.collecting], ?_, ?_,
      sync.log.snoc trivial⟩
    · intro _
      simp only [State.record, shown_snoc, readings_snoc]
      rw [← sync.settled outside]
      rfl
    · simpa only [State.record, shown_snoc] using sync.rendering
  | @collect pc screen inside collected =>
    have holds := RefreshPc.holds_of_collecting inside
    have after : pc.holds = true := collect_holds collected
    have present : s.refresh ≠ .absent := by
      intro absent
      rw [absent] at inside
      exact Bool.false_ne_true inside
    refine ⟨started rfl present, sync.ui, ?_, ?_, ?_, ?_, sync.log.snoc trivial⟩
    · simpa [State.record, after] using sync.refresh.mpr holds
    · simp [State.record, after]
    · intro _
      simp only [State.record, shown_snoc, readings_snoc]
      rw [refresh_data_snoc, sync.gathering holds]
      exact collected
    · simpa only [State.record, shown_snoc] using sync.rendering
  | unlock here =>
    have holds : s.refresh.holds = true := by rw [here]; rfl
    have idle := free holds
    refine ⟨started here (by simp), by simp [State.record, idle],
      by simp [State.record, RefreshPc.holds, RefreshPc.collecting], ?_,
      by simp [State.record, RefreshPc.holds, RefreshPc.collecting], ?_, sync.log.snoc ?_⟩
    · intro _
      simp only [State.record, shown_snoc]
    · intro panel cells drawing
      have impossible : s.ui.holds = true := by
        rw [show s.ui = .render panel cells from drawing]
        rfl
      exact absurd impossible (by simp [idle])
    · have gathered := sync.gathering holds
      rw [here] at gathered
      exact gathered
  | wake here =>
    have outside : s.refresh.holds = false := by rw [here]; rfl
    exact
      { sync with
        fresh := started here (by simp)
        refresh := by
          constructor
          · intro owner
            exact absurd (sync.refresh.mp owner) (by simp [outside])
          · intro holds
            exact absurd holds (by simp [RefreshPc.holds, RefreshPc.collecting])
        settled := fun _ => sync.settled outside
        gathering := fun holds => absurd holds (by simp [RefreshPc.holds, RefreshPc.collecting]) }

/-- A step of the event loop that leaves the data, the mutex and the log alone. -/
theorem Synchronised.kept (sync : Synchronised handlers s) {ui : UiPc} (running_ : Bool)
    (fresh : ui.fresh = true → s.ui.fresh = true) (holds : ui.holds = s.ui.holds)
    (rendering : ∀ panel cells, ui = .render panel cells →
      cells = ((shown s.log).cells panel).take cells.length) :
    Synchronised handlers { s with ui := ui, running_ := running_ } :=
  { sync with
    fresh := fun early => sync.fresh (fresh early)
    ui := by
      have owner := sync.ui
      rwa [← holds] at owner
    rendering := rendering }

/-- A plain place of the loop is behind its first step and without the mutex. -/
theorem UiPc.of_plain {ui : UiPc} (plain : ui.plain = true) :
    ui.fresh = false ∧ ui.holds = false := by
  cases ui with
  | constructed | spawn | render | unlock => simp [UiPc.plain] at plain
  | _ => exact ⟨rfl, rfl⟩

/-- A panel is drawn under the mutex. -/
theorem UiPc.holds_of_render {ui : UiPc} {panel : Panel} {cells : List Cell}
    (drawing : ui = .render panel cells) : ui.holds = true := by
  rw [drawing]
  rfl

/-- A step of the event loop keeps the data and the history in agreement. -/
theorem ui_synchronised (sync : Synchronised handlers s) (step : UiStep s next) :
    Synchronised handlers next := by
  cases step with
  | begin here => exact sync.kept true (by simp [here, UiPc.fresh]) (by rw [here]; rfl) (by simp)
  | spawn here =>
    have absent : s.refresh = .absent := sync.fresh (by rw [here]; rfl)
    have outside : s.refresh.holds = false := by rw [absent]; rfl
    have idle : s.ui.holds = false := by rw [here]; rfl
    have unowned : s.data_mutex_ ≠ some .refresh := by simp [sync.refresh, outside]
    have undrawn : s.data_mutex_ ≠ some .ui := by simp [sync.ui, idle]
    exact
      { sync with
        fresh := by simp [UiPc.fresh]
        ui := by simp [undrawn, UiPc.holds]
        refresh := by simp [unowned, RefreshPc.holds, RefreshPc.collecting]
        settled := fun _ => sync.settled outside
        gathering := by simp [RefreshPc.holds, RefreshPc.collecting]
        rendering := by simp }
  | lock here free =>
    have outside : s.refresh.holds = false := by
      rw [← Bool.not_eq_true, ← sync.refresh, free]
      simp
    exact
      { sync with
        fresh := by simp [UiPc.fresh]
        ui := by simp [UiPc.holds]
        refresh := by simp [outside]
        rendering := by
          rintro panel cells ⟨rfl, rfl⟩
          rfl }
  | @render panel cells cell here next =>
    have drawing := UiPc.holds_of_render here
    apply sync.kept s.running_ (by simp [UiPc.fresh]) (by rw [drawing]; rfl)
    rintro _ _ ⟨rfl, rfl⟩
    have settled := sync.settled (sync.apart drawing)
    have before := sync.rendering _ _ here
    rw [settled] at next
    obtain ⟨inside, rfl⟩ := List.getElem?_eq_some_iff.mp next
    rw [List.length_append, List.length_singleton, List.take_succ_eq_append_getElem inside,
      ← before]
  | @drew panel cells here last =>
    have drawing := UiPc.holds_of_render here
    have settled := sync.settled (sync.apart drawing)
    refine ⟨by simp [State.record, UiPc.fresh], ?_, sync.refresh, ?_, ?_, by simp [State.record],
      sync.log.snoc ?_⟩
    · simpa [State.record, UiPc.holds] using sync.ui.mpr drawing
    · simpa only [State.record, shown_snoc] using sync.settled
    · simpa only [State.record, shown_snoc, readings_snoc] using sync.gathering
    · have whole := List.getElem?_eq_none_iff.mp last
      rw [settled] at whole
      have read := sync.rendering _ _ here
      rwa [List.take_of_length_le whole] at read
  | @unlock panel here =>
    have drawing : s.ui.holds = true := by rw [here]; rfl
    have outside := sync.apart drawing
    exact
      { sync with
        fresh := by cases panel <;> simp [Panel.next, UiPc.fresh]
        ui := by simp [Panel.next_holds]
        refresh := by simp [outside]
        rendering := by cases panel <;> simp [Panel.next] }
  | store here => exact sync.kept false (by simp [UiPc.fresh]) (by rw [here]; rfl) (by simp)
  | joining here =>
    exact sync.kept s.running_ (by simp [UiPc.fresh]) (by rw [here]; rfl) (by simp)
  | @join caller here =>
    have idle : s.ui.holds = false := by rw [here]; rfl
    refine ⟨by cases caller <;> simp [State.record, Caller.next, UiPc.fresh], ?_, sync.refresh, ?_,
      ?_, by cases caller <;> simp [State.record, Caller.next], sync.log.snoc trivial⟩
    · have undrawn : s.data_mutex_ ≠ some .ui := by simp [sync.ui, idle]
      cases caller <;> simp [State.record, Caller.next, UiPc.holds, undrawn]
    · simpa only [State.record, shown_snoc] using sync.settled
    · simpa only [State.record, shown_snoc, readings_snoc] using sync.gathering
  | @skip caller here =>
    apply sync.kept s.running_
    · cases caller <;> simp [Caller.next, UiPc.fresh]
    · rw [here]
      cases caller <;> rfl
    · cases caller <;> simp [Caller.next]
  | @move ui outside plain kept =>
    obtain ⟨unstarted, undrawn⟩ := UiPc.of_plain plain
    apply sync.kept s.running_ (by simp [unstarted]) (undrawn.trans outside.symm)
    intro panel cells drawing
    exact absurd (UiPc.holds_of_render drawing) (by simp [undrawn])

/-- In every run the data are those of the refresh under way or of the last one. -/
theorem reachable_synchronised (reached : (machine handlers).Reachable s) :
    Synchronised handlers s := by
  apply Machine.invariant (Synchronised handlers) synchronised_init _ reached
  intro before action after _ sync stepped
  rcases step_cases stepped with ⟨reading, _, step⟩ | ⟨_, step⟩
  · exact refresh_synchronised sync step
  · exact ui_synchronised sync step

/-- In every interleaving of the two threads, every panel is drawn from the data that one
refresh left, the last one to have released the mutex, and every refresh leaves what
`refresh_data` makes of the readings it took under the lock. -/
theorem screen_contract (reached : (machine handlers).Reachable s) :
    Justified (Faithful handlers) s.log :=
  (reachable_synchronised reached).log

/-- The getter of a channel, with one sample in its window. -/
def channelReadings (processed dropped : U64) (latency : Int) : List Action :=
  [.refresh (.counter processed), .refresh (.counter dropped), .refresh (.window [latency])]

/-- One refresh without handlers, from its test on. -/
def refreshRun : List Action :=
  [.refresh .nothing, .refresh .nothing] ++ channelReadings 3 1 40 ++ channelReadings 2 0 70 ++
    channelReadings 5 4 90 ++ [.refresh (.sessions []), .refresh .nothing, .refresh (.uptime 7),
      .refresh .nothing, .refresh .nothing]

/-- A refresh, a frame, and the lock of the next refresh while the last panel is drawn. -/
def frameRun : List Action :=
  List.replicate 2 (.ui true) ++ refreshRun ++ [.draw] ++ List.replicate 12 (.ui true) ++
    [.refresh .nothing, .refresh .nothing] ++ List.replicate 3 (.ui true)

/-- A panel with the data of one refresh. -/
theorem frameRun_contract :
    ∃ s, (machine 0).Reachable s ∧
      .drew .channels [.channel .critical ⟨3, 1, 40, 40⟩, .channel .normal ⟨2, 0, 70, 70⟩,
        .channel .background ⟨5, 4, 90, 90⟩] ∈ s.log ∧ Justified (Faithful 0) s.log := by
  have outcome : ((machine 0).exec init frameRun).map (fun s => decide
      (.drew .channels [.channel .critical ⟨3, 1, 40, 40⟩, .channel .normal ⟨2, 0, 70, 70⟩,
        .channel .background ⟨5, 4, 90, 90⟩] ∈ s.log)) = some true := by
    decide +kernel
  obtain ⟨s, ran, drawn⟩ := Option.map_eq_some_iff.mp outcome
  have reached := Machine.reachable_of_exec ran
  exact ⟨s, reached, of_decide_eq_true drawn, screen_contract reached⟩

end FlowKernel.Tui
