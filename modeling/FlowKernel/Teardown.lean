import FlowKernel.Isolation
import FlowKernel.Signals

/-!
# The destructor and the callbacks that outlive the loop

After `run()` has returned the subscribers are still declared, so data callbacks and
liveliness callbacks go on until `z_close` returns. `~DataFlowReactor` closes the
eventfd and drops the E-Stop publisher before that, one after the other, and nothing
makes it wait for a callback that still has to use them.

A data callback is the two steps it is elsewhere. A liveliness callback is its check
of the sample's kind, and the publication. Other calls on the object while it is
being destroyed are not considered.
-/

namespace FlowKernel.Teardown

open Foundation Reactor

universe u
variable {κ : Type u}

/-- The next statement of the destructor. `stop()` is its first two. -/
inductive DestructorPc where
  | idle
  | stopWrite
  | closeEventfd
  | exitRing
  | dropPublisher
  | closeSession
  | dropSession
  | done
deriving DecidableEq

/-- A liveliness callback between its check and `z_publisher_put`. -/
inductive LivelinessPc where
  | idle
  | publish
deriving DecidableEq

/-- Uses and releases of the two resources. -/
inductive Use where
  | closed
  | dropped
  | wrote (thread : Nat)
  | published (thread : Nat)
deriving DecidableEq

/-- The reactor, the destructor, and the liveliness callbacks under way. -/
structure State (κ : Type u) where
  core : Reactor.State κ
  destructor : DestructorPc
  liveliness : Nat → LivelinessPc
  uses : List Use

/-- A step of the reactor or of a data callback, one of a liveliness callback, or one of the
destructor. -/
inductive Action where
  | reactor (action : Reactor.Action)
  | liveliness (thread : Nat) (deleted : Bool)
  | publish (thread : Nat)
  | destructor

/-- The object is still complete. -/
def DestructorPc.unbegun : DestructorPc → Bool
  | .idle => true
  | _ => false

/-- `wakeup_fd_` has been closed. -/
def DestructorPc.closed : DestructorPc → Bool
  | .idle | .stopWrite | .closeEventfd => false
  | _ => true

/-- `estop_publisher_` has been dropped. -/
def DestructorPc.dropped : DestructorPc → Bool
  | .closeSession | .dropSession | .done => true
  | _ => false

/-- `z_close` has not returned. -/
def DestructorPc.sessionOpen : DestructorPc → Bool
  | .dropSession | .done => false
  | _ => true

/-- `run()` is past its subscriptions. -/
def subscribed : ReactorPc → Bool
  | .storeRunning | .preAllocate _ | .subscribe _ => false
  | _ => true

/-- The destructor has not begun. -/
def init (κ : Type u) : State κ where
  core := Reactor.init κ
  destructor := .idle
  liveliness := fun _ => .idle
  uses := []

namespace State

variable (s : State κ)

/-- One more use. -/
def record (use : Use) : State κ :=
  { s with uses := s.uses ++ [use] }

/-- A liveliness callback goes on. -/
def setLiveliness (thread : Nat) (pc : LivelinessPc) : State κ :=
  { s with liveliness := Function.update s.liveliness thread pc }

end State

/-- One statement of `~DataFlowReactor`, which begins after `run()` has returned. -/
def destructorStep (s : State κ) : Option (State κ) :=
  match s.destructor with
  | .idle =>
      if s.core.reactor = .returned then
        some { s with core := { s.core with running := false }, destructor := .stopWrite }
      else none
  | .stopWrite =>
      some { s with
        core := { s.core with wakeup := s.core.wakeup.write }, destructor := .closeEventfd }
  | .closeEventfd => some ({ s with destructor := .exitRing }.record .closed)
  | .exitRing =>
      some { s with
        core := { s.core with wakeup := { s.core.wakeup with polls := 0, cqes := 0 } }
        destructor := .dropPublisher }
  | .dropPublisher => some ({ s with destructor := .closeSession }.record .dropped)
  | .closeSession => some { s with destructor := .dropSession }
  | .dropSession => some { s with destructor := .done }
  | .done => none

/-- Data callbacks run until `z_close` returns; everything else the reactor and its
threads do belongs to the time before the destructor. -/
def reactorStep (config : Config κ) (s : State κ) (action : Reactor.Action) : Option (State κ) :=
  match action with
  | .receive .. =>
      if s.destructor.sessionOpen then
        (Reactor.step config s.core action).map fun core => { s with core }
      else none
  | .callback thread =>
      if s.destructor.sessionOpen then
        (Reactor.step config s.core action).map fun core =>
          { s with core }.record (.wrote thread)
      else none
  | _ =>
      if s.destructor.unbegun then
        (Reactor.step config s.core action).map fun core => { s with core }
      else none

/-- `liveliness_key` is the path of the liveliness subscriber, which `run()` declares
behind the others. -/
def step (config : Config κ) (liveliness_key : Bytes) (s : State κ) : Action → Option (State κ)
  | .reactor action => reactorStep config s action
  | .liveliness thread deleted =>
      if s.destructor.sessionOpen ∧ subscribed s.core.reactor ∧
          config.keyexpr liveliness_key ∧ s.liveliness thread = .idle then
        if deleted then some (s.setLiveliness thread .publish) else some s
      else none
  | .publish thread =>
      if s.destructor.sessionOpen then
        match s.liveliness thread with
        | .publish => some ((s.setLiveliness thread .idle).record (.published thread))
        | .idle => none
      else none
  | .destructor => destructorStep s

/-- The destructor, with the callbacks that go on beside it. -/
def machine (config : Config κ) (liveliness_key : Bytes) : Machine (State κ) Action where
  start := init κ
  step := step config liveliness_key

/-- No write follows the close, and no publication the drop. -/
def Live (before : List Use) : Use → Prop
  | .wrote _ => .closed ∉ before
  | .published _ => .dropped ∉ before
  | _ => True

/-- Every use of a resource comes before its release. -/
def TeardownLaw (config : Config κ) (liveliness_key : Bytes) : Prop :=
  ∀ s, (machine config liveliness_key).Reachable s → Justified Live s.uses

/-- A resource is released when no callback has it still to use, and after that none
begins that would. -/
def Quiet (config : Config κ) (s : State κ) : Action → Prop
  | .destructor =>
      (s.destructor = .closeEventfd → ∀ thread, s.core.callbacks thread = .idle) ∧
        (s.destructor = .dropPublisher → ∀ thread, s.liveliness thread = .idle)
  | .reactor (.receive _ context _ _ payload _) =>
      s.destructor.closed = true → ∀ ctx, s.core.contexts[context]? = some ctx →
        ctx.priority = .critical →
          config.unfit payload ∨ ¬ s.core.critical_queue.length < queueLimit
  | .liveliness _ deleted => s.destructor.dropped = true → deleted = false
  | _ => True

/-- What has been released is used by nobody. -/
structure Released (s : State κ) : Prop where
  closed : .closed ∈ s.uses → s.destructor.closed = true
  dropped : .dropped ∈ s.uses → s.destructor.dropped = true
  writers : s.destructor.closed = true → ∀ thread, s.core.callbacks thread = .idle
  publishers : s.destructor.dropped = true → ∀ thread, s.liveliness thread = .idle
  live : Justified Live s.uses

variable {config : Config κ} {liveliness_key : Bytes} {s next : State κ}

/-- Nothing has been released. -/
theorem released_init : Released (init κ) where
  closed := by simp [init]
  dropped := by simp [init]
  writers := fun _ _ => rfl
  publishers := fun _ _ => rfl
  live := .nil

/-- A step that neither uses nor releases. -/
theorem Released.kept (released : Released s) (uses : next.uses = s.uses)
    (closed : next.destructor.closed = s.destructor.closed)
    (dropped : next.destructor.dropped = s.destructor.dropped)
    (writers : s.destructor.closed = true → ∀ thread, next.core.callbacks thread = .idle)
    (publishers : s.destructor.dropped = true → ∀ thread, next.liveliness thread = .idle) :
    Released next where
  closed := by
    rw [uses, closed]
    exact released.closed
  dropped := by
    rw [uses, dropped]
    exact released.dropped
  writers := closed ▸ writers
  publishers := dropped ▸ publishers
  live := uses ▸ released.live

/-- A use of a resource that has not been released. -/
theorem Released.record (released : Released s) {use : Use} (live : Live s.uses use)
    (unclosed : use ≠ .closed) (undropped : use ≠ .dropped) : Released (s.record use) where
  closed := by
    intro member
    apply released.closed
    simpa [State.record, unclosed.symm] using member
  dropped := by
    intro member
    apply released.dropped
    simpa [State.record, undropped.symm] using member
  writers := released.writers
  publishers := released.publishers
  live := released.live.snoc live

/-- The destructor releases what nobody will use again. -/
theorem destructor_released (released : Released s) (quiet : Quiet config s .destructor)
    (stepped : destructorStep s = some next) : Released next := by
  obtain ⟨core, destructor, liveliness, uses⟩ := s
  cases destructor with
  | idle =>
    simp only [destructorStep] at stepped
    split at stepped
    · obtain rfl := Option.some.inj stepped
      exact released.kept rfl rfl rfl released.writers released.publishers
    · simp at stepped
  | stopWrite | exitRing | closeSession | dropSession =>
    obtain rfl := Option.some.inj stepped
    exact released.kept rfl rfl rfl released.writers released.publishers
  | closeEventfd =>
    obtain rfl := Option.some.inj stepped
    exact
      { closed := fun _ => rfl
        dropped := by
          intro member
          have before : Use.dropped ∈ uses := by simpa [State.record] using member
          exact absurd (released.dropped before) Bool.false_ne_true
        writers := fun _ => quiet.1 rfl
        publishers := released.publishers
        live := released.live.snoc trivial }
  | dropPublisher =>
    obtain rfl := Option.some.inj stepped
    exact
      { closed := fun _ => rfl
        dropped := fun _ => rfl
        writers := released.writers
        publishers := fun _ => quiet.2 rfl
        live := released.live.snoc trivial }
  | done => simp [destructorStep] at stepped

/-- Only an accepted CRITICAL frame leaves its callback with a write to do. -/
theorem callback_idle {core : Reactor.State κ} {thread : Nat} {ctx : CallbackContext}
    {frame : Frame} {now : TimePoint}
    (quiet : ctx.priority = .critical →
      config.unfit frame.payload ∨ ¬ core.critical_queue.length < queueLimit) :
    (zenoh_data_callback config core thread ctx frame now).callbacks = core.callbacks := by
  have outcome := callback_cases config core thread ctx frame now
  by_cases unfit : config.unfit frame.payload
  · rw [callback_unfit unfit]
  generalize zenoh_data_callback config core thread ctx frame now = after at outcome ⊢
  cases outcome with
  | accepted queued room waking =>
    have other : ctx.priority ≠ .critical :=
      fun critical => (quiet critical).elim unfit (absurd room)
    rw [waking, if_neg other]
  | _ => rfl

/-- A data callback uses the eventfd before its close. -/
theorem reactor_released (released : Released s) {action : Reactor.Action}
    (quiet : Quiet config s (.reactor action))
    (stepped : reactorStep config s action = some next) : Released next := by
  cases action with
  | receive thread context serial key payload now =>
    simp only [reactorStep] at stepped
    split at stepped
    · obtain ⟨core, moved, rfl⟩ := Option.map_eq_some_iff.mp stepped
      refine released.kept rfl rfl rfl ?_ released.publishers
      intro closed
      simp only [Reactor.step] at moved
      split at moved
      next ctx idle known =>
        obtain rfl := Option.some.inj moved
        rw [callback_idle (quiet closed ctx known)]
        exact released.writers closed
      next => simp at moved
    · simp at stepped
  | callback thread =>
    simp only [reactorStep] at stepped
    split at stepped
    · obtain ⟨core, moved, rfl⟩ := Option.map_eq_some_iff.mp stepped
      simp only [Reactor.step] at moved
      split at moved
      next frame owing =>
        obtain rfl := Option.some.inj moved
        have unclosed : s.destructor.closed ≠ true := by
          intro closed
          rw [released.writers closed thread] at owing
          simp at owing
        have live : Live s.uses (.wrote thread) := mt released.closed unclosed
        have written : Released (s.record (.wrote thread)) :=
          released.record live (by simp) (by simp)
        exact written.kept rfl rfl rfl (fun closed => absurd closed unclosed) released.publishers
      next => simp at moved
    · simp at stepped
  | _ =>
    simp only [reactorStep] at stepped
    split at stepped
    next unbegun =>
      obtain ⟨core, moved, rfl⟩ := Option.map_eq_some_iff.mp stepped
      refine released.kept rfl rfl rfl ?_ released.publishers
      intro closed
      cases here : s.destructor with
      | idle => simp [here, DestructorPc.closed] at closed
      | _ => simp [here, DestructorPc.unbegun] at unbegun
    next => simp at stepped

/-- A step that meets the condition uses nothing that has been released. -/
theorem released_step (released : Released s) {action : Action} (quiet : Quiet config s action)
    (stepped : step config liveliness_key s action = some next) : Released next := by
  cases action with
  | reactor action => exact reactor_released released quiet stepped
  | liveliness thread deleted =>
    simp only [step] at stepped
    split at stepped
    · split at stepped
      next gone =>
        obtain rfl := Option.some.inj stepped
        refine released.kept rfl rfl rfl released.writers ?_
        intro dropped
        rw [quiet dropped] at gone
        exact absurd gone Bool.false_ne_true
      next =>
        obtain rfl := Option.some.inj stepped
        exact released
    · simp at stepped
  | publish thread =>
    simp only [step] at stepped
    split at stepped
    · split at stepped
      next owing =>
        obtain rfl := Option.some.inj stepped
        have undropped : s.destructor.dropped ≠ true := by
          intro dropped
          rw [released.publishers dropped thread] at owing
          simp at owing
        have idle : Released (s.setLiveliness thread .idle) :=
          released.kept rfl rfl rfl released.writers (fun dropped => absurd dropped undropped)
        exact idle.record (mt released.dropped undropped) (by simp) (by simp)
      next => simp at stepped
    · simp at stepped
  | destructor => exact destructor_released released quiet stepped

/-- In every quiet run nothing is used behind its release. -/
theorem reachable_released
    (reached : (machine config liveliness_key).ReachableWithin (Quiet config) s) : Released s :=
  Machine.invariant_within Released released_init
    (fun _ _ _ _ released quiet stepped => released_step released quiet stepped) reached

/-- For every interleaving of the destructor with data callbacks and liveliness
callbacks, those in progress included, in which each resource is released when no
callback has it still to use and none begins afterwards that would: no callback
writes to the eventfd after its close, and none publishes after the publisher's
drop. -/
theorem teardown_contract
    (reached : (machine config liveliness_key).ReachableWithin (Quiet config) s) :
    Justified Live s.uses :=
  (reachable_released reached).live

section Exactness

/-- What the destructor has released, the log says. -/
structure Noted (s : State κ) : Prop where
  closed : s.destructor.closed = true → .closed ∈ s.uses
  dropped : s.destructor.dropped = true → .dropped ∈ s.uses

/-- A longer history of the same destructor. -/
theorem Noted.grown (noted : Noted s) (destructor : next.destructor = s.destructor)
    (uses : s.uses <+: next.uses) : Noted next where
  closed := fun closed => uses.subset (noted.closed (destructor ▸ closed))
  dropped := fun dropped => uses.subset (noted.dropped (destructor ▸ dropped))

/-- A step of the reactor releases nothing. -/
theorem reactor_noted (noted : Noted s) {action : Reactor.Action}
    (stepped : reactorStep config s action = some next) : Noted next := by
  cases action with
  | callback thread =>
    simp only [reactorStep] at stepped
    split at stepped
    · obtain ⟨core, _, rfl⟩ := Option.map_eq_some_iff.mp stepped
      exact noted.grown rfl (List.prefix_append _ _)
    · simp at stepped
  | _ =>
    simp only [reactorStep] at stepped
    split at stepped
    · obtain ⟨core, _, rfl⟩ := Option.map_eq_some_iff.mp stepped
      exact noted.grown rfl List.prefix_rfl
    · simp at stepped

/-- The destructor notes what it releases. -/
theorem destructor_noted (noted : Noted s) (stepped : destructorStep s = some next) :
    Noted next := by
  obtain ⟨core, destructor, liveliness, uses⟩ := s
  cases destructor with
  | idle =>
    simp only [destructorStep] at stepped
    split at stepped
    · obtain rfl := Option.some.inj stepped
      exact ⟨noted.closed, noted.dropped⟩
    · simp at stepped
  | closeEventfd =>
    obtain rfl := Option.some.inj stepped
    exact ⟨fun _ => by simp [State.record], fun dropped => absurd dropped Bool.false_ne_true⟩
  | dropPublisher =>
    obtain rfl := Option.some.inj stepped
    exact ⟨fun _ => List.mem_append_left _ (noted.closed rfl), fun _ => by simp [State.record]⟩
  | stopWrite | exitRing | closeSession | dropSession =>
    obtain rfl := Option.some.inj stepped
    exact ⟨noted.closed, noted.dropped⟩
  | done => simp [destructorStep] at stepped

/-- In every run what has been released is in the history. -/
theorem reachable_noted (reached : (machine config liveliness_key).Reachable s) : Noted s := by
  apply Machine.invariant Noted _ _ reached
  · exact ⟨fun closed => absurd closed Bool.false_ne_true,
      fun dropped => absurd dropped Bool.false_ne_true⟩
  · intro before action after _ noted stepped
    cases action with
    | reactor action => exact reactor_noted noted stepped
    | liveliness thread deleted =>
      simp only [machine, step] at stepped
      split at stepped
      · split at stepped
        · obtain rfl := Option.some.inj stepped
          exact noted.grown rfl List.prefix_rfl
        · obtain rfl := Option.some.inj stepped
          exact noted
      · simp at stepped
    | publish thread =>
      simp only [machine, step] at stepped
      split at stepped
      · split at stepped
        · obtain rfl := Option.some.inj stepped
          exact noted.grown rfl (List.prefix_append _ _)
        · simp at stepped
      · simp at stepped
    | destructor => exact destructor_noted noted stepped

/-- An accepted CRITICAL frame leaves its callback with a write to do. -/
theorem accepted_owing {before core : Reactor.State κ} {thread context serial : Nat}
    {key payload : Bytes} {now : TimePoint} {ctx : CallbackContext}
    (critical : ctx.priority = .critical) (fit : ¬ config.unfit payload)
    (room : before.critical_queue.length < queueLimit)
    (known : before.contexts[context]? = some ctx)
    (moved : Reactor.step config before (.receive thread context serial key payload now) =
      some core) :
    core.callbacks thread =
      .write { registration := ctx.registration, serial, key, payload } := by
  cases Reactor.step_transition moved with
  | receive idle same outcome =>
    obtain rfl : ctx = _ := Option.some.inj (known.symm.trans same)
    cases outcome with
    | ignored unfit => exact absurd unfit fit
    | accepted queued free waking =>
      rw [waking, if_pos critical]
      exact Function.update_self _ _ _
    | rejected queued full => exact absurd room full
    | put cached | unslotted cached =>
      rw [critical] at cached
      simp at cached

/-- A callback that still has its write to do finds the eventfd closed. -/
theorem write_breaks {thread : Nat} {frame : Frame} (sessionOpen : s.destructor.sessionOpen = true)
    (owing : s.core.callbacks thread = .write frame) (closed : .closed ∈ s.uses) :
    ∃ later, step config liveliness_key s (.reactor (.callback thread)) = some later ∧
      ¬ Justified Live later.uses := by
  refine ⟨_, by simp only [step, reactorStep, if_pos sessionOpen, Reactor.step, owing]; rfl, ?_⟩
  intro justified
  exact justified s.uses (.wrote thread) [] rfl closed

/-- A callback that still has its publication to do finds the publisher dropped. -/
theorem publish_breaks {thread : Nat} (sessionOpen : s.destructor.sessionOpen = true)
    (owing : s.liveliness thread = .publish) (dropped : .dropped ∈ s.uses) :
    ∃ later, step config liveliness_key s (.publish thread) = some later ∧
      ¬ Justified Live later.uses := by
  refine ⟨_, by simp only [step, if_pos sessionOpen, owing]; rfl, ?_⟩
  intro justified
  exact justified s.uses (.published thread) [] rfl dropped

/-- The condition cannot be spared: a run that takes a step which is not quiet can go
on with one step that uses a released resource. -/
theorem unquiet_breaks (reached : (machine config liveliness_key).Reachable s) {action : Action}
    (hasty : ¬ Quiet config s action)
    (stepped : step config liveliness_key s action = some next) :
    ∃ last later, step config liveliness_key next last = some later ∧
      ¬ Justified Live later.uses := by
  have noted := reachable_noted (reached.after action stepped)
  cases action with
  | destructor =>
    rcases not_and_or.mp hasty with writing | publishing
    · obtain ⟨here, busy⟩ := Classical.not_imp.mp writing
      obtain ⟨thread, busy⟩ := not_forall.mp busy
      simp only [step, destructorStep, here] at stepped
      obtain rfl := Option.some.inj stepped
      cases owing : s.core.callbacks thread with
      | idle => exact absurd owing busy
      | write frame => exact ⟨_, write_breaks rfl owing (noted.closed rfl)⟩
    · obtain ⟨here, busy⟩ := Classical.not_imp.mp publishing
      obtain ⟨thread, busy⟩ := not_forall.mp busy
      simp only [step, destructorStep, here] at stepped
      obtain rfl := Option.some.inj stepped
      cases owing : s.liveliness thread with
      | idle => exact absurd owing busy
      | publish => exact ⟨_, publish_breaks rfl owing (noted.dropped rfl)⟩
  | liveliness thread deleted =>
    obtain ⟨dropped, gone⟩ := Classical.not_imp.mp hasty
    rw [Bool.not_eq_false] at gone
    simp only [step, gone, if_true] at stepped
    split at stepped
    next enabled =>
      obtain rfl := Option.some.inj stepped
      have owing : (s.setLiveliness thread .publish).liveliness thread = .publish :=
        Function.update_self _ _ _
      exact ⟨_, publish_breaks enabled.1 owing (noted.dropped dropped)⟩
    next => simp at stepped
  | publish thread => exact absurd trivial hasty
  | reactor action =>
    cases action with
    | receive thread context serial key payload now =>
      simp only [Quiet, Classical.not_imp, not_forall, not_or, not_not] at hasty
      obtain ⟨closed, ctx, known, critical, fit, room⟩ := hasty
      simp only [step, reactorStep] at stepped
      split at stepped
      next sessionOpen =>
        obtain ⟨core, moved, rfl⟩ := Option.map_eq_some_iff.mp stepped
        have owing := accepted_owing critical fit room known moved
        exact ⟨_, write_breaks sessionOpen owing (noted.closed closed)⟩
      next => simp at stepped
    | _ => exact absurd trivial hasty

end Exactness

section FewThreads

/-- The thread that a callback's step runs on. -/
def Action.thread : Action → Option Nat
  | .reactor (.receive thread ..) | .reactor (.callback thread) => some thread
  | .liveliness thread _ | .publish thread => some thread
  | _ => none

/-- The thread of the reactor moves no callback. -/
theorem access_callbacks {core after : Reactor.State κ} {answers : Answers}
    (access : Access config core answers core.reactor after) :
    after.callbacks = core.callbacks := by
  generalize core.reactor = pc at access
  cases access with
  | _ => rfl

/-- A step moves no data callback but its own. -/
theorem core_callbacks {core after : Reactor.State κ} {action : Reactor.Action} {thread : Nat}
    (other : (Action.reactor action).thread ≠ some thread)
    (stepped : Reactor.step config core action = some after) :
    after.callbacks thread = core.callbacks thread := by
  have elsewhere : ∀ owner, (Action.reactor action).thread = some owner → thread ≠ owner :=
    fun owner own same => other (same ▸ own)
  cases Reactor.step_transition stepped with
  | receive idle known outcome =>
    cases outcome with
    | accepted queued room waking =>
      rw [waking]
      split
      · exact Function.update_of_ne (elsewhere _ rfl) _ _
      · rfl
    | _ => rfl
  | write => exact Function.update_of_ne (elsewhere _ rfl) _ _
  | access access => exact congrFun (access_callbacks access) thread
  | resetStep stepped =>
    obtain ⟨stats, latencies, resetting, rfl⟩ := resetStep_frame stepped
    rfl
  | _ => rfl

/-- A step moves no callback but its own. -/
theorem step_callbacks {action : Action} {thread : Nat} (other : action.thread ≠ some thread)
    (stepped : step config liveliness_key s action = some next) :
    next.core.callbacks thread = s.core.callbacks thread ∧
      next.liveliness thread = s.liveliness thread := by
  cases action with
  | reactor action =>
    cases action with
    | receive | callback =>
      simp only [step, reactorStep] at stepped
      split at stepped
      · obtain ⟨core, moved, rfl⟩ := Option.map_eq_some_iff.mp stepped
        exact ⟨core_callbacks other moved, rfl⟩
      · simp at stepped
    | _ =>
      simp only [step, reactorStep] at stepped
      split at stepped
      · obtain ⟨core, moved, rfl⟩ := Option.map_eq_some_iff.mp stepped
        exact ⟨core_callbacks other moved, rfl⟩
      · simp at stepped
  | liveliness owner deleted =>
    have distinct : thread ≠ owner := fun same => other (same ▸ rfl)
    simp only [step] at stepped
    split at stepped
    · split at stepped
      · obtain rfl := Option.some.inj stepped
        exact ⟨rfl, Function.update_of_ne distinct _ _⟩
      · obtain rfl := Option.some.inj stepped
        exact ⟨rfl, rfl⟩
    · simp at stepped
  | publish owner =>
    have distinct : thread ≠ owner := fun same => other (same ▸ rfl)
    simp only [step] at stepped
    split at stepped
    · split at stepped
      · obtain rfl := Option.some.inj stepped
        exact ⟨rfl, Function.update_of_ne distinct _ _⟩
      · simp at stepped
    · simp at stepped
  | destructor =>
    obtain ⟨core, destructor, liveliness, uses⟩ := s
    cases destructor with
    | idle =>
      simp only [step, destructorStep] at stepped
      split at stepped
      · obtain rfl := Option.some.inj stepped
        exact ⟨rfl, rfl⟩
      · simp at stepped
    | done => simp [step, destructorStep] at stepped
    | _ =>
      obtain rfl := Option.some.inj stepped
      exact ⟨rfl, rfl⟩

/-- A quiet step on one of the first `bound` threads, as far as these are concerned. -/
def quiet (bound : Nat) (config : Config κ) (s : State κ) (action : Action) : Bool :=
  (action.thread.all fun thread => thread < bound) &&
    match action with
    | .destructor =>
        (s.destructor ≠ .closeEventfd ||
          (List.range bound).all fun thread => s.core.callbacks thread = .idle) &&
        (s.destructor ≠ .dropPublisher ||
          (List.range bound).all fun thread => s.liveliness thread = .idle)
    | .reactor (.receive _ context _ _ payload _) =>
        !s.destructor.closed || (s.core.contexts[context]?).all fun ctx =>
          ctx.priority ≠ .critical || config.verify payload = false ||
            ¬ s.core.critical_queue.length < queueLimit
    | .liveliness _ deleted => !s.destructor.dropped || !deleted
    | _ => true

/-- The callbacks beyond the first `bound` threads have not begun. -/
def Untouched (bound : Nat) (s : State κ) : Prop :=
  ∀ thread, bound ≤ thread → s.core.callbacks thread = .idle ∧ s.liveliness thread = .idle

/-- What the check accepts meets the condition. -/
theorem quiet_of_check {bound : Nat} {action : Action} (untouched : Untouched bound s)
    (passed : quiet bound config s action = true) : Quiet config s action := by
  obtain ⟨_, passed⟩ := Bool.and_eq_true_iff.mp passed
  cases action with
  | destructor =>
    simp only [Bool.and_eq_true, Bool.or_eq_true, List.all_eq_true, List.mem_range,
      decide_eq_true_eq] at passed
    refine ⟨?_, ?_⟩
    · intro here thread
      by_cases inside : thread < bound
      · exact passed.1.resolve_left (absurd here) thread inside
      · exact (untouched thread (Nat.le_of_not_lt inside)).1
    · intro here thread
      by_cases inside : thread < bound
      · exact passed.2.resolve_left (absurd here) thread inside
      · exact (untouched thread (Nat.le_of_not_lt inside)).2
  | liveliness thread deleted =>
    intro dropped
    simpa [dropped] using passed
  | publish => trivial
  | reactor action =>
    cases action with
    | receive thread context serial key payload now =>
      intro closed ctx known critical
      simp only [closed, known, critical, Bool.not_true, Bool.false_or, Option.all_some,
        ne_eq, not_true_eq_false, decide_false, Bool.or_eq_true, decide_eq_true_eq] at passed
      exact passed.imp_left .inr
    | _ => trivial

/-- A run whose steps the check accepts is quiet. -/
theorem quiet_run {bound : Nat}
    (reached : (machine config liveliness_key).ReachableWithin
      (fun s action => quiet bound config s action = true) s) :
    (machine config liveliness_key).ReachableWithin (Quiet config) s ∧ Untouched bound s := by
  induction reached with
  | start => exact ⟨.start, fun _ _ => ⟨rfl, rfl⟩⟩
  | @next before after action _ passed stepped inductionHypothesis =>
    obtain ⟨reached, untouched⟩ := inductionHypothesis
    refine ⟨.next reached (quiet_of_check untouched passed) stepped, ?_⟩
    intro thread beyond
    have other : action.thread ≠ some thread := by
      intro own
      have few := (Bool.and_eq_true_iff.mp passed).1
      simp only [own, Option.all_some, decide_eq_true_eq] at few
      omega
    obtain ⟨callbacks, liveliness⟩ := step_callbacks other stepped
    rw [callbacks, liveliness]
    exact untouched thread beyond

end FewThreads

section Runs

/-- The path of the liveliness subscriber in the shipped configuration. -/
def livelinessPath : Bytes :=
  ascii ['r', 'o', 'b', 'o', 't', '/', '*', '*']

/-- The shipped reactor runs to its loop and is stopped. -/
def stoppedReactor : List Action :=
  (defaultTurns 10 ++ ([.stop 0, .stopWrite 0] : List Reactor.Action) ++ defaultTurns 1).map
    .reactor

/-- An E-Stop and a lost robot are dealt with while the destructor stops the reactor;
telemetry and a returned robot come in while it releases its members. -/
def calmRun : List Action :=
  stoppedReactor ++
    [.reactor (.receive 0 0 0 estopPath emptyMessage 5), .destructor, .liveliness 1 true,
      .reactor (.callback 0), .destructor, .destructor,
      .reactor (.receive 0 1 1 telemetryPath emptyMessage 6), .publish 1, .destructor,
      .destructor, .liveliness 1 false, .destructor, .destructor]

/-- A write and a publication that come in time. -/
theorem calmRun_contract :
    ∃ s, (machine defaultConfig livelinessPath).execWithin
        (fun s action _ => quiet 2 defaultConfig s action) (init TopicPriority) calmRun = some s ∧
      s.uses = [.wrote 0, .closed, .published 1, .dropped] ∧ s.destructor = .done ∧
        Justified Live s.uses := by
  have outcome : ((machine defaultConfig livelinessPath).execWithin
      (fun s action _ => quiet 2 defaultConfig s action) (init TopicPriority) calmRun).map
        (fun s => (s.uses, s.destructor)) =
      some ([.wrote 0, .closed, .published 1, .dropped], .done) := by
    decide +kernel
  obtain ⟨s, ran, seen⟩ := Option.map_eq_some_iff.mp outcome
  simp only [Prod.mk.injEq] at seen
  have reached : (machine defaultConfig livelinessPath).ReachableWithin
      (fun s action => quiet 2 defaultConfig s action = true) s :=
    Machine.ReachableWithin.exec (fun _ _ _ _ passed => passed) .start ran
  exact ⟨s, ran, seen.1, seen.2, teardown_contract (quiet_run reached).1⟩

/-- An E-Stop is accepted before the destructor closes the eventfd, and its callback
writes afterwards; a robot is lost when the publisher has been dropped. -/
def hastyRun : List Action :=
  stoppedReactor ++
    [.reactor (.receive 0 0 0 estopPath emptyMessage 5), .destructor, .destructor, .destructor,
      .reactor (.callback 0), .destructor, .destructor, .liveliness 1 true, .publish 1]

/-- A write comes behind the close, and a publication behind the drop. -/
theorem hastyRun_breaks : ¬ TeardownLaw defaultConfig livelinessPath := by
  have outcome : ((machine defaultConfig livelinessPath).exec (init TopicPriority) hastyRun).map
      State.uses = some [.closed, .wrote 0, .dropped, .published 1] := by
    decide +kernel
  obtain ⟨s, ran, uses⟩ := Option.map_eq_some_iff.mp outcome
  intro law
  have justified := law s (Machine.reachable_of_exec ran)
  rw [uses] at justified
  exact justified [.closed] (.wrote 0) [.dropped, .published 1] rfl (by simp)

end Runs

end FlowKernel.Teardown
