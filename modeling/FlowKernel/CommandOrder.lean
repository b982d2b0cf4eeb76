import FlowKernel.Ledger

/-!
# The order in which queue frames are dispatched

CRITICAL and NORMAL frames share one queue, and nothing in it looks at a priority.
A cycle takes the oldest accepted frame, whichever handler it is for; so a command
does not overtake the telemetry that was accepted before it. What the queue does
provide is one acceptance order over both priorities, and therefore one within
each of them.
-/

namespace FlowKernel.Reactor

open Foundation

universe u
variable {κ : Type u}

/-- The frames that were received under a handler of this priority. -/
def Config.ofPriority (config : Config κ) (priority : TopicPriority) (frames : List Frame) :
    List Frame :=
  frames.filter fun frame => config.priorityOf frame = some priority

/-- The frames of this priority that were dispatched out of the queue are the first
ones of this priority that it accepted. -/
def InOrder (config : Config κ) (s : State κ) (priority : TopicPriority) : Prop :=
  config.ofPriority priority ((queueCalls s.log).map Call.frame) <+:
    config.ofPriority priority (acceptedFrames s.log)

/-- Commands overtake telemetry: no other frame is taken while a CRITICAL one is
queued, and each priority keeps its order. -/
structure CommandsFirst (config : Config κ) (s : State κ) : Prop where
  overtakes : ∀ answers next cs, step config s (.reactor answers) = some next →
    next.log = s.log ++ [.popped cs] →
      (∃ pending ∈ s.critical_queue, config.priorityOf pending.payload = some .critical) →
        config.priorityOf cs.payload = some .critical
  critical : InOrder config s .critical
  normal : InOrder config s .normal

/-- In every state that can be reached the commands come first. -/
def CommandsOvertake (config : Config κ) : Prop :=
  ∀ s, (machine config).Reachable s → CommandsFirst config s

/-- A dispatch out of the queue is of the oldest frame accepted and not dispatched
before. -/
def OldestDispatched (before : List (Event κ)) (event : Event κ) : Prop :=
  ∀ call, event = .dispatched call → ∃ later,
    acceptedFrames before = (queueCalls before).map Call.frame ++ call.frame :: later

/-- Frames are taken in acceptance order, whatever their priority. -/
structure OldestFirst (config : Config κ) (s : State κ) : Prop where
  takes : ∀ answers next cs, step config s (.reactor answers) = some next →
    next.log = s.log ++ [.popped cs] → acceptedFrames s.log =
      (queueCalls s.log).map Call.frame ++
        cs.payload :: next.critical_queue.map CriticalSample.payload
  dispatches : Justified OldestDispatched s.log
  ordered : ∀ priority, InOrder config s priority
  known : ∀ priority sample, .offered priority sample true ∈ s.log →
    config.priorityOf sample.payload = some priority

variable {config : Config κ} {c next : Channels κ} {s : State κ}

/-- What is taken stood at the front, and nothing was in hand. -/
theorem popped_front {cs : CriticalSample} (step : ChannelStep config c next)
    (log : next.log = c.log ++ [.popped cs]) :
    c.hand = none ∧ c.critical_queue = cs :: next.critical_queue := by
  cases step with
  | @pop taken rest free pending front =>
    obtain rfl : taken = cs := by simpa using log
    exact ⟨free, front⟩
  | note plain =>
    obtain rfl := List.singleton_inj.mp (List.append_cancel_left log)
    simp [Event.plain] at plain
  | _ => simp at log

/-- Events without a dispatch keep the order. -/
theorem undispatched {log events : List (Event κ)}
    (justified : Justified OldestDispatched log) (calls : queueCalls events = []) :
    Justified OldestDispatched (log ++ events) := by
  apply justified.append
  rintro before event after rfl call rfl
  simp [queueCalls] at calls

/-- Every step of the channels dispatches the oldest frame. -/
theorem oldest_step (carried : Carried c) (justified : Justified OldestDispatched c.log)
    (step : ChannelStep config c next) : Justified OldestDispatched next.log := by
  cases step with
  | silent | rest | begin | allocate | passOver | allocated | subscribe | skip | subscribed =>
    exact justified
  | @note event plain =>
    apply undispatched justified
    cases event with
    | stopping | stopped => rfl
    | _ => simp [Event.plain] at plain
  | @dispatch cs index handler call held pending found invoked =>
    apply justified.snoc
    intro same called
    obtain rfl : call = same := Event.dispatched.inj called
    have conserved := carried.queue.conserved
    rw [held] at conserved
    exact ⟨_, by simpa [invoked, queueCall] using conserved⟩
  | _ => exact undispatched justified rfl

/-- In every run the oldest frame is dispatched. -/
theorem reachable_oldest (reached : (machine config).Reachable s) :
    Justified OldestDispatched s.log :=
  Machine.invariant (fun s => Justified OldestDispatched s.log) .nil
    (fun _ _ _ met holds stepped =>
      oldest_step (reachable_carried met).1 holds (step_channels stepped)) reached

/-- In every run and for every interleaving of arrivals with dispatch: the frame
taken next is the oldest accepted one that is pending, of either priority; every
dispatch is of the oldest accepted frame not dispatched before; hence the CRITICAL
frames, and the NORMAL frames, are dispatched in acceptance order. -/
theorem order_contract (reached : (machine config).Reachable s) : OldestFirst config s := by
  have conserved : acceptedFrames s.log = (queueCalls s.log).map Call.frame ++
      s.reactor.hand.toList.map CriticalSample.payload ++
        s.critical_queue.map CriticalSample.payload :=
    (reachable_carried reached).1.queue.conserved
  refine ⟨?_, reachable_oldest reached, ?_, ?_⟩
  · intro answers next cs stepped log
    obtain ⟨free, front⟩ : s.reactor.hand = none ∧ s.critical_queue = cs :: next.critical_queue :=
      popped_front (step_channels stepped) log
    simpa [free, front] using conserved
  · intro priority
    rw [InOrder, conserved, List.append_assoc, Config.ofPriority, Config.ofPriority,
      List.filter_append]
    exact List.prefix_append _ _
  · intro priority sample member
    obtain ⟨source, received, rfl, _⟩ := (reachable_sourced reached).log _ member
    exact priorityOf_source received

/-- Telemetry is accepted, an E-Stop behind it, and the cycle takes one frame. -/
def queuedRun : List Action :=
  defaultTurns 10 ++
    [.receive 0 1 0 telemetryPath emptyMessage 5, .receive 1 0 1 estopPath emptyMessage 6,
      .callback 1] ++ defaultTurns 4

/-- A command is queued behind telemetry. -/
theorem queuedRun_order :
    ∃ s, (machine defaultConfig).exec (init TopicPriority) queuedRun = some s ∧
      s.critical_queue.length = 2 ∧ OldestFirst defaultConfig s := by
  have outcome : ((machine defaultConfig).exec (init TopicPriority) queuedRun).map
      (fun s => s.critical_queue.length) = some 2 := by
    decide +kernel
  obtain ⟨s, ran, queued⟩ := Option.map_eq_some_iff.mp outcome
  exact ⟨s, ran, queued, order_contract (Machine.reachable_of_exec ran)⟩

/-- The command does not overtake it. -/
theorem queuedRun_keeps_order : ¬ CommandsOvertake defaultConfig := by
  have outcome : ((machine defaultConfig).exec (init TopicPriority) queuedRun).map (fun s =>
      (s.reactor, s.critical_queue.map fun cs => defaultConfig.priorityOf cs.payload)) =
        some (.pop 0 0, [some .normal, some .critical]) := by
    decide +kernel
  obtain ⟨s, ran, seen⟩ := Option.map_eq_some_iff.mp outcome
  simp only [Prod.mk.injEq] at seen
  obtain ⟨here, priorities⟩ := seen
  obtain ⟨first, others, queue, normal, rest⟩ := List.map_eq_cons_iff.mp priorities
  obtain ⟨second, none, rfl, critical, _⟩ := List.map_eq_cons_iff.mp rest
  intro overtake
  have overtakes := (overtake s (Machine.reachable_of_exec ran)).overtakes
    { now := 0, declared := true, sqe := true, order := [] } _ first
    (by simp only [step, reactorStep, here, BoundedFifo.pop, queue]; rfl) rfl
    ⟨second, by simp [queue], critical⟩
  rw [normal] at overtakes
  exact absurd overtakes (by simp)

end FlowKernel.Reactor
