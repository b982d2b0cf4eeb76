import FlowKernel.Isolation

/-!
# The queue channel under BACKGROUND load

What the queue channel does is computed by a model of its own: the queue, the
rejections it counts, and the statistics that its part of a cycle reads and writes.
BACKGROUND frames do not occur in that model. Every undisturbed cycle and every
data callback of the reactor does to the queue channel what the model does, and a
BACKGROUND frame does nothing to it. So two runs whose sequences of frames and
cycles differ in BACKGROUND frames only cannot be told apart at the queue channel.
-/

namespace FlowKernel.Reactor

open Foundation

universe u
variable {κ : Type u}

/-- A push with its result. -/
structure Offer where
  priority : TopicPriority
  sample : CriticalSample
  pushed : Bool
deriving DecidableEq

/-- The pushes of a log. -/
def offers (log : List (Event κ)) : List Offer :=
  log.filterMap fun
    | .offered priority sample pushed => some { priority, sample, pushed }
    | _ => none

/-- The queue channel: what its pushes, its part of a cycle and its counters use. -/
structure QueueSide (κ : Type u) where
  contexts : List CallbackContext
  critical_queue : List CriticalSample
  dropped : U64
  critical_processed : U64
  normal_processed : U64
  critical_dropped : U64
  normal_dropped : U64
  critical_count_last : U64
  normal_count_last : U64
  last_queue_dropped : U64
  offers : List Offer
  calls : List (Call κ)

/-- What the queue channel consists of. -/
def State.queueSide (s : State κ) : QueueSide κ where
  contexts := s.contexts
  critical_queue := s.critical_queue
  dropped := s.dropped
  critical_processed := s.stats.critical_processed
  normal_processed := s.stats.normal_processed
  critical_dropped := s.stats.critical_dropped
  normal_dropped := s.stats.normal_dropped
  critical_count_last := s.stats.critical_count_last
  normal_count_last := s.stats.normal_count_last
  last_queue_dropped := s.stats.last_queue_dropped
  offers := offers s.log
  calls := queueCalls s.log

/-- The verifier can be run. -/
instance (config : Config κ) (payload : Bytes) : Decidable (config.unfit payload) :=
  inferInstanceAs (Decidable (_ ∨ _))

namespace QueueSide

/-- The end of the queue's part of a cycle. -/
def finish (q : QueueSide κ) (critical normal : U64) : QueueSide κ :=
  { q with
    critical_processed := q.critical_processed + critical
    normal_processed := q.normal_processed + normal
    critical_count_last := critical
    normal_count_last := normal }

/-- Dispatch these samples, and then end the queue's part of the cycle. -/
def dispatchAll (config : Config κ) (q : QueueSide κ) (critical normal : U64) :
    List CriticalSample → QueueSide κ
  | [] => q.finish critical normal
  | cs :: rest =>
      match config.registry.find cs.handler_hash with
      | none => q.dispatchAll config critical normal rest
      | some (index, handler) =>
          let called := { q with calls := q.calls ++ [queueCall index handler cs.payload] }
          if handler.priority = .critical then called.dispatchAll config (critical + 1) normal rest
          else called.dispatchAll config critical (normal + 1) rest

/-- Dispatch what is queued. -/
def dispatchQueued (config : Config κ) (q : QueueSide κ) (critical normal : U64) : QueueSide κ :=
  { q with critical_queue := [] }.dispatchAll config critical normal q.critical_queue

/-- Drops charged to CRITICAL. -/
def addCriticalDropped (q : QueueSide κ) (amount : U64) : QueueSide κ :=
  { q with critical_dropped := q.critical_dropped + amount }

/-- Drops charged to NORMAL. -/
def addNormalDropped (q : QueueSide κ) (amount : U64) : QueueSide κ :=
  { q with normal_dropped := q.normal_dropped + amount }

/-- Split new rejections over the two priorities. -/
def split (q : QueueSide κ) (new total : U64) : QueueSide κ :=
  let c_drop := new * q.critical_count_last / total
  (q.addCriticalDropped c_drop).addNormalDropped (new - c_drop)

/-- Account for new rejections. -/
def account (q : QueueSide κ) (new critical : U64) : QueueSide κ :=
  let total := critical + q.normal_count_last
  if total > 0 then q.split new total else q.addCriticalDropped new

/-- With last counts the drops are split by them. -/
theorem account_of_pos {q : QueueSide κ} {new critical : U64}
    (charged : critical + q.normal_count_last > 0) :
    q.account new critical = q.split new (critical + q.normal_count_last) :=
  if_pos charged

/-- Without last counts the drops are charged to CRITICAL. -/
theorem account_of_zero {q : QueueSide κ} {new critical : U64}
    (idle : ¬ critical + q.normal_count_last > 0) :
    q.account new critical = q.addCriticalDropped new :=
  if_neg idle

/-- From the difference of the rejection counter on. -/
def fromStore (config : Config κ) (q : QueueSide κ) (current new : U64) : QueueSide κ :=
  let q := { q with last_queue_dropped := current }
  if new > 0 then (q.account new q.critical_count_last).dispatchQueued config 0 0
  else q.dispatchQueued config 0 0

/-- What the queue channel will be when the cycle that has got to `pc` ends. -/
def settle (config : Config κ) (q : QueueSide κ) : ReactorPc → QueueSide κ
  | .loadDropped => q.fromStore config q.dropped (q.dropped - q.last_queue_dropped)
  | .readLast current => q.fromStore config current (current - q.last_queue_dropped)
  | .storeLast current new => q.fromStore config current new
  | .readCriticalLast new => (q.account new q.critical_count_last).dispatchQueued config 0 0
  | .readNormalLast new critical => (q.account new critical).dispatchQueued config 0 0
  | .split new total => (q.split new total).dispatchQueued config 0 0
  | .addCriticalDropped new c_drop =>
      ((q.addCriticalDropped c_drop).addNormalDropped (new - c_drop)).dispatchQueued config 0 0
  | .addNormalDropped new c_drop => (q.addNormalDropped (new - c_drop)).dispatchQueued config 0 0
  | .addAllDropped new => (q.addCriticalDropped new).dispatchQueued config 0 0
  | .pop critical normal => q.dispatchQueued config critical normal
  | .dispatch critical normal cs =>
      { q with critical_queue := cs :: q.critical_queue }.dispatchQueued config critical normal
  | .addCriticalProcessed critical normal => q.finish critical normal
  | .addNormalProcessed critical normal =>
      { q with
        normal_processed := q.normal_processed + normal
        critical_count_last := critical
        normal_count_last := normal }
  | .storeCriticalLast critical normal =>
      { q with critical_count_last := critical, normal_count_last := normal }
  | .storeNormalLast normal => { q with normal_count_last := normal }
  | _ => q

/-- A whole cycle. -/
def cycle (config : Config κ) (q : QueueSide κ) : QueueSide κ :=
  q.settle config .loadDropped

/-- A data callback, and whether it writes to the eventfd. A BACKGROUND frame, an
unknown subscription and an unfit payload do not concern the queue channel. -/
def receive (config : Config κ) (q : QueueSide κ) (arrival : Arrival) : QueueSide κ × Bool :=
  match q.contexts[arrival.context]? with
  | none => (q, false)
  | some ctx =>
      let sample := sampleOf ctx (arrival.toFrame ctx) arrival.now
      if config.unfit arrival.payload ∨ ctx.priority = .background then (q, false)
      else if q.critical_queue.length < queueLimit then
        ({ q with
            critical_queue := q.critical_queue ++ [sample]
            offers := q.offers ++ [{ priority := ctx.priority, sample, pushed := true }] },
          ctx.priority = .critical)
      else
        ({ q with
            dropped := q.dropped + 1
            offers := q.offers ++ [{ priority := ctx.priority, sample, pushed := false }] },
          false)

/-- An input, and whether it wakes the reactor. -/
def input (config : Config κ) (q : QueueSide κ) : Input → QueueSide κ × Bool
  | .frame arrival => q.receive config arrival
  | .cycle => (q.cycle config, false)

end QueueSide

section Simulation

variable {config : Config κ} {s next : State κ}

/-- The pushes, in two parts of a history. -/
@[simp] theorem offers_append (before after : List (Event κ)) :
    offers (before ++ after) = offers before ++ offers after :=
  List.filterMap_append

/-- Events that are neither pushes nor dispatches leave the queue channel alone. -/
theorem queueSide_noted {events : List (Event κ)} (log : next.log = s.log ++ events)
    (pushes : offers events = []) (calls : queueCalls events = [])
    (same : { next.queueSide with offers := offers s.log, calls := queueCalls s.log } =
      s.queueSide) : next.queueSide = s.queueSide := by
  rw [← same]
  simp [State.queueSide, log, pushes, calls]

/-- A step of a cycle leaves its end where it was. -/
theorem reactorStep_settle {answers : Answers} (inside : s.reactor.cycling = true)
    (stepped : reactorStep config s answers = some next) :
    next.queueSide.settle config next.reactor = s.queueSide.settle config s.reactor := by
  have access := reactorStep_access stepped
  obtain ⟨running, started, contexts, queue, dropped, cache, stats, latencies, sessions, wakeup,
    callbacks, stops, resetting, reactor, log⟩ := s
  cases access with
  | storeRunning | allocated | allocate | passOver | subscribed | subscribe | skip | armFirst
  | enter | leave => exact absurd inside Bool.false_ne_true
  | storeGrown grown =>
    simp only [if_pos grown, QueueSide.settle, QueueSide.fromStore]
    rfl
  | storeSame same =>
    simp only [if_neg same, QueueSide.settle, QueueSide.fromStore]
    rfl
  | divide charged =>
    exact congrArg (QueueSide.dispatchQueued config · 0 0)
      (@QueueSide.account_of_pos _ (State.queueSide _) _ _ charged).symm
  | undivided idle =>
    exact congrArg (QueueSide.dispatchQueued config · 0 0)
      (@QueueSide.account_of_zero _ (State.queueSide _) _ _ idle).symm
  | emptied empty =>
    obtain rfl : queue = [] := empty
    simp [QueueSide.settle, QueueSide.dispatchQueued, QueueSide.dispatchAll, State.queueSide,
      State.record, offers, queueCalls]
  | pop front =>
    obtain rfl : queue = _ := front
    simp [QueueSide.settle, QueueSide.dispatchQueued, State.queueSide, State.record, offers,
      queueCalls]
  | unindexed missing =>
    simp [QueueSide.settle, QueueSide.dispatchQueued, QueueSide.dispatchAll, missing,
      State.queueSide, State.record, offers, queueCalls]
  | dispatchCritical found urgent =>
    simp [QueueSide.settle, QueueSide.dispatchQueued, QueueSide.dispatchAll, found, urgent,
      queueCall, State.queueSide, State.record, offers, queueCalls]
  | dispatchNormal found other =>
    simp [QueueSide.settle, QueueSide.dispatchQueued, QueueSide.dispatchAll, found, other,
      queueCall, State.queueSide, State.record, offers, queueCalls]
  | startDrain | drained | visitEmpty | visit | unindexedSlot | dispatchSlot | arm =>
    exact queueSide_noted rfl rfl rfl rfl
  | _ => rfl

/-- The queue's part of a cycle in progress ends as its model says. -/
theorem cycling_settle (begun : Cycling config s next) :
    next.queueSide.settle config next.reactor = s.queueSide.cycle config := by
  induction begun with
  | enter here running stepped =>
    rw [enter_cycle here running stepped]
    exact congrArg (QueueSide.settle config · .loadDropped)
      (@queueSide_noted _ s _ [.cycleStarted] rfl rfl rfl rfl)
  | more _ inside stepped inductionHypothesis =>
    exact (reactorStep_settle inside stepped).trans inductionHypothesis

/-- An undisturbed cycle does to the queue channel what its model does. -/
theorem cycle_side (whole : WholeCycle config s next) :
    next.queueSide = s.queueSide.cycle config := by
  have settled := cycling_settle whole.1
  rw [whole.2] at settled
  exact settled

/-- Whether a data callback gets to its write to the eventfd. -/
def wakes (config : Config κ) (s : State κ) (thread : Nat) (arrival : Arrival) : Bool :=
  match step config s (.receive thread arrival.context arrival.serial arrival.key arrival.payload
    arrival.now) with
  | some first => first.callbacks thread ≠ .idle
  | none => false

/-- A data callback does to the queue channel what its model does, and writes to the
eventfd when the model does. -/
theorem callback_side {thread : Nat} {ctx : CallbackContext} {arrival : Arrival}
    (idle : s.callbacks thread = .idle) (known : s.contexts[arrival.context]? = some ctx) :
    s.queueSide.receive config arrival =
      ((zenoh_data_callback config s thread ctx (arrival.toFrame ctx) arrival.now).queueSide,
        decide ((zenoh_data_callback config s thread ctx (arrival.toFrame ctx)
          arrival.now).callbacks thread ≠ .idle)) := by
  have outcome := callback_cases config s thread ctx (arrival.toFrame ctx) arrival.now
  by_cases unfit : config.unfit arrival.payload
  · rw [@callback_unfit _ config s thread ctx (arrival.toFrame ctx) _ unfit]
    simp [QueueSide.receive, State.queueSide, known, unfit, idle]
  generalize zenoh_data_callback config s thread ctx (arrival.toFrame ctx) arrival.now = first
    at outcome
  cases outcome with
  | ignored ill => exact absurd ill unfit
  | accepted queued room waking =>
    by_cases critical : ctx.priority = .critical
    · simp [QueueSide.receive, State.queueSide, known, unfit, critical, room, waking, offers,
        queueCalls]
    · simp [QueueSide.receive, State.queueSide, known, unfit, queued, critical, room, waking, idle,
        offers, queueCalls]
  | rejected queued full =>
    simp [QueueSide.receive, State.queueSide, known, unfit, queued, full, idle, offers,
      queueCalls]
  | put cached present =>
    simp [QueueSide.receive, State.queueSide, known, cached, idle, offers, queueCalls]
  | unslotted cached absent =>
    simp [QueueSide.receive, State.queueSide, known, cached, idle, offers, queueCalls]

/-- A delivery does to the queue channel what its input does. -/
theorem deliver_side {thread : Nat} {arrival : Arrival}
    (delivered : deliver config s thread arrival = some next) :
    s.queueSide.receive config arrival = (next.queueSide, wakes config s thread arrival) := by
  obtain ⟨first, stepped, rest⟩ := Option.bind_eq_some_iff.mp delivered
  have settled : next.queueSide = first.queueSide := by
    split at rest
    next done =>
      obtain rfl := Option.some.inj rest
      rfl
    next frame owing =>
      simp only [step, owing] at rest
      obtain rfl := Option.some.inj rest
      rfl
  rw [wakes, stepped, settled]
  simp only [step] at stepped
  split at stepped
  next ctx idle known =>
    obtain rfl := Option.some.inj stepped
    exact callback_side idle known
  next => simp at stepped

end Simulation

section TwoRuns

/-- What can be seen of the queue channel while one input is worked through. -/
structure Observation (κ : Type u) where
  pushes : List Offer
  dispatches : List (Call κ)
  wakes : Bool
  critical_processed : U64
  normal_processed : U64
  critical_dropped : U64
  normal_dropped : U64

/-- The new pushes and dispatches, and the counters afterwards. -/
def observation (before after : QueueSide κ) (wakes : Bool) : Observation κ where
  pushes := after.offers.drop before.offers.length
  dispatches := after.calls.drop before.calls.length
  wakes := wakes
  critical_processed := after.critical_processed
  normal_processed := after.normal_processed
  critical_dropped := after.critical_dropped
  normal_dropped := after.normal_dropped

/-- The reactor and its threads work through a sequence of inputs, one by one, and
this is seen of the queue channel. -/
inductive Observes (config : Config κ) (s : State κ) :
    List (Input × Observation κ) → State κ → Prop
  | start : Observes config s [] s
  | frame {trace : List (Input × Observation κ)} {mid next : State κ} {arrival : Arrival}
      {thread : Nat} (observed : Observes config s trace mid)
      (delivered : deliver config mid thread arrival = some next) :
      Observes config s (trace ++ [(.frame arrival,
        observation mid.queueSide next.queueSide (wakes config mid thread arrival))]) next
  | cycle {trace : List (Input × Observation κ)} {mid next : State κ}
      (observed : Observes config s trace mid) (whole : WholeCycle config mid next) :
      Observes config s
        (trace ++ [(.cycle, observation mid.queueSide next.queueSide false)]) next

/-- The arrival is received under a BACKGROUND handler. -/
def isBackground (contexts : List CallbackContext) : Input → Bool
  | .frame arrival =>
      (contexts[arrival.context]?.map CallbackContext.priority) = some .background
  | .cycle => false

/-- The same sequence without its BACKGROUND frames. -/
def withoutBackground (contexts : List CallbackContext) (inputs : List Input) : List Input :=
  inputs.filter fun input => !isBackground contexts input

/-- Nothing is pushed, nothing is dispatched, nobody is woken. -/
structure Observation.Silent (seen : Observation κ) : Prop where
  pushes : seen.pushes = []
  dispatches : seen.dispatches = []
  wakes : seen.wakes = false

/-- The two traces agree in everything but their BACKGROUND frames, of which nothing
is seen. -/
structure NonInterference (contexts : List CallbackContext)
    (left right : List (Input × Observation κ)) : Prop where
  same : left.filter (fun entry => !isBackground contexts entry.1) =
    right.filter (fun entry => !isBackground contexts entry.1)
  silent : ∀ entry ∈ left ++ right, isBackground contexts entry.1 = true → entry.2.Silent

namespace QueueSide

/-- The model works through a sequence of inputs. -/
def replay (config : Config κ) :
    QueueSide κ → List Input → QueueSide κ × List (Input × Observation κ)
  | q, [] => (q, [])
  | q, input :: rest =>
      let after := q.input config input
      let remainder := after.1.replay config rest
      (remainder.1, (input, observation q after.1 after.2) :: remainder.2)

end QueueSide

variable {config : Config κ} {contexts : List CallbackContext} {s last final : State κ}
  {trace left right : List (Input × Observation κ)}

/-- One more input comes on top of a replay. -/
theorem replay_snoc (q : QueueSide κ) (earlier : List Input) (input : Input) :
    q.replay config (earlier ++ [input]) =
      (((q.replay config earlier).1.input config input).1,
        (q.replay config earlier).2 ++ [(input, observation (q.replay config earlier).1
          ((q.replay config earlier).1.input config input).1
          ((q.replay config earlier).1.input config input).2)]) := by
  induction earlier generalizing q with
  | nil => rfl
  | cons first rest inductionHypothesis =>
    rw [List.cons_append, QueueSide.replay, inductionHypothesis]
    rfl

/-- The queue channel does not take part in a BACKGROUND frame. -/
theorem receive_background {q : QueueSide κ} {arrival : Arrival}
    (background : isBackground q.contexts (.frame arrival) = true) :
    q.receive config arrival = (q, false) := by
  simp only [isBackground, decide_eq_true_eq, Option.map_eq_some_iff] at background
  obtain ⟨ctx, known, priority⟩ := background
  simp [QueueSide.receive, known, priority]

/-- An input that changes nothing is not observed. -/
theorem observation_silent (q : QueueSide κ) : (observation q q false).Silent where
  pushes := List.drop_length
  dispatches := List.drop_length
  wakes := rfl

/-- Any other input stays. -/
theorem withoutBackground_snoc (earlier : List Input) {input : Input}
    (other : isBackground contexts input = false) :
    withoutBackground contexts (earlier ++ [input]) =
      withoutBackground contexts earlier ++ [input] := by
  simp [withoutBackground, other]

/-- A BACKGROUND frame is left out. -/
theorem withoutBackground_frame (earlier : List Input) {input : Input}
    (background : isBackground contexts input = true) :
    withoutBackground contexts (earlier ++ [input]) = withoutBackground contexts earlier := by
  simp [withoutBackground, background]

/-- A trace is what the model makes of the sequence without its BACKGROUND frames. -/
structure Replayed (config : Config κ) (s last : State κ) (trace : List (Input × Observation κ)) :
    Prop where
  contexts : last.contexts = s.contexts
  model : s.queueSide.replay config (withoutBackground s.contexts (trace.map Prod.fst)) =
    (last.queueSide, trace.filter fun entry => !isBackground s.contexts entry.1)
  silent : ∀ entry ∈ trace, isBackground s.contexts entry.1 = true → entry.2.Silent

/-- One more input of which the model takes part. -/
theorem Replayed.snoc {mid next : State κ} {input : Input} {wakes : Bool}
    (replayed : Replayed config s mid trace) (contexts : next.contexts = mid.contexts)
    (other : isBackground s.contexts input = false)
    (moved : mid.queueSide.input config input = (next.queueSide, wakes)) :
    Replayed config s next
      (trace ++ [(input, observation mid.queueSide next.queueSide wakes)]) where
  contexts := contexts.trans replayed.contexts
  model := by
    rw [List.map_append, List.map_singleton, withoutBackground_snoc _ other, replay_snoc,
      replayed.model, moved, List.filter_append]
    simp [other]
  silent := by
    intro entry member background
    rcases List.mem_append.mp member with old | new
    · exact replayed.silent entry old background
    · obtain rfl := List.mem_singleton.mp new
      rw [other] at background
      exact absurd background Bool.false_ne_true

/-- One more BACKGROUND frame. -/
theorem Replayed.aside {mid next : State κ} {arrival : Arrival} {wakes : Bool}
    (replayed : Replayed config s mid trace) (contexts : next.contexts = mid.contexts)
    (background : isBackground s.contexts (.frame arrival) = true)
    (moved : mid.queueSide.receive config arrival = (next.queueSide, wakes)) :
    Replayed config s next
      (trace ++ [(.frame arrival, observation mid.queueSide next.queueSide wakes)]) := by
  have subscribed : mid.queueSide.contexts = s.contexts := replayed.contexts
  rw [receive_background (subscribed ▸ background)] at moved
  obtain ⟨kept, rfl⟩ := Prod.mk.inj moved
  rw [← kept]
  refine ⟨contexts.trans replayed.contexts, ?_, ?_⟩
  · rw [List.map_append, List.map_singleton, withoutBackground_frame _ background, replayed.model,
      List.filter_append, kept]
    simp [background]
  · intro entry member priority
    rcases List.mem_append.mp member with old | new
    · exact replayed.silent entry old priority
    · obtain rfl := List.mem_singleton.mp new
      exact observation_silent _

/-- What is observed of a run is its replay. -/
theorem observes_replayed (observed : Observes config s trace last) :
    Replayed config s last trace := by
  induction observed with
  | start => exact ⟨rfl, rfl, by simp⟩
  | @frame trace mid next arrival thread _ delivered replayed =>
    have contexts := (deliver_effect delivered).contexts
    have moved := deliver_side delivered
    by_cases background : isBackground s.contexts (.frame arrival) = true
    · exact replayed.aside contexts background moved
    · exact replayed.snoc contexts (by simpa using background) moved
  | cycle _ whole replayed =>
    apply replayed.snoc (cycle_effect whole.1).contexts rfl
    rw [QueueSide.input, ← cycle_side whole]

/-- For every list of handlers, and every two sequences of received frames and
`handle_events` cycles that differ in BACKGROUND frames only: every push has the
same result, every cycle dispatches the same queue frames to the same handlers, the
eventfd is written at the same places, the four counters agree at every boundary,
and a BACKGROUND frame itself pushes, dispatches and writes nothing. -/
theorem background_contract (leftRun : Observes config s left last)
    (rightRun : Observes config s right final)
    (same : withoutBackground s.contexts (left.map Prod.fst) =
      withoutBackground s.contexts (right.map Prod.fst)) :
    NonInterference s.contexts left right := by
  have leftReplay := observes_replayed leftRun
  have rightReplay := observes_replayed rightRun
  have agree := leftReplay.model.symm.trans ((congrArg _ same).trans rightReplay.model)
  refine ⟨congrArg Prod.snd agree, ?_⟩
  intro entry member background
  rcases List.mem_append.mp member with inLeft | inRight
  · exact leftReplay.silent entry inLeft background
  · exact rightReplay.silent entry inRight background

/-- Every sequence that is worked through can be watched. -/
theorem observes_of_follows {entries : List (Entry κ)} (followed : Follows config s entries last) :
    ∃ trace, Observes config s trace last ∧ trace.map Prod.fst = inputs entries := by
  induction followed with
  | start => exact ⟨[], .start, rfl⟩
  | frame _ delivered _ inductionHypothesis =>
    obtain ⟨trace, observed, same⟩ := inductionHypothesis
    exact ⟨_, .frame observed delivered, by simp [same, inputs]⟩
  | cycle _ whole _ inductionHypothesis =>
    obtain ⟨trace, observed, same⟩ := inductionHypothesis
    exact ⟨_, .cycle observed whole, by simp [same, inputs]⟩

/-- An E-Stop between two costmaps, and a cycle. -/
def costmapLoad : List Input :=
  [.frame (arrivalAt 2), .frame (arrivalAt 0), .frame (arrivalAt 2), .cycle]

/-- The shipped configuration works through the load, and through the load without
its costmaps. -/
theorem costmapLoad_contract :
    ∃ (s : State TopicPriority) (left right : List (Input × Observation TopicPriority)),
      left.map Prod.fst = costmapLoad ∧
        right.map Prod.fst = [.frame (arrivalAt 0), .cycle] ∧
          NonInterference s.contexts left right := by
  obtain ⟨s, _, here, running, _, idle, subscribed⟩ := default_loop
  have known : ∀ arrival, .frame arrival ∈ costmapLoad →
      ∃ ctx, s.contexts[arrival.context]? = some ctx := by
    intro arrival member
    have length : s.contexts.length = 3 := by simpa using congrArg List.length subscribed
    have position : arrival.context < s.contexts.length := by
      rw [length]
      simp only [costmapLoad, List.mem_cons, Input.frame.injEq, reduceCtorEq, List.not_mem_nil,
        or_false] at member
      rcases member with rfl | rfl | rfl
      · decide
      · decide
      · decide
    exact ⟨_, List.getElem?_eq_getElem position⟩
  have fewer : withoutBackground s.contexts costmapLoad = [.frame (arrivalAt 0), .cycle] := by
    have critical : isBackground s.contexts (.frame (arrivalAt 0)) = false := by
      simp [isBackground, arrivalAt, ← List.getElem?_map, subscribed]
    have background : isBackground s.contexts (.frame (arrivalAt 2)) = true := by
      simp [isBackground, arrivalAt, ← List.getElem?_map, subscribed]
    have boundary : isBackground s.contexts .cycle = false := rfl
    simp [withoutBackground, costmapLoad, critical, background, boundary]
  obtain ⟨full, last, loaded, same, _⟩ :=
    follows_exists defaultConfig here running idle costmapLoad known
  obtain ⟨reduced, final, unloaded, rest, _⟩ :=
    follows_exists defaultConfig here running idle (withoutBackground s.contexts costmapLoad)
      (fun arrival member => known arrival (List.mem_of_mem_filter member))
  obtain ⟨left, leftRun, leftInputs⟩ := observes_of_follows loaded
  obtain ⟨right, rightRun, rightInputs⟩ := observes_of_follows unloaded
  have leftSame := leftInputs.trans same
  have rightSame := rightInputs.trans rest
  refine ⟨s, left, right, leftSame, rightSame.trans fewer, ?_⟩
  apply background_contract leftRun rightRun
  rw [leftSame, rightSame]
  simp [withoutBackground]

end TwoRuns

end FlowKernel.Reactor
