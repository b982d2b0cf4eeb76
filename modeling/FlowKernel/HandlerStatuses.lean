import FlowKernel.Foundation.Totals
import FlowKernel.Accounting

/-!
# What the handler panel reports

`get_handler_statuses()` of `reactor.cpp` reports one entry for each handler. Its
`total_processed` is the processed counter of the handler's channel: the reactor counts for
each channel, and nothing is counted for a single handler. The counters run modulo 2^64.

A frame is charged where it is dispatched. The queue charges CRITICAL if the handler that the
index yields is CRITICAL, and NORMAL otherwise; a slot charges BACKGROUND. So a channel's counter
is the sum of the invocations of the handlers of its priority, if handlers that share a hash
share their priority.
-/

namespace FlowKernel.Reactor

open Foundation

universe u
variable {κ : Type u}

/-- What is reported of a handler. -/
structure HandlerStatus where
  path : Bytes
  priority : String := ""
  description : String := ""
  active : Bool := false
  total_processed : U64 := 0
deriving DecidableEq

/-- The body of the loop over `handlers_`. -/
def handlerStatus (stats : Stats) (handler : Handler κ) : HandlerStatus :=
  let status : HandlerStatus := { path := handler.path, active := true }
  match handler.priority with
  | .critical =>
      { status with priority := "CRITICAL", total_processed := stats.critical_processed }
  | .normal => { status with priority := "NORMAL", total_processed := stats.normal_processed }
  | .background =>
      { status with priority := "BACKGROUND", total_processed := stats.background_processed }

/-- One entry for each handler, in the order of their registration. -/
def get_handler_statuses (config : Config κ) (s : State κ) : List HandlerStatus :=
  config.registry.handlers.map (handlerStatus s.stats)

/-- The invocation of a callback that an event records. -/
def Event.call : Event κ → Option (Call κ)
  | .dispatched call | .slotDispatched _ call => some call
  | _ => none

/-- The invocations of a run, in order. -/
def calls (log : List (Event κ)) : List (Call κ) :=
  log.filterMap Event.call

/-- How often a handler's own callback has been invoked. -/
def invocations (index : Nat) (log : List (Event κ)) : Nat :=
  (calls log).countP fun call => call.index = index

/-- The invocations that a channel's counter is charged with. -/
def charges (priority : TopicPriority) (log : List (Event κ)) : Nat :=
  (calls log).countP fun call => call.processed = priority

/-- A channel's counter, with the count that a cycle still holds, is what it is charged with. -/
def ChannelCounts (s : State κ) : Prop :=
  ∀ priority, s.stats.processed priority + s.reactor.counted priority =
    BitVec.ofNat 64 (charges priority s.log)

/-- The accesses of `reset_stats()`. -/
def Action.resets : Action → Bool
  | .beginReset | .resetStep _ | .reset _ => true
  | _ => false

/-- Runs without `reset_stats()`. -/
def Unreset (_ : State κ) (action : Action) : Prop :=
  action.resets = false

/-- The handlers of a priority, by their position in `handlers_`. -/
def handlersOf (config : Config κ) (priority : TopicPriority) : List Nat :=
  (List.range config.registry.handlers.length).filter fun index =>
    (config.registry.handlers[index]?).map Handler.priority = some priority

/-- No BACKGROUND handler shares its hash with a handler of the queue. -/
def Separated (config : Config κ) : Prop :=
  ∀ left ∈ config.registry.handlers, ∀ right ∈ config.registry.handlers,
    left.path_hash = right.path_hash →
      (left.priority = .background ↔ right.priority = .background)

/-- The sum of the report. -/
def reportedTotal (config : Config κ) (s : State κ) : Nat :=
  ((get_handler_statuses config s).map fun status => status.total_processed.toNat).sum

/-- The sum of the counters. -/
def Stats.total (stats : Stats) : Nat :=
  stats.critical_processed.toNat + stats.normal_processed.toNat +
    stats.background_processed.toNat

/-- How many handlers a channel has. -/
def handlerCount (config : Config κ) (priority : TopicPriority) : Nat :=
  (config.registry.handlers.map Handler.priority).count priority

/-- Each handler is reported with its own invocations, and each invocation is reported once. -/
structure OwnCounts (config : Config κ) (s : State κ) : Prop where
  own : ∀ (index : Nat) (status : HandlerStatus),
    (get_handler_statuses config s)[index]? = some status →
    status.total_processed = BitVec.ofNat 64 (invocations index s.log)
  total : reportedTotal config s = s.stats.total

/-- What the report says at a cycle boundary. -/
structure StatusContract (config : Config κ) (s : State κ) : Prop where
  entries : (get_handler_statuses config s).map HandlerStatus.path =
    config.registrations.map Registration.path
  channel : ∀ (index : Nat) (handler : Handler κ),
    config.registry.handlers[index]? = some handler →
      ∃ status : HandlerStatus, (get_handler_statuses config s)[index]? = some status ∧
        status.total_processed = BitVec.ofNat 64 (charges handler.priority s.log)
  once : charges .critical s.log + charges .normal s.log + charges .background s.log =
    (calls s.log).length
  total : reportedTotal config s =
    handlerCount config .critical * s.stats.critical_processed.toNat +
      handlerCount config .normal * s.stats.normal_processed.toNat +
        handlerCount config .background * s.stats.background_processed.toNat
  shared : Separated config → ∀ priority, charges priority s.log =
    ((handlersOf config priority).map fun index => invocations index s.log).sum
  alone : Separated config → (config.registry.handlers.map Handler.priority).Nodup →
    OwnCounts config s

variable {config : Config κ} {s next : State κ}

/-- An entry reports the counter of its channel. -/
theorem handlerStatus_total (stats : Stats) (handler : Handler κ) :
    (handlerStatus stats handler).total_processed = stats.processed handler.priority := by
  rw [handlerStatus]
  cases handler.priority <;> rfl

/-- An entry reports its own path. -/
theorem handlerStatus_path (stats : Stats) (handler : Handler κ) :
    (handlerStatus stats handler).path = handler.path := by
  rw [handlerStatus]
  cases handler.priority <;> rfl

section Counting

/-- The calls, in two parts of a history. -/
theorem calls_append (log events : List (Event κ)) :
    calls (log ++ events) = calls log ++ calls events :=
  List.filterMap_append

/-- Events without an invocation charge nothing. -/
theorem charges_silent {log events : List (Event κ)} (silent : ∀ event ∈ events, event.call = none)
    (priority : TopicPriority) : charges priority (log ++ events) = charges priority log := by
  have none_ : calls events = [] := List.filterMap_eq_nil_iff.mpr silent
  rw [charges, calls_append, none_, List.append_nil, charges]

/-- An invocation charges its own channel. -/
theorem charges_call {log : List (Event κ)} {event : Event κ} {call : Call κ}
    (invoked : event.call = some call) (priority : TopicPriority) :
    charges priority (log ++ [event]) =
      charges priority log + if call.processed = priority then 1 else 0 := by
  have one : calls [event] = [call] := by simp [calls, invoked]
  rw [charges, calls_append, one, List.countP_append, List.countP_singleton, charges]
  simp

/-- A step that calls nothing. -/
theorem ChannelCounts.noted (counts : ChannelCounts s) {events : List (Event κ)}
    (log : next.log = s.log ++ events) (silent : ∀ event ∈ events, event.call = none)
    (stats : next.stats.processed = s.stats.processed)
    (counted : next.reactor.counted = s.reactor.counted) : ChannelCounts next := by
  intro priority
  rw [stats, counted, log, charges_silent silent]
  exact counts priority

/-- A step that records nothing. -/
theorem ChannelCounts.kept (counts : ChannelCounts s) (log : next.log = s.log)
    (stats : next.stats.processed = s.stats.processed)
    (counted : next.reactor.counted = s.reactor.counted) : ChannelCounts next :=
  counts.noted (log.trans (List.append_nil _).symm) (by simp) stats counted

/-- A dispatch is counted in the local variable of the channel it is charged to. -/
theorem ChannelCounts.count (counts : ChannelCounts s) {event : Event κ} {call : Call κ}
    (log : next.log = s.log ++ [event]) (invoked : event.call = some call)
    (stats : next.stats.processed = s.stats.processed)
    (counted : ∀ priority, next.reactor.counted priority =
      s.reactor.counted priority + if call.processed = priority then 1 else 0) :
    ChannelCounts next := by
  intro priority
  rw [stats, counted, log, charges_call invoked, ← BitVec.add_assoc, counts priority]
  split
  next => exact (BitVec.ofNat_add _ 1).symm
  next => simp

/-- Moving a local count into its counter leaves their sum. -/
theorem moved_count {counter count total : U64} (sum : counter + count = total) :
    counter + count + 0 = total := by
  simp [sum]

/-- Every access of `handle_events` keeps the counters in step with the invocations. -/
theorem access_counts {answers : Answers} (counts : ChannelCounts s)
    (access : Access config s answers s.reactor next) : ChannelCounts next := by
  obtain ⟨running, started, contexts, queue, dropped, cache, stats, latencies, sessions, wakeup,
    callbacks, stops, resetting, reactor, log⟩ := s
  cases access with
  | armFirst | arm | enter | emptied | pop | unindexed | startDrain | drained | visitEmpty | visit
  | unindexedSlot => exact counts.noted rfl (by simp [Event.call]) rfl rfl
  | dispatchCritical | dispatchNormal | dispatchSlot =>
    refine counts.count rfl rfl rfl ?_
    rintro (_ | _ | _) <;> simp [ReactorPc.counted, perPriority, State.record]
  | addCriticalProcessed =>
    intro priority
    cases priority with
    | critical => exact moved_count (counts .critical)
    | normal => exact counts .normal
    | background => exact counts .background
  | addNormalProcessed =>
    intro priority
    cases priority with
    | critical => exact counts .critical
    | normal => exact moved_count (counts .normal)
    | background => exact counts .background
  | addBackgroundProcessed =>
    intro priority
    cases priority with
    | critical => exact counts .critical
    | normal => exact counts .normal
    | background => exact moved_count (counts .background)
  | _ => exact counts.kept rfl rfl rfl

/-- A step that resets nothing keeps the counters those of the calls. -/
theorem step_counts {action : Action} (counts : ChannelCounts s) (permitted : Unreset s action)
    (stepped : step config s action = some next) : ChannelCounts next := by
  cases step_transition stepped with
  | receive idle known outcome =>
    cases outcome with
    | ignored => exact counts
    | accepted | rejected | put | unslotted =>
      exact counts.noted rfl (by simp [Event.call]) rfl rfl
  | write => exact counts.kept rfl rfl rfl
  | stop | stopWrite => exact counts.noted rfl (by simp [Event.call]) rfl rfl
  | access access => exact access_counts counts access
  | beginReset | resetStep | reset => simp [Unreset, Action.resets] at permitted

/-- In every run without a reset the counters are those of the calls. -/
theorem reachable_counts (reached : (machine config).ReachableWithin Unreset s) : ChannelCounts s :=
  Machine.invariant_within ChannelCounts (fun priority => by cases priority <;> rfl)
    (fun _ _ _ _ counts permitted stepped => step_counts counts permitted stepped) reached

end Counting

section Invoked

/-- The handlers of a channel are those of its priority. -/
theorem mem_handlersOf {priority : TopicPriority} {index : Nat} :
    index ∈ handlersOf config priority ↔
      ∃ handler, config.registry.handlers[index]? = some handler ∧
        handler.priority = priority := by
  rw [handlersOf, List.mem_filter, List.mem_range, decide_eq_true_iff, Option.map_eq_some_iff]
  constructor
  · rintro ⟨-, present⟩
    exact present
  · rintro ⟨handler, present, own⟩
    exact ⟨(List.getElem?_eq_some_iff.mp present).1, handler, present, own⟩

/-- The index leads to a handler with the hash that is looked for. -/
theorem found_shares {frame : Frame} {source target : Handler κ} {index : Nat}
    (received : config.Source frame source)
    (found : config.registry.find source.path_hash = some (index, target)) :
    config.registry.handlers[index]? = some target ∧ target.path_hash = source.path_hash := by
  refine ⟨(Registry.find_eq_some.mp found).2, ?_⟩
  obtain ⟨call, present, _, rfl⟩ := source_registered received
  obtain ⟨first, other, shared, _, _, same⟩ := Registry.find_registered present
  have agree : (index, target) = (first, Registry.handlerOf other) :=
    Option.some.inj (found.symm.trans shared)
  obtain ⟨rfl, rfl⟩ := Prod.mk.inj agree
  exact same

/-- An invoked handler is of the channel that is charged. -/
theorem call_handler (separated : Separated config) (sourced : Sourced config s.channels)
    {call : Call κ} (member : call ∈ calls s.log) :
    call.index ∈ handlersOf config call.processed := by
  obtain ⟨event, logged, invoked⟩ := List.mem_filterMap.mp member
  have origin := sourced.log event logged
  cases event <;> simp only [Event.call, Option.some.injEq, reduceCtorEq] at invoked
  case dispatched found =>
    subst invoked
    obtain ⟨source, index, target, received, queued, led, call_eq⟩ := origin
    obtain ⟨there, shared⟩ := found_shares received led
    have apart := separated target (List.mem_of_getElem? there) source
      (List.mem_of_getElem? received.1) shared
    rw [call_eq]
    refine mem_handlersOf.mpr ⟨target, there, ?_⟩
    cases kind : target.priority with
    | critical => simp [queueCall, kind]
    | normal => simp [queueCall, kind]
    | background => exact absurd (apart.mp kind) queued
  case slotDispatched hash found =>
    subst invoked
    obtain ⟨source, index, target, received, cached, rfl, led, call_eq⟩ := origin
    obtain ⟨there, shared⟩ := found_shares received led
    have apart := separated target (List.mem_of_getElem? there) source
      (List.mem_of_getElem? received.1) shared
    rw [call_eq]
    exact mem_handlersOf.mpr ⟨target, there, apart.mpr cached⟩

/-- A channel is charged with the invocations of its handlers. -/
theorem charges_shared (separated : Separated config) (sourced : Sourced config s.channels)
    (priority : TopicPriority) : charges priority s.log =
      ((handlersOf config priority).map fun index => invocations index s.log).sum := by
  have distinct : (handlersOf config priority).Nodup := List.nodup_range.filter _
  have charged : charges priority s.log =
      (calls s.log).countP fun call => call.index ∈ handlersOf config priority := by
    apply List.countP_congr
    intro call member
    have own := call_handler separated sourced member
    simp only [decide_eq_true_eq]
    constructor
    · rintro rfl
      exact own
    · intro there
      obtain ⟨handler, present, charged⟩ := mem_handlersOf.mp own
      obtain ⟨again, listed, kind⟩ := mem_handlersOf.mp there
      obtain rfl : handler = again := Option.some.inj (present.symm.trans listed)
      exact charged.symm.trans kind
  rw [charged]
  exact Totals.countP_places distinct (calls s.log) Call.index

/-- The only handler of a channel is charged alone. -/
theorem charges_own (separated : Separated config)
    (distinct : (config.registry.handlers.map Handler.priority).Nodup)
    (sourced : Sourced config s.channels) {index : Nat} {handler : Handler κ}
    (here : config.registry.handlers[index]? = some handler) :
    charges handler.priority s.log = invocations index s.log := by
  apply List.countP_congr
  intro call member
  obtain ⟨target, there, own⟩ := mem_handlersOf.mp (call_handler separated sourced member)
  simp only [decide_eq_true_eq]
  constructor
  · intro same
    have inside : call.index < (config.registry.handlers.map Handler.priority).length := by
      rw [List.length_map]
      exact (List.getElem?_eq_some_iff.mp there).1
    apply (List.getElem?_inj inside distinct).mp
    rw [List.getElem?_map, List.getElem?_map, there, here, Option.map_some, Option.map_some, own,
      same]
  · rintro rfl
    obtain rfl : target = handler := Option.some.inj (there.symm.trans here)
    exact own.symm

end Invoked

section Report

/-- Amounts of the handlers' channels, added up channel by channel. -/
theorem sum_by_priority (handlers : List (Handler κ)) (amount : TopicPriority → Nat) :
    (handlers.map fun handler => amount handler.priority).sum =
      (handlers.map Handler.priority).count .critical * amount .critical +
        (handlers.map Handler.priority).count .normal * amount .normal +
          (handlers.map Handler.priority).count .background * amount .background := by
  induction handlers with
  | nil => simp
  | cons handler rest inductionHypothesis =>
    simp only [List.map_cons, List.sum_cons, List.count_cons, inductionHypothesis]
    cases handler.priority <;> simp [Nat.add_mul] <;> omega

/-- Each channel is reported once for each of its handlers. -/
theorem reported_total (config : Config κ) (s : State κ) : reportedTotal config s =
    handlerCount config .critical * s.stats.critical_processed.toNat +
      handlerCount config .normal * s.stats.normal_processed.toNat +
        handlerCount config .background * s.stats.background_processed.toNat := by
  have totals : reportedTotal config s =
      (config.registry.handlers.map fun handler =>
        (s.stats.processed handler.priority).toNat).sum := by
    rw [reportedTotal, get_handler_statuses, List.map_map]
    congr 2
    funext handler
    exact congrArg BitVec.toNat (handlerStatus_total s.stats handler)
  rw [totals]
  exact sum_by_priority config.registry.handlers fun priority => (s.stats.processed priority).toNat

/-- At a boundary the counters are what the channels are charged with. -/
theorem ChannelCounts.settled (counts : ChannelCounts s) (boundary : s.reactor.boundary = true)
    (priority : TopicPriority) :
    s.stats.processed priority = BitVec.ofNat 64 (charges priority s.log) := by
  have held := counts priority
  rw [(ReactorPc.at_rest boundary).counted] at held
  simpa using held

/-- Every invocation is charged to one channel. -/
theorem charges_once (log : List (Event κ)) :
    charges .critical log + charges .normal log + charges .background log =
      (calls log).length := by
  rw [charges, charges, charges]
  induction calls log with
  | nil => rfl
  | cons call rest inductionHypothesis =>
    simp only [List.countP_cons, List.length_cons]
    cases call.processed <;> simp <;> omega

/-- A channel without handlers is charged with nothing. -/
theorem charges_none (separated : Separated config) (sourced : Sourced config s.channels)
    {priority : TopicPriority} (none_ : handlerCount config priority = 0) :
    charges priority s.log = 0 := by
  rw [charges, List.countP_eq_zero]
  intro call member own
  have kind : call.processed = priority := of_decide_eq_true own
  obtain ⟨handler, there, same⟩ := mem_handlersOf.mp (call_handler separated sourced member)
  apply List.count_eq_zero.mp none_
  rw [← kind, ← same]
  exact List.mem_map_of_mem (List.mem_of_getElem? there)

/-- With one handler a channel at most, the report counts what the counters count. -/
theorem ownCounts (separated : Separated config)
    (distinct : (config.registry.handlers.map Handler.priority).Nodup)
    (sourced : Sourced config s.channels)
    (settled : ∀ priority, s.stats.processed priority =
      BitVec.ofNat 64 (charges priority s.log)) : OwnCounts config s where
  own := by
    intro index status reported
    rw [get_handler_statuses, List.getElem?_map, Option.map_eq_some_iff] at reported
    obtain ⟨handler, here, rfl⟩ := reported
    rw [handlerStatus_total, settled, charges_own separated distinct sourced here]
  total := by
    have once : ∀ priority, handlerCount config priority * (s.stats.processed priority).toNat =
        (s.stats.processed priority).toNat := by
      intro priority
      have few : handlerCount config priority ≤ 1 :=
        List.nodup_iff_count_le_one.mp distinct priority
      rcases Nat.le_one_iff_eq_zero_or_eq_one.mp few with none_ | single
      · rw [settled, charges_none separated sourced none_]
        rfl
      · rw [single, Nat.one_mul]
    rw [reported_total, Stats.total]
    exact congrArg₂ (· + ·) (congrArg₂ (· + ·) (once .critical) (once .normal)) (once .background)

/-- In every run without `reset_stats()`, for any handlers, the report at a cycle boundary says
for each handler what its channel has been charged with. -/
theorem handler_statuses (reached : (machine config).ReachableWithin Unreset s)
    (boundary : s.reactor.boundary = true) : StatusContract config s := by
  have sourced : Sourced config s.channels := reachable_sourced reached.reachable
  have settled := (reachable_counts reached).settled boundary
  exact
    { entries := by
        rw [get_handler_statuses, List.map_map, Config.registry, Registry.handlers_registerAll,
          List.map_map]
        apply List.map_congr_left
        intro call _
        exact handlerStatus_path s.stats (Registry.handlerOf call)
      channel := by
        intro index handler here
        refine ⟨handlerStatus s.stats handler, ?_, ?_⟩
        · rw [get_handler_statuses, List.getElem?_map, here, Option.map_some]
        · rw [handlerStatus_total, settled]
      once := charges_once s.log
      total := reported_total config s
      shared := fun separated => charges_shared separated sourced
      alone := fun separated distinct => ownCounts separated distinct sourced settled }

end Report

section Runs

/-- One step's share in a run without `reset_stats()`, as a check of a replay. -/
def unreset (_ : State κ) (action : Action) (_ : State κ) : Bool :=
  !action.resets

/-- What the check accepts meets the condition. -/
theorem unreset_of_check (s : State κ) (action : Action) (next : State κ)
    (passed : unreset s action next = true) : Unreset s action := by
  simpa [unreset, Unreset] using passed

/-- A frame for each of the shipped handlers, and the cycle that dispatches them. -/
def eachOnceRun : List Action :=
  defaultTurns 10 ++
    [Action.receive 0 0 0 estopPath emptyMessage 5,
      Action.receive 1 1 1 telemetryPath emptyMessage 6,
      Action.receive 2 2 2 costmapPath emptyMessage 7] ++ defaultTurns 25

/-- One call on each channel. -/
theorem eachOnceRun_reported :
    ∃ s, (machine defaultConfig).execWithin unreset (init TopicPriority) eachOnceRun = some s ∧
      s.reactor.boundary = true ∧ (calls s.log).length = 3 ∧ StatusContract defaultConfig s ∧
        OwnCounts defaultConfig s := by
  have separated : Separated defaultConfig := by
    unfold Separated
    decide +kernel
  have distinct : (defaultConfig.registry.handlers.map Handler.priority).Nodup := by
    decide +kernel
  have outcome : ((machine defaultConfig).execWithin unreset (init TopicPriority)
      eachOnceRun).map (fun s => (s.reactor.boundary, (calls s.log).length)) =
        some (true, 3) := by
    decide +kernel
  obtain ⟨s, ran, seen⟩ := Option.map_eq_some_iff.mp outcome
  simp only [Prod.mk.injEq] at seen
  obtain ⟨boundary, three⟩ := seen
  have reached := Machine.ReachableWithin.exec
    (fun s action next _ => unreset_of_check s action next) .start ran
  have contract := handler_statuses reached boundary
  exact ⟨s, ran, boundary, three, contract, contract.alone separated distinct⟩

/-- Two CRITICAL handlers. -/
def twinConfig : Config TopicPriority :=
  plainConfig
    [{ path := estopPath, priority := .critical, callback := .critical },
      { path := telemetryPath, priority := .critical, callback := .critical }]

/-- A CRITICAL handler behind a BACKGROUND handler of the same path. -/
def maskedConfig : Config TopicPriority :=
  plainConfig
    [{ path := costmapPath, priority := .background, callback := .background },
      { path := costmapPath, priority := .critical, callback := .critical }]

/-- A frame for the first of the twins, and the cycle that dispatches it. -/
def twinRun : List Action :=
  turns [] 8 ++ [Action.receive 0 0 0 estopPath emptyMessage 5] ++ turns [] 20

/-- The same with a frame for the handler behind. -/
def maskedRun : List Action :=
  defaultTurns 8 ++ [Action.receive 0 1 0 costmapPath emptyMessage 5] ++ defaultTurns 22

/-- The twins are both reported with the frame of the one. The other frame is dispatched to the
BACKGROUND handler and charged to NORMAL, which no handler of that list is reported with. -/
theorem twins_reported :
    (∃ s, (machine twinConfig).execWithin unreset (init TopicPriority) twinRun = some s ∧
      s.reactor.boundary = true ∧
        (get_handler_statuses twinConfig s).map HandlerStatus.total_processed = [1, 1] ∧
          invocations 0 s.log = 1 ∧ invocations 1 s.log = 0 ∧
            reportedTotal twinConfig s = 2 ∧ s.stats.total = 1) ∧
      ∃ s, (machine maskedConfig).execWithin unreset (init TopicPriority) maskedRun = some s ∧
        s.reactor.boundary = true ∧
          (get_handler_statuses maskedConfig s).map HandlerStatus.total_processed = [0, 0] ∧
            invocations 0 s.log = 1 ∧ reportedTotal maskedConfig s = 0 ∧ s.stats.total = 1 := by
  have twins : ((machine twinConfig).execWithin unreset (init TopicPriority) twinRun).map
      (fun s => (s.reactor.boundary,
        (get_handler_statuses twinConfig s).map HandlerStatus.total_processed,
        invocations 0 s.log, invocations 1 s.log, reportedTotal twinConfig s,
        s.stats.total)) = some (true, [1, 1], 1, 0, 2, 1) := by
    decide +kernel
  have masked : ((machine maskedConfig).execWithin unreset (init TopicPriority) maskedRun).map
      (fun s => (s.reactor.boundary,
        (get_handler_statuses maskedConfig s).map HandlerStatus.total_processed,
        invocations 0 s.log, reportedTotal maskedConfig s, s.stats.total)) =
        some (true, [0, 0], 1, 0, 1) := by
    decide +kernel
  obtain ⟨s, ran, seen⟩ := Option.map_eq_some_iff.mp twins
  obtain ⟨t, went, shown⟩ := Option.map_eq_some_iff.mp masked
  simp only [Prod.mk.injEq] at seen shown
  exact ⟨⟨s, ran, seen⟩, ⟨t, went, shown⟩⟩

end Runs

end FlowKernel.Reactor
