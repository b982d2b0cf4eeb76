import FlowKernel.Cycle
import FlowKernel.Delivery
import FlowKernel.StartUp

/-!
# CRITICAL frames under NORMAL load

A run is taken as a sequence of received frames and undisturbed cycles, and compared
with the run on the same sequence without its NORMAL frames. Both priorities share
one queue of 511 places, which every cycle empties. So a frame is accepted exactly
if fewer than 511 queue frames were received since the previous cycle, and then
dispatched by the next cycle: within that bound NORMAL frames cost CRITICAL frames
nothing, and beyond it they do.
-/

namespace FlowKernel.Reactor

open Foundation

universe u
variable {κ : Type u}

/-- What the environment hands to a subscription. -/
structure Arrival where
  context : Nat
  serial : Nat
  key : Bytes
  payload : Bytes
  now : TimePoint
deriving DecidableEq

/-- An arrival, or a cycle of the reactor. -/
inductive Input where
  | frame (arrival : Arrival)
  | cycle
deriving DecidableEq

/-- An input with the events that it has logged. -/
abbrev Entry (κ : Type u) := Input × List (Event κ)

/-- The frame that an arrival becomes in its context. -/
def Arrival.toFrame (arrival : Arrival) (ctx : CallbackContext) : Frame where
  registration := ctx.registration
  serial := arrival.serial
  key := arrival.key
  payload := arrival.payload

/-- A data callback from its beginning to its end. -/
def deliver (config : Config κ) (s : State κ) (thread : Nat) (arrival : Arrival) :
    Option (State κ) :=
  (step config s (.receive thread arrival.context arrival.serial arrival.key arrival.payload
    arrival.now)).bind fun next =>
      match next.callbacks thread with
      | .idle => some next
      | .write _ => step config next (.callback thread)

/-- The reactor and its threads work through a sequence of inputs, one by one. -/
inductive Follows (config : Config κ) (s : State κ) : List (Entry κ) → State κ → Prop
  | start : Follows config s [] s
  | frame {trace : List (Entry κ)} {mid next : State κ} {events : List (Event κ)}
      {arrival : Arrival} {thread : Nat} (followed : Follows config s trace mid)
      (delivered : deliver config mid thread arrival = some next)
      (log : next.log = mid.log ++ events) :
      Follows config s (trace ++ [(.frame arrival, events)]) next
  | cycle {trace : List (Entry κ)} {mid next : State κ} {events : List (Event κ)}
      (followed : Follows config s trace mid) (whole : WholeCycle config mid next)
      (log : next.log = mid.log ++ events) : Follows config s (trace ++ [(.cycle, events)]) next

/-- The inputs of a trace. -/
def inputs (trace : List (Entry κ)) : List Input :=
  trace.map Prod.fst

/-- The frames received since the previous cycle. -/
def window (inputs : List Input) : List Arrival :=
  inputs.foldl (fun since input =>
    match input with
    | .frame arrival => since ++ [arrival]
    | .cycle => []) []

/-- The frame that an arrival brings to the queue, if its subscription leads there
and it passes the checks. -/
def Config.queued (config : Config κ) (contexts : List CallbackContext) (arrival : Arrival) :
    Option (TopicPriority × Frame) :=
  match contexts[arrival.context]? with
  | some ctx =>
      if arrival.payload.length ≠ 0 ∧ config.verify arrival.payload = true ∧
          ctx.priority ≠ .background then
        some (ctx.priority, arrival.toFrame ctx)
      else none
  | none => none

/-- The CRITICAL and NORMAL frames received since the previous cycle. -/
def queueWindow (config : Config κ) (contexts : List CallbackContext) (inputs : List Input) :
    List (TopicPriority × Frame) :=
  (window inputs).filterMap (config.queued contexts)

/-- A frame arrives in the window that is open. -/
@[simp] theorem window_frame (before : List Input) (arrival : Arrival) :
    window (before ++ [.frame arrival]) = window before ++ [arrival] := by
  simp [window]

/-- A cycle opens a new window. -/
@[simp] theorem window_cycle (before : List Input) : window (before ++ [.cycle]) = [] := by
  simp [window]

/-- The inputs of two parts of a trace. -/
@[simp] theorem inputs_append (before after : List (Entry κ)) :
    inputs (before ++ after) = inputs before ++ inputs after :=
  List.map_append

/-- Frames behind the last cycle join the window. -/
theorem window_frames (before : List Input) (arrivals : List Arrival) :
    window (before ++ arrivals.map .frame) = window before ++ arrivals := by
  induction arrivals using List.reverseRecOn with
  | nil => simp
  | append_singleton earlier arrival inductionHypothesis =>
    rw [List.map_append, ← List.append_assoc, List.map_singleton, window_frame,
      inductionHypothesis, List.append_assoc]

variable {config : Config κ} {contexts : List CallbackContext} {s next : State κ}

/-- A frame for the queue counts in the window. -/
theorem queueWindow_frame (before : List Input) {arrival : Arrival}
    {entry : TopicPriority × Frame} (queued : config.queued contexts arrival = some entry) :
    queueWindow config contexts (before ++ [.frame arrival]) =
      queueWindow config contexts before ++ [entry] := by
  simp [queueWindow, queued]

/-- Any other frame does not. -/
theorem queueWindow_other (before : List Input) {arrival : Arrival}
    (ignored : config.queued contexts arrival = none) :
    queueWindow config contexts (before ++ [.frame arrival]) =
      queueWindow config contexts before := by
  simp [queueWindow, ignored]

section Delivering

/-- What a data callback does, as far as the queue is concerned. -/
structure Delivered (config : Config κ) (s next : State κ) (arrival : Arrival) : Prop where
  reactor : next.reactor = s.reactor
  running : next.running = s.running
  contexts : next.contexts = s.contexts
  accepted : ∀ entry, config.queued s.contexts arrival = some entry →
    s.critical_queue.length < queueLimit →
      next.critical_queue.map CriticalSample.payload =
        s.critical_queue.map CriticalSample.payload ++ [entry.2] ∧
      ∃ events, next.log = s.log ++ events ∧ acceptedFrames events = [entry.2] ∧
        rejectedFrames events = []
  rejected : ∀ entry, config.queued s.contexts arrival = some entry →
    ¬ s.critical_queue.length < queueLimit →
      next.critical_queue = s.critical_queue ∧
      ∃ events, next.log = s.log ++ events ∧ acceptedFrames events = [] ∧
        rejectedFrames events = [entry.2]
  ignored : config.queued s.contexts arrival = none → next.critical_queue = s.critical_queue
  log : ∃ events, next.log = s.log ++ events

/-- The write to `wakeup_fd_` moves neither the queue nor the reactor. -/
structure Settles (s next : State κ) : Prop where
  reactor : next.reactor = s.reactor
  running : next.running = s.running
  contexts : next.contexts = s.contexts
  queue : next.critical_queue = s.critical_queue
  log : next.log = s.log
  idle : ∀ thread, s.callbacks thread = .idle → next.callbacks thread = .idle

/-- A whole data callback is its push or put, and then at most the write. -/
theorem deliver_cases {thread : Nat} {arrival : Arrival}
    (delivered : deliver config s thread arrival = some next) :
    ∃ ctx, s.contexts[arrival.context]? = some ctx ∧
      Settles (zenoh_data_callback config s thread ctx (arrival.toFrame ctx) arrival.now) next ∧
        next.callbacks thread = .idle := by
  obtain ⟨first, stepped, rest⟩ := Option.bind_eq_some_iff.mp delivered
  simp only [step] at stepped
  split at stepped
  next ctx idle known =>
    obtain rfl := Option.some.inj stepped
    refine ⟨ctx, known, ?_⟩
    split at rest
    next done =>
      obtain rfl := Option.some.inj rest
      exact ⟨⟨rfl, rfl, rfl, rfl, rfl, fun _ => id⟩, done⟩
    next frame owing =>
      simp only [step, owing] at rest
      obtain rfl := Option.some.inj rest
      refine ⟨⟨rfl, rfl, rfl, rfl, rfl, ?_⟩, ?_⟩
      · intro found idle
        by_cases same : found = thread
        · simp [same, State.setCallback]
        · exact (Function.update_of_ne same _ _).trans idle
      · simp [State.setCallback]
  next => simp at stepped

/-- A frame that fails the checks of the data callback. -/
def Config.unfit (config : Config κ) (payload : Bytes) : Prop :=
  payload.length = 0 ∨ config.verify payload = false

/-- A callback whose payload does not pass returns without a trace. -/
theorem callback_unfit {thread : Nat} {ctx : CallbackContext} {frame : Frame} {now : TimePoint}
    (unfit : config.unfit frame.payload) :
    zenoh_data_callback config s thread ctx frame now = s := by
  rcases unfit with empty | refused
  · simp [zenoh_data_callback, empty]
  · simp [zenoh_data_callback, refused]

/-- What does not pass is not for the queue. -/
theorem queued_unfit {arrival : Arrival} (unfit : config.unfit arrival.payload) :
    config.queued contexts arrival = none := by
  unfold Config.queued
  split
  · rw [if_neg]
    rintro ⟨present, verified, _⟩
    rcases unfit with empty | refused
    · exact present empty
    · simp [refused] at verified
  · rfl

/-- What passes is for the queue unless its handler is BACKGROUND. -/
theorem queued_fit {arrival : Arrival} {ctx : CallbackContext}
    (known : contexts[arrival.context]? = some ctx) (fit : ¬ config.unfit arrival.payload) :
    config.queued contexts arrival =
      if ctx.priority = .background then none else some (ctx.priority, arrival.toFrame ctx) := by
  rw [Config.unfit, not_or] at fit
  simp only [Config.queued, known]
  by_cases background : ctx.priority = .background
  · simp [background]
  · simp [background, fit]

/-- A delivery has the effect its frame calls for. -/
theorem deliver_effect {thread : Nat} {arrival : Arrival}
    (delivered : deliver config s thread arrival = some next) :
    Delivered config s next arrival := by
  obtain ⟨ctx, known, settles, _⟩ := deliver_cases delivered
  by_cases unfit : config.unfit arrival.payload
  · rw [callback_unfit unfit] at settles
    exact
      { reactor := settles.reactor
        running := settles.running
        contexts := settles.contexts
        accepted := by simp [queued_unfit unfit]
        rejected := by simp [queued_unfit unfit]
        ignored := fun _ => settles.queue
        log := ⟨[], by rw [settles.log, List.append_nil]⟩ }
  · have queued := queued_fit known unfit
    have outcome := callback_cases config s thread ctx (arrival.toFrame ctx) arrival.now
    generalize zenoh_data_callback config s thread ctx (arrival.toFrame ctx) arrival.now = first
      at outcome settles
    cases outcome with
    | ignored ill => exact absurd ill unfit
    | accepted toQueue room waking =>
      rw [if_neg toQueue] at queued
      exact
        { reactor := settles.reactor
          running := settles.running
          contexts := settles.contexts
          accepted := by
            intro entry expected _
            obtain rfl := Option.some.inj (queued.symm.trans expected)
            refine ⟨by rw [settles.queue]; simp [sampleOf], _, settles.log, ?_, ?_⟩
            · simp [acceptedFrames, sampleOf]
            · simp [rejectedFrames]
          rejected := fun _ _ full => absurd room full
          ignored := by simp [queued]
          log := ⟨_, settles.log⟩ }
    | rejected toQueue full =>
      rw [if_neg toQueue] at queued
      exact
        { reactor := settles.reactor
          running := settles.running
          contexts := settles.contexts
          accepted := fun _ _ room => absurd room full
          rejected := by
            intro entry expected _
            obtain rfl := Option.some.inj (queued.symm.trans expected)
            refine ⟨settles.queue, _, settles.log, ?_, ?_⟩
            · simp [acceptedFrames]
            · simp [rejectedFrames, sampleOf]
          ignored := by simp [queued]
          log := ⟨_, settles.log⟩ }
    | put cached present =>
      rw [if_pos cached] at queued
      exact
        { reactor := settles.reactor
          running := settles.running
          contexts := settles.contexts
          accepted := by simp [queued]
          rejected := by simp [queued]
          ignored := fun _ => settles.queue
          log := ⟨_, settles.log⟩ }
    | unslotted cached absent =>
      rw [if_pos cached] at queued
      exact
        { reactor := settles.reactor
          running := settles.running
          contexts := settles.contexts
          accepted := by simp [queued]
          rejected := by simp [queued]
          ignored := fun _ => settles.queue
          log := ⟨_, settles.log⟩ }

/-- A data callback can always run to its end on a thread that is free. -/
theorem deliver_possible (config : Config κ) {thread : Nat} {arrival : Arrival}
    {ctx : CallbackContext} (idle : s.callbacks thread = .idle)
    (known : s.contexts[arrival.context]? = some ctx) :
    ∃ next, deliver config s thread arrival = some next := by
  have stepped : step config s (.receive thread arrival.context arrival.serial arrival.key
      arrival.payload arrival.now) =
        some (zenoh_data_callback config s thread ctx (arrival.toFrame ctx) arrival.now) := by
    simp only [step, idle, known]
    rfl
  rw [deliver, stepped, Option.bind_some]
  split
  · exact ⟨_, rfl⟩
  next frame owing =>
    simp only [step, owing]
    exact ⟨_, rfl⟩

/-- A delivery is two steps of the reactor at most. -/
theorem deliver_reachable {thread : Nat} {arrival : Arrival}
    (reached : (machine config).Reachable s)
    (delivered : deliver config s thread arrival = some next) :
    (machine config).Reachable next := by
  obtain ⟨first, stepped, rest⟩ := Option.bind_eq_some_iff.mp delivered
  have received := reached.after (.receive thread arrival.context arrival.serial arrival.key
    arrival.payload arrival.now) stepped
  split at rest
  · exact Option.some.inj rest ▸ received
  · exact received.after (.callback thread) rest

end Delivering

/-- A cycle dispatches what was queued when it began. -/
theorem cycle_dispatches (reached : (machine config).Reachable s)
    (whole : WholeCycle config s next) {events : List (Event κ)}
    (log : next.log = s.log ++ events) :
    (queueCalls events).map Call.frame = s.critical_queue.map CriticalSample.payload := by
  obtain ⟨begun, ended⟩ := whole
  have effect := cycle_effect begun
  have here : s.reactor = .loopTest := begun.here
  have before : acceptedFrames s.log =
      (queueCalls s.log).map Call.frame ++ s.critical_queue.map CriticalSample.payload := by
    simpa [State.channels, here, ReactorPc.hand] using (reachable_carried reached).1.queue.conserved
  have after : acceptedFrames next.log = (queueCalls next.log).map Call.frame := by
    simpa [State.channels, ended, ReactorPc.hand, effect.emptied (.inr ended)] using
      (reachable_carried (cycle_reachable reached begun)).1.queue.conserved
  have nothing : acceptedFrames events = [] := by
    obtain ⟨found, same, quiet⟩ := effect.log
    obtain rfl : events = found := List.append_cancel_left (log.symm.trans same)
    rw [acceptedFrames, List.filterMap_eq_nil_iff]
    intro event member
    have silent := quiet event member
    cases event with
    | offered => simp [Event.arrives] at silent
    | _ => rfl
  rw [log, acceptedFrames_append, nothing, List.append_nil, before, queueCalls_append,
    List.map_append] at after
  exact (List.append_cancel_left after).symm

section Laws

/-- What one input does, given the inputs before it. -/
def InputLaw (config : Config κ) (contexts : List CallbackContext) (before : List (Entry κ)) :
    Entry κ → Prop
  | (.frame arrival, events) => ∀ entry, config.queued contexts arrival = some entry →
      if (queueWindow config contexts (inputs before)).length < queueLimit then
        acceptedFrames events = [entry.2] ∧ rejectedFrames events = []
      else acceptedFrames events = [] ∧ rejectedFrames events = [entry.2]
  | (.cycle, events) => (queueCalls events).map Call.frame =
      ((queueWindow config contexts (inputs before)).take queueLimit).map Prod.snd

/-- The course of a run that follows a sequence of inputs. -/
structure Course (config : Config κ) (s : State κ) (trace : List (Entry κ)) (mid : State κ) :
    Prop where
  reached : (machine config).Reachable mid
  here : mid.reactor = .loopTest
  running : mid.running = s.running
  contexts : mid.contexts = s.contexts
  queue : mid.critical_queue.map CriticalSample.payload =
    ((queueWindow config s.contexts (inputs trace)).take queueLimit).map Prod.snd
  laws : Justified (InputLaw config s.contexts) trace

variable {trace : List (Entry κ)} {mid : State κ}

/-- The queue holds what has arrived since the last cycle, up to its limit. -/
theorem Course.queue_length (course : Course config s trace mid) :
    mid.critical_queue.length =
      min queueLimit (queueWindow config s.contexts (inputs trace)).length := by
  have lengths := congrArg List.length course.queue
  simpa using lengths

/-- The queue has room just while the window is below its limit. -/
theorem Course.room (course : Course config s trace mid) :
    mid.critical_queue.length < queueLimit ↔
      (queueWindow config s.contexts (inputs trace)).length < queueLimit := by
  rw [course.queue_length]
  omega

/-- One more frame on the course. -/
theorem Course.frame (course : Course config s trace mid) {arrival : Arrival} {thread : Nat}
    {events : List (Event κ)} (delivered : deliver config mid thread arrival = some next)
    (log : next.log = mid.log ++ events) :
    Course config s (trace ++ [(.frame arrival, events)]) next := by
  have effect := deliver_effect delivered
  have reached := deliver_reachable course.reached delivered
  have here := effect.reactor.trans course.here
  have running := effect.running.trans course.running
  have contexts := effect.contexts.trans course.contexts
  cases queued : config.queued s.contexts arrival with
  | none =>
    refine ⟨reached, here, running, contexts, ?_, course.laws.snoc ?_⟩
    · rw [effect.ignored (course.contexts ▸ queued), course.queue, inputs_append]
      simp only [inputs, List.map_singleton, queueWindow_other _ queued]
    · intro entry expected
      simp [queued] at expected
  | some entry =>
    have expected : config.queued mid.contexts arrival = some entry := course.contexts ▸ queued
    have extended : queueWindow config s.contexts (inputs (trace ++ [(.frame arrival, events)])) =
        queueWindow config s.contexts (inputs trace) ++ [entry] := by
      simp only [inputs, List.map_append, List.map_singleton, queueWindow_frame _ queued]
    by_cases room : (queueWindow config s.contexts (inputs trace)).length < queueLimit
    · obtain ⟨queue, found, same, accepted, rejected⟩ :=
        effect.accepted entry expected (course.room.mpr room)
      obtain rfl : events = found := List.append_cancel_left (log.symm.trans same)
      refine ⟨reached, here, running, contexts, ?_, course.laws.snoc ?_⟩
      · rw [queue, course.queue, extended, List.take_of_length_le (Nat.le_of_lt room),
          List.take_of_length_le (by rw [List.length_append]; exact room)]
        simp
      · intro other known
        obtain rfl := Option.some.inj (queued.symm.trans known)
        rw [if_pos room]
        exact ⟨accepted, rejected⟩
    · obtain ⟨queue, found, same, accepted, rejected⟩ :=
        effect.rejected entry expected (fun free => room (course.room.mp free))
      obtain rfl : events = found := List.append_cancel_left (log.symm.trans same)
      refine ⟨reached, here, running, contexts, ?_, course.laws.snoc ?_⟩
      · rw [queue, course.queue, extended, List.take_append_of_le_length (Nat.le_of_not_lt room)]
      · intro other known
        obtain rfl := Option.some.inj (queued.symm.trans known)
        rw [if_neg room]
        exact ⟨accepted, rejected⟩

/-- One more cycle on the course. -/
theorem Course.cycle (course : Course config s trace mid) {events : List (Event κ)}
    (whole : WholeCycle config mid next) (log : next.log = mid.log ++ events) :
    Course config s (trace ++ [(.cycle, events)]) next := by
  have effect := cycle_effect whole.1
  exact
    { reached := cycle_reachable course.reached whole.1
      here := whole.2
      running := effect.running.trans course.running
      contexts := effect.contexts.trans course.contexts
      queue := by
        rw [effect.emptied (.inr whole.2)]
        simp [inputs, queueWindow]
      laws := by
        apply course.laws.snoc
        rw [InputLaw, cycle_dispatches course.reached whole log, course.queue] }

/-- Whatever follows the inputs from an empty queue is on the course. -/
theorem follows_course (reached : (machine config).Reachable s) (here : s.reactor = .loopTest)
    (empty : s.critical_queue = []) (followed : Follows config s trace mid) :
    Course config s trace mid := by
  induction followed with
  | start =>
    exact
      { reached := reached
        here := here
        running := rfl
        contexts := rfl
        queue := by simp [empty, inputs, queueWindow, window]
        laws := Justified.nil }
  | frame followed delivered log course => exact course.frame delivered log
  | cycle followed whole log course => exact course.cycle whole log

/-- What became of the frames of one run. -/
structure WindowLaw (config : Config κ) (contexts : List CallbackContext)
    (trace : List (Entry κ)) : Prop where
  accepted : ∀ before arrival events after priority frame,
    trace = before ++ (.frame arrival, events) :: after →
      config.queued contexts arrival = some (priority, frame) →
        (acceptedFrames events = [frame] ↔
          (queueWindow config contexts (inputs before)).length < queueLimit)
  rejected : ∀ before arrival events after priority frame,
    trace = before ++ (.frame arrival, events) :: after →
      config.queued contexts arrival = some (priority, frame) →
        (rejectedFrames events = [frame] ↔
          ¬ (queueWindow config contexts (inputs before)).length < queueLimit)
  next_cycle : ∀ before arrival events between cycle after priority frame,
    trace = before ++ (.frame arrival, events) :: between ++ (.cycle, cycle) :: after →
      (∀ entry ∈ between, entry.1 ≠ .cycle) →
        config.queued contexts arrival = some (priority, frame) →
          acceptedFrames events = [frame] → frame ∈ (queueCalls cycle).map Call.frame

/-- Without a cycle between them two places are in one window. -/
theorem window_between (before : List Input) {between : List Input}
    (within : ∀ input ∈ between, input ≠ .cycle) :
    ∃ later, window (before ++ between) = window before ++ later := by
  induction between using List.reverseRecOn with
  | nil => exact ⟨[], by simp⟩
  | append_singleton earlier input inductionHypothesis =>
    obtain ⟨later, found⟩ := inductionHypothesis
      (fun input member => within input (List.mem_append_left _ member))
    cases input with
    | frame arrival =>
      refine ⟨later ++ [arrival], ?_⟩
      rw [← List.append_assoc, window_frame, found, List.append_assoc]
    | cycle => exact absurd rfl (within .cycle (by simp))

/-- What has fewer than `count` items before it is among the first `count`. -/
theorem mem_take_middle {α : Type u} {before after : List α} {item : α} {count : Nat}
    (room : before.length < count) : item ∈ (before ++ item :: after).take count := by
  obtain ⟨extra, rfl⟩ := Nat.exists_eq_add_of_lt room
  have places : before.length + extra + 1 - before.length = extra + 1 := by omega
  rw [List.take_append, places, List.take_succ_cons]
  exact List.mem_append_right _ List.mem_cons_self

/-- The law of the window, from the law of each input. -/
theorem windowLaw_of_justified (laws : Justified (InputLaw config contexts) trace) :
    WindowLaw config contexts trace := by
  have answered : ∀ before arrival events after priority frame,
      trace = before ++ (.frame arrival, events) :: after →
        config.queued contexts arrival = some (priority, frame) →
          if (queueWindow config contexts (inputs before)).length < queueLimit then
            acceptedFrames events = [frame] ∧ rejectedFrames events = []
          else acceptedFrames events = [] ∧ rejectedFrames events = [frame] :=
    fun before arrival events after priority frame split queued =>
      laws before (.frame arrival, events) after split (priority, frame) queued
  have accepts : ∀ before arrival events after priority frame,
      trace = before ++ (.frame arrival, events) :: after →
        config.queued contexts arrival = some (priority, frame) →
          (acceptedFrames events = [frame] ↔
            (queueWindow config contexts (inputs before)).length < queueLimit) := by
    intro before arrival events after priority frame split queued
    have law := answered before arrival events after priority frame split queued
    split_ifs at law with room
    · simp [law.1, room]
    · simp [law.1, room]
  refine ⟨accepts, ?_, ?_⟩
  · intro before arrival events after priority frame split queued
    have law := answered before arrival events after priority frame split queued
    split_ifs at law with room
    · simp [law.2, room]
    · simp [law.2, room]
  · intro before arrival events between cycle after priority frame split within queued accepted
    have room := (accepts before arrival events (between ++ (.cycle, cycle) :: after) priority
      frame (by simpa using split) queued).mp accepted
    have dispatched : (queueCalls cycle).map Call.frame = _ :=
      laws (before ++ (.frame arrival, events) :: between) (.cycle, cycle) after
        (by simpa using split)
    obtain ⟨later, found⟩ : ∃ later, window (inputs before ++ [.frame arrival] ++ inputs between) =
        window (inputs before ++ [.frame arrival]) ++ later := by
      apply window_between
      intro input member
      obtain ⟨entry, present, rfl⟩ := List.mem_map.mp member
      exact within entry present
    have whole : queueWindow config contexts
        (inputs (before ++ (.frame arrival, events) :: between)) =
          queueWindow config contexts (inputs before) ++
            (priority, frame) :: later.filterMap (config.queued contexts) := by
      have inputsSplit : inputs (before ++ (.frame arrival, events) :: between) =
          inputs before ++ [.frame arrival] ++ inputs between := by
        simp [inputs]
      rw [inputsSplit, queueWindow, found, window_frame]
      simp [queueWindow, queued]
    rw [dispatched, whole]
    exact List.mem_map_of_mem (mem_take_middle room)

end Laws

section TwoRuns

/-- The arrival is received under a NORMAL handler. -/
def isNormal (contexts : List CallbackContext) : Input → Bool
  | .frame arrival => (contexts[arrival.context]?.map CallbackContext.priority) = some .normal
  | .cycle => false

/-- The same sequence without its NORMAL frames. -/
def withoutNormal (contexts : List CallbackContext) (inputs : List Input) : List Input :=
  inputs.filter fun input => !isNormal contexts input

/-- Deleting NORMAL frames deletes them from every window. -/
theorem window_withoutNormal (sequence : List Input) :
    window (withoutNormal contexts sequence) =
      (window sequence).filter fun arrival => !isNormal contexts (.frame arrival) := by
  induction sequence using List.reverseRecOn with
  | nil => rfl
  | append_singleton earlier input inductionHypothesis =>
    rw [withoutNormal] at inductionHypothesis ⊢
    rw [List.filter_append]
    cases input with
    | cycle => simp [isNormal]
    | frame arrival =>
      rw [window_frame, List.filter_append, ← inductionHypothesis]
      by_cases normal : isNormal contexts (.frame arrival) = true
      · simp [normal]
      · simp [normal]

/-- Without the NORMAL frames no window is longer. -/
theorem queueWindow_withoutNormal (sequence : List Input) :
    (queueWindow config contexts (withoutNormal contexts sequence)).length ≤
      (queueWindow config contexts sequence).length := by
  rw [queueWindow, queueWindow, window_withoutNormal]
  exact (List.filter_sublist.filterMap _).length_le

/-- One entry of the full run and one of the reduced run stand at the same place. -/
structure SamePlace (contexts : List CallbackContext) (full reduced : List (Entry κ))
    (before : List (Entry κ)) (input : Input) (events fewer : List (Event κ)) : Prop where
  inFull : ∃ after, full = before ++ (input, events) :: after
  inReduced : ∃ earlier after, reduced = earlier ++ (input, fewer) :: after ∧
    inputs earlier = withoutNormal contexts (inputs before)

/-- A CRITICAL frame that the reduced run accepts and dispatches is accepted and
dispatched, in the same cycle, by the full run. -/
structure Isolated (config : Config κ) (contexts : List CallbackContext)
    (full reduced : List (Entry κ)) : Prop where
  accepted : ∀ before arrival events fewer frame,
    SamePlace contexts full reduced before (.frame arrival) events fewer →
      config.queued contexts arrival = some (.critical, frame) →
        acceptedFrames fewer = [frame] → acceptedFrames events = [frame]
  dispatched : ∀ before events fewer,
    SamePlace contexts full reduced before .cycle events fewer →
      ∀ frame ∈ (queueCalls fewer).map Call.frame, frame ∈ (queueCalls events).map Call.frame

/-- Isolation of the CRITICAL channel from NORMAL load, over all pairs of runs. -/
def Isolation (config : Config κ) : Prop :=
  ∀ s full reduced last final, (machine config).Reachable s → s.reactor = .loopTest →
    s.critical_queue = [] → Follows config s full last → Follows config s reduced final →
      inputs reduced = withoutNormal s.contexts (inputs full) →
        Isolated config s.contexts full reduced

/-- What the shared queue provides instead: both runs obey the law of the window,
and at the same place the full run accepts a CRITICAL frame exactly if the reduced
run does and fewer than 511 queue frames precede it in its window. -/
structure SharedQueueContract (config : Config κ) (contexts : List CallbackContext)
    (full reduced : List (Entry κ)) : Prop where
  fullLaw : WindowLaw config contexts full
  reducedLaw : WindowLaw config contexts reduced
  critical : ∀ before arrival events fewer frame,
    SamePlace contexts full reduced before (.frame arrival) events fewer →
      config.queued contexts arrival = some (.critical, frame) →
        (acceptedFrames events = [frame] ↔ acceptedFrames fewer = [frame] ∧
          (queueWindow config contexts (inputs before)).length < queueLimit)

/-- For every sequence of received frames and cycles, and the sequence without its
NORMAL frames: a frame is accepted if and only if fewer than 511 queue frames were
received since the previous cycle, an accepted frame is dispatched by the next
cycle, and within that bound NORMAL frames cost no CRITICAL frame its place. -/
theorem isolation_contract {full reduced : List (Entry κ)} {last final : State κ}
    (reached : (machine config).Reachable s) (here : s.reactor = .loopTest)
    (empty : s.critical_queue = []) (loaded : Follows config s full last)
    (unloaded : Follows config s reduced final) :
    SharedQueueContract config s.contexts full reduced := by
  have fullLaw := windowLaw_of_justified (follows_course reached here empty loaded).laws
  have reducedLaw := windowLaw_of_justified (follows_course reached here empty unloaded).laws
  refine ⟨fullLaw, reducedLaw, ?_⟩
  rintro before arrival events fewer frame ⟨⟨after, fullSplit⟩, earlier, rest, reducedSplit, same⟩
    queued
  have accepts := fullLaw.accepted before arrival events after .critical frame fullSplit queued
  have acceptsReduced :=
    reducedLaw.accepted earlier arrival fewer rest .critical frame reducedSplit queued
  have shorter := @queueWindow_withoutNormal _ config s.contexts (inputs before)
  rw [accepts, acceptsReduced, same]
  constructor
  · intro room
    exact ⟨Nat.lt_of_le_of_lt shorter room, room⟩
  · exact fun both => both.2

/-- The reactor can work through every sequence of inputs: callbacks come back, and
cycles end. -/
theorem follows_exists (config : Config κ) (here : s.reactor = .loopTest)
    (running : s.running = true) (idle : s.callbacks 0 = .idle) (sequence : List Input)
    (known : ∀ arrival, .frame arrival ∈ sequence →
      ∃ ctx, s.contexts[arrival.context]? = some ctx) :
    ∃ trace last, Follows config s trace last ∧ inputs trace = sequence ∧
      last.reactor = .loopTest ∧ last.running = true ∧ last.contexts = s.contexts ∧
        last.callbacks 0 = .idle := by
  induction sequence using List.reverseRecOn with
  | nil => exact ⟨[], s, .start, rfl, here, running, rfl, idle⟩
  | append_singleton earlier input inductionHypothesis =>
    obtain ⟨trace, mid, followed, rfl, looping, alive, subscribed, free⟩ :=
      inductionHypothesis (fun arrival member => known arrival (List.mem_append_left _ member))
    cases input with
    | frame arrival =>
      obtain ⟨ctx, present⟩ := known arrival (by simp)
      obtain ⟨next, delivered⟩ := deliver_possible config free (subscribed ▸ present)
      have effect := deliver_effect delivered
      obtain ⟨events, log⟩ := effect.log
      obtain ⟨_, _, _, back⟩ := deliver_cases delivered
      exact ⟨_, next, .frame followed delivered log, by simp [inputs],
        effect.reactor.trans looping, effect.running.trans alive,
        effect.contexts.trans subscribed, back⟩
    | cycle =>
      obtain ⟨next, whole⟩ := cycle_exists config looping alive
      have effect := cycle_effect whole.1
      obtain ⟨events, log, _⟩ := effect.log
      exact ⟨_, next, .cycle followed whole log, by simp [inputs], whole.2,
        effect.running.trans alive, effect.contexts.trans subscribed,
        by rw [effect.callbacks, free]⟩

end TwoRuns

section Burst

/-- An empty message on the subscription at this position. -/
def arrivalAt (context : Nat) : Arrival where
  context := context
  serial := 0
  key := []
  payload := emptyMessage
  now := 0

/-- A burst of telemetry that fills the queue. -/
def telemetry : List Input :=
  (List.replicate queueLimit (arrivalAt 1)).map .frame

/-- The burst, an E-Stop behind it, and a cycle. -/
def burst : List Input :=
  telemetry ++ [.frame (arrivalAt 0), .cycle]

/-- The shipped configuration gets to its loop with its three subscriptions. -/
theorem default_loop :
    ∃ s, (machine defaultConfig).Reachable s ∧ s.reactor = .loopTest ∧ s.running = true ∧
      s.critical_queue = [] ∧ s.callbacks 0 = .idle ∧
        s.contexts.map CallbackContext.priority = [.critical, .normal, .background] := by
  have outcome : ((machine defaultConfig).exec (init TopicPriority) (defaultTurns 10)).map
      (fun s => (s.reactor, s.running, s.critical_queue, s.callbacks 0,
        s.contexts.map CallbackContext.priority)) =
      some (.loopTest, true, [], .idle, [.critical, .normal, .background]) := by
    decide +kernel
  obtain ⟨s, ran, seen⟩ := Option.map_eq_some_iff.mp outcome
  simp only [Prod.mk.injEq] at seen
  exact ⟨s, Machine.reachable_of_exec ran, seen⟩

variable {contexts : List CallbackContext}

/-- What an empty message on a CRITICAL or NORMAL subscription brings to the queue. -/
theorem queued_arrivalAt {context : Nat} {priority : TopicPriority}
    (subscribed : (contexts.map CallbackContext.priority)[context]? = some priority)
    (queued : priority ≠ .background) :
    ∃ frame, defaultConfig.queued contexts (arrivalAt context) = some (priority, frame) := by
  rw [List.getElem?_map, Option.map_eq_some_iff] at subscribed
  obtain ⟨ctx, known, rfl⟩ := subscribed
  have fit : ¬ defaultConfig.unfit (arrivalAt context).payload := by
    simp only [arrivalAt]
    rw [Config.unfit]
    decide
  exact ⟨_, by rw [queued_fit known fit, if_neg queued]⟩

/-- Without the NORMAL frames nothing is left of the telemetry. -/
theorem telemetry_withoutNormal
    (subscribed : contexts.map CallbackContext.priority = [.critical, .normal, .background]) :
    withoutNormal contexts telemetry = [] := by
  have normal : isNormal contexts (.frame (arrivalAt 1)) = true := by
    simp [isNormal, arrivalAt, ← List.getElem?_map, subscribed]
  rw [withoutNormal, telemetry, List.filter_eq_nil_iff]
  simp [normal]

/-- The telemetry fills the queue to its limit. -/
theorem telemetry_queueWindow
    (subscribed : contexts.map CallbackContext.priority = [.critical, .normal, .background]) :
    (queueWindow defaultConfig contexts telemetry).length = queueLimit := by
  obtain ⟨frame, queued⟩ := @queued_arrivalAt contexts 1 .normal (by rw [subscribed]; rfl) (by simp)
  have arrivals : window telemetry = List.replicate queueLimit (arrivalAt 1) := by
    simpa [telemetry, window] using window_frames [] (List.replicate queueLimit (arrivalAt 1))
  rw [queueWindow, arrivals, List.filterMap_replicate_of_some queued, List.length_replicate]

/-- Without the NORMAL frames the E-Stop and the cycle are left. -/
theorem burst_withoutNormal
    (subscribed : contexts.map CallbackContext.priority = [.critical, .normal, .background]) :
    withoutNormal contexts burst = [.frame (arrivalAt 0), .cycle] := by
  have critical : isNormal contexts (.frame (arrivalAt 0)) = false := by
    simp [isNormal, arrivalAt, ← List.getElem?_map, subscribed]
  have boundary : isNormal contexts .cycle = false := rfl
  have deleted := telemetry_withoutNormal subscribed
  rw [withoutNormal] at deleted ⊢
  rw [burst, List.filter_append, deleted]
  simp [critical, boundary]

/-- The burst, with its NORMAL frames and without them. -/
structure Bursts (s : State TopicPriority) (full reduced : List (Entry TopicPriority))
    (last final : State TopicPriority) : Prop where
  reached : (machine defaultConfig).Reachable s
  here : s.reactor = .loopTest
  empty : s.critical_queue = []
  subscribed : s.contexts.map CallbackContext.priority = [.critical, .normal, .background]
  loaded : Follows defaultConfig s full last
  unloaded : Follows defaultConfig s reduced final
  sequence : inputs full = burst
  fewer : inputs reduced = withoutNormal s.contexts burst

/-- The two runs exist. -/
theorem bursts_exist : ∃ s full reduced last final, Bursts s full reduced last final := by
  obtain ⟨s, reached, here, running, empty, idle, subscribed⟩ := default_loop
  have known : ∀ arrival, .frame arrival ∈ burst →
      ∃ ctx, s.contexts[arrival.context]? = some ctx := by
    intro arrival member
    have length : s.contexts.length = 3 := by simpa using congrArg List.length subscribed
    have either : arrival = arrivalAt 1 ∨ arrival = arrivalAt 0 := by
      simp only [burst, telemetry, List.mem_append, List.mem_map, List.mem_replicate,
        Input.frame.injEq, exists_eq_right, List.mem_cons, reduceCtorEq, List.not_mem_nil,
        or_false] at member
      exact member.imp And.right id
    have position : arrival.context < s.contexts.length := by
      rw [length]
      rcases either with rfl | rfl
      · decide
      · decide
    exact ⟨_, List.getElem?_eq_getElem position⟩
  obtain ⟨full, last, loaded, same, _⟩ :=
    follows_exists defaultConfig here running idle burst known
  obtain ⟨reduced, final, unloaded, fewer, _⟩ :=
    follows_exists defaultConfig here running idle (withoutNormal s.contexts burst)
      (fun arrival member => known arrival (List.mem_of_mem_filter member))
  exact ⟨s, full, reduced, last, final,
    reached, here, empty, subscribed, loaded, unloaded, same, fewer⟩

/-- With 511 telemetry frames queued before it the E-Stop is rejected; alone it is
accepted. -/
theorem burst_breaks_isolation : ¬ Isolation defaultConfig := by
  intro isolation
  obtain ⟨s, full, reduced, last, final, bursts⟩ := bursts_exist
  have isolated := isolation s full reduced last final bursts.reached bursts.here bursts.empty
    bursts.loaded bursts.unloaded (bursts.fewer.trans (by rw [bursts.sequence]))
  have fullLaw := windowLaw_of_justified
    (follows_course bursts.reached bursts.here bursts.empty bursts.loaded).laws
  have reducedLaw := windowLaw_of_justified
    (follows_course bursts.reached bursts.here bursts.empty bursts.unloaded).laws
  obtain ⟨frame, queued⟩ := @queued_arrivalAt s.contexts 0 .critical
    (by rw [bursts.subscribed]; rfl) (by simp)
  obtain ⟨before, rest, rfl, beforeInputs, restInputs⟩ := List.map_eq_append_iff.mp bursts.sequence
  obtain ⟨⟨_, events⟩, after, rfl, rfl, _⟩ := List.map_eq_cons_iff.mp restInputs
  have fewer := bursts.fewer
  rw [burst_withoutNormal bursts.subscribed] at fewer
  obtain ⟨⟨_, alone⟩, later, rfl, rfl, _⟩ := List.map_eq_cons_iff.mp fewer
  have place : SamePlace s.contexts (before ++ (.frame (arrivalAt 0), events) :: after)
      ((.frame (arrivalAt 0), alone) :: later) before (.frame (arrivalAt 0)) events alone := by
    refine ⟨⟨after, rfl⟩, [], later, rfl, ?_⟩
    rw [inputs, inputs, beforeInputs, telemetry_withoutNormal bursts.subscribed]
    rfl
  have acceptedAlone : acceptedFrames alone = [frame] :=
    (reducedLaw.accepted [] _ alone later _ frame rfl queued).mpr (Nat.succ_pos 510)
  have accepted := isolated.accepted before _ events alone frame place queued acceptedAlone
  have room := (fullLaw.accepted before _ events after _ frame rfl queued).mp accepted
  rw [inputs, beforeInputs, telemetry_queueWindow bursts.subscribed] at room
  exact absurd room (Nat.lt_irrefl _)

/-- The two runs exist, and the contract holds of them. -/
theorem burst_contract :
    ∃ s full reduced last final, Bursts s full reduced last final ∧
      SharedQueueContract defaultConfig s.contexts full reduced := by
  obtain ⟨s, full, reduced, last, final, bursts⟩ := bursts_exist
  exact ⟨s, full, reduced, last, final, bursts, isolation_contract bursts.reached bursts.here
    bursts.empty bursts.loaded bursts.unloaded⟩

end Burst

end FlowKernel.Reactor
