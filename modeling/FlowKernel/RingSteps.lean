import FlowKernel.Delivery
import FlowKernel.QueueFifo
import FlowKernel.RingReactor

/-!
# What one step of the reactor over its ring does

An access of the ring is one operation of a bounded buffer or none. A push takes effect at
its store of `tail_`, or at the load of `head_` that finds the ring full; a pop at its store
of `head_`, or at the load of `tail_` that finds the ring empty. From there on a CRITICAL
push owes its write to `wakeup_fd_`, though it has yet to release the lock.
-/

namespace FlowKernel.MpscQueue

open Foundation RingIndex

universe u
variable {α : Type u} {threads : Nat} {source : Source} {capacity : SizeT}
  {s after : State threads α}

/-- What is in memory is what the history of a bounded buffer leaves in it. -/
theorem contents_legal (power : PowerOfTwo capacity)
    (reached : (machine source capacity threads α).Reachable s) (alive : s.dropping = false) :
    BoundedFifo.Legal (capacity.toNat - 1) (operations s.history) (contents capacity s) := by
  obtain ⟨holder, front, items, described⟩ := reachable_described power reached
  exact described.contents_items power alive ▸ described.legal

/-- An access that is no operation leaves the contents as they are. -/
theorem contents_quiet (power : PowerOfTwo capacity)
    (reached : (machine source capacity threads α).Reachable s) (alive : s.dropping = false)
    (later : (machine source capacity threads α).Reachable after)
    (lasting : after.dropping = false) (quiet : operations after.history = operations s.history) :
    contents capacity after = contents capacity s :=
  (quiet ▸ contents_legal power later lasting).unique (contents_legal power reached alive)

/-- Any other is that operation of a bounded buffer. -/
theorem contents_step (power : PowerOfTwo capacity)
    (reached : (machine source capacity threads α).Reachable s) (alive : s.dropping = false)
    (later : (machine source capacity threads α).Reachable after)
    (lasting : after.dropping = false) {operation : BoundedFifo.Event α}
    (one : operations after.history = operations s.history ++ [operation]) :
    BoundedFifo.Step (capacity.toNat - 1) (contents capacity s) operation
      (contents capacity after) :=
  (contents_legal power reached alive).last (one ▸ contents_legal power later lasting)

/-- The refusals are operations too. -/
theorem fulls_operations (history : List (Event threads α)) :
    fulls history = (operations history).countP (fun operation => operation matches .reject) := by
  rw [fulls, operations, List.countP_filterMap]
  congr 1
  funext event
  cases event <;> rfl

/-- How the accesses of `push` follow each other, with the events they log. -/
inductive PushMove (p : Fin threads) : PushPc α → PushPc α → List (Event threads α) → Prop
  | spin {item : α} : PushMove p (.lock item) (.lock item) []
  | lock {item : α} : PushMove p (.lock item) (.loadTail item) []
  | loadTail {item : α} {t : SizeT} : PushMove p (.loadTail item) (.loadHead item t) []
  | refuse {item : α} {t : SizeT} : PushMove p (.loadHead item t) .countDrop [.full p]
  | room {item : α} {t next : SizeT} :
      PushMove p (.loadHead item t) (.construct item t next) []
  | countDrop : PushMove p .countDrop .unlockFull []
  | unlockFull : PushMove p .unlockFull .idle [.returned p false]
  | construct {item : α} {t next : SizeT} :
      PushMove p (.construct item t next) (.storeTail item next) [.constructed item]
  | accept {item : α} {next : SizeT} :
      PushMove p (.storeTail item next) .unlock [.accepted p item]
  | unlock : PushMove p .unlock .idle [.returned p true]

/-- The same for `pop`. -/
inductive PopMove : PopPc α → PopPc α → List (Event threads α) → Prop
  | miss {h : SizeT} : PopMove (.loadTail h) .idle [.sawEmpty]
  | found {h : SizeT} : PopMove (.loadTail h) (.moveOut h) []
  | moveOut {h : SizeT} {item : α} : PopMove (.moveOut h) (.destroy h item) []
  | destroy {h : SizeT} {item : α} :
      PopMove (.destroy h item) (.storeHead h item) [.destroyed item]
  | take {h : SizeT} {item : α} : PopMove (.storeHead h item) .idle [.popped item]

/-- A step of a push moves its producer only. -/
theorem pushStep_move {p : Fin threads} (stepped : pushStep capacity s p = some after) :
    ∃ pc events, PushMove p (s.producers p) pc events ∧
      after.producers = Function.update s.producers p pc ∧ after.consumer = s.consumer ∧
        after.dropping = s.dropping ∧ after.history = s.history ++ events := by
  have silent : s.history = s.history ++ [] := (List.append_nil _).symm
  cases here : s.producers p with
  | idle => simp [pushStep, here] at stepped
  | lock item =>
    cases free : s.push_lock with
    | true =>
      obtain rfl : s = after := by simpa [pushStep, here, free] using stepped
      refine ⟨_, _, .spin, ?_, rfl, rfl, silent⟩
      rw [← here, Function.update_eq_self]
    | false =>
      obtain rfl : _ = after := by simpa [pushStep, here, free] using stepped
      exact ⟨_, _, .lock, rfl, rfl, rfl, silent⟩
  | loadHead item t =>
    by_cases full : (t + 1) &&& (capacity - 1) = s.head
    · simp only [pushStep, here, if_pos full, Option.some.injEq] at stepped
      subst stepped
      exact ⟨_, _, .refuse, rfl, rfl, rfl, rfl⟩
    · simp only [pushStep, here, if_neg full, Option.some.injEq] at stepped
      subst stepped
      exact ⟨_, _, .room, rfl, rfl, rfl, silent⟩
  | loadTail item =>
    obtain rfl : _ = after := by simpa [pushStep, here] using stepped
    exact ⟨_, _, .loadTail, rfl, rfl, rfl, silent⟩
  | countDrop =>
    obtain rfl : _ = after := by simpa [pushStep, here] using stepped
    exact ⟨_, _, .countDrop, rfl, rfl, rfl, silent⟩
  | unlockFull =>
    obtain rfl : _ = after := by simpa [pushStep, here] using stepped
    exact ⟨_, _, .unlockFull, rfl, rfl, rfl, rfl⟩
  | construct item t next =>
    obtain rfl : _ = after := by simpa [pushStep, here] using stepped
    exact ⟨_, _, .construct, rfl, rfl, rfl, rfl⟩
  | storeTail item next =>
    obtain rfl : _ = after := by simpa [pushStep, here] using stepped
    exact ⟨_, _, .accept, rfl, rfl, rfl, rfl⟩
  | unlock =>
    obtain rfl : _ = after := by simpa [pushStep, here] using stepped
    exact ⟨_, _, .unlock, rfl, rfl, rfl, rfl⟩

/-- Before the destructor the consumer is inside `pop`, if it is inside anything. -/
theorem popStep_move {holder : Option (Fin threads)} {front : Nat} {items : List α}
    (described : Describes .cpp capacity s holder front items) (alive : s.dropping = false)
    (stepped : popStep .cpp capacity s = some after) :
    ∃ pc events, PopMove s.consumer pc events ∧ after.consumer = pc ∧
      after.producers = s.producers ∧ after.dropping = s.dropping ∧
        after.history = s.history ++ events := by
  have silent : s.history = s.history ++ [] := (List.append_nil _).symm
  have consuming := described.consuming
  cases here : s.consumer with
  | idle => simp [popStep, here] at stepped
  | loadTail h =>
    by_cases empty : h = s.tail
    · simp only [popStep, here, if_pos empty, alive, Bool.false_eq_true, if_false,
        Option.some.injEq] at stepped
      subst stepped
      exact ⟨_, _, .miss, rfl, rfl, alive.symm, rfl⟩
    · simp only [popStep, here, if_neg empty, Option.some.injEq] at stepped
      subst stepped
      exact ⟨_, _, .found, rfl, rfl, rfl, silent⟩
  | moveOut h =>
    cases cell : s.buffer h with
    | live item =>
      simp only [popStep, here, cell, Option.some.injEq] at stepped
      subst stepped
      exact ⟨_, _, .moveOut, rfl, rfl, rfl, silent⟩
    | raw | moved => simp [popStep, here, cell] at stepped
  | destroy h item =>
    cases cell : s.buffer h with
    | moved =>
      simp only [popStep, here, cell, Option.some.injEq] at stepped
      subst stepped
      exact ⟨_, _, .destroy, rfl, rfl, rfl, rfl⟩
    | raw | live => simp [popStep, here, cell] at stepped
  | storeHead h item =>
    simp only [popStep, here, alive, Bool.false_eq_true, if_false, Option.some.injEq] at stepped
    subst stepped
    exact ⟨_, _, .take, rfl, rfl, alive.symm, rfl⟩
  | dtorLoadTail | dtorLoop | gone => simp [here, Consuming, alive] at consuming

/-- A pop begins with the load of the tail. -/
theorem pop_begins (stepped : step .cpp capacity s .pop = some after) :
    after = { s with consumer := .loadTail s.head } := by
  simp only [step] at stepped
  split at stepped
  · exact (Option.some.inj stepped).symm
  · next source => cases source
  · simp at stepped

/-- A push begins with its lock. -/
theorem push_begins {p : Fin threads} {item : α}
    (stepped : step source capacity s (.push p item) = some after) :
    after = (s.setProducer p (.lock item)).log (.called p item) := by
  simp only [step] at stepped
  split at stepped
  · exact (Option.some.inj stepped).symm
  · simp at stepped

end FlowKernel.MpscQueue

namespace FlowKernel.RingReactor

open Foundation Reactor

universe u
variable {κ : Type u} {threads : Nat}

/-- The samples in the memory of the ring. -/
def State.items (s : State κ threads) : List CriticalSample :=
  MpscQueue.contents capacity s.ring

/-- The pushes that have found the ring full. -/
def State.refusals (s : State κ threads) : U64 :=
  BitVec.ofNat 64 (MpscQueue.fulls s.ring.history)

/-- What a callback owes: inside `push` it is what it will owe on return, once its sample
has been accepted. -/
def owes (pc : MpscQueue.PushPc CriticalSample) (call : Option Pushing) (own : CallbackPc) :
    CallbackPc :=
  match pc, call with
  | .unlock, some call =>
      if call.ctx.priority = .critical then .write call.sample.payload else .idle
  | _, _ => own

/-- What a callback has still to do, its push included. -/
def State.owed (s : State κ threads) (i : Nat) : CallbackPc :=
  if inside : i < threads then
    owes (s.ring.producers ⟨i, inside⟩) (s.pushing ⟨i, inside⟩) (s.reactor.callbacks i)
  else s.reactor.callbacks i

/-- A push works on the sample that its callback has moved in. -/
def Carries : MpscQueue.PushPc CriticalSample → Option Pushing → Prop
  | .idle, none | .countDrop, some _ | .unlockFull, some _ | .unlock, some _ => True
  | .lock item, some call | .loadTail item, some call | .loadHead item _, some call
  | .construct item _ _, some call | .storeTail item _, some call => item = call.sample
  | _, _ => False

/-- What a callback inside `push` brings comes from a subscription to the queue. -/
structure Subscribed (contexts : List CallbackContext) (call : Pushing) : Prop where
  known : call.ctx ∈ contexts
  hash : call.sample.handler_hash = call.ctx.handler_hash
  origin : call.sample.payload.registration = call.ctx.registration
  queued : call.ctx.priority ≠ .background

/-- How the reactor and its threads stand to the ring. -/
structure Linked (s : State κ threads) : Prop where
  reached : (MpscQueue.machine .cpp capacity threads CriticalSample).Reachable s.ring
  alive : s.ring.dropping = false
  popping : s.ring.consumer ≠ .idle → ∃ critical normal, s.reactor.reactor = .pop critical normal
  carries : ∀ thread, Carries (s.ring.producers thread) (s.pushing thread)
  subscribed : ∀ thread call, s.pushing thread = some call →
    Subscribed s.reactor.contexts call ∧ s.reactor.callbacks thread = .idle
  fresh : s.reactor.reactor = .storeRunning → s.reactor.contexts = []

/-- What a step does to the queue, and beside it. -/
inductive Effect (config : Config κ) (s next : State κ threads) : Prop
  | quiet {sessions : Bytes → Option TimePoint} {callbacks : Nat → CallbackPc}
      (reactor : next.reactor =
        { s.reactor with session_last_seen := sessions, callbacks := callbacks })
      (items : next.items = s.items) (refusals : next.refusals = s.refusals)
      (owed : next.owed = s.owed)
  | refuse {call : Pushing} (subscribed : Subscribed s.reactor.contexts call)
      (full : s.items.length = queueLimit)
      (reactor : next.reactor = s.reactor.record [
        .received call.ctx.priority call.sample.payload,
        .offered call.ctx.priority call.sample false])
      (items : next.items = s.items) (refusals : next.refusals = s.refusals + 1)
      (owed : next.owed = s.owed)
  | accept {thread : Nat} {call : Pushing} (subscribed : Subscribed s.reactor.contexts call)
      (room : s.items.length < queueLimit) (idle : s.owed thread = .idle)
      (reactor : next.reactor = s.reactor.record [
        .received call.ctx.priority call.sample.payload,
        .offered call.ctx.priority call.sample true])
      (items : next.items = s.items ++ [call.sample]) (refusals : next.refusals = s.refusals)
      (owed : next.owed = Function.update s.owed thread (owes .unlock (some call) .idle))
  | pop {critical normal : U64} {sample : CriticalSample}
      (here : s.reactor.reactor = .pop critical normal)
      (reactor : next.reactor =
        { s.reactor with reactor := .dispatch critical normal sample }.record [.popped sample])
      (items : s.items = sample :: next.items) (refusals : next.refusals = s.refusals)
      (owed : next.owed = s.owed)
  | emptied {critical normal : U64} (here : s.reactor.reactor = .pop critical normal)
      (reactor : next.reactor =
        { s.reactor with reactor := .addCriticalProcessed critical normal }.record [.emptied])
      (empty : s.items = []) (items : next.items = s.items)
      (refusals : next.refusals = s.refusals) (owed : next.owed = s.owed)
  | aside {thread : Nat} {ctx : CallbackContext} {frame : Frame} {now : TimePoint}
      (known : ctx ∈ s.reactor.contexts) (origin : frame.registration = ctx.registration)
      (cached : ctx.priority = .background)
      (outcome : Callback config s.reactor thread ctx frame now next.reactor)
      (ring : next.ring = s.ring) (pushing : next.pushing = s.pushing)
  | beside {action : Reactor.Action}
      (unreceived : ∀ thread context serial key payload now,
        action ≠ .receive thread context serial key payload now)
      (unreset : ∀ order, action ≠ .reset order)
      (apart : ∀ answers critical normal, action = .reactor answers →
        s.reactor.reactor ≠ .pop critical normal)
      (moved : Reactor.step config s.reads action = some next.reactor)
      (ring : next.ring = s.ring) (pushing : next.pushing = s.pushing)

variable {config : Config κ} {s next : State κ threads}

/-- The capacity 512 is a power of two. -/
theorem capacity_power : RingIndex.PowerOfTwo capacity :=
  ⟨9, by decide, rfl⟩

/-- The ring holds what its history leaves in it. -/
theorem Linked.described (linked : Linked s) : ∃ holder front items,
    MpscQueue.Describes .cpp capacity s.ring holder front items :=
  MpscQueue.reachable_described capacity_power linked.reached

/-- An access that is no operation leaves the samples and the refusals as they are. -/
theorem items_quiet (linked : Linked s) (later : Linked next)
    {events : List (MpscQueue.Event threads CriticalSample)}
    (history : next.ring.history = s.ring.history ++ events)
    (quiet : MpscQueue.operations events = []) :
    next.items = s.items ∧ next.refusals = s.refusals := by
  have whole : MpscQueue.operations next.ring.history = MpscQueue.operations s.ring.history := by
    rw [history, MpscQueue.operations, List.filterMap_append]
    exact (congrArg _ quiet).trans (List.append_nil _)
  refine ⟨MpscQueue.contents_quiet capacity_power linked.reached linked.alive later.reached
    later.alive whole, ?_⟩
  rw [State.refusals, MpscQueue.fulls_operations, whole, State.refusals,
    MpscQueue.fulls_operations]

/-- Any other is that operation of a bounded buffer. -/
theorem items_step (linked : Linked s) (later : Linked next)
    {events : List (MpscQueue.Event threads CriticalSample)}
    {operation : BoundedFifo.Event CriticalSample}
    (history : next.ring.history = s.ring.history ++ events)
    (one : MpscQueue.operations events = [operation]) :
    BoundedFifo.Step queueLimit s.items operation next.items ∧
      next.refusals = s.refusals + if operation matches .reject then 1 else 0 := by
  have whole : MpscQueue.operations next.ring.history =
      MpscQueue.operations s.ring.history ++ [operation] := by
    rw [history, MpscQueue.operations, List.filterMap_append]
    exact congrArg _ one
  refine ⟨MpscQueue.contents_step capacity_power linked.reached linked.alive later.reached
    later.alive whole, ?_⟩
  rw [State.refusals, MpscQueue.fulls_operations, whole, List.countP_append, State.refusals,
    MpscQueue.fulls_operations, BitVec.ofNat_add]
  cases operation <;> rfl

/-- Without a push under way a callback owes its own part. -/
theorem owes_none (pc : MpscQueue.PushPc CriticalSample) (own : CallbackPc) :
    owes pc none own = own := by
  cases pc <;> rfl

/-- What the thread of a producer owes. -/
theorem owed_thread (s : State κ threads) (thread : Fin threads) :
    s.owed thread =
      owes (s.ring.producers thread) (s.pushing thread) (s.reactor.callbacks thread) :=
  dif_pos thread.isLt

/-- What one thread does changes what this thread owes. -/
theorem owed_update {thread : Fin threads} {pc : MpscQueue.PushPc CriticalSample}
    {call : Option Pushing} {own : CallbackPc}
    (producers : next.ring.producers = Function.update s.ring.producers thread pc)
    (pushing : next.pushing = Function.update s.pushing thread call)
    (callbacks : next.reactor.callbacks = Function.update s.reactor.callbacks thread own) :
    next.owed = Function.update s.owed thread (owes pc call own) := by
  funext i
  by_cases same : i = thread
  · subst same
    rw [owed_thread, producers, pushing, callbacks, Function.update_self, Function.update_self,
      Function.update_self, Function.update_self]
  · rw [Function.update_of_ne same, State.owed, State.owed, callbacks,
      Function.update_of_ne same]
    split
    next inside =>
      have other : (⟨i, inside⟩ : Fin threads) ≠ thread :=
        fun found => same (congrArg Fin.val found)
      rw [producers, pushing, Function.update_of_ne other, Function.update_of_ne other]
    next => rfl

/-- A step of one producer, and of its callback. -/
theorem Linked.producer (linked : Linked s) {thread : Fin threads}
    {pc : MpscQueue.PushPc CriticalSample} {call : Option Pushing} {own : CallbackPc}
    (reached : (MpscQueue.machine .cpp capacity threads CriticalSample).Reachable next.ring)
    (dropping : next.ring.dropping = s.ring.dropping)
    (consumer : next.ring.consumer = s.ring.consumer)
    (producers : next.ring.producers = Function.update s.ring.producers thread pc)
    (pushing : next.pushing = Function.update s.pushing thread call)
    (callbacks : next.reactor.callbacks = Function.update s.reactor.callbacks thread own)
    (carries : Carries pc call)
    (calling : ∀ found, call = some found →
      Subscribed s.reactor.contexts found ∧ own = .idle)
    (contexts : next.reactor.contexts = s.reactor.contexts)
    (reactor : next.reactor.reactor = s.reactor.reactor) : Linked next where
  reached := reached
  alive := dropping.trans linked.alive
  popping := by
    rw [consumer, reactor]
    exact linked.popping
  carries := by
    intro other
    rw [producers, pushing]
    by_cases same : other = thread
    · subst same
      rw [Function.update_self, Function.update_self]
      exact carries
    · rw [Function.update_of_ne same, Function.update_of_ne same]
      exact linked.carries other
  subscribed := by
    intro other found
    rw [pushing, contexts, callbacks]
    by_cases same : other = thread
    · subst same
      rw [Function.update_self, Function.update_self]
      exact calling found
    · rw [Function.update_of_ne same,
        Function.update_of_ne fun equal => same (Fin.eq_of_val_eq equal)]
      exact linked.subscribed other found
  fresh := by
    rw [contexts, reactor]
    exact linked.fresh

/-- A step of the consumer, with the reactor inside the loop over the queue. -/
theorem Linked.consumer (linked : Linked s)
    (reached : (MpscQueue.machine .cpp capacity threads CriticalSample).Reachable next.ring)
    (dropping : next.ring.dropping = s.ring.dropping)
    (producers : next.ring.producers = s.ring.producers) (pushing : next.pushing = s.pushing)
    (contexts : next.reactor.contexts = s.reactor.contexts)
    (callbacks : next.reactor.callbacks = s.reactor.callbacks)
    (popping : next.ring.consumer ≠ .idle →
      ∃ critical normal, next.reactor.reactor = .pop critical normal)
    (begun : next.reactor.reactor ≠ .storeRunning) : Linked next where
  reached := reached
  alive := dropping.trans linked.alive
  popping := popping
  carries := by
    rw [producers, pushing]
    exact linked.carries
  subscribed := by
    rw [pushing, contexts, callbacks]
    exact linked.subscribed
  fresh := fun here => absurd here begun

/-- A step that leaves the ring alone. -/
theorem Linked.beside (linked : Linked s) {reactor : Reactor.State κ}
    (popping : s.ring.consumer ≠ .idle → ∃ critical normal, reactor.reactor = .pop critical normal)
    (contexts : s.reactor.contexts ⊆ reactor.contexts)
    (callbacks : ∀ thread, s.reactor.callbacks thread = .idle → reactor.callbacks thread = .idle)
    (fresh : reactor.reactor = .storeRunning → reactor.contexts = []) :
    Linked { s with reactor } where
  reached := linked.reached
  alive := linked.alive
  popping := popping
  carries := linked.carries
  subscribed := by
    intro thread call called
    obtain ⟨⟨known, hash, origin, queued⟩, idle⟩ := linked.subscribed thread call called
    exact ⟨⟨contexts known, hash, origin, queued⟩, callbacks thread idle⟩
  fresh := fresh

/-- Where only the reactor's side has moved, no push owes anything else. -/
theorem owed_same (producers : next.ring.producers = s.ring.producers)
    (pushing : next.pushing = s.pushing)
    (callbacks : next.reactor.callbacks = s.reactor.callbacks) : next.owed = s.owed := by
  funext i
  rw [State.owed, State.owed, producers, pushing, callbacks]

/-- The return of a push gives the thread back to its callback. -/
theorem returned_eq (s : State κ threads) (thread : Fin threads) (call : Pushing)
    (pushed : Bool) : s.returned thread call pushed = { s with
      pushing := Function.update s.pushing thread none
      reactor := { s.reactor with
        callbacks := Function.update s.reactor.callbacks thread
          (if pushed = true ∧ call.ctx.priority = .critical then .write call.sample.payload
            else s.reactor.callbacks thread) } } := by
  unfold State.returned
  dsimp only
  split
  · rfl
  · rw [Function.update_eq_self]

/-- A step of a push is one of the reactor over the list, or none. -/
theorem push_effect (linked : Linked s) {thread : Fin threads}
    (stepped : push s thread = some next) : Linked next ∧ Effect config s next := by
  unfold push at stepped
  cases called : s.pushing thread with
  | none => simp [called] at stepped
  | some call =>
    rw [called] at stepped
    obtain ⟨ring, moved, rfl⟩ := Option.map_eq_some_iff.mp stepped
    obtain ⟨pc, events, move, producers, consumer, dropping, history⟩ :=
      MpscQueue.pushStep_move moved
    have reached : (MpscQueue.machine .cpp capacity threads CriticalSample).Reachable ring :=
      linked.reached.after (.producer thread) moved
    obtain ⟨subscribed, idle⟩ := linked.subscribed thread call called
    have carried := linked.carries thread
    have owing := owed_thread s thread
    have own : s.pushing = Function.update s.pushing thread (some call) := by
      rw [← called, Function.update_eq_self]
    have resting : s.reactor.callbacks = Function.update s.reactor.callbacks thread .idle := by
      rw [← idle, Function.update_eq_self]
    have here : ring.producers thread = pc := by rw [producers, Function.update_self]
    have calling : ∀ found, some call = some found →
        Subscribed s.reactor.contexts found ∧ CallbackPc.idle = .idle :=
      fun _ same => ⟨Option.some.inj same ▸ subscribed, rfl⟩
    have moves : ∀ {after : State κ threads}, after.ring = ring → after.pushing = s.pushing →
        after.reactor.callbacks = s.reactor.callbacks →
          after.owed = Function.update s.owed thread (owes pc (some call) .idle) := by
      intro after same pushing callbacks
      exact owed_update (same ▸ producers) (pushing.trans own) (callbacks.trans resting)
    rw [called] at carried owing
    rw [idle] at owing
    rw [here]
    generalize s.ring.producers thread = before at move carried owing ⊢
    cases move with
    | spin | lock | loadTail | room | countDrop | construct =>
      have later : Linked { s with ring } := linked.producer reached dropping consumer producers
        own resting carried calling rfl rfl
      obtain ⟨items, refusals⟩ := items_quiet linked later history rfl
      exact ⟨later, .quiet rfl items refusals
        (Eq.trans (moves rfl rfl rfl) (Function.update_eq_self_iff.mpr owing.symm))⟩
    | unlockFull | unlock =>
      dsimp only
      rw [returned_eq]
      have later : ∀ own, Linked { s with
          ring := ring
          pushing := Function.update s.pushing thread none
          reactor := { s.reactor with
            callbacks := Function.update s.reactor.callbacks thread own } } :=
        fun _ => linked.producer reached dropping consumer producers rfl rfl trivial nofun rfl rfl
      obtain ⟨items, refusals⟩ := items_quiet linked (later .idle) history rfl
      refine ⟨later _, .quiet rfl items refusals ?_⟩
      refine Eq.trans (owed_update producers rfl rfl) (Function.update_eq_self_iff.mpr ?_)
      rw [owing]
      simp [owes, idle]
    | refuse =>
      have later : Linked (State.record { s with ring } [
          .received call.ctx.priority call.sample.payload,
          .offered call.ctx.priority call.sample false]) :=
        linked.producer reached dropping consumer producers own resting trivial calling rfl rfl
      obtain ⟨operation, counted⟩ := items_step linked later history rfl
      obtain ⟨full, same⟩ := operation.rejected
      exact ⟨later, .refuse subscribed full rfl same counted
        (Eq.trans (moves rfl rfl rfl) (Function.update_eq_self_iff.mpr owing.symm))⟩
    | accept =>
      have later : Linked (State.record { s with ring } [
          .received call.ctx.priority call.sample.payload,
          .offered call.ctx.priority call.sample true]) :=
        linked.producer reached dropping consumer producers own resting trivial calling rfl rfl
      obtain ⟨operation, counted⟩ := items_step linked later history rfl
      obtain ⟨room, grown⟩ := operation.accepted
      obtain rfl : _ = call.sample := carried
      exact ⟨later, .accept subscribed room owing rfl grown
        (counted.trans (BitVec.add_zero _)) (moves rfl rfl rfl)⟩

/-- A step of a pop is one of the reactor over the list, or none. -/
theorem pop_effect (linked : Linked s) (stepped : pop s = some next) :
    Linked next ∧ Effect config s next := by
  obtain ⟨holder, front, items, described⟩ := linked.described
  unfold pop at stepped
  split at stepped
  next critical normal here idle =>
    obtain ⟨ring, moved, rfl⟩ := Option.map_eq_some_iff.mp stepped
    have reached : (MpscQueue.machine .cpp capacity threads CriticalSample).Reachable ring :=
      linked.reached.after .pop moved
    obtain rfl := MpscQueue.pop_begins moved
    have later : Linked { s with ring := { s.ring with consumer := .loadTail s.ring.head } } :=
      linked.consumer reached rfl rfl rfl rfl rfl (fun _ => ⟨critical, normal, here⟩)
        (by simp [here])
    obtain ⟨items, refusals⟩ := items_quiet linked later (List.append_nil _).symm rfl
    exact ⟨later, .quiet rfl items refusals (owed_same rfl rfl rfl)⟩
  next pc critical normal here busy =>
    obtain ⟨ring, moved, rfl⟩ := Option.map_eq_some_iff.mp stepped
    have reached : (MpscQueue.machine .cpp capacity threads CriticalSample).Reachable ring :=
      linked.reached.after .consumer moved
    obtain ⟨after, events, move, consumer, producers, dropping, history⟩ :=
      MpscQueue.popStep_move described linked.alive moved
    rw [consumer]
    generalize s.ring.consumer = before at move busy ⊢
    cases move with
    | found | moveOut | destroy =>
      have later : Linked { s with ring } := linked.consumer reached dropping producers rfl rfl rfl
        (fun _ => ⟨critical, normal, here⟩) (by simp [here])
      obtain ⟨items, refusals⟩ := items_quiet linked later history rfl
      exact ⟨later, .quiet rfl items refusals (owed_same producers rfl rfl)⟩
    | miss =>
      have later : Linked (State.record { s with
          ring
          reactor := { s.reactor with reactor := .addCriticalProcessed critical normal } }
          [.emptied]) :=
        linked.consumer reached dropping producers rfl rfl rfl
          (fun running => absurd consumer running) nofun
      obtain ⟨operation, counted⟩ := items_step linked later history rfl
      obtain ⟨empty, same⟩ := operation.missed
      exact ⟨later, .emptied here rfl empty same (counted.trans (BitVec.add_zero _))
        (owed_same producers rfl rfl)⟩
    | @take _ sample =>
      have later : Linked (State.record { s with
          ring
          reactor := { s.reactor with reactor := .dispatch critical normal sample } }
          [.popped sample]) :=
        linked.consumer reached dropping producers rfl rfl rfl
          (fun running => absurd consumer running) nofun
      obtain ⟨operation, counted⟩ := items_step linked later history rfl
      exact ⟨later, .pop here rfl operation.took (counted.trans (BitVec.add_zero _))
        (owed_same producers rfl rfl)⟩
  next => simp at stepped

/-- A callback up to its push is one of the reactor over the list, or none. -/
theorem receive_effect (linked : Linked s) {thread : Fin threads} {ctx : CallbackContext}
    {frame : Frame} {now : TimePoint} (known : ctx ∈ s.reactor.contexts)
    (origin : frame.registration = ctx.registration)
    (idle : s.reactor.callbacks thread = .idle) (free : s.pushing thread = none)
    (stepped : zenoh_data_callback config s thread ctx frame now = some next) :
    Linked next ∧ Effect config s next := by
  unfold zenoh_data_callback at stepped
  split at stepped
  next aside =>
    obtain rfl := Option.some.inj stepped
    have outcome := callback_cases config s.reactor thread ctx frame now
    by_cases unfit : frame.payload.length = 0 ∨ config.verify frame.payload = false
    · have ignored :
          Reactor.zenoh_data_callback config s.reactor thread ctx frame now = s.reactor := by
        rcases unfit with empty | refused
        · rw [Reactor.zenoh_data_callback, if_pos empty]
        · simp [Reactor.zenoh_data_callback, refused]
      rw [ignored]
      exact ⟨linked, .quiet rfl rfl rfl rfl⟩
    · have cached : ctx.priority = .background := by
        rw [← or_assoc] at aside
        exact aside.resolve_left unfit
      refine ⟨?_, .aside known origin cached outcome rfl rfl⟩
      generalize Reactor.zenoh_data_callback config s.reactor thread ctx frame now = after
        at outcome
      cases outcome with
      | accepted queued | rejected queued => exact absurd cached queued
      | ignored | put | unslotted =>
        exact linked.beside linked.popping (List.Subset.refl _) (fun _ => id) linked.fresh
  next queued =>
    obtain ⟨ring, moved, rfl⟩ := Option.map_eq_some_iff.mp stepped
    have reached : (MpscQueue.machine .cpp capacity threads CriticalSample).Reachable ring :=
      linked.reached.after (.push thread _) moved
    obtain rfl := MpscQueue.push_begins moved
    simp only [not_or] at queued
    have resting : s.reactor.callbacks = Function.update s.reactor.callbacks thread .idle := by
      rw [← idle, Function.update_eq_self]
    have later : Linked { s with
        reactor := { s.reactor with
          session_last_seen := seenSession s.reactor.session_last_seen frame.key now }
        ring := (s.ring.setProducer thread (.lock (sampleOf ctx frame now))).log
          (.called thread (sampleOf ctx frame now))
        pushing := Function.update s.pushing thread
          (some { ctx, sample := sampleOf ctx frame now }) } :=
      linked.producer reached rfl rfl rfl rfl resting rfl
        (fun _ same => ⟨Option.some.inj same ▸ ⟨known, rfl, origin, queued.2.2⟩, rfl⟩) rfl rfl
    obtain ⟨items, refusals⟩ := items_quiet linked later rfl rfl
    refine ⟨later, .quiet rfl items refusals ?_⟩
    refine Eq.trans (owed_update rfl rfl resting) (Function.update_eq_self_iff.mpr ?_)
    rw [owed_thread, free, idle, owes_none]
    rfl

/-- Subscriptions are only added, after the first access of `run()`. -/
theorem access_contexts {before after : Reactor.State κ} {answers : Answers}
    (access : Access config before answers before.reactor after)
    (fresh : before.reactor = .storeRunning → before.contexts = []) :
    before.contexts ⊆ after.contexts ∧ after.callbacks = before.callbacks ∧
      after.reactor ≠ .storeRunning := by
  obtain ⟨running, started, contexts, list, counter, cache, stats, latencies, sessions, wakeup,
    callbacks, stops, resetting, reactor, log⟩ := before
  cases access with
  | storeRunning =>
    have none_yet : contexts = [] := fresh rfl
    exact ⟨none_yet ▸ List.Subset.refl _, rfl, nofun⟩
  | subscribe => exact ⟨List.subset_append_left _ _, rfl, nofun⟩
  | _ => exact ⟨List.Subset.refl _, rfl, nofun⟩

/-- A step away from the ring is the same over the list. -/
theorem other_effect (linked : Linked s) {action : Reactor.Action}
    (stepped : other config s action = some next) : Linked next ∧ Effect config s next := by
  unfold other at stepped
  split at stepped
  case h_4 unreceived unreset popping =>
    obtain ⟨reactor, moved, rfl⟩ := Option.map_eq_some_iff.mp stepped
    refine ⟨?_, .beside unreceived unreset (fun answers critical normal act here =>
      popping answers critical normal act here) moved rfl rfl⟩
    have same := List.Subset.refl s.reactor.contexts
    cases step_transition moved with
    | receive => exact absurd rfl (unreceived _ _ _ _ _ _)
    | reset => exact absurd rfl (unreset _)
    | stop | stopWrite | beginReset =>
      exact linked.beside linked.popping same (fun _ => id) linked.fresh
    | @write thread =>
      refine linked.beside linked.popping same (fun other idle => ?_) linked.fresh
      by_cases own : (other : Nat) = thread
      · exact own ▸ Function.update_self _ _ _
      · exact (Function.update_of_ne own _ _).trans idle
    | resetStep stepped =>
      obtain ⟨stats, latencies, resetting, rfl⟩ := resetStep_frame stepped
      exact linked.beside linked.popping same (fun _ => id) linked.fresh
    | access access =>
      obtain ⟨contexts, callbacks, begun⟩ := access_contexts access linked.fresh
      refine linked.beside (fun running => ?_) contexts (fun thread idle => ?_)
        (fun here => absurd here begun)
      · obtain ⟨critical, normal, here⟩ := linked.popping running
        exact absurd here (popping _ critical normal rfl)
      · exact (congrFun callbacks _).trans idle
  all_goals simp at stepped

/-- Every step has its effect over the list. -/
theorem step_effect {action : Action threads} (linked : Linked s)
    (stepped : step config s action = some next) : Linked next ∧ Effect config s next := by
  cases action with
  | receive thread context serial key payload now =>
    simp only [step] at stepped
    split at stepped
    next ctx idle free known =>
      exact receive_effect linked (List.mem_of_getElem? known) rfl idle free stepped
    next => simp at stepped
  | push thread => exact push_effect linked stepped
  | pop => exact pop_effect linked stepped
  | other action => exact other_effect linked stepped

/-- The empty ring and the fresh reactor are linked. -/
theorem linked_init : Linked (init κ threads) where
  reached := .start
  alive := rfl
  popping := fun running => absurd rfl running
  carries := fun _ => trivial
  subscribed := nofun
  fresh := fun _ => rfl

/-- The ring is empty. -/
theorem items_init : (init κ threads).items = [] := by
  have reached : (MpscQueue.machine .cpp capacity threads CriticalSample).Reachable
      (MpscQueue.init threads CriticalSample) := .start
  exact (MpscQueue.contents_legal capacity_power reached rfl).unique .nil

end FlowKernel.RingReactor
