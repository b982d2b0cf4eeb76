import FlowKernel.Foundation.BoundedFifo
import FlowKernel.Routing
import FlowKernel.Rust.LatestCache

/-!
# The Rust reactor

`DataFlowReactor` of `flowkernel-core/src/reactor.rs`: the calls of
`register_handler`, and then one call of `run()`. `run()` spawns one task for each
handler's subscriber, which moves what it receives into the queue or into a slot, and
then loops over both. The callback of a CRITICAL frame runs in that loop; every other
callback is a closure given to `spawn_blocking`. A thread of the pool takes a closure,
calls its callback, and is done when the callback has returned; these are three steps, and
the pool takes them for any closure in any order.

The push and the pop are operations of a bounded buffer. The cache is the shared cache
with the tasks and the loop as its threads. Whether a key expression parses and whether
a subscriber is declared, what the subscribers receive, when the tasks and the pool go
on, and in which order the slots are walked, are the environment's choice. Counters
wrap, as in a release build.
-/

namespace FlowKernel.Rust.Reactor

open Foundation

universe u
variable {κ : Type u}

/-- A received frame. The reactor reads its payload only; the rest lets a statement name
the frame: the handler whose subscriber received it, and how many frames were received
before it. -/
structure Frame where
  handler : Nat
  serial : Nat
  payload : Bytes
deriving DecidableEq

/-- A queued sample: the index of its handler, and the frame. -/
structure CriticalSample where
  handler_idx : Nat
  payload : Frame
deriving DecidableEq

/-- The arguments of one call of `register_handler`. -/
abbrev HandlerConfig (κ : Type u) := Registration κ

/-- `MPSCQueue<CriticalSample, 512>` holds one item less than its capacity. -/
def queueLimit : Nat := 511

/-- The errors that `run()` returns. -/
inductive ReactorError where
  | ZenohError (message : String)
  | ConfigError (message : String)
deriving DecidableEq

/-- The counters of the three channels. Nothing in the reactor writes the last three. -/
structure Counters where
  critical_processed : U64
  normal_processed : U64
  background_processed : U64
  critical_dropped : U64
  normal_dropped : U64
  background_dropped : U64
deriving DecidableEq

/-- One invocation of a callback: the index it was looked up under, and the slot whose
drain handed the frame over, if it was not the queue. -/
structure Call (κ : Type u) where
  handler : Nat
  callback : κ
  frame : Frame
  slot : Option U64

/-- What the registrations leave behind for `run()`. -/
structure DataFlowReactor (κ : Type u) where
  handlers : List (Handler κ)
  background_cache : SharedCache.State Frame

namespace DataFlowReactor

/-- A reactor without handlers. -/
def new : DataFlowReactor κ where
  handlers := []
  background_cache := SharedCache.init Frame

/-- The slot of a BACKGROUND handler is allocated with its registration. -/
def register_handler (reactor : DataFlowReactor κ) (config : HandlerConfig κ) :
    DataFlowReactor κ :=
  let path_hash := fnv1a_hash config.path
  let cache := reactor.background_cache
  { handlers := reactor.handlers ++
      [{ path := config.path, path_hash := path_hash, priority := config.priority,
         callback := config.callback }]
    background_cache :=
      match config.priority with
      | .background =>
          { cache with cache := cache.cache.pre_allocate path_hash }.record (.allocated path_hash)
      | .critical | .normal => cache }

end DataFlowReactor

/-- `handler_index` of `run()`: collected into a map, so a later handler replaces an
earlier one with the same hash. -/
def handler_index (handlers : List (Handler κ)) : U64 → Option Nat :=
  handlers.zipIdx.foldl (fun map (h, i) => Function.update map h.path_hash (some i))
    (fun _ => none)

/-- The registrations, and the parser of key expressions. -/
structure Setup (κ : Type u) where
  configs : List (HandlerConfig κ)
  keyExpr : Bytes → Except String Unit

/-- The reactor that `run()` is called on. -/
def Setup.reactor (setup : Setup κ) : DataFlowReactor κ :=
  setup.configs.foldl DataFlowReactor.register_handler .new

/-- The handlers that `run()` finds. -/
def Setup.handlers (setup : Setup κ) : List (Handler κ) :=
  setup.reactor.handlers

/-- Where the task of a subscriber is: not spawned, in `recv_async`, before its push or
`get_slot`, before `notify_one`, before `put`, with the slot's lock but before the count of
an overwrite, and after it. -/
inductive Work where
  | absent
  | waiting
  | holding (frame : Frame)
  | notifying
  | found (frame : Frame)
  | locked (frame : Frame)
  | writing
deriving DecidableEq

/-- Where `run()` is, with its locals. -/
inductive Main where
  | spawning (idx : Nat)
  | failed (error : ReactorError)
  | pop (critical_count normal_count : U64)
  | dispatch (sample : CriticalSample) (critical_count normal_count : U64)
  | addCritical (critical_count normal_count : U64)
  | addNormal (normal_count : U64)
  | beginDrain
  | drain (background_count : U64)
  | addBackground (background_count : U64)
  | wait

/-- What the statements about runs speak of. No step reads the log. -/
inductive Event (κ : Type u) where
  | received (frame : Frame)
  | offered (sample : CriticalSample) (pushed : Bool)
  | unslotted (frame : Frame)
  | unindexed (frame : Frame)
  | invoked (call : Call κ)
  | completed (call : Call κ)

/-- The blocking pool: the closures that no thread has taken, oldest first, those that a
thread has taken and whose callback it has not called, and those whose callback has not
returned. -/
structure Pool (κ : Type u) where
  tasks : List (Call κ)
  started : List (Call κ)
  running : List (Call κ)

namespace Pool

variable (pool : Pool κ) (task : Nat) (call : Call κ)

/-- A closure is given to the pool. -/
def spawn_blocking : Pool κ :=
  { pool with tasks := pool.tasks ++ [call] }

/-- A thread takes a closure. -/
def start : Pool κ :=
  { pool with tasks := pool.tasks.eraseIdx task, started := pool.started ++ [call] }

/-- The thread calls the callback. -/
def invoke : Pool κ :=
  { pool with started := pool.started.eraseIdx task, running := pool.running ++ [call] }

/-- The callback has returned. -/
def complete : Pool κ :=
  { pool with running := pool.running.eraseIdx task }

end Pool

/-- `wakeup` is the permit of the `Notify`. -/
structure State (κ : Type u) where
  workers : Nat → Work
  main : Main
  critical_queue : List CriticalSample
  queue_dropped : U64
  background_cache : SharedCache.State Frame
  wakeup : Bool
  counters : Counters
  pool : Pool κ
  received : Nat
  log : List (Event κ)

/-- `spawn` is one round of the loop over the handlers, `loop` the next step of the main
loop; `wake` ends its wait by the timeout or by the permit. `start`, `invoke` and `complete`
are the pool's, at a closure of the list it takes it from. -/
inductive Action where
  | spawn (declared : Except String Unit)
  | receive (worker : Nat) (payload : Bytes)
  | work (worker : Nat)
  | loop
  | drain (order : List U64)
  | wake (timeout : Bool)
  | start (task : Nat)
  | invoke (task : Nat)
  | complete (task : Nat)

/-- `run()` about to begin. -/
def init (setup : Setup κ) : State κ where
  workers := fun _ => .absent
  main := .spawning 0
  critical_queue := []
  queue_dropped := 0
  background_cache := setup.reactor.background_cache
  wakeup := false
  counters := ⟨0, 0, 0, 0, 0, 0⟩
  pool := ⟨[], [], []⟩
  received := 0
  log := []

/-- A task goes on. -/
def State.goto (s : State κ) (worker : Nat) (work : Work) : State κ :=
  { s with workers := Function.update s.workers worker work }

/-- One more event. -/
def State.record (s : State κ) (event : Event κ) : State κ :=
  { s with log := s.log ++ [event] }

/-- A step of the cache. -/
def State.cached (s : State κ) (action : SharedCache.Action Frame) : Option (State κ) :=
  (SharedCache.step s.background_cache action).map fun cache =>
    { s with background_cache := cache }

/-- One round of the loop over the handlers, or the entry of the main loop. -/
def spawn (setup : Setup κ) (s : State κ) (declared : Except String Unit) : Option (State κ) :=
  match s.main with
  | .spawning idx =>
      match setup.handlers[idx]? with
      | none => some { s with main := .pop 0 0 }
      | some handler =>
          match setup.keyExpr handler.path with
          | .error message => some { s with main := .failed (.ConfigError message) }
          | .ok _ =>
              match declared with
              | .error message => some { s with main := .failed (.ZenohError message) }
              | .ok _ => some ({ s with main := .spawning (idx + 1) }.goto idx .waiting)
  | _ => none

/-- `recv_async` returns a sample. -/
def receive (s : State κ) (worker : Nat) (payload : Bytes) : Option (State κ) :=
  match s.workers worker with
  | .waiting =>
      let frame := { handler := worker, serial := s.received, payload := payload }
      some (({ s with received := s.received + 1 }.goto worker (.holding frame)).record
        (.received frame))
  | _ => none

/-- `push`, and what the task does with its answer. -/
def offer (s : State κ) (worker : Nat) (frame : Frame) (next : Work) : State κ :=
  let sample := { handler_idx := worker, payload := frame }
  let (pushed, queue) := BoundedFifo.push queueLimit s.critical_queue sample
  ({ s with
      critical_queue := queue
      queue_dropped := if pushed then s.queue_dropped else s.queue_dropped + 1 }.goto worker
        next).record (.offered sample pushed)

/-- The next step of the task of a subscriber. -/
def work (setup : Setup κ) (s : State κ) (worker : Nat) : Option (State κ) :=
  match setup.handlers[worker]? with
  | none => none
  | some handler =>
      match s.workers worker with
      | .absent | .waiting => none
      | .holding frame =>
          match handler.priority with
          | .critical => some (offer s worker frame .notifying)
          | .normal => some (offer s worker frame .waiting)
          | .background =>
              (s.cached (.get_slot worker handler.path_hash)).map fun next =>
                if handler.path_hash ∈ s.background_cache.cache.keys then
                  next.goto worker (.found frame)
                else (next.goto worker .waiting).record (.unslotted frame)
      | .notifying => some ({ s with wakeup := true }.goto worker .waiting)
      | .found frame =>
          (s.cached (.put worker handler.path_hash frame)).map fun next =>
            next.goto worker (.locked frame)
      | .locked _ => (s.cached (.work worker)).map fun next => next.goto worker .writing
      | .writing =>
          match s.background_cache.threads worker with
          | .found _ =>
              (s.cached (.dropRef worker)).map fun next => next.goto worker .waiting
          | _ => s.cached (.work worker)

/-- A sample from the queue: its callback runs here, or is handed to the pool. -/
def dispatch (setup : Setup κ) (s : State κ) (sample : CriticalSample)
    (critical_count normal_count : U64) : Option (State κ) :=
  setup.handlers[sample.handler_idx]?.map fun handler =>
    let call : Call κ :=
      { handler := sample.handler_idx, callback := handler.callback, frame := sample.payload,
        slot := none }
    match handler.priority with
    | .critical => { s with main := .pop (critical_count + 1) normal_count }.record (.invoked call)
    | .normal | .background =>
        { s with
          main := .pop critical_count (normal_count + 1), pool := s.pool.spawn_blocking call }

/-- The closure that `run()` passes to `drain`, called with a frame. -/
def consume (setup : Setup κ) (s : State κ) (background_count hash : U64) (frame : Frame) :
    Option (State κ) :=
  match handler_index setup.handlers hash with
  | none => some (s.record (.unindexed frame))
  | some idx =>
      setup.handlers[idx]?.map fun handler =>
        { s with
          main := .drain (background_count + 1)
          pool := s.pool.spawn_blocking
            { handler := idx, callback := handler.callback, frame := frame, slot := some hash } }

/-- The next step of the main loop. -/
def loop (setup : Setup κ) (s : State κ) : Option (State κ) :=
  match s.main with
  | .spawning _ | .failed _ | .beginDrain | .wait => none
  | .pop critical_count normal_count =>
      match BoundedFifo.pop s.critical_queue with
      | some (sample, queue) =>
          some { s with
            critical_queue := queue, main := .dispatch sample critical_count normal_count }
      | none => some { s with main := .addCritical critical_count normal_count }
  | .dispatch sample critical_count normal_count =>
      dispatch setup s sample critical_count normal_count
  | .addCritical critical_count normal_count =>
      some { s with
        main := .addNormal normal_count
        counters := { s.counters with
          critical_processed := s.counters.critical_processed + critical_count } }
  | .addNormal normal_count =>
      some { s with
        main := .beginDrain
        counters := { s.counters with
          normal_processed := s.counters.normal_processed + normal_count } }
  | .drain background_count =>
      match s.background_cache.drainer with
      | .idle => none
      | .drain [] _ =>
          (s.cached .visit).map fun next => { next with main := .addBackground background_count }
      | .drain (_ :: _) _ =>
          match s.background_cache.yields with
          | none => s.cached .visit
          | some (hash, frame) =>
              (s.cached .visit).bind fun next => consume setup next background_count hash frame
  | .addBackground background_count =>
      some { s with
        main := .wait
        counters := { s.counters with
          background_processed := s.counters.background_processed + background_count } }

/-- A round of the loop over the handlers, a frame, a step of a task or of the loop, or one
of the pool. -/
def step (setup : Setup κ) (s : State κ) : Action → Option (State κ)
  | .spawn declared => spawn setup s declared
  | .receive worker payload => receive s worker payload
  | .work worker => work setup s worker
  | .loop => loop setup s
  | .drain order =>
      match s.main with
      | .beginDrain => (s.cached (.drain order)).map fun next => { next with main := .drain 0 }
      | _ => none
  | .wake timeout =>
      match s.main with
      | .wait =>
          if timeout then some { s with main := .pop 0 0 }
          else if s.wakeup then some { s with main := .pop 0 0, wakeup := false }
          else none
      | _ => none
  | .start task =>
      s.pool.tasks[task]?.map fun call => { s with pool := s.pool.start task call }
  | .invoke task =>
      s.pool.started[task]?.map fun call =>
        { s with pool := s.pool.invoke task call }.record (.invoked call)
  | .complete task =>
      s.pool.running[task]?.map fun call =>
        { s with pool := s.pool.complete task }.record (.completed call)

/-- One `run()` with its tasks and its pool. -/
def machine (setup : Setup κ) : Machine (State κ) Action where
  start := init setup
  step := step setup

end FlowKernel.Rust.Reactor
