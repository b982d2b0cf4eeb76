import FlowKernel.MpscQueue
import FlowKernel.Reactor

/-!
# The reactor over the memory of its queue

The reactor again, with `critical_queue_` as it is in memory: a push of a data callback and a
pop of `handle_events` are as many steps as `MPSCQueue` makes accesses, and everything else
interleaves between them. `dropped_count()` reads the counter of the ring, which a refused
push increments one access after it has found the ring full.

Everything but the queue is as in the model whose queue is a list: the same accesses of
`run()`, of `stop()`, and of `reset_stats()`, which is taken one access at a time here.
-/

namespace FlowKernel.RingReactor

open Foundation Reactor

universe u
variable {κ : Type u} {threads : Nat}

/-- `critical_queue_` is an `MPSCQueue<CriticalSample, 512>`. -/
def capacity : SizeT := 512

/-- A data callback inside `push`: its context, and the sample it has moved in. -/
structure Pushing where
  ctx : CallbackContext
  sample : CriticalSample

/-- The list and the counter in the reactor's own state are not used. -/
structure State (κ : Type u) (threads : Nat) where
  reactor : Reactor.State κ
  ring : MpscQueue.State threads CriticalSample
  pushing : Fin threads → Option Pushing

/-- A step of the reactor that is neither a data callback nor an access of its queue is
`other`. -/
inductive Action (threads : Nat) where
  | receive (thread : Fin threads) (context serial : Nat) (key payload : Bytes) (now : TimePoint)
  | push (thread : Fin threads)
  | pop
  | other (action : Reactor.Action)

/-- The constructed reactor, with an empty ring. -/
def init (κ : Type u) (threads : Nat) : State κ threads where
  reactor := Reactor.init κ
  ring := MpscQueue.init threads CriticalSample
  pushing := fun _ => none

/-- What the reactor's own accesses read: the counter is that of the ring. -/
def State.reads (s : State κ threads) : Reactor.State κ :=
  { s.reactor with dropped := s.ring.dropped }

/-- Some more events. -/
def State.record (s : State κ threads) (events : List (Reactor.Event κ)) : State κ threads :=
  { s with reactor := s.reactor.record events }

/-- `zenoh_data_callback` up to the call of `push`, or to its end where it makes none. -/
def zenoh_data_callback (config : Config κ) (s : State κ threads) (thread : Fin threads)
    (ctx : CallbackContext) (frame : Frame) (now : TimePoint) : Option (State κ threads) :=
  if frame.payload.length = 0 ∨ config.verify frame.payload = false ∨
      ctx.priority = .background then
    some { s with reactor := Reactor.zenoh_data_callback config s.reactor thread ctx frame now }
  else
    let sample := sampleOf ctx frame now
    (MpscQueue.step .cpp capacity s.ring (.push thread sample)).map fun ring =>
      { reactor :=
          { s.reactor with
            session_last_seen := seenSession s.reactor.session_last_seen frame.key now }
        ring
        pushing := Function.update s.pushing thread (some { ctx, sample }) }

/-- The rest of `zenoh_data_callback` once `push` has returned. -/
def State.returned (s : State κ threads) (thread : Fin threads) (call : Pushing) (pushed : Bool) :
    State κ threads :=
  let s := { s with pushing := Function.update s.pushing thread none }
  if pushed = true ∧ call.ctx.priority = .critical then
    { s with reactor := s.reactor.setCallback thread (.write call.sample.payload) }
  else s

/-- One access of `push`. The load of `head_` that finds the ring full refuses the sample,
and the store of `tail_` accepts it. -/
def push (s : State κ threads) (thread : Fin threads) : Option (State κ threads) :=
  match s.pushing thread with
  | none => none
  | some call =>
      (MpscQueue.pushStep capacity s.ring thread).map fun ring =>
        match s.ring.producers thread, ring.producers thread with
        | .loadHead _ _, .countDrop =>
            { s with ring }.record [.received call.ctx.priority call.sample.payload,
              .offered call.ctx.priority call.sample false]
        | .storeTail _ _, _ =>
            { s with ring }.record [.received call.ctx.priority call.sample.payload,
              .offered call.ctx.priority call.sample true]
        | .unlockFull, _ => { s with ring }.returned thread call false
        | .unlock, _ => { s with ring }.returned thread call true
        | _, _ => { s with ring }

/-- One access of the `pop` in the loop of `handle_events`, and where the loop goes on. -/
def pop (s : State κ threads) : Option (State κ threads) :=
  match s.reactor.reactor, s.ring.consumer with
  | .pop _ _, .idle =>
      (MpscQueue.step .cpp capacity s.ring .pop).map fun ring => { s with ring }
  | .pop critical normal, pc =>
      (MpscQueue.popStep .cpp capacity s.ring).map fun ring =>
        match pc, ring.consumer with
        | .loadTail _, .idle =>
            State.record { s with
              ring
              reactor := { s.reactor with reactor := .addCriticalProcessed critical normal } }
              [.emptied]
        | .storeHead _ sample, _ =>
            State.record { s with
              ring
              reactor := { s.reactor with reactor := .dispatch critical normal sample } }
              [.popped sample]
        | _, _ => { s with ring }
  | _, _ => none

/-- A step without an access of the queue. -/
def other (config : Config κ) (s : State κ threads) (action : Reactor.Action) :
    Option (State κ threads) :=
  match action, s.reactor.reactor with
  | .receive .., _ | .reset _, _ | .reactor _, .pop _ _ => none
  | action, _ => (Reactor.step config s.reads action).map fun reactor => { s with reactor }

/-- A thread begins a callback when it has ended the one before. -/
def step (config : Config κ) (s : State κ threads) :
    Action threads → Option (State κ threads)
  | .receive thread context serial key payload now =>
      match s.reactor.callbacks thread, s.pushing thread, s.reactor.contexts[context]? with
      | .idle, none, some ctx =>
          zenoh_data_callback config s thread ctx
            { registration := ctx.registration, serial, key, payload } now
      | _, _, _ => none
  | .push thread => push s thread
  | .pop => pop s
  | .other action => other config s action

/-- The reactor with its ring, one access at a time. -/
def machine (config : Config κ) (threads : Nat) : Machine (State κ threads) (Action threads) where
  start := init κ threads
  step := step config

end FlowKernel.RingReactor
