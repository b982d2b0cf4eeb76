import FlowKernel.Rust.ReactorSteps

/-!
# How frames move through the Rust reactor

A view of a state says where the frames are: in the hands of the tasks, in the queue,
with the loop, in the slots, or in closures that the pool has been given. Every step
of the reactor moves at most one frame from one place to the next, so the statements
about frames need only the moves below.
-/

namespace FlowKernel.Rust.Reactor

open Foundation

universe u
variable {κ : Type u}

/-- The frame that the task of a subscriber has in hand. From the count on, the frame is
in its slot. -/
def hand : Work → List Frame
  | .holding frame | .found frame | .locked frame => [frame]
  | .absent | .waiting | .notifying | .writing => []

/-- The sample between its pop and its dispatch. -/
def Main.sample : Main → List CriticalSample
  | .dispatch sample _ _ => [sample]
  | _ => []

/-- Where the frames are. `brought` are the frames put into each slot so far, and
`overwritten` those given up for another one, with their successors. -/
structure View (κ : Type u) where
  hands : Nat → List Frame
  queue : List CriticalSample
  loop : List CriticalSample
  slots : U64 → Option Frame
  pool : Pool κ
  brought : U64 → List Frame
  overwritten : List (Frame × Frame)
  received : Nat
  log : List (Event κ)

/-- Where the frames are in a state. -/
def State.view (s : State κ) : View κ where
  hands := hand ∘ s.workers
  queue := s.critical_queue
  loop := s.main.sample
  slots := s.background_cache.pending
  pool := s.pool
  brought := fun key => SharedCache.frames key s.background_cache.log
  overwritten := SharedCache.overwrites s.background_cache.log
  received := s.received
  log := s.log

/-- What a step can do to the frames. -/
inductive Move (setup : Setup κ) : View κ → Action → View κ → Prop
  | still {v : View κ} {action : Action} : Move setup v action v
  | receive {v : View κ} {worker : Nat} {payload : Bytes}
      (declared : ∀ idx ≤ worker, Declares setup idx) (free : v.hands worker = []) :
      Move setup v (.receive worker payload) { v with
        hands := Function.update v.hands worker [⟨worker, v.received, payload⟩]
        received := v.received + 1
        log := v.log ++ [.received ⟨worker, v.received, payload⟩] }
  | offer {v : View κ} {worker : Nat} {frame : Frame} {pushed : Bool}
      (here : v.hands worker = [frame]) :
      Move setup v (.work worker) { v with
        hands := Function.update v.hands worker []
        queue := if pushed then v.queue ++ [⟨worker, frame⟩] else v.queue
        log := v.log ++ [.offered ⟨worker, frame⟩ pushed] }
  | store {v : View κ} {worker : Nat} {frame : Frame} {handler : Handler κ}
      (declared : ∀ idx ≤ worker, Declares setup idx) (here : v.hands worker = [frame])
      (handlers : setup.handlers[worker]? = some handler)
      (background : handler.priority = .background) :
      Move setup v (.work worker) { v with
        hands := Function.update v.hands worker []
        slots := Function.update v.slots handler.path_hash (some frame)
        brought := fun key => v.brought key ++ if handler.path_hash = key then [frame] else []
        overwritten := v.overwritten ++
          ((v.slots handler.path_hash).map fun old => (old, frame)).toList }
  | pop {v : View κ} {action : Action} {sample : CriticalSample} {queue : List CriticalSample}
      (front : v.queue = sample :: queue) (free : v.loop = []) :
      Move setup v action { v with queue := queue, loop := [sample] }
  | invoke {v : View κ} {action : Action} {sample : CriticalSample} {handler : Handler κ}
      (here : v.loop = [sample]) (handlers : setup.handlers[sample.handler_idx]? = some handler)
      (critical : handler.priority = .critical) :
      Move setup v action { v with
        loop := []
        log := v.log ++
          [.invoked ⟨sample.handler_idx, handler.callback, sample.payload, none⟩] }
  | hand {v : View κ} {action : Action} {sample : CriticalSample} {handler : Handler κ}
      (here : v.loop = [sample]) (handlers : setup.handlers[sample.handler_idx]? = some handler)
      (relaxed : handler.priority ≠ .critical) :
      Move setup v action { v with
        loop := []
        pool := v.pool.spawn_blocking
          ⟨sample.handler_idx, handler.callback, sample.payload, none⟩ }
  | take {v : View κ} {action : Action} {key : U64} {frame : Frame} {idx : Nat}
      {handler : Handler κ}
      (parsed : ∀ handler ∈ setup.handlers, setup.keyExpr handler.path = .ok ())
      (held : v.slots key = some frame) (indexed : handler_index setup.handlers key = some idx)
      (handlers : setup.handlers[idx]? = some handler) :
      Move setup v action { v with
        slots := Function.update v.slots key none
        pool := v.pool.spawn_blocking ⟨idx, handler.callback, frame, some key⟩ }
  | start {v : View κ} {task : Nat} {call : Call κ} (queued : v.pool.tasks[task]? = some call) :
      Move setup v (.start task) { v with pool := v.pool.start task call }
  | run {v : View κ} {task : Nat} {call : Call κ} (taken : v.pool.started[task]? = some call) :
      Move setup v (.invoke task) { v with
        pool := v.pool.invoke task call, log := v.log ++ [.invoked call] }
  | complete {v : View κ} {task : Nat} {call : Call κ}
      (busy : v.pool.running[task]? = some call) :
      Move setup v (.complete task) { v with
        pool := v.pool.complete task, log := v.log ++ [.completed call] }

variable {setup : Setup κ} {s next : State κ} {action : Action}

/-- A step that moves no frame. -/
theorem view_eq (hands : hand ∘ next.workers = hand ∘ s.workers)
    (queue : next.critical_queue = s.critical_queue) (sample : next.main.sample = s.main.sample)
    (quiet : SharedCache.Quiet s.background_cache next.background_cache)
    (pool : next.pool = s.pool) (received : next.received = s.received)
    (log : next.log = s.log) : next.view = s.view := by
  have slots : next.background_cache.pending = s.background_cache.pending := funext quiet.pending
  have brought : (fun key => SharedCache.frames key next.background_cache.log) =
      fun key => SharedCache.frames key s.background_cache.log := funext quiet.frames
  simp only [State.view, hands, queue, sample, slots, pool, brought, quiet.overwrites, received,
    log]

/-- A task that goes on changes its own hand only. -/
theorem hands_goto (worker : Nat) (work : Work) :
    hand ∘ (s.goto worker work).workers =
      Function.update (hand ∘ s.workers) worker (hand work) :=
  Function.comp_update ..

/-- A task that goes on with what it has in hand. -/
theorem hands_kept {worker : Nat} {work : Work} (same : hand (s.workers worker) = hand work) :
    hand ∘ (s.goto worker work).workers = hand ∘ s.workers := by
  rw [hands_goto, ← same]
  exact Function.update_eq_self worker _

/-- A cache that does not move is quiet. -/
theorem quiet_refl (cache : SharedCache.State Frame) : SharedCache.Quiet cache cache :=
  ⟨rfl, fun _ => rfl, fun _ => rfl, rfl⟩

/-- Whatever a drain yields has a handler: the slots are those of the BACKGROUND handlers. -/
theorem Linked.indexed (linked : Linked setup s) {hash : U64} {frame : Frame}
    {cache : SharedCache.State Frame} (yields : s.background_cache.yields = some (hash, frame))
    (cached : SharedCache.step s.background_cache .visit = some cache) :
    handler_index setup.handlers hash ≠ none := by
  have sound := SharedCache.reachable_sound linked.reached
  have present := (SharedCache.taken_step sound yields cached).present
  rw [linked.keys] at present
  obtain ⟨handler, member, -, rfl⟩ := ((registered_reactor setup).keys hash).mp present
  exact Option.isSome_iff_ne_none.mp (handler_index_isSome member)

/-- The map has a slot for every BACKGROUND handler. -/
theorem Linked.slotted (linked : Linked setup s) {idx : Nat} {handler : Handler κ}
    (handlers : setup.handlers[idx]? = some handler) (background : handler.priority = .background) :
    handler.path_hash ∈ s.background_cache.cache.keys := by
  rw [linked.keys]
  exact ((registered_reactor setup).keys handler.path_hash).mpr
    ⟨handler, List.mem_of_getElem? handlers, background, rfl⟩

/-- Every step of the reactor is a move. -/
theorem step_move (linked : Linked setup s) (moved : Transition setup s action next) :
    Move setup s.view action next.view := by
  have sound := SharedCache.reachable_sound linked.reached
  have still : next.view = s.view → Move setup s.view action next.view := by
    intro same
    rw [same]
    exact .still
  cases moved with
  | enter here ended =>
    exact still (view_eq rfl rfl (by rw [here]; rfl) (quiet_refl _) rfl rfl rfl)
  | fail here => exact still (view_eq rfl rfl (by rw [here]; rfl) (quiet_refl _) rfl rfl rfl)
  | @spawn declared idx handler here handlers parsed =>
    have absent : s.workers idx = .absent := (linked.starting idx here).2 idx (Nat.le_refl idx)
    refine still (view_eq ?_ rfl (by rw [here]; rfl) (quiet_refl _) rfl rfl rfl)
    exact hands_kept (by simp [absent, hand])
  | @receive worker payload here =>
    have moved := @Move.receive _ setup s.view worker payload
      (linked.declared worker (by simp [here])) (by simp [State.view, here, hand])
    simpa only [State.view, State.record, State.goto, Function.comp_update, hand] using moved
  | @offer worker frame work here free =>
    have left : hand work = [] := by rcases free with rfl | rfl <;> rfl
    have moved := @Move.offer _ setup s.view worker frame
      (BoundedFifo.push queueLimit s.critical_queue ⟨worker, frame⟩).1
        (by simp [State.view, here, hand])
    have pushed : (BoundedFifo.push queueLimit s.critical_queue ⟨worker, frame⟩).2 =
        if (BoundedFifo.push queueLimit s.critical_queue ⟨worker, frame⟩).1 then
          s.critical_queue ++ [⟨worker, frame⟩] else s.critical_queue := by
      unfold BoundedFifo.push
      split <;> rfl
    simpa only [State.view, offer, State.record, State.goto, Function.comp_update, left, pushed]
      using moved
  | @find worker frame handler cache here handlers background present cached =>
    refine still (view_eq ?_ rfl rfl ?_ rfl rfl rfl)
    · exact hands_kept (by simp [here, hand])
    · exact SharedCache.quiet_step sound cached (by simp [SharedCache.Stirs])
  | missing handlers background absent => exact absurd (linked.slotted handlers background) absent
  | @notify worker here =>
    refine still (view_eq ?_ rfl rfl (quiet_refl _) rfl rfl rfl)
    exact hands_kept (by simp [here, hand])
  | @lock worker frame handler cache here handlers cached =>
    refine still (view_eq ?_ rfl rfl ?_ rfl rfl rfl)
    · exact hands_kept (by simp [here, hand])
    · exact SharedCache.quiet_step sound cached (by simp [SharedCache.Stirs])
  | @count worker frame handler cache here handlers cached =>
    obtain ⟨found, there, background, pc⟩ := linked.at_work here
    obtain ⟨pending, frames, overwrites⟩ := (SharedCache.stored_step sound cached pc).1
    have moved := @Move.store _ setup s.view worker frame found
      (linked.declared worker (by simp [here])) (by simp [State.view, here, hand]) there background
    simpa only [State.view, State.goto, Function.comp_update, hand, pending, frames, overwrites]
      using moved
  | @write worker cache here cached =>
    obtain ⟨handler, there, background, pc⟩ := linked.at_work here
    refine still (view_eq rfl rfl rfl (SharedCache.quiet_step sound cached ?_) rfl rfl rfl)
    rintro ⟨key, hash, frame, locked⟩
    rw [locked] at pc
    simp at pc
  | @dropRef worker cache here cached =>
    refine still (view_eq ?_ rfl rfl ?_ rfl rfl rfl)
    · exact hands_kept (by simp [here, hand])
    · exact SharedCache.quiet_step sound cached (by simp [SharedCache.Stirs])
  | @pop critical_count normal_count sample queue here front =>
    exact @Move.pop _ setup s.view _ sample queue front (by simp [State.view, here, Main.sample])
  | @invoke critical_count normal_count sample handler here handlers critical =>
    exact @Move.invoke _ setup s.view _ sample handler (by simp [State.view, here, Main.sample])
      handlers critical
  | @hand critical_count normal_count sample handler here handlers relaxed =>
    exact @Move.hand _ setup s.view _ sample handler (by simp [State.view, here, Main.sample])
      handlers relaxed
  | turn onward =>
    refine still (view_eq rfl rfl ?_ (quiet_refl _) rfl rfl rfl)
    rcases onward with ⟨_, _, here, _, rfl, _⟩ | ⟨_, _, here, rfl, _⟩ | ⟨_, here, rfl, _⟩ |
      ⟨_, here, rfl, _⟩
    all_goals simp [here, Main.sample]
  | beginDrain here cached =>
    refine still (view_eq rfl rfl (by rw [here]; rfl) ?_ rfl rfl rfl)
    exact SharedCache.quiet_step sound cached (by simp [SharedCache.Stirs])
  | finish here ended cached =>
    refine still (view_eq rfl rfl (by rw [here]; rfl) ?_ rfl rfl rfl)
    exact SharedCache.quiet_step sound cached
      (by simp [SharedCache.Stirs, SharedCache.State.yields, ended])
  | skim here nothing cached =>
    refine still (view_eq rfl rfl rfl ?_ rfl rfl rfl)
    exact SharedCache.quiet_step sound cached (by simp [SharedCache.Stirs, nothing])
  | @consume background_count hash frame idx handler cache here yields cached indexed handlers =>
    obtain ⟨-, held, pending, frames, overwrites⟩ := SharedCache.taken_step sound yields cached
    have moved := @Move.take _ setup s.view .loop hash frame idx handler
      (linked.looping (by rw [here]; rfl)) held indexed handlers
    simpa only [State.view, here, Main.sample, pending, frames, overwrites] using moved
  | unindexed here yields cached absent => exact absurd absent (linked.indexed yields cached)
  | wake here => exact still (view_eq rfl rfl (by rw [here]; rfl) (quiet_refl _) rfl rfl rfl)
  | start queued => exact Move.start queued
  | run taken => exact Move.run taken
  | complete busy => exact Move.complete busy

/-- What holds of the first view and is kept by every move holds in every run, and a
side condition on the steps is one on the moves. -/
theorem view_invariant {permitted : State κ → Action → Prop} (Inv : View κ → Prop)
    (initially : Inv (init setup).view)
    (preserved : ∀ before action after, permitted before action →
      Move setup before.view action after → Inv before.view → Inv after)
    (reached : (machine setup).ReachableWithin permitted s) : Inv s.view := by
  refine Machine.invariant_within (fun s => Inv s.view) initially ?_ reached
  intro before action after met holds allowed stepped
  have linked := reachable_linked met.reachable
  exact preserved before action _ allowed (step_move linked (step_transition stepped)) holds

end FlowKernel.Rust.Reactor
