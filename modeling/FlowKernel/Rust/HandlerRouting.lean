import FlowKernel.Rust.FrameMoves

/-!
# Every frame reaches the callback of its own handler

A frame from the queue carries the index of its handler. A frame from a slot carries
nothing: the loop looks its callback up under the hash of the slot. So the frames of a
BACKGROUND handler reach its callback exactly if no other BACKGROUND handler writes into
the same slot, and the last handler with the same hash has the same callback.
-/

namespace FlowKernel.Rust.Reactor

open Foundation

universe u
variable {κ : Type u}

section Histories

/-- The frames that the subscribers received. -/
def receivedFrames (log : List (Event κ)) : List Frame :=
  log.filterMap fun
    | .received frame => some frame
    | _ => none

/-- Frames whose push found the queue full. -/
def rejectedFrames (log : List (Event κ)) : List Frame :=
  log.filterMap fun
    | .offered sample false => some sample.payload
    | _ => none

/-- The calls of callbacks, in order. -/
def calls (log : List (Event κ)) : List (Call κ) :=
  log.filterMap fun
    | .invoked call => some call
    | _ => none

variable (log : List (Event κ)) (event : Event κ)

/-- The frames received end in that of the last event. -/
@[simp] theorem receivedFrames_snoc :
    receivedFrames (log ++ [event]) = receivedFrames log ++ receivedFrames [event] :=
  List.filterMap_append

/-- The frames rejected end in that of the last event. -/
@[simp] theorem rejectedFrames_snoc :
    rejectedFrames (log ++ [event]) = rejectedFrames log ++ rejectedFrames [event] :=
  List.filterMap_append

/-- The calls end in that of the last event. -/
@[simp] theorem calls_snoc : calls (log ++ [event]) = calls log ++ calls [event] :=
  List.filterMap_append

end Histories

/-- The closures whose callback has not been called: those that a thread has taken, and
those that wait for one. -/
def Pool.pending (pool : Pool κ) : List (Call κ) :=
  pool.started ++ pool.tasks

section Pools

variable {pool : Pool κ} {task : Nat} {call : Call κ}

/-- A closure given to the pool is pending behind the others. -/
@[simp] theorem Pool.pending_spawn :
    (pool.spawn_blocking call).pending = pool.pending ++ [call] :=
  (List.append_assoc ..).symm

/-- A closure that a thread has taken is still pending. -/
theorem Pool.pending_start (queued : pool.tasks[task]? = some call) :
    (pool.start task call).pending.Perm pool.pending := by
  obtain ⟨bound, rfl⟩ := List.getElem?_eq_some_iff.mp queued
  have taken := (List.getElem_cons_eraseIdx_perm bound).append_left pool.started
  rw [Pool.pending, Pool.start, List.append_assoc]
  exact taken

/-- The call of its callback ends that. -/
theorem Pool.pending_invoke (taken : pool.started[task]? = some call) :
    pool.pending.Perm (call :: (pool.invoke task call).pending) := by
  obtain ⟨bound, rfl⟩ := List.getElem?_eq_some_iff.mp taken
  exact (List.getElem_cons_eraseIdx_perm bound).symm.append_right pool.tasks

/-- A callback that returns was called before. -/
@[simp] theorem Pool.pending_complete : (pool.complete task).pending = pool.pending :=
  rfl

end Pools

/-- The frames on their way to a callback. -/
def View.pending (setup : Setup κ) (v : View κ) : List Frame :=
  (List.range setup.handlers.length).flatMap v.hands ++ v.queue.map CriticalSample.payload ++
    v.loop.map CriticalSample.payload ++
      setup.reactor.background_cache.cache.keys.flatMap (Option.toList ∘ v.slots) ++
        v.pool.pending.map Call.frame

/-- Each frame received is in one place, and was counted there once: it was rejected,
was overwritten by a later frame of its handler, was passed to its handler's callback,
or is pending. -/
structure Routed (setup : Setup κ) (v : View κ) : Prop where
  distinct : (receivedFrames v.log).Nodup
  places : (receivedFrames v.log).Perm (rejectedFrames v.log ++ v.overwritten.map Prod.fst ++
    (calls v.log).map Call.frame ++ v.pending setup)
  newer : ∀ old new, (old, new) ∈ v.overwritten →
    old.handler = new.handler ∧ old.serial < new.serial
  own : ∀ call ∈ calls v.log, ∃ handler,
    setup.handlers[call.frame.handler]? = some handler ∧ call.callback = handler.callback

/-- No two BACKGROUND handlers whose subscribers can be declared have the same hash, and
if the loop can be entered at all, the last handler with the hash of a BACKGROUND
handler has its callback. -/
structure Unshadowed (setup : Setup κ) : Prop where
  slots : ∀ (left right : Nat) (first second : Handler κ), setup.handlers[left]? = some first →
    setup.handlers[right]? = some second → first.priority = .background →
      second.priority = .background → (∀ idx ≤ left, Declares setup idx) →
        (∀ idx ≤ right, Declares setup idx) → first.path_hash = second.path_hash → left = right
  index : (∀ handler ∈ setup.handlers, setup.keyExpr handler.path = .ok ()) →
    ∀ (idx last : Nat) (handler other : Handler κ), setup.handlers[idx]? = some handler →
      handler.priority = .background → setup.handlers[last]? = some other →
        other.path_hash = handler.path_hash →
          (∀ (later : Nat) (another : Handler κ), last < later →
            setup.handlers[later]? = some another → another.path_hash ≠ handler.path_hash) →
              other.callback = handler.callback

section Counting

variable {ι α : Type} [DecidableEq ι] [DecidableEq α]

/-- Replacing what one place holds changes the total by what it changes there. -/
theorem count_flatMap_update {places : List ι} (distinct : places.Nodup) {place : ι}
    (member : place ∈ places) (held : ι → List α) (new : List α) (item : α) :
    (places.flatMap (Function.update held place new)).count item + (held place).count item =
      (places.flatMap held).count item + new.count item := by
  have split := List.perm_cons_erase member
  have others : (places.erase place).flatMap (Function.update held place new) =
      (places.erase place).flatMap held := by
    refine List.flatMap_congr fun found there => ?_
    have other : found ≠ place := by
      rintro rfl
      exact (distinct.not_mem_erase) there
    rw [Function.update_of_ne other]
  have after := (split.flatMap_right (Function.update held place new)).count_eq item
  have before := (split.flatMap_right held).count_eq item
  rw [List.flatMap_cons, List.count_append, others, Function.update_self] at after
  rw [List.flatMap_cons, List.count_append] at before
  omega

omit [DecidableEq ι] [DecidableEq α] in
/-- Empty hands hold nothing together. -/
theorem flatMap_nothing (places : List ι) : places.flatMap (fun _ => ([] : List α)) = [] :=
  List.flatMap_eq_nil_iff.mpr fun _ _ => rfl

end Counting

/-- The slot of a BACKGROUND handler whose subscriber can be declared. -/
def Owns (setup : Setup κ) (key : U64) (idx : Nat) : Prop :=
  ∃ handler, setup.handlers[idx]? = some handler ∧ handler.priority = .background ∧
    handler.path_hash = key ∧ ∀ earlier ≤ idx, Declares setup earlier

/-- Where the frames of a handler can be, and in which order they got there. -/
structure Located (setup : Setup κ) (v : View κ) : Prop where
  hands : ∀ worker, ∀ frame ∈ v.hands worker,
    frame.handler = worker ∧ frame.serial < v.received ∧ ∀ idx ≤ worker, Declares setup idx
  queue : ∀ sample ∈ v.queue ++ v.loop, sample.handler_idx = sample.payload.handler
  slots : ∀ key frame, v.slots key = some frame →
    frame.serial < v.received ∧ Owns setup key frame.handler
  older : ∀ key frame, v.slots key = some frame → ∀ later ∈ v.hands frame.handler,
    frame.serial < later.serial
  numbered : (receivedFrames v.log).map Frame.serial = List.range v.received

variable {setup : Setup κ} {v after : View κ} {action : Action}

/-- No two frames received are the same. -/
theorem Located.nodup (located : Located setup v) : (receivedFrames v.log).Nodup := by
  apply List.Nodup.of_map Frame.serial
  rw [located.numbered]
  exact List.nodup_range

/-- A frame in hand after one hand has been emptied was in another one. -/
theorem mem_update_nil {hands : Nat → List Frame} {worker found : Nat} {frame : Frame}
    (member : frame ∈ Function.update hands worker [] found) :
    found ≠ worker ∧ frame ∈ hands found := by
  by_cases same : found = worker
  · subst same
    simp at member
  · rw [Function.update_of_ne same] at member
    exact ⟨same, member⟩

/-- What a slot holds after a change was there before, or is the new frame. -/
theorem held_update {slots : U64 → Option Frame} {key found : U64} {new : Option Frame}
    {frame : Frame} (held : Function.update slots key new found = some frame) :
    found = key ∧ new = some frame ∨ slots found = some frame := by
  by_cases same : found = key
  · subst same
    exact .inl ⟨rfl, by simpa using held⟩
  · exact .inr (by simpa [same] using held)

/-- Every move keeps the frames where they may be. -/
theorem located_move (located : Located setup v) (moved : Move setup v action after) :
    Located setup after := by
  cases moved with
  | still => exact located
  | @receive worker payload declared free =>
    have new : ∀ found frame, frame ∈ Function.update v.hands worker
        [(⟨worker, v.received, payload⟩ : Frame)] found →
          found = worker ∧ frame = ⟨worker, v.received, payload⟩ ∨ frame ∈ v.hands found := by
      intro found frame member
      by_cases same : found = worker
      · subst same
        rw [Function.update_self, List.mem_singleton] at member
        exact .inl ⟨rfl, member⟩
      · rw [Function.update_of_ne same] at member
        exact .inr member
    exact
      { hands := by
          intro found frame member
          rcases new found frame member with ⟨rfl, rfl⟩ | old
          · exact ⟨rfl, Nat.lt_succ_self _, declared⟩
          · obtain ⟨own, earlier, there⟩ := located.hands found frame old
            exact ⟨own, Nat.lt_succ_of_lt earlier, there⟩
        queue := located.queue
        slots := by
          intro key frame held
          obtain ⟨earlier, owns⟩ := located.slots key frame held
          exact ⟨Nat.lt_succ_of_lt earlier, owns⟩
        older := by
          intro key frame held later member
          rcases new frame.handler later member with ⟨-, rfl⟩ | old
          · exact (located.slots key frame held).1
          · exact located.older key frame held later old
        numbered := by
          rw [receivedFrames_snoc, List.map_append, located.numbered, List.range_succ]
          rfl }
  | @offer worker frame pushed here =>
    have own := (located.hands worker frame (by simp [here])).1
    exact
      { hands := fun found other member => located.hands found other (mem_update_nil member).2
        queue := by
          intro sample member
          rcases List.mem_append.mp member with queued | looped
          · split at queued
            · rcases List.mem_append.mp queued with old | new
              · exact located.queue sample (List.mem_append_left _ old)
              · rw [List.mem_singleton.mp new]
                exact own.symm
            · exact located.queue sample (List.mem_append_left _ queued)
          · exact located.queue sample (List.mem_append_right _ looped)
        slots := located.slots
        older := fun key other held later member =>
          located.older key other held later (mem_update_nil member).2
        numbered := by simpa [receivedFrames] using located.numbered }
  | @store worker frame handler declared here handlers background =>
    obtain ⟨own, earlier, -⟩ := located.hands worker frame (by simp [here])
    exact
      { hands := fun found other member => located.hands found other (mem_update_nil member).2
        queue := located.queue
        slots := by
          intro key other held
          rcases held_update held with ⟨rfl, new⟩ | old
          · obtain rfl := Option.some.inj new
            exact ⟨earlier, handler, own ▸ handlers, background, rfl, own ▸ declared⟩
          · exact located.slots key other old
        older := by
          intro key other held later member
          obtain ⟨elsewhere, there⟩ := mem_update_nil member
          rcases held_update held with ⟨-, new⟩ | old
          · obtain rfl := Option.some.inj new
            exact absurd own elsewhere
          · exact located.older key other old later there
        numbered := located.numbered }
  | @pop action sample queue front free =>
    refine { located with queue := fun found member => located.queue found ?_ }
    rw [front]
    rcases List.mem_append.mp member with old | only
    · exact List.mem_append_left _ (List.mem_cons_of_mem _ old)
    · rw [List.mem_singleton.mp only]
      exact List.mem_append_left _ (List.mem_cons_self ..)
  | @invoke action sample handler here handlers critical =>
    refine ⟨located.hands, fun found member => located.queue found ?_, located.slots,
      located.older, ?_⟩
    · exact List.mem_append_left _ (by simpa using member)
    · simpa [receivedFrames] using located.numbered
  | @hand action sample handler here handlers relaxed =>
    refine { located with queue := fun found member => located.queue found ?_ }
    exact List.mem_append_left _ (by simpa using member)
  | @take action key frame idx handler parsed held indexed handlers =>
    have kept : ∀ found other, Function.update v.slots key none found = some other →
        v.slots found = some other := by
      intro found other there
      rcases held_update there with ⟨-, new⟩ | old
      · simp at new
      · exact old
    exact
      { hands := located.hands
        queue := located.queue
        slots := fun found other there => located.slots found other (kept found other there)
        older := fun found other there => located.older found other (kept found other there)
        numbered := located.numbered }
  | start => exact { located with }
  | run | complete =>
    exact { located with numbered := by simpa [receivedFrames] using located.numbered }

/-- Before the tasks are spawned there are no frames. -/
theorem located_init (setup : Setup κ) : Located setup (init setup).view := by
  have pending := (registered_reactor setup).pending
  refine ⟨?_, ?_, ?_, ?_, rfl⟩
  · intro worker frame member
    simp [State.view, init, hand] at member
  · intro sample member
    simp [State.view, init, Main.sample] at member
  · intro key frame held
    simp [State.view, init, pending] at held
  · intro key frame held
    simp [State.view, init, pending] at held

/-- Each frame received is in as many places as it was received. -/
def Balanced (setup : Setup κ) (v : View κ) : Prop :=
  ∀ frame, (receivedFrames v.log).count frame =
    (rejectedFrames v.log).count frame + (v.overwritten.map Prod.fst).count frame +
      ((calls v.log).map Call.frame).count frame + (v.pending setup).count frame

/-- The pending frames, place by place. -/
theorem count_pending (setup : Setup κ) (v : View κ) (frame : Frame) :
    (v.pending setup).count frame =
      ((List.range setup.handlers.length).flatMap v.hands).count frame +
        (v.queue.map CriticalSample.payload).count frame +
          (v.loop.map CriticalSample.payload).count frame +
            (setup.reactor.background_cache.cache.keys.flatMap
              (Option.toList ∘ v.slots)).count frame + (v.pool.pending.map Call.frame).count frame := by
  simp only [View.pending, List.count_append]

/-- What a task takes in hand or puts down. -/
theorem count_hands {worker : Nat} (declared : ∀ idx ≤ worker, Declares setup idx)
    (hands : Nat → List Frame) (new : List Frame) (frame : Frame) :
    ((List.range setup.handlers.length).flatMap (Function.update hands worker new)).count frame +
        (hands worker).count frame =
      ((List.range setup.handlers.length).flatMap hands).count frame + new.count frame := by
  obtain ⟨handler, handlers, -⟩ := declared worker (Nat.le_refl worker)
  have bound := (List.getElem?_eq_some_iff.mp handlers).1
  exact count_flatMap_update List.nodup_range (List.mem_range.mpr bound) hands new frame

/-- What is put into a slot or taken from it. -/
theorem count_slots {key : U64} (present : key ∈ setup.reactor.background_cache.cache.keys)
    (slots : U64 → Option Frame) (new : Option Frame) (frame : Frame) :
    (setup.reactor.background_cache.cache.keys.flatMap
        (Option.toList ∘ Function.update slots key new)).count frame +
        (slots key).toList.count frame =
      (setup.reactor.background_cache.cache.keys.flatMap (Option.toList ∘ slots)).count frame +
        new.toList.count frame := by
  rw [Function.comp_update]
  exact count_flatMap_update setup.reactor.background_cache.cache.distinct present
    (Option.toList ∘ slots) new.toList frame

/-- Every move takes a frame from one place to another. -/
theorem balanced_move (located : Located setup v) (balanced : Balanced setup v)
    (moved : Move setup v action after) : Balanced setup after := by
  intro frame
  have before := balanced frame
  rw [count_pending] at before ⊢
  cases moved with
  | still => exact before
  | @receive worker payload declared free =>
    have hands := count_hands declared v.hands [⟨worker, v.received, payload⟩] frame
    rw [free] at hands
    simp only [receivedFrames_snoc, rejectedFrames_snoc, calls_snoc, List.count_append,
      List.map_append]
    simp only [receivedFrames, rejectedFrames, calls, List.filterMap_cons, List.filterMap_nil,
      List.map_nil, List.count_nil] at before hands ⊢
    omega
  | @offer worker found pushed here =>
    have hands := count_hands (located.hands worker found (by simp [here])).2.2 v.hands [] frame
    rw [here] at hands
    simp only [receivedFrames_snoc, rejectedFrames_snoc, calls_snoc, List.count_append,
      List.map_append]
    cases pushed with
    | true =>
      simp only [receivedFrames, rejectedFrames, calls, List.filterMap_cons, List.filterMap_nil,
        List.map_nil, List.count_nil, if_true, List.map_append, List.map_cons,
        List.count_append] at before hands ⊢
      omega
    | false =>
      simp only [receivedFrames, rejectedFrames, calls, List.filterMap_cons, List.filterMap_nil,
        List.map_nil, List.count_nil, Bool.false_eq_true, if_false] at before hands ⊢
      omega
  | @store worker found handler declared here handlers background =>
    have hands := count_hands declared v.hands [] frame
    have present := ((registered_reactor setup).keys handler.path_hash).mpr
      ⟨handler, List.mem_of_getElem? handlers, background, rfl⟩
    have slots := count_slots present v.slots (some found) frame
    have given : ((v.slots handler.path_hash).map fun old => (old, found)).toList.map Prod.fst =
        (v.slots handler.path_hash).toList := by
      cases v.slots handler.path_hash <;> rfl
    rw [here] at hands
    simp only [List.map_append, given, List.count_append, List.count_nil,
      Option.toList_some] at hands slots ⊢
    omega
  | @pop action sample queue front free =>
    simp only [front, free, List.map_cons, List.map_nil, List.count_cons, List.count_nil]
      at before ⊢
    omega
  | @invoke action sample handler here handlers critical =>
    simp only [receivedFrames_snoc, rejectedFrames_snoc, calls_snoc, List.count_append,
      List.map_append, here, List.map_cons] at before ⊢
    simp only [receivedFrames, rejectedFrames, calls, List.filterMap_cons, List.filterMap_nil,
      List.map_nil, List.count_nil, List.map_cons] at before ⊢
    omega
  | @hand action sample handler here handlers relaxed =>
    simp only [here, Pool.pending_spawn, List.map_append, List.map_cons, List.map_nil,
      List.count_append, List.count_nil] at before ⊢
    omega
  | @take action key found idx handler parsed held indexed handlers =>
    obtain ⟨-, owner, there, background, hash, -⟩ := located.slots key found held
    have present := ((registered_reactor setup).keys key).mpr
      ⟨owner, List.mem_of_getElem? there, background, hash⟩
    have slots := count_slots present v.slots none frame
    simp only [held, Pool.pending_spawn, Option.toList_some, Option.toList_none, List.count_nil,
      List.map_append, List.map_cons, List.map_nil, List.count_append] at slots ⊢
    omega
  | start queued =>
    have taken := ((Pool.pending_start queued).map Call.frame).count_eq frame
    simp only [taken]
    exact before
  | run taken =>
    have called := ((Pool.pending_invoke taken).map Call.frame).count_eq frame
    simp only [receivedFrames_snoc, rejectedFrames_snoc, calls_snoc, List.count_append,
      List.map_append]
    simp only [receivedFrames, rejectedFrames, calls, List.filterMap_cons, List.filterMap_nil,
      List.map_nil, List.map_cons, List.count_nil, List.count_cons] at before called ⊢
    omega
  | complete busy =>
    simp only [receivedFrames_snoc, rejectedFrames_snoc, calls_snoc, List.count_append,
      List.map_append]
    simpa [receivedFrames, rejectedFrames, calls] using before

/-- No frame has gone to a callback, or made room for a frame, of another handler. -/
structure Faithful (setup : Setup κ) (v : View κ) : Prop where
  newer : ∀ old new, (old, new) ∈ v.overwritten →
    old.handler = new.handler ∧ old.serial < new.serial
  own : ∀ call ∈ v.pool.pending ++ calls v.log, ∃ handler,
    setup.handlers[call.frame.handler]? = some handler ∧ call.callback = handler.callback

/-- Every move keeps a frame with its own handler, if none is shadowed. -/
theorem faithful_move (unshadowed : Unshadowed setup) (located : Located setup v)
    (faithful : Faithful setup v) (moved : Move setup v action after) :
    Faithful setup after := by
  cases moved with
  | still => exact faithful
  | receive => exact ⟨faithful.newer, by simpa [calls] using faithful.own⟩
  | offer => exact ⟨faithful.newer, by simpa [calls] using faithful.own⟩
  | @store worker frame handler declared here handlers background =>
    refine ⟨?_, faithful.own⟩
    intro old new member
    rcases List.mem_append.mp member with before | given
    · exact faithful.newer old new before
    · rw [Option.mem_toList, Option.map_eq_some_iff] at given
      obtain ⟨previous, held, pair⟩ := given
      obtain ⟨rfl, rfl⟩ := Prod.mk.inj pair
      obtain ⟨own, -⟩ := located.hands worker frame (by simp [here])
      obtain ⟨-, owner, there, same, hash, earlier⟩ := located.slots _ previous held
      have alone : previous.handler = worker :=
        unshadowed.slots previous.handler worker owner handler there handlers same background
          earlier declared hash
      refine ⟨alone.trans own.symm, located.older _ previous held frame ?_⟩
      rw [alone, here]
      exact List.mem_singleton.mpr rfl
  | pop => exact ⟨faithful.newer, faithful.own⟩
  | @invoke action sample handler here handlers critical =>
    refine ⟨faithful.newer, ?_⟩
    intro call member
    have split : call ∈ v.pool.pending ++ calls v.log ∨ call =
        ⟨sample.handler_idx, handler.callback, sample.payload, none⟩ := by
      simpa [calls, or_assoc] using member
    rcases split with old | rfl
    · exact faithful.own call old
    · refine ⟨handler, ?_, rfl⟩
      rw [← located.queue sample (by simp [here])]
      exact handlers
  | @hand action sample handler here handlers relaxed =>
    refine ⟨faithful.newer, ?_⟩
    intro call member
    have split : call ∈ v.pool.pending ++ calls v.log ∨ call =
        ⟨sample.handler_idx, handler.callback, sample.payload, none⟩ := by
      simpa [or_assoc, or_comm, or_left_comm] using member
    rcases split with old | rfl
    · exact faithful.own call old
    · refine ⟨handler, ?_, rfl⟩
      rw [← located.queue sample (by simp [here])]
      exact handlers
  | @take action key frame idx handler parsed held indexed handlers =>
    refine ⟨faithful.newer, ?_⟩
    intro call member
    have split : call ∈ v.pool.pending ++ calls v.log ∨ call =
        ⟨idx, handler.callback, frame, some key⟩ := by
      simpa [or_assoc, or_comm, or_left_comm] using member
    rcases split with old | rfl
    · exact faithful.own call old
    · obtain ⟨-, owner, there, background, rfl, -⟩ := located.slots key frame held
      obtain ⟨⟨found, present, hash⟩, latest⟩ := handler_index_eq_some.mp indexed
      obtain rfl : found = handler := Option.some.inj (present.symm.trans handlers)
      exact ⟨owner, there, unshadowed.index parsed frame.handler idx owner found there background
        handlers hash latest⟩
  | start queued =>
    refine ⟨faithful.newer, fun found member => faithful.own found ?_⟩
    exact ((Pool.pending_start queued).append_right _).mem_iff.mp member
  | @run task call taken =>
    refine ⟨faithful.newer, fun found member => faithful.own found ?_⟩
    have called : found ∈ v.pool.pending ↔ found ∈ call :: (v.pool.invoke task call).pending :=
      (Pool.pending_invoke taken).mem_iff
    have split : found ∈ (v.pool.invoke task call).pending ∨ found ∈ calls v.log ∨
        found = call := by
      simpa [calls] using member
    rcases split with waiting | old | rfl
    · exact List.mem_append_left _ (called.mpr (List.mem_cons_of_mem _ waiting))
    · exact List.mem_append_right _ old
    · exact List.mem_append_left _ (called.mpr List.mem_cons_self)
  | complete busy => exact ⟨faithful.newer, by simpa [calls] using faithful.own⟩

/-- No frame has been received. -/
theorem balanced_init (setup : Setup κ) : Balanced setup (init setup).view := by
  intro frame
  have empty : (Option.toList ∘ (init setup).view.slots) = fun _ => [] := by
    funext key
    simp [State.view, init, (registered_reactor setup).pending key]
  have nobody : (init setup).view.hands = fun _ => [] := rfl
  have nothing : (init setup).view.overwritten = [] := (registered_reactor setup).overwrites
  rw [count_pending, empty, nobody, nothing, flatMap_nothing, flatMap_nothing]
  simp [State.view, init, Main.sample, receivedFrames, rejectedFrames, calls, Pool.pending]

/-- No frame is pending. -/
theorem faithful_init (setup : Setup κ) : Faithful setup (init setup).view where
  newer old new member := by
    have nothing : (init setup).view.overwritten = [] := (registered_reactor setup).overwrites
    simp [nothing] at member
  own call member := by simp [State.view, init, calls, Pool.pending] at member

variable {s : State κ}

/-- In every run each frame is in one place it may be in. -/
theorem reachable_located (reached : (machine setup).Reachable s) :
    Located setup s.view ∧ Balanced setup s.view :=
  view_invariant (fun v => Located setup v ∧ Balanced setup v)
    ⟨located_init setup, balanced_init setup⟩
    (fun _ _ _ _ moved ⟨located, balanced⟩ =>
      ⟨located_move located moved, balanced_move located balanced moved⟩) reached

/-- In every run of unshadowed handlers the frames stay with theirs. -/
theorem reachable_faithful (unshadowed : Unshadowed setup)
    (reached : (machine setup).Reachable s) : Faithful setup s.view := by
  refine (view_invariant (fun v => Located setup v ∧ Faithful setup v)
    ⟨located_init setup, faithful_init setup⟩ ?_ reached).2
  rintro before action after - moved ⟨located, faithful⟩
  exact ⟨located_move located moved, faithful_move unshadowed located faithful moved⟩

/-- Unshadowed handlers get their own frames. -/
theorem routed_of_unshadowed (unshadowed : Unshadowed setup)
    (reached : (machine setup).Reachable s) : Routed setup s.view := by
  obtain ⟨located, balanced⟩ := reachable_located reached
  have faithful := reachable_faithful unshadowed reached
  refine ⟨located.nodup, ?_, faithful.newer, fun call member =>
    faithful.own call (List.mem_append_right _ member)⟩
  rw [List.perm_iff_count]
  intro frame
  simp only [List.count_append]
  exact balanced frame

end FlowKernel.Rust.Reactor
