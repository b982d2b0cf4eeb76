import FlowKernel.Rust.Misrouting

/-!
# The order in which the callbacks see their frames

The queue hands the frames of a handler on in the order of their acceptance, and a slot
hands its frames on in the order of their puts. The closures given to the pool keep that
order as long as no thread takes a closure before every earlier one for the same handler
from the same channel has called the callback, and for a slot before that callback has
returned. `spawn_blocking` promises none of this: two threads that take their closures in
order can still call the callback in the other order.
-/

namespace FlowKernel.Rust.Reactor

open Foundation

universe u
variable {κ : Type u}

section Lists

variable {α : Type u} {keep : α → Bool} {items : List α} {item : α}

/-- Removing the first item that is kept. -/
theorem filter_eraseIdx_first {place : Nat} (here : items[place]? = some item)
    (kept : keep item = true) (first : ∀ other ∈ items.take place, keep other = false) :
    items.filter keep = item :: (items.eraseIdx place).filter keep := by
  induction items generalizing place with
  | nil => simp at here
  | cons head tail inductionHypothesis =>
    cases place with
    | zero =>
      obtain rfl : head = item := by simpa using here
      rw [List.eraseIdx_cons_zero, List.filter_cons_of_pos kept]
    | succ place =>
      have skipped : keep head = false := first head (by simp)
      rw [List.eraseIdx_cons_succ, List.filter_cons_of_neg (by simp [skipped]),
        List.filter_cons_of_neg (by simp [skipped])]
      apply inductionHypothesis (by simpa using here)
      intro other there
      exact first other (by simp [there])

/-- Removing an item that is not kept. -/
theorem filter_eraseIdx_other {place : Nat} (here : items[place]? = some item)
    (dropped : keep item = false) :
    (items.eraseIdx place).filter keep = items.filter keep := by
  induction items generalizing place with
  | nil => simp at here
  | cons head tail inductionHypothesis =>
    cases place with
    | zero =>
      obtain rfl : head = item := by simpa using here
      rw [List.eraseIdx_cons_zero, List.filter_cons_of_neg (by simp [dropped])]
    | succ place =>
      rw [List.eraseIdx_cons_succ, List.filter_cons, List.filter_cons,
        inductionHypothesis (by simpa using here)]

/-- Two items without repetition come in one order only. -/
theorem not_both_orders {first second : α} (distinct : items.Nodup)
    (forward : [first, second].Sublist items) (backward : [second, first].Sublist items) :
    False := by
  induction items with
  | nil => simp at forward
  | cons head tail inductionHypothesis =>
    obtain ⟨fresh, rest⟩ := List.nodup_cons.mp distinct
    cases forward with
    | cons _ forward =>
      cases backward with
      | cons _ backward => exact inductionHypothesis rest forward backward
      | cons_cons => exact fresh (forward.subset (by simp))
    | cons_cons _ forward =>
      cases backward with
      | cons _ backward => exact fresh (backward.subset (by simp))
      | cons_cons => exact fresh (forward.subset (by simp))

/-- A pair taken out in reverse. -/
theorem not_reversed {called waiting : List α} {first second : α} (distinct : items.Nodup)
    (whole : (called ++ waiting).Sublist items) (pair : [first, second].Sublist waiting)
    (reversed : (called ++ [second, first]).Sublist items) : False := by
  have forward := pair.trans ((List.sublist_append_right called waiting).trans whole)
  have backward := (List.sublist_append_right called [second, first]).trans reversed
  exact not_both_orders distinct forward backward

end Lists

section Channels

/-- The frames of one handler that the queue has accepted, in order. -/
def acceptedFrames (idx : Nat) (log : List (Event κ)) : List Frame :=
  log.filterMap fun
    | .offered sample true => if sample.handler_idx = idx then some sample.payload else none
    | _ => none

/-- The frames of one handler among samples. -/
def sampled (idx : Nat) (samples : List CriticalSample) : List Frame :=
  (samples.filter fun sample => sample.handler_idx = idx).map CriticalSample.payload

/-- The calls of one handler's callback on frames from the queue. -/
def fromQueue (idx : Nat) (calls : List (Call κ)) : List Frame :=
  (calls.filter fun call => call.handler = idx ∧ call.slot = none).map Call.frame

/-- The calls on frames from one slot. -/
def fromSlot (key : U64) (calls : List (Call κ)) : List Frame :=
  (calls.filter fun call => call.slot = some key).map Call.frame

variable (idx : Nat) (key : U64)

/-- The frames accepted end in that of the last event. -/
@[simp] theorem acceptedFrames_snoc (log : List (Event κ)) (event : Event κ) :
    acceptedFrames idx (log ++ [event]) = acceptedFrames idx log ++ acceptedFrames idx [event] :=
  List.filterMap_append

/-- The samples of a handler, in two parts. -/
@[simp] theorem sampled_append (before after : List CriticalSample) :
    sampled idx (before ++ after) = sampled idx before ++ sampled idx after := by
  simp [sampled]

/-- The calls on frames from the queue, in two parts. -/
@[simp] theorem fromQueue_append (before after : List (Call κ)) :
    fromQueue idx (before ++ after) = fromQueue idx before ++ fromQueue idx after := by
  simp [fromQueue]

/-- The calls on frames from a slot, in two parts. -/
@[simp] theorem fromSlot_append (before after : List (Call κ)) :
    fromSlot key (before ++ after) = fromSlot key before ++ fromSlot key after := by
  simp [fromSlot]

/-- The call that a sample becomes. -/
theorem fromQueue_own (sample : CriticalSample) (callback : κ) :
    fromQueue idx [⟨sample.handler_idx, callback, sample.payload, none⟩] =
      sampled idx [sample] := by
  by_cases same : sample.handler_idx = idx <;> simp [fromQueue, sampled, same]

end Channels

/-- Two closures for one handler and from one channel, which is the queue or a slot. -/
def Call.Beside (one other : Call κ) : Prop :=
  one.handler = other.handler ∧ one.slot = other.slot

/-- Of two closures each is beside the other. -/
theorem Call.Beside.symm {one other : Call κ} (beside : one.Beside other) : other.Beside one :=
  ⟨beside.1.symm, beside.2.symm⟩

/-- Handlers and slots can be compared. -/
instance (one other : Call κ) : Decidable (one.Beside other) :=
  inferInstanceAs (Decidable (_ ∧ _))

/-- The frames from the queue reach a handler's callback in the order the queue accepted
them, and those from a slot in the order they were put there. While the callback runs on
a frame from a slot, it has run on no later one. -/
structure InOrder (v : View κ) : Prop where
  queue : ∀ idx, fromQueue idx (calls v.log) <+: acceptedFrames idx v.log
  slot : ∀ key, (fromSlot key (calls v.log)).Sublist (v.brought key)
  last : ∀ call ∈ v.pool.running, ∀ key, call.slot = some key →
    (fromSlot key (calls v.log)).getLast? = some call.frame

/-- Every closure given to the pool before this one for the same handler and from the same
channel has called the callback, and if the channel is a slot, the callback has returned. -/
structure First (pool : Pool κ) (task : Nat) (call : Call κ) : Prop where
  waiting : ∀ other ∈ pool.tasks.take task, ¬ other.Beside call
  started : ∀ other ∈ pool.started, ¬ other.Beside call
  running : call.slot ≠ none → ∀ other ∈ pool.running, ¬ other.Beside call

/-- A thread takes a closure only after those before it. -/
def Orderly (s : State κ) : Action → Prop
  | .start task => ∀ call, s.pool.tasks[task]? = some call → First s.pool task call
  | _ => True

section Pools

variable {pool : Pool κ} {task : Nat} {call : Call κ} {keep : Call κ → Bool}

/-- Taking the first closure of a channel keeps the order of those pending. -/
theorem Pool.filter_start (queued : pool.tasks[task]? = some call)
    (first : keep call = true → ∀ other ∈ pool.tasks.take task, keep other = false) :
    (pool.start task call).pending.filter keep = pool.pending.filter keep := by
  simp only [Pool.pending, Pool.start, List.filter_append, List.append_assoc]
  congr 1
  cases kept : keep call with
  | true =>
    rw [filter_eraseIdx_first queued kept (first kept)]
    simp [kept]
  | false =>
    rw [filter_eraseIdx_other queued kept]
    simp [kept]

/-- The only closure of a channel that a thread has taken is its first one. -/
theorem Pool.filter_invoke (taken : pool.started[task]? = some call)
    (first : keep call = true → ∀ other ∈ pool.started.take task, keep other = false) :
    pool.pending.filter keep =
      [call].filter keep ++ (pool.invoke task call).pending.filter keep := by
  simp only [Pool.pending, Pool.invoke, List.filter_append, ← List.append_assoc]
  congr 1
  cases kept : keep call with
  | true =>
    rw [filter_eraseIdx_first taken kept (first kept)]
    simp [kept]
  | false =>
    rw [filter_eraseIdx_other taken kept]
    simp [kept]

/-- What stands before a place stands before its item. -/
theorem before_of_pairwise {items : List (Call κ)} {related : Call κ → Call κ → Prop}
    (sorted : items.Pairwise related) (here : items[task]? = some call) :
    ∀ other ∈ items.take task, related other call := by
  obtain ⟨bound, rfl⟩ := List.getElem?_eq_some_iff.mp here
  rw [← List.take_append_drop task items, List.pairwise_append] at sorted
  intro other member
  have present : items[task] ∈ items.drop task := by
    rw [List.drop_eq_getElem_cons bound]
    exact List.mem_cons_self ..
  exact sorted.2.2 other member _ present

end Pools

/-- What the threads of the pool hold: of each channel at most one closure that has not
called its callback, and for a slot only while the callback does not run. -/
structure Serial (v : View κ) : Prop where
  apart : v.pool.started.Pairwise fun one other => ¬ one.Beside other
  idle : ∀ call ∈ v.pool.started, call.slot ≠ none → ∀ other ∈ v.pool.running,
    ¬ other.Beside call
  last : ∀ call ∈ v.pool.running, ∀ key, call.slot = some key →
    (fromSlot key (calls v.log)).getLast? = some call.frame

/-- What has been called, what the pool has yet to call, and what is still in the channel
come in the order in which they entered the channel. -/
structure Lined (setup : Setup κ) (v : View κ) : Prop where
  queue : ∀ idx, acceptedFrames idx v.log =
    fromQueue idx (calls v.log) ++ fromQueue idx v.pool.pending ++ sampled idx (v.loop ++ v.queue)
  relaxed : ∀ call ∈ v.pool.pending, call.slot = none → ∃ handler,
    setup.handlers[call.handler]? = some handler ∧ handler.priority ≠ .critical
  slot : ∀ key, (fromSlot key (calls v.log) ++ fromSlot key v.pool.pending ++
    (v.slots key).toList).Sublist (v.brought key)
  indexed : ∀ call ∈ v.pool.pending ++ v.pool.running, ∀ key, call.slot = some key →
    handler_index setup.handlers key = some call.handler

variable {setup : Setup κ} {v after : View κ} {action : Action}

/-- Two closures for the frames of one slot are for one handler. -/
theorem Lined.beside (lined : Lined setup v) {one other : Call κ} {key : U64}
    (left : one ∈ v.pool.pending ++ v.pool.running)
    (right : other ∈ v.pool.pending ++ v.pool.running) (slot : one.slot = some key)
    (same : other.slot = some key) : one.Beside other := by
  have first := lined.indexed one left key slot
  have second := lined.indexed other right key same
  exact ⟨Option.some.inj (first.symm.trans second), slot.trans same.symm⟩

/-- Among closures that are not beside one from the queue, its handler has none from there. -/
theorem queue_apart {call : Call κ} {others : List (Call κ)}
    (apart : ∀ other ∈ others, ¬ other.Beside call) {idx : Nat}
    (own : decide (call.handler = idx ∧ call.slot = none) = true) :
    ∀ other ∈ others, decide (other.handler = idx ∧ other.slot = none) = false := by
  intro other there
  obtain ⟨handler, slot⟩ := of_decide_eq_true own
  apply decide_eq_false
  rintro ⟨sameHandler, sameSlot⟩
  exact apart other there ⟨sameHandler.trans handler.symm, sameSlot.trans slot.symm⟩

/-- Among closures that are not beside one from a slot, none is from that slot. -/
theorem Lined.slot_apart (lined : Lined setup v) {call : Call κ} {others : List (Call κ)}
    (apart : ∀ other ∈ others, ¬ other.Beside call)
    (held : ∀ other ∈ others, other ∈ v.pool.pending ++ v.pool.running)
    (member : call ∈ v.pool.pending ++ v.pool.running) {key : U64}
    (own : decide (call.slot = some key) = true) :
    ∀ other ∈ others, decide (other.slot = some key) = false := by
  intro other there
  apply decide_eq_false
  intro same
  exact apart other there (lined.beside (held other there) member same (of_decide_eq_true own))

/-- A closure for a frame of a slot is for the handler under the slot's hash. -/
theorem Lined.indexed_spawn (lined : Lined setup v) {call : Call κ}
    (own : ∀ key, call.slot = some key →
      handler_index setup.handlers key = some call.handler) :
    ∀ found ∈ (v.pool.spawn_blocking call).pending ++ v.pool.running, ∀ key,
      found.slot = some key → handler_index setup.handlers key = some found.handler := by
  intro found there
  simp only [Pool.pending_spawn, List.mem_append, List.mem_singleton] at there
  rcases there with (old | rfl) | running
  · exact lined.indexed found (List.mem_append_left _ old)
  · exact own
  · exact lined.indexed found (List.mem_append_right _ running)

/-- Taking the first closure of its channel changes no order. -/
theorem Lined.start (lined : Lined setup v) {task : Nat} {call : Call κ}
    (queued : v.pool.tasks[task]? = some call) (first : First v.pool task call) :
    Lined setup { v with pool := v.pool.start task call } := by
  have held := fun found => (Pool.pending_start queued).mem_iff (a := found)
  have waits : ∀ found ∈ v.pool.tasks, found ∈ v.pool.pending ++ v.pool.running := by
    intro found there
    exact List.mem_append_left _ (List.mem_append_right _ there)
  have queue : ∀ idx, fromQueue idx (v.pool.start task call).pending =
      fromQueue idx v.pool.pending := by
    intro idx
    rw [fromQueue, Pool.filter_start queued (queue_apart first.waiting), fromQueue]
  have slot : ∀ key, fromSlot key (v.pool.start task call).pending =
      fromSlot key v.pool.pending := by
    intro key
    have apart : decide (call.slot = some key) = true → _ := lined.slot_apart first.waiting
      (fun other there => waits other (List.mem_of_mem_take there))
      (waits call (List.mem_of_getElem? queued))
    rw [fromSlot, Pool.filter_start queued apart, fromSlot]
  refine ⟨fun idx => ?_, fun found there => ?_, fun key => ?_, fun found there => ?_⟩
  · rw [queue idx]
    exact lined.queue idx
  · exact lined.relaxed found ((held found).mp there)
  · rw [slot key]
    exact lined.slot key
  · refine lined.indexed found ?_
    rcases List.mem_append.mp there with pending | running
    · exact List.mem_append_left _ ((held found).mp pending)
    · exact List.mem_append_right _ running

/-- The closure whose callback is called next is the first of its channel. -/
theorem Lined.run (lined : Lined setup v) (serial : Serial v) {task : Nat} {call : Call κ}
    (taken : v.pool.started[task]? = some call) :
    Lined setup { v with
      pool := v.pool.invoke task call, log := v.log ++ [Event.invoked call] } := by
  have alone := before_of_pairwise serial.apart taken
  have held := fun found => (Pool.pending_invoke taken).mem_iff (a := found)
  have waits : ∀ found ∈ v.pool.started, found ∈ v.pool.pending ++ v.pool.running := by
    intro found there
    exact List.mem_append_left _ (List.mem_append_left _ there)
  have silent : ∀ idx,
      acceptedFrames idx (v.log ++ [Event.invoked call]) = acceptedFrames idx v.log := by
    intro idx
    simp [acceptedFrames]
  have called : calls (v.log ++ [Event.invoked call]) = calls v.log ++ [call] := by simp [calls]
  have queue : ∀ idx, fromQueue idx v.pool.pending =
      fromQueue idx [call] ++ fromQueue idx (v.pool.invoke task call).pending := by
    intro idx
    rw [fromQueue, Pool.filter_invoke taken (queue_apart alone), List.map_append]
    rfl
  have slot : ∀ key, fromSlot key v.pool.pending =
      fromSlot key [call] ++ fromSlot key (v.pool.invoke task call).pending := by
    intro key
    have apart : decide (call.slot = some key) = true → _ := lined.slot_apart alone
      (fun other there => waits other (List.mem_of_mem_take there))
      (waits call (List.mem_of_getElem? taken))
    rw [fromSlot, Pool.filter_invoke taken apart, List.map_append]
    rfl
  refine ⟨fun idx => ?_, fun found there => ?_, fun key => ?_, fun found there => ?_⟩
  · simp only [silent, called, fromQueue_append, lined.queue idx, queue idx, List.append_assoc]
  · exact lined.relaxed found ((held found).mpr (List.mem_cons_of_mem _ there))
  · have before := lined.slot key
    rw [slot key] at before
    simpa only [called, fromSlot_append, List.append_assoc] using before
  · refine lined.indexed found ?_
    rcases List.mem_append.mp there with pending | running
    · exact List.mem_append_left _ ((held found).mpr (List.mem_cons_of_mem _ pending))
    · rcases List.mem_append.mp running with old | new
      · exact List.mem_append_right _ old
      · rw [List.mem_singleton.mp new]
        exact waits call (List.mem_of_getElem? taken)

/-- A thread that takes the first closure of its channel is alone with it. -/
theorem Serial.start (serial : Serial v) {task : Nat} {call : Call κ}
    (first : First v.pool task call) : Serial { v with pool := v.pool.start task call } := by
  refine ⟨?_, ?_, serial.last⟩
  · refine List.pairwise_append.mpr ⟨serial.apart, List.pairwise_singleton .., ?_⟩
    intro one there other only
    rw [List.mem_singleton.mp only]
    exact first.started one there
  · intro found there slot
    rcases List.mem_append.mp there with old | new
    · exact serial.idle found old slot
    · rw [List.mem_singleton.mp new] at slot ⊢
      exact first.running slot

/-- The callback of a slot is called when it is not running. -/
theorem Serial.run (serial : Serial v) (lined : Lined setup v) {task : Nat} {call : Call κ}
    (taken : v.pool.started[task]? = some call) :
    Serial { v with
      pool := v.pool.invoke task call, log := v.log ++ [Event.invoked call] } := by
  have member := List.mem_of_getElem? taken
  obtain ⟨bound, rfl⟩ := List.getElem?_eq_some_iff.mp taken
  have split := List.getElem_cons_eraseIdx_perm bound
  have sorted := (split.pairwise_iff fun apart beside => apart beside.symm).mpr serial.apart
  obtain ⟨alone, -⟩ := List.pairwise_cons.mp sorted
  refine ⟨serial.apart.sublist (List.eraseIdx_sublist ..), ?_, ?_⟩
  · intro found there slot other running
    rcases List.mem_append.mp running with old | new
    · exact serial.idle found (List.mem_of_mem_eraseIdx there) slot other old
    · rw [List.mem_singleton.mp new]
      exact alone found there
  · intro found running key slot
    rcases List.mem_append.mp running with old | new
    · have other : v.pool.started[task].slot ≠ some key := by
        intro same
        have left := List.mem_append_right v.pool.pending old
        have right := List.mem_append_left v.pool.running (List.mem_append_left v.pool.tasks member)
        exact serial.idle _ member (by simp [same]) found old (lined.beside left right slot same)
      simpa [calls, fromSlot, other] using serial.last found old key slot
    · rw [List.mem_singleton.mp new] at slot ⊢
      simp [calls, fromSlot, slot]

/-- A move that meets the condition keeps the frames in line. -/
theorem lined_move (lined : Lined setup v) (serial : Serial v) (moved : Move setup v action after)
    (orderly : ∀ task call, action = .start task → v.pool.tasks[task]? = some call →
      First v.pool task call) : Lined setup after := by
  cases moved with
  | still => exact lined
  | @receive worker payload declared free =>
    refine ⟨?_, lined.relaxed, ?_, lined.indexed⟩
    · simpa [acceptedFrames, calls] using lined.queue
    · simpa [calls] using lined.slot
  | @offer worker frame pushed here =>
    refine ⟨fun idx => ?_, lined.relaxed, ?_, lined.indexed⟩
    · have before := lined.queue idx
      have silent : calls [(.offered ⟨worker, frame⟩ pushed : Event κ)] = [] := rfl
      cases pushed with
      | false => simpa [acceptedFrames, calls] using before
      | true =>
        have one : acceptedFrames idx [(.offered ⟨worker, frame⟩ true : Event κ)] =
            sampled idx [⟨worker, frame⟩] := by
          by_cases same : worker = idx <;> simp [acceptedFrames, sampled, same]
        simp [before, silent, one]
    · simpa [calls] using lined.slot
  | @store worker frame handler declared here handlers background =>
    refine ⟨lined.queue, lined.relaxed, fun key => ?_, lined.indexed⟩
    by_cases same : handler.path_hash = key
    · subst same
      have shorter := (List.sublist_append_left _ _).trans (lined.slot handler.path_hash)
      simpa using shorter.append (List.Sublist.refl [frame])
    · simpa [same, Ne.symm same] using lined.slot key
  | @pop action sample queue front free =>
    refine ⟨fun idx => ?_, lined.relaxed, lined.slot, lined.indexed⟩
    have before := lined.queue idx
    rwa [front, free] at before
  | @invoke action sample handler here handlers critical =>
    have called : calls (v.log ++
        [Event.invoked ⟨sample.handler_idx, handler.callback, sample.payload, none⟩]) =
          calls v.log ++ [⟨sample.handler_idx, handler.callback, sample.payload, none⟩] := by
      simp [calls]
    refine ⟨fun idx => ?_, lined.relaxed, fun key => ?_, lined.indexed⟩
    · have before := lined.queue idx
      have silent : acceptedFrames idx [(.invoked ⟨sample.handler_idx, handler.callback,
          sample.payload, none⟩ : Event κ)] = [] := rfl
      have one := fromQueue_own idx sample handler.callback
      have alone : sampled idx [sample] = [] ∨ fromQueue idx v.pool.pending = [] := by
        by_cases same : sample.handler_idx = idx
        · subst same
          refine .inr (List.map_eq_nil_iff.mpr (List.filter_eq_nil_iff.mpr ?_))
          intro call member own
          obtain ⟨same, queued⟩ := of_decide_eq_true own
          obtain ⟨found, there, relaxed⟩ := lined.relaxed call member queued
          rw [same] at there
          obtain rfl : handler = found := Option.some.inj (handlers.symm.trans there)
          exact relaxed critical
        · exact .inl (by simp [sampled, same])
      rw [here, sampled_append] at before
      rcases alone with nothing | nothing <;>
        simp [called, before, silent, one, nothing]
    · simpa [called, fromSlot] using lined.slot key
  | @hand action sample handler here handlers relaxed =>
    refine ⟨fun idx => ?_, ?_, fun key => ?_, ?_⟩
    · have before := lined.queue idx
      rw [here, sampled_append] at before
      simp [before, fromQueue_own idx sample handler.callback]
    · intro call member queued
      simp only [Pool.pending_spawn, List.mem_append, List.mem_singleton] at member
      rcases member with old | rfl
      · exact lined.relaxed call old queued
      · exact ⟨handler, handlers, relaxed⟩
    · simpa [fromSlot] using lined.slot key
    · exact lined.indexed_spawn fun found slot => by simp at slot
  | @take action key frame idx handler parsed held indexed handlers =>
    refine ⟨fun found => ?_, ?_, fun found => ?_, ?_⟩
    · simpa [fromQueue] using lined.queue found
    · intro call member queued
      simp only [Pool.pending_spawn, List.mem_append, List.mem_singleton] at member
      rcases member with old | rfl
      · exact lined.relaxed call old queued
      · simp at queued
    · have before := lined.slot found
      by_cases same : found = key
      · subst same
        rw [held] at before
        simpa [fromSlot] using before
      · simpa [fromSlot, same, Ne.symm same] using before
    · refine lined.indexed_spawn fun found slot => ?_
      obtain rfl : key = found := by simpa using slot
      exact indexed
  | start queued => exact lined.start queued (orderly _ _ rfl queued)
  | run taken => exact lined.run serial taken
  | complete =>
    refine ⟨?_, lined.relaxed, ?_, fun call member => lined.indexed call ?_⟩
    · simpa [acceptedFrames, calls] using lined.queue
    · simpa [calls] using lined.slot
    · rcases List.mem_append.mp member with pending | running
      · exact List.mem_append_left _ pending
      · exact List.mem_append_right _ (List.mem_of_mem_eraseIdx running)

/-- A move that meets the condition keeps the threads of the pool apart. -/
theorem serial_move (lined : Lined setup v) (serial : Serial v) (moved : Move setup v action after)
    (orderly : ∀ task call, action = .start task → v.pool.tasks[task]? = some call →
      First v.pool task call) : Serial after := by
  cases moved with
  | still | store | pop | hand | take => exact { serial with }
  | receive | offer => exact { serial with last := by simpa [calls] using serial.last }
  | invoke => exact { serial with last := by simpa [calls, fromSlot] using serial.last }
  | start queued => exact serial.start (orderly _ _ rfl queued)
  | run taken => exact serial.run lined taken
  | complete =>
    refine ⟨serial.apart, ?_, ?_⟩
    · exact fun call taken slot other there =>
        serial.idle call taken slot other (List.mem_of_mem_eraseIdx there)
    · intro call running
      simpa [calls] using serial.last call (List.mem_of_mem_eraseIdx running)

/-- Nothing has entered a channel. -/
theorem lined_init (setup : Setup κ) : Lined setup (init setup).view := by
  have pending := (registered_reactor setup).pending
  refine ⟨fun _ => rfl, ?_, fun key => ?_, ?_⟩
  · intro call member
    simp [State.view, init, Pool.pending] at member
  · simp [State.view, init, pending, fromSlot, calls, Pool.pending]
  · intro call member
    simp [State.view, init, Pool.pending] at member

/-- The pool holds nothing. -/
theorem serial_init (setup : Setup κ) : Serial (init setup).view := by
  refine ⟨List.Pairwise.nil, ?_, ?_⟩
  · intro call member
    simp [State.view, init] at member
  · intro call member
    simp [State.view, init] at member

/-- Frames in line reach the callbacks in order. -/
theorem Lined.inOrder (lined : Lined setup v) (serial : Serial v) : InOrder v where
  queue idx := by
    rw [lined.queue idx, List.append_assoc]
    exact List.prefix_append _ _
  slot key := by
    have whole := lined.slot key
    rw [List.append_assoc] at whole
    exact (List.sublist_append_left _ _).trans whole
  last := serial.last

variable {s : State κ}

/-- In every run that meets the condition the frames are in line, and the threads apart. -/
theorem reachable_lined (reached : (machine setup).ReachableWithin Orderly s) :
    Lined setup s.view ∧ Serial s.view := by
  refine view_invariant (fun v => Lined setup v ∧ Serial v)
    ⟨lined_init setup, serial_init setup⟩ ?_ reached
  rintro before action after allowed moved ⟨lined, serial⟩
  have orderly : ∀ task call, action = .start task → before.pool.tasks[task]? = some call →
      First before.pool task call := by
    rintro task call rfl queued
    exact allowed call queued
  exact ⟨lined_move lined serial moved orderly, serial_move lined serial moved orderly⟩

/-- In every run in which the pool keeps the order of the closures for one handler from
one channel, its callback sees the frames in the order of the channel. -/
theorem callback_contract (reached : (machine setup).ReachableWithin Orderly s) :
    InOrder s.view := by
  obtain ⟨lined, serial⟩ := reachable_lined reached
  exact lined.inOrder serial

section Converse

/-- The frames whose push has been answered. -/
def offeredFrames (log : List (Event κ)) : List Frame :=
  log.filterMap fun
    | .offered sample _ => some sample.payload
    | _ => none

/-- The frames offered end in that of the last event. -/
@[simp] theorem offeredFrames_snoc (log : List (Event κ)) (event : Event κ) :
    offeredFrames (log ++ [event]) = offeredFrames log ++ offeredFrames [event] :=
  List.filterMap_append

/-- Each frame received is in hand, or has entered one channel, once. -/
structure Entered (setup : Setup κ) (v : View κ) : Prop where
  counted : ∀ frame, (receivedFrames v.log).count frame =
    ((List.range setup.handlers.length).flatMap v.hands).count frame +
      (offeredFrames v.log).count frame +
        (setup.reactor.background_cache.cache.keys.flatMap v.brought).count frame
  outside : ∀ key, key ∉ setup.reactor.background_cache.cache.keys → v.brought key = []

/-- No frame has been received. -/
theorem entered_init (setup : Setup κ) : Entered setup (init setup).view where
  counted frame := by
    have brought : (init setup).view.brought = fun _ => [] :=
      funext (registered_reactor setup).frames
    have nobody : (init setup).view.hands = fun _ => [] := rfl
    rw [brought, nobody, flatMap_nothing, flatMap_nothing]
    rfl
  outside key _ := (registered_reactor setup).frames key

/-- Every move brings a frame into a channel at most once. -/
theorem entered_move (located : Located setup v) (entered : Entered setup v)
    (moved : Move setup v action after) : Entered setup after := by
  cases moved with
  | still => exact entered
  | @receive worker payload declared free =>
    refine ⟨fun frame => ?_, entered.outside⟩
    have before := entered.counted frame
    have hands := count_hands declared v.hands [⟨worker, v.received, payload⟩] frame
    rw [free] at hands
    simp only [receivedFrames_snoc, offeredFrames_snoc, List.count_append]
    simp only [receivedFrames, offeredFrames, List.filterMap_cons, List.filterMap_nil,
      List.count_nil] at before hands ⊢
    omega
  | @offer worker found pushed here =>
    refine ⟨fun frame => ?_, entered.outside⟩
    have before := entered.counted frame
    have hands := count_hands (located.hands worker found (by simp [here])).2.2 v.hands [] frame
    rw [here] at hands
    simp only [receivedFrames_snoc, offeredFrames_snoc, List.count_append]
    simp only [receivedFrames, offeredFrames, List.filterMap_cons, List.filterMap_nil,
      List.count_nil] at before hands ⊢
    omega
  | @store worker found handler declared here handlers background =>
    have present := ((registered_reactor setup).keys handler.path_hash).mpr
      ⟨handler, List.mem_of_getElem? handlers, background, rfl⟩
    have update : (fun key => v.brought key ++ if handler.path_hash = key then [found] else []) =
        Function.update v.brought handler.path_hash (v.brought handler.path_hash ++ [found]) := by
      funext key
      by_cases same : handler.path_hash = key
      · subst same
        simp
      · simp [same, Function.update_of_ne (Ne.symm same)]
    refine ⟨fun frame => ?_, fun key absent => ?_⟩
    · have before := entered.counted frame
      have hands := count_hands declared v.hands [] frame
      have brought := count_flatMap_update setup.reactor.background_cache.cache.distinct present
        v.brought (v.brought handler.path_hash ++ [found]) frame
      rw [here, List.count_nil] at hands
      rw [List.count_append] at brought
      simp only [update]
      omega
    · have other : handler.path_hash ≠ key := fun same => absent (same ▸ present)
      simp [other, entered.outside key absent]
  | pop => exact ⟨entered.counted, entered.outside⟩
  | invoke =>
    exact ⟨by simpa [receivedFrames, offeredFrames] using entered.counted, entered.outside⟩
  | hand => exact ⟨entered.counted, entered.outside⟩
  | take => exact ⟨entered.counted, entered.outside⟩
  | start => exact ⟨entered.counted, entered.outside⟩
  | run | complete =>
    exact ⟨by simpa [receivedFrames, offeredFrames] using entered.counted, entered.outside⟩

/-- What the queue accepted for a handler was offered. -/
theorem acceptedFrames_sublist (idx : Nat) (log : List (Event κ)) :
    (acceptedFrames idx log).Sublist (offeredFrames log) := by
  induction log with
  | nil => exact .slnil
  | cons event rest inductionHypothesis =>
    cases event with
    | offered sample pushed =>
      have kept := inductionHypothesis.cons_cons sample.payload
      have left := inductionHypothesis.cons sample.payload
      cases pushed with
      | false => exact left
      | true =>
        by_cases same : sample.handler_idx = idx
        · simpa [acceptedFrames, offeredFrames, same] using kept
        · simpa [acceptedFrames, offeredFrames, same] using left
    | received | unslotted | unindexed | invoked | completed => exact inductionHypothesis

/-- No frame enters a channel twice. -/
theorem Entered.nodup (entered : Entered setup v) (located : Located setup v) :
    (∀ idx, (acceptedFrames idx v.log).Nodup) ∧ ∀ key, (v.brought key).Nodup := by
  have once := List.nodup_iff_count_le_one.mp located.nodup
  refine ⟨fun idx => ?_, fun key => ?_⟩
  · apply (acceptedFrames_sublist idx v.log).nodup
    apply List.nodup_iff_count_le_one.mpr
    intro frame
    have counted := entered.counted frame
    have bound := once frame
    omega
  · by_cases present : key ∈ setup.reactor.background_cache.cache.keys
    · apply List.nodup_iff_count_le_one.mpr
      intro frame
      have counted := entered.counted frame
      have bound := once frame
      have part : (v.brought key).Sublist
          (setup.reactor.background_cache.cache.keys.flatMap v.brought) :=
        List.sublist_flatten_of_mem (List.mem_map_of_mem present)
      have within := part.count_le frame
      omega
    · rw [entered.outside key present]
      exact List.nodup_nil

/-- In every run each frame has entered at most one channel. -/
theorem reachable_entered {s : State κ} (reached : (machine setup).Reachable s) :
    Entered setup s.view ∧ Located setup s.view := by
  refine view_invariant (fun v => Entered setup v ∧ Located setup v)
    ⟨entered_init setup, located_init setup⟩ ?_ reached
  rintro before action after - moved ⟨entered, located⟩
  exact ⟨entered_move located entered moved, located_move located moved⟩

/-- Two callbacks called against the order of their channel. -/
theorem reversed_breaks (reached : (machine setup).ReachableWithin Orderly s)
    {call other : Call κ} (beside : other.Beside call)
    (pair : [other, call].Sublist s.pool.pending) {next : State κ}
    (log : next.log = s.log ++ [.invoked call] ++ [.invoked other])
    (cache : next.background_cache = s.background_cache) : ¬ InOrder next.view := by
  obtain ⟨entered, located⟩ := reachable_entered reached.reachable
  obtain ⟨accepted, brought⟩ := entered.nodup located
  obtain ⟨lined, -⟩ := reachable_lined reached
  have both : calls next.log = calls s.log ++ [call, other] := by simp [log, calls]
  intro ordered
  cases channel : call.slot with
  | none =>
    have same : other.handler = call.handler ∧ other.slot = none :=
      ⟨beside.1, beside.2.trans channel⟩
    have kept := (pair.filter fun found =>
      found.handler = call.handler ∧ found.slot = none).map Call.frame
    have whole := List.sublist_append_left
      (fromQueue call.handler (calls s.log) ++ fromQueue call.handler s.pool.pending)
      (sampled call.handler (s.view.loop ++ s.view.queue))
    have reversed := (ordered.queue call.handler).sublist
    have accept : acceptedFrames call.handler next.view.log =
        acceptedFrames call.handler s.log := by
      simp [State.view, log, acceptedFrames]
    have seen : fromQueue call.handler (calls next.view.log) =
        fromQueue call.handler (calls s.log) ++ [call.frame, other.frame] := by
      simp [State.view, both, fromQueue, same, channel]
    rw [seen, accept] at reversed
    refine not_reversed (accepted call.handler) ((lined.queue call.handler) ▸ whole) ?_ reversed
    simpa [fromQueue, same, channel] using kept
  | some key =>
    have same : other.slot = some key := beside.2.trans channel
    have kept := (pair.filter fun found => found.slot = some key).map Call.frame
    have whole := (List.sublist_append_left _ _).trans (lined.slot key)
    have reversed := ordered.slot key
    have bring : next.view.brought = s.view.brought := by simp [State.view, cache]
    have seen : fromSlot key (calls next.view.log) =
        fromSlot key (calls s.log) ++ [call.frame, other.frame] := by
      simp [State.view, both, fromSlot, same, channel]
    rw [seen, bring] at reversed
    refine not_reversed (brought key) whole ?_ reversed
    simpa [fromSlot, State.view, same, channel] using kept

/-- A thread takes a closure and calls its callback. -/
def State.serve (s : State κ) (task : Nat) (call : Call κ) : State κ :=
  { s with pool := (s.pool.start task call).invoke s.pool.started.length call }.record
    (.invoked call)

/-- A thread may take a closure at any time, and call its callback at once. -/
theorem reachable_serve (reached : (machine setup).Reachable s) {task : Nat} {call : Call κ}
    (queued : s.pool.tasks[task]? = some call) :
    (machine setup).Reachable (s.serve task call) := by
  have taken : (s.pool.start task call).started[s.pool.started.length]? = some call := by
    simp [Pool.start]
  have start : step setup s (.start task) =
      some { s with pool := s.pool.start task call } := by
    simp [step, queued]
  have invoke : step setup { s with pool := s.pool.start task call }
      (.invoke s.pool.started.length) = some (s.serve task call) := by
    simp only [step, taken, Option.map_some]
    rfl
  exact reachable_step (reachable_step reached start) invoke

/-- No other thread of the pool has moved. -/
theorem Pool.serve_eq (pool : Pool κ) (task : Nat) (call : Call κ) :
    (pool.start task call).invoke pool.started.length call =
      ⟨pool.tasks.eraseIdx task, pool.started, pool.running ++ [call]⟩ := by
  simp [Pool.start, Pool.invoke, List.eraseIdx_append_of_length_le]

/-- A slot's callback called on a frame while it runs on another one. -/
theorem running_breaks (reached : (machine setup).ReachableWithin Orderly s) {task : Nat}
    {call other : Call κ} (queued : s.pool.tasks[task]? = some call) (slotted : call.slot ≠ none)
    (running : other ∈ s.pool.running) (beside : other.Beside call) :
    ¬ InOrder (s.serve task call).view := by
  obtain ⟨lined, serial⟩ := reachable_lined reached
  obtain ⟨entered, located⟩ := reachable_entered reached.reachable
  obtain ⟨key, slot⟩ := Option.ne_none_iff_exists'.mp slotted
  intro ordered
  -- The callback still runs on the frame of `other`, and the slot's last call is `call`.
  have still : other ∈ (s.serve task call).view.pool.running := by
    simp only [State.view, State.serve, State.record, Pool.serve_eq]
    exact List.mem_append_left _ running
  have now := ordered.last other still key (beside.2.trans slot)
  have before := serial.last other running key (beside.2.trans slot)
  have one : call.frame = other.frame := by
    simpa [State.view, State.serve, State.record, calls, fromSlot, slot] using now
  have called : call.frame ∈ fromSlot key (calls s.log) := one ▸ List.mem_of_getLast? before
  have pending : call.frame ∈ fromSlot key s.pool.pending := by
    have member : call ∈ s.pool.pending := List.mem_append_right _ (List.mem_of_getElem? queued)
    exact List.mem_map_of_mem (List.mem_filter.mpr ⟨member, by simp [slot]⟩)
  have whole := (List.sublist_append_left _ _).trans (lined.slot key)
  have distinct := whole.nodup ((entered.nodup located).2 key)
  exact (List.nodup_append.mp distinct).2.2 _ called _ pending rfl

/-- What stands before a place of a list, and what stands there, in this order. -/
theorem pair_sublist {tasks : List (Call κ)} {task : Nat} {call other : Call κ}
    (queued : tasks[task]? = some call) (there : other ∈ tasks.take task) :
    [other, call].Sublist tasks := by
  have after : call ∈ tasks.drop task := List.mem_of_getElem? (i := 0) (by simpa using queued)
  have split := (List.singleton_sublist.mpr there).append (List.singleton_sublist.mpr after)
  rwa [List.take_append_drop] at split

/-- The condition cannot be weakened: if a thread may take a closure that is not the
first, the callback sees two frames in reverse, or a slot's callback runs on one while it
has run on a later one. -/
theorem disorderly_breaks (reached : (machine setup).ReachableWithin Orderly s) {task : Nat}
    {call : Call κ} (queued : s.pool.tasks[task]? = some call)
    (late : ¬ First s.pool task call) :
    ∃ next, (machine setup).Reachable next ∧ ¬ InOrder next.view := by
  have served := reachable_serve reached.reachable queued
  have pool := Pool.serve_eq s.pool task call
  by_cases waiting : ∀ other ∈ s.pool.tasks.take task, ¬ other.Beside call
  · by_cases started : ∀ other ∈ s.pool.started, ¬ other.Beside call
    · have running : ¬ (call.slot ≠ none → ∀ other ∈ s.pool.running, ¬ other.Beside call) :=
        fun running => late ⟨waiting, started, running⟩
      simp only [not_forall, not_not] at running
      obtain ⟨slotted, other, there, beside⟩ := running
      exact ⟨_, served, running_breaks reached queued slotted there beside⟩
    · -- A thread that has taken an earlier closure calls its callback behind.
      simp only [not_forall, not_not] at started
      obtain ⟨other, there, beside⟩ := started
      obtain ⟨place, taken⟩ := List.getElem?_of_mem there
      have member := List.mem_of_getElem? queued
      have pair : [other, call].Sublist s.pool.pending :=
        (List.singleton_sublist.mpr there).append (List.singleton_sublist.mpr member)
      have busy : (s.serve task call).pool.started[place]? = some other := by
        simpa only [State.serve, State.record, pool] using taken
      let next := { s.serve task call with
        pool := (s.serve task call).pool.invoke place other }.record (.invoked other)
      have moved : step setup (s.serve task call) (.invoke place) = some next := by
        simp [step, busy, next]
      exact ⟨next, reachable_step served moved, reversed_breaks reached beside pair rfl rfl⟩
  · -- A thread takes an earlier closure behind, and calls its callback.
    simp only [not_forall, not_not] at waiting
    obtain ⟨other, there, beside⟩ := waiting
    obtain ⟨earlier, below, found⟩ := List.mem_take_iff_getElem.mp there
    have pair : [other, call].Sublist s.pool.pending :=
      (pair_sublist queued there).trans (List.sublist_append_right ..)
    have before : earlier < task := (Nat.lt_min.mp below).1
    have left : (s.serve task call).pool.tasks[earlier]? = some other := by
      simp only [State.serve, State.record, pool, List.getElem?_eraseIdx_of_lt before]
      exact List.getElem?_eq_some_iff.mpr ⟨_, found⟩
    exact ⟨_, reachable_serve served left, reversed_breaks reached beside pair rfl rfl⟩

end Converse

section Examples

open FlowKernel.Reactor (costmapPath)

/-- What the pool holds can be searched. -/
instance (pool : Pool κ) (task : Nat) (call : Call κ) : Decidable (First pool task call) :=
  decidable_of_iff ((∀ other ∈ pool.tasks.take task, ¬ other.Beside call) ∧
    (∀ other ∈ pool.started, ¬ other.Beside call) ∧
      (call.slot ≠ none → ∀ other ∈ pool.running, ¬ other.Beside call))
    ⟨fun ⟨waiting, started, running⟩ => ⟨waiting, started, running⟩,
      fun first => ⟨first.waiting, first.started, first.running⟩⟩

/-- The condition on a run, checked along it. -/
def orderly (s : State κ) : Action → State κ → Bool
  | .start task, _ => s.pool.tasks[task]?.all fun call => decide (First s.pool task call)
  | _, _ => true

/-- What the check accepts meets the condition. -/
theorem orderly_of_check (s : State κ) (action : Action) (next : State κ)
    (passed : orderly s action next = true) : Orderly s action := by
  cases action with
  | start task =>
    intro call queued
    simpa [orderly, queued] using passed
  | _ => trivial

/-- Two telemetry frames and two costmap frames of the `basic_pubsub` handlers, up to the
closures given to the pool. -/
def handedRun : List Action :=
  let put : List Action := List.replicate 6 (.work 2)
  let round : List Action := [.loop, .loop, .loop, .drain [fnv1a_hash costmapPath], .loop]
  List.flatten
    [List.replicate 4 (.spawn (.ok ())),
      [.receive 1 [1], .work 1, .receive 1 [2], .work 1, .receive 2 [3]], put,
      [.loop, .loop, .loop, .loop], round,
      [.loop, .loop, .wake true, .receive 2 [4]], put, round]

/-- What an example shows of a state: the frames of the telemetry handler and of the
costmap slot, as they entered their channels and as the callbacks saw them. -/
def frameOrder (s : State Nat) : List (List Bytes) :=
  [acceptedFrames 1 s.log, fromQueue 1 (calls s.log),
    s.view.brought (fnv1a_hash costmapPath), fromSlot (fnv1a_hash costmapPath) (calls s.log)].map
      (List.map Frame.payload)

/-- The threads of the pool, each of which takes the next closure of its handler when the
one before has called its callback, and for the costmap has returned from it. -/
def politeThreads : List Action :=
  [.start 2, .start 0, .invoke 1, .start 0, .invoke 0, .invoke 0, .complete 1, .start 0,
    .invoke 0]

/-- Two threads for each handler that take the closures in order and call the callbacks in
the other order. -/
def racingThreads : List Action :=
  [.start 0, .start 0, .invoke 1, .invoke 0, .start 0, .start 0, .invoke 1, .invoke 0]

/-- Each callback sees its frames in order. -/
theorem orderlyRun_contract : ∃ s, (machine basicPubsub).execWithin orderly (init basicPubsub)
      (handedRun ++ politeThreads) = some s ∧
    frameOrder s = [[[1], [2]], [[1], [2]], [[3], [4]], [[3], [4]]] ∧ InOrder s.view := by
  have outcome : ((machine basicPubsub).execWithin orderly (init basicPubsub)
      (handedRun ++ politeThreads)).map frameOrder =
        some [[[1], [2]], [[1], [2]], [[3], [4]], [[3], [4]]] := by
    decide +kernel
  obtain ⟨s, ran, seen⟩ := Option.map_eq_some_iff.mp outcome
  refine ⟨s, ran, seen, @callback_contract _ basicPubsub s ?_⟩
  exact Machine.ReachableWithin.exec (fun s action next _ => orderly_of_check s action next)
    .start ran

/-- Each callback sees the later frame first. -/
theorem racingRun_reorders : ∃ s, (machine basicPubsub).exec (init basicPubsub)
      (handedRun ++ racingThreads) = some s ∧
    frameOrder s = [[[1], [2]], [[2], [1]], [[3], [4]], [[4], [3]]] ∧
      ¬ ∀ s : State Nat, (machine basicPubsub).Reachable s → InOrder s.view := by
  have outcome : ((machine basicPubsub).exec (init basicPubsub)
      (handedRun ++ racingThreads)).map frameOrder =
        some [[[1], [2]], [[2], [1]], [[3], [4]], [[4], [3]]] := by
    decide +kernel
  obtain ⟨s, ran, seen⟩ := Option.map_eq_some_iff.mp outcome
  refine ⟨s, ran, seen, fun ordered => ?_⟩
  have kept : fromQueue 1 (calls s.log) <+: acceptedFrames 1 s.log :=
    (ordered s (Machine.reachable_of_exec ran)).queue 1
  have payloads := kept.map Frame.payload
  simp only [frameOrder, List.map_cons, List.cons.injEq] at seen
  rw [seen.1, seen.2.1] at payloads
  exact absurd payloads (by decide)

end Examples

end FlowKernel.Rust.Reactor
