import FlowKernel.Foundation.History
import FlowKernel.Rust.Reactor

/-!
# Calls of `run()` that fail

Several calls of `register_handler` and `run()` on one Rust reactor. `run()` declares a
subscriber and spawns a task for each handler in turn, and returns an error from the middle
of that loop when a key expression does not parse or a subscriber is not declared. The join
handles of the tasks spawned so far are dropped with it, which detaches the tasks: they own
their subscribers and go on receiving. Once every task is spawned `run()` never returns.

Zenoh gives a publication to every subscriber whose key expression matches its key, in the
order of the publications. A task handles one sample in one step, and so does the loop.
-/

namespace FlowKernel.Rust.FailedStart

open Foundation
open FlowKernel.Rust.Reactor (HandlerConfig ReactorError queueLimit)

universe u
variable {κ : Type u}

/-- A sample, with the number of samples published before it. -/
structure Publication where
  serial : Nat
  key : Bytes
  payload : Bytes
deriving DecidableEq

/-- What the task of a subscriber owns, and the samples it has not taken yet. `call` is the
call of `run()` that spawned it. -/
structure Worker where
  call : Nat
  handler_idx : Nat
  path : Bytes
  path_hash : U64
  priority : TopicPriority
  inbox : List Publication
deriving DecidableEq

/-- A queued sample: the index of its handler, and what was published. -/
structure CriticalSample where
  handler_idx : Nat
  payload : Publication
deriving DecidableEq

/-- No `run()` is under way, or it spawns, or it loops, since the given number of
publications. -/
inductive Phase where
  | idle
  | spawning (idx : Nat)
  | looping (since : Nat)
deriving DecidableEq

/-- What the statements about runs speak of. No step reads the log. -/
inductive Event where
  | returned (call : Nat) (error : ReactorError)
  | published (publication : Publication)
  | offered (call : Nat) (sample : CriticalSample) (pushed : Bool)
  | put (call handler_idx : Nat) (publication : Publication)
  | unslotted (call handler_idx : Nat) (publication : Publication)
deriving DecidableEq

/-- Whether a key expression parses, and which keys it matches. -/
structure Zenoh where
  keyExpr : Bytes → Except String Unit
  intersects : Bytes → Bytes → Bool

/-- `calls` numbers the calls of `run()`. -/
structure State (κ : Type u) where
  handlers : List (Handler κ)
  background_cache : LatestSampleCache Publication
  critical_queue : List CriticalSample
  calls : Nat
  phase : Phase
  workers : List Worker
  serial : Nat
  log : List Event

/-- `spawn` is one round of the loop over the handlers. `pop` and `drain` are the main
loop's, at one sample and at one slot. -/
inductive Action (κ : Type u) where
  | register_handler (config : HandlerConfig κ)
  | run
  | spawn (declared : Except String Unit)
  | publish (key payload : Bytes)
  | work (worker : Nat)
  | pop
  | drain (hash : U64)

/-- A fresh reactor, with nothing registered. -/
def init (κ : Type u) : State κ where
  handlers := []
  background_cache := .new
  critical_queue := []
  calls := 0
  phase := .idle
  workers := []
  serial := 0
  log := []

/-- One more event. -/
def State.record (s : State κ) (event : Event) : State κ :=
  { s with log := s.log ++ [event] }

/-- A call between two calls of `run()`. -/
def register_handler (s : State κ) (config : HandlerConfig κ) : State κ :=
  let path_hash := fnv1a_hash config.path
  { s with
    background_cache :=
      if config.priority = .background then s.background_cache.pre_allocate path_hash
      else s.background_cache
    handlers := s.handlers ++ [⟨config.path, path_hash, config.priority, config.callback⟩] }

/-- `Err` is returned, and the handles of the tasks are dropped. -/
def fail (s : State κ) (error : ReactorError) : State κ :=
  { s with phase := .idle }.record (.returned s.calls error)

/-- One round of the loop over the handlers, or the entry of the main loop. -/
def spawn (zenoh : Zenoh) (s : State κ) (idx : Nat) (declared : Except String Unit) : State κ :=
  match s.handlers[idx]? with
  | none => { s with phase := .looping s.serial }
  | some handler =>
      match zenoh.keyExpr handler.path with
      | .error message => fail s (.ConfigError message)
      | .ok _ =>
          match declared with
          | .error message => fail s (.ZenohError message)
          | .ok _ =>
              { s with
                phase := .spawning (idx + 1)
                workers := s.workers ++ [⟨s.calls, idx, handler.path, handler.path_hash,
                  handler.priority, []⟩] }

/-- A sample reaches a subscriber if its key expression matches. -/
def Worker.hear (zenoh : Zenoh) (publication : Publication) (worker : Worker) : Worker :=
  if zenoh.intersects worker.path publication.key then
    { worker with inbox := worker.inbox ++ [publication] }
  else worker

/-- Zenoh hands a publication to every subscriber whose key expression intersects its key. -/
def publish (zenoh : Zenoh) (s : State κ) (key payload : Bytes) : State κ :=
  let publication := ⟨s.serial, key, payload⟩
  { s with
    serial := s.serial + 1
    workers := s.workers.map (Worker.hear zenoh publication) }.record (.published publication)

/-- What a task does with a sample. -/
def deliver (s : State κ) (worker : Worker) (publication : Publication) : State κ :=
  match worker.priority with
  | .critical | .normal =>
      let sample := ⟨worker.handler_idx, publication⟩
      let (pushed, queue) := BoundedFifo.push queueLimit s.critical_queue sample
      { s with critical_queue := queue }.record (.offered worker.call sample pushed)
  | .background =>
      match s.background_cache.get_slot worker.path_hash with
      | none => s.record (.unslotted worker.call worker.handler_idx publication)
      | some slot =>
          { s with
            background_cache := s.background_cache.setSlot worker.path_hash
              (slot.put worker.path_hash publication) }.record
                (.put worker.call worker.handler_idx publication)

/-- A registration, the beginning of a call, a round of its loop over the handlers, a
publication, or a task that goes on. -/
def step (zenoh : Zenoh) (s : State κ) : Action κ → Option (State κ)
  | .register_handler config =>
      match s.phase with
      | .idle => some (register_handler s config)
      | _ => none
  | .run =>
      match s.phase with
      | .idle => some { s with phase := .spawning 0, calls := s.calls + 1 }
      | _ => none
  | .spawn declared =>
      match s.phase with
      | .spawning idx => some (spawn zenoh s idx declared)
      | _ => none
  | .publish key payload => some (publish zenoh s key payload)
  | .work i =>
      match s.workers[i]? with
      | none => none
      | some worker =>
          match worker.inbox with
          | [] => none
          | publication :: rest =>
              some (deliver { s with workers := s.workers.set i { worker with inbox := rest } }
                worker publication)
  | .pop =>
      match s.phase, s.critical_queue with
      | .looping _, _ :: queue => some { s with critical_queue := queue }
      | _, _ => none
  | .drain hash =>
      match s.phase, s.background_cache.get_slot hash with
      | .looping _, some slot =>
          some { s with background_cache := s.background_cache.setSlot hash slot.take.2 }
      | _, _ => none

/-- Any calls in any order, with the tasks of all of them. -/
def machine (κ : Type u) (zenoh : Zenoh) : Machine (State κ) (Action κ) where
  start := init κ
  step := step zenoh

/-- The call, the handler and the sample of a push or a put. -/
def Event.delivery : Event → Option (Nat × Nat × Publication)
  | .offered call sample _ => some (call, sample.handler_idx, sample.payload)
  | .put call handler_idx publication => some (call, handler_idx, publication)
  | _ => none

/-- What has been pushed or put for a handler. A push that the full queue refuses counts:
the law is about how often the tasks hand a publication on, not about losses in the queue. -/
def delivered (idx : Nat) (log : List Event) : List Publication :=
  log.filterMap fun event => event.delivery.bind fun (_, handler_idx, publication) =>
    if handler_idx = idx then some publication else none

/-- What has been published. -/
def publications (log : List Event) : List Publication :=
  log.filterMap fun
    | .published publication => some publication
    | _ => none

/-- What the tasks of a handler have still to take. -/
def awaited (idx : Nat) (workers : List Worker) : List Publication :=
  (workers.filter fun worker => worker.handler_idx = idx).flatMap Worker.inbox

/-- A call that has returned an error has left no task behind, nothing is pushed or put by
a task of such a call, and a call that loops delivers what is published to each matching
handler once. -/
structure CleanStart (zenoh : Zenoh) (s : State κ) : Prop where
  stopped : ∀ worker ∈ s.workers, ∀ error, .returned worker.call error ∉ s.log
  silent : Justified (fun before event => ∀ call idx publication error,
    event.delivery = some (call, idx, publication) → .returned call error ∉ before) s.log
  once : ∀ since, s.phase = .looping since → ∀ publication ∈ publications s.log,
    since ≤ publication.serial → ∀ idx handler, s.handlers[idx]? = some handler →
      (delivered idx s.log).count publication + (awaited idx s.workers).count publication =
        if zenoh.intersects handler.path publication.key then 1 else 0

/-- A round that fails is the first one of its call. -/
def Early (zenoh : Zenoh) (s : State κ) : Action κ → Prop
  | .spawn declared => ∀ idx handler, s.phase = .spawning idx → s.handlers[idx]? = some handler →
      idx = 0 ∨ (∃ parsed, zenoh.keyExpr handler.path = .ok parsed) ∧ ∃ there, declared = .ok there
  | _ => True

section Inboxes

variable {workers : List Worker} {worker : Worker} {idx : Nat}

/-- With distinct keys, a key picks out one entry. -/
theorem filter_key {α β : Type} [DecidableEq β] {entries : List α} {key : α → β} {entry : α}
    (distinct : (entries.map key).Nodup) (member : entry ∈ entries) :
    entries.filter (fun found => key found = key entry) = [entry] := by
  induction entries with
  | nil => simp at member
  | cons first rest inductionHypothesis =>
    obtain ⟨fresh, tail⟩ := List.nodup_cons.mp distinct
    rcases List.mem_cons.mp member with rfl | later
    · rw [List.filter_cons_of_pos (by simp)]
      congr 1
      apply List.filter_eq_nil_iff.mpr
      intro found there same
      exact fresh (List.mem_map.mpr ⟨found, there, by simpa using same⟩)
    · have other : key first ≠ key entry := fun same =>
        fresh (same ▸ List.mem_map_of_mem later)
      rw [List.filter_cons_of_neg (by simpa using other)]
      exact inductionHypothesis tail later

/-- With one task for each index, what is awaited for a handler is in the inbox of its
task. -/
theorem awaited_eq {count : Nat} (numbered : workers.map Worker.handler_idx = List.range count)
    (there : workers[idx]? = some worker) :
    worker.handler_idx = idx ∧ awaited idx workers = worker.inbox := by
  have position : (workers.map Worker.handler_idx)[idx]? = some worker.handler_idx := by
    rw [List.getElem?_map, there, Option.map_some]
  have own : worker.handler_idx = idx := by
    rw [numbered] at position
    obtain ⟨bound, found⟩ := List.getElem?_eq_some_iff.mp position
    simpa using found.symm
  refine ⟨own, ?_⟩
  have distinct : (workers.map Worker.handler_idx).Nodup := numbered ▸ List.nodup_range
  have alone := filter_key distinct (List.mem_of_getElem? there)
  rw [own] at alone
  rw [awaited, alone, List.flatMap_singleton]

/-- What is awaited lies with some task. -/
theorem mem_awaited {publication : Publication} (member : publication ∈ awaited idx workers) :
    ∃ worker ∈ workers, publication ∈ worker.inbox := by
  obtain ⟨worker, found, waiting⟩ := List.mem_flatMap.mp member
  exact ⟨worker, List.mem_of_mem_filter found, waiting⟩

end Inboxes

section Histories

variable (log : List Event) (event : Event)

/-- The deliveries of a longer history end in those of its last event. -/
@[simp] theorem delivered_snoc (idx : Nat) :
    delivered idx (log ++ [event]) = delivered idx log ++ delivered idx [event] :=
  List.filterMap_append

/-- The publications of a longer history end in those of its last event. -/
@[simp] theorem publications_snoc :
    publications (log ++ [event]) = publications log ++ publications [event] :=
  List.filterMap_append

end Histories

/-- What a step can do. -/
inductive Transition (zenoh : Zenoh) (s : State κ) : Action κ → State κ → Prop
  | registered (here : s.phase = .idle) (config : HandlerConfig κ) :
      Transition zenoh s (.register_handler config) (register_handler s config)
  | called (here : s.phase = .idle) :
      Transition zenoh s .run { s with phase := .spawning 0, calls := s.calls + 1 }
  | spawned {idx : Nat} (here : s.phase = .spawning idx) (declared : Except String Unit) :
      Transition zenoh s (.spawn declared) (spawn zenoh s idx declared)
  | published (key payload : Bytes) :
      Transition zenoh s (.publish key payload) (publish zenoh s key payload)
  | taken {i : Nat} {worker : Worker} {publication : Publication} {rest : List Publication}
      (there : s.workers[i]? = some worker) (waiting : worker.inbox = publication :: rest) :
      Transition zenoh s (.work i) (deliver
        { s with workers := s.workers.set i { worker with inbox := rest } } worker publication)
  | popped {sample : CriticalSample} {queue : List CriticalSample}
      (waiting : s.critical_queue = sample :: queue) :
      Transition zenoh s .pop { s with critical_queue := queue }
  | drained {hash : U64} (slot : LatestSampleSlot Publication) :
      Transition zenoh s (.drain hash)
        { s with background_cache := s.background_cache.setSlot hash slot }

/-- Every step is one of the transitions. -/
theorem transition {zenoh : Zenoh} {s next : State κ} {action : Action κ}
    (stepped : step zenoh s action = some next) : Transition zenoh s action next := by
  cases action with
  | register_handler config =>
    cases here : s.phase <;> simp [step, here] at stepped
    exact stepped ▸ .registered here config
  | run =>
    cases here : s.phase <;> simp [step, here] at stepped
    exact stepped ▸ .called here
  | spawn declared =>
    cases here : s.phase <;> simp [step, here] at stepped
    exact stepped ▸ .spawned here declared
  | publish key payload =>
    obtain rfl := Option.some.inj stepped
    exact .published key payload
  | work i =>
    simp only [step] at stepped
    split at stepped
    next => simp at stepped
    next worker there =>
      split at stepped
      next => simp at stepped
      next publication rest waiting =>
        obtain rfl := Option.some.inj stepped
        exact .taken there waiting
  | pop =>
    simp only [step] at stepped
    split at stepped
    next waiting =>
      obtain rfl := Option.some.inj stepped
      exact .popped waiting
    next => simp at stepped
  | drain hash =>
    simp only [step] at stepped
    split at stepped
    next =>
      obtain rfl := Option.some.inj stepped
      exact .drained _
    next => simp at stepped

/-- A task at work changes neither the tasks nor the call. -/
theorem deliver_frame (s : State κ) (worker : Worker) (publication : Publication) :
    (deliver s worker publication).workers = s.workers ∧
      (deliver s worker publication).calls = s.calls ∧
      (deliver s worker publication).phase = s.phase := by
  unfold deliver
  split
  · exact ⟨rfl, rfl, rfl⟩
  · exact ⟨rfl, rfl, rfl⟩
  · split <;> exact ⟨rfl, rfl, rfl⟩

/-- A task that takes a sample stays the task it was. -/
theorem map_set_same {workers : List Worker} {β : Type} (field : Worker → β) {i : Nat}
    {worker changed : Worker} (there : workers[i]? = some worker)
    (same : field changed = field worker) :
    (workers.set i changed).map field = workers.map field := by
  obtain ⟨bound, found⟩ := List.getElem?_eq_some_iff.mp there
  rw [List.map_set]
  apply List.ext_getElem?
  intro idx
  rw [List.getElem?_set]
  split
  next here =>
    subst here
    simp [found, bound, same]
  next => rfl

/-- The number of tasks that the call under way has spawned. -/
def Phase.spawned (handlers : Nat) : Phase → Nat
  | .idle => 0
  | .spawning idx => idx
  | .looping _ => handlers

/-- What holds as long as only first rounds fail. -/
structure Sound (zenoh : Zenoh) (s : State κ) : Prop where
  slotted : ∀ handler ∈ s.handlers, handler.priority = .background →
    handler.path_hash ∈ s.background_cache.keys
  numbered : s.workers.map Worker.handler_idx = List.range (s.phase.spawned s.handlers.length)
  within : s.phase.spawned s.handlers.length ≤ s.handlers.length
  own : ∀ worker ∈ s.workers, worker.call = s.calls ∧ ∃ handler,
    s.handlers[worker.handler_idx]? = some handler ∧ worker.path = handler.path ∧
      worker.path_hash = handler.path_hash ∧ worker.priority = handler.priority
  ended : ∀ call error, .returned call error ∈ s.log →
    call ≤ s.calls ∧ (call = s.calls → s.phase = .idle)
  fresh : ∀ publication, (publication ∈ publications s.log ∨ (∃ idx,
    publication ∈ delivered idx s.log) ∨ ∃ worker ∈ s.workers, publication ∈ worker.inbox) →
      publication.serial < s.serial
  silent : Justified (fun before event => ∀ call idx publication error,
    event.delivery = some (call, idx, publication) → .returned call error ∉ before) s.log
  once : ∀ since, s.phase = .looping since → ∀ publication ∈ publications s.log,
    since ≤ publication.serial → ∀ idx handler, s.handlers[idx]? = some handler →
      (delivered idx s.log).count publication + (awaited idx s.workers).count publication =
        if zenoh.intersects handler.path publication.key then 1 else 0

variable {zenoh : Zenoh} {s next : State κ} {action : Action κ}

/-- A fresh reactor is sound. -/
theorem sound_init : Sound zenoh (init κ) where
  slotted := by simp [init]
  numbered := rfl
  within := Nat.le_refl _
  own := by simp [init]
  ended := by simp [init]
  fresh := by simp [init, publications, delivered]
  silent := .nil
  once := by simp [init]

namespace Sound

/-- Before the first round there is no task. -/
theorem unspawned (sound : Sound zenoh s) (none_ : s.phase.spawned s.handlers.length = 0) :
    s.workers = [] := by
  have numbered := sound.numbered
  rwa [none_, List.range_zero, List.map_eq_nil_iff] at numbered

/-- Outside the calls there is no task. -/
theorem idle (sound : Sound zenoh s) (here : s.phase = .idle) : s.workers = [] :=
  sound.unspawned (by rw [here]; rfl)

/-- A call of a task that is still there has not returned. -/
theorem running (sound : Sound zenoh s) {worker : Worker} (member : worker ∈ s.workers)
    (error : ReactorError) : .returned worker.call error ∉ s.log := by
  intro returned
  have stopped := (sound.ended _ _ returned).2 (sound.own worker member).1
  rw [sound.idle stopped] at member
  simp at member

/-- What is sound has started cleanly. -/
theorem clean (sound : Sound zenoh s) : CleanStart zenoh s where
  stopped _ member error := sound.running member error
  silent := sound.silent
  once := sound.once

/-- Registrations come between the calls. -/
theorem register (sound : Sound zenoh s) (here : s.phase = .idle) (config : HandlerConfig κ) :
    Sound zenoh (register_handler s config) where
  slotted := by
    intro handler member background
    rcases List.mem_append.mp member with earlier | new
    · have present := sound.slotted handler earlier background
      simp only [register_handler]
      split
      · exact LatestSampleCache.mem_pre_allocate.mpr (.inl present)
      · exact present
    · obtain rfl := List.mem_singleton.mp new
      simp only [register_handler, if_pos background]
      exact LatestSampleCache.mem_pre_allocate.mpr (.inr rfl)
  numbered := by simpa [register_handler, here, Phase.spawned] using sound.numbered
  within := by simp [register_handler, here, Phase.spawned]
  own := by simp [register_handler, sound.idle here]
  ended := sound.ended
  fresh := sound.fresh
  silent := sound.silent
  once := by simp [register_handler, here]

/-- The beginning of a call keeps the tasks sound. -/
theorem run (sound : Sound zenoh s) (here : s.phase = .idle) :
    Sound zenoh { s with phase := .spawning 0, calls := s.calls + 1 } where
  slotted := sound.slotted
  numbered := by simp [sound.idle here, Phase.spawned]
  within := Nat.zero_le _
  own := by simp [sound.idle here]
  ended := by
    intro call error returned
    have earlier : call ≤ s.calls := (sound.ended call error returned).1
    refine ⟨Nat.le_succ_of_le earlier, fun same => ?_⟩
    rw [same] at earlier
    exact absurd earlier (Nat.not_succ_le_self s.calls)
  fresh := sound.fresh
  silent := sound.silent
  once := by simp

/-- The first round fails: there is no task yet. -/
theorem failed (sound : Sound zenoh s) (here : s.phase = .spawning 0) (error : ReactorError) :
    Sound zenoh (fail s error) := by
  have nobody : s.workers = [] := sound.unspawned (by rw [here]; rfl)
  exact
    { slotted := sound.slotted
      numbered := by simp [fail, State.record, nobody, Phase.spawned]
      within := Nat.zero_le _
      own := by simp [fail, State.record, nobody]
      ended := by
        intro call found returned
        simp only [fail, State.record, List.mem_append, List.mem_singleton, Event.returned.injEq]
          at returned ⊢
        rcases returned with earlier | ⟨rfl, -⟩
        · exact ⟨(sound.ended call found earlier).1, fun _ => trivial⟩
        · exact ⟨Nat.le_refl _, fun _ => trivial⟩
      fresh := by simpa [fail, State.record, publications, delivered, Event.delivery] using sound.fresh
      silent := by
        apply sound.silent.snoc
        simp [Event.delivery]
      once := by simp [fail, State.record] }

/-- Behind the last handler the loop begins, with a task for each. -/
theorem enter (sound : Sound zenoh s) {idx : Nat} (here : s.phase = .spawning idx)
    (ended : s.handlers[idx]? = none) : Sound zenoh { s with phase := .looping s.serial } := by
  have within := sound.within
  have numbered := sound.numbered
  rw [here] at within numbered
  have all : idx = s.handlers.length :=
    Nat.le_antisymm within (List.getElem?_eq_none_iff.mp ended)
  exact
    { slotted := sound.slotted
      numbered := by simpa [Phase.spawned, all] using numbered
      within := Nat.le_refl _
      own := sound.own
      ended := by
        intro call error returned
        obtain ⟨earlier, stopped⟩ := sound.ended call error returned
        refine ⟨earlier, fun same => ?_⟩
        have idle := stopped same
        simp [here] at idle
      fresh := sound.fresh
      silent := sound.silent
      once := by
        rintro since ⟨⟩ publication published later
        have earlier := sound.fresh publication (.inl published)
        omega }

/-- A round that succeeds adds the task of its handler. -/
theorem spawned (sound : Sound zenoh s) {idx : Nat} {handler : Handler κ}
    (here : s.phase = .spawning idx) (handlers : s.handlers[idx]? = some handler) :
    Sound zenoh { s with
      phase := .spawning (idx + 1)
      workers := s.workers ++ [⟨s.calls, idx, handler.path, handler.path_hash,
        handler.priority, []⟩] } := by
  have numbered := sound.numbered
  rw [here] at numbered
  exact
    { slotted := sound.slotted
      numbered := by
        rw [List.map_append, numbered]
        exact List.range_succ.symm
      within := (List.getElem?_eq_some_iff.mp handlers).1
      own := by
        intro worker member
        rcases List.mem_append.mp member with earlier | new
        · exact sound.own worker earlier
        · obtain rfl := List.mem_singleton.mp new
          exact ⟨rfl, handler, handlers, rfl, rfl, rfl⟩
      ended := by
        intro call error returned
        obtain ⟨earlier, stopped⟩ := sound.ended call error returned
        refine ⟨earlier, fun same => ?_⟩
        have idle := stopped same
        simp [here] at idle
      fresh := by
        rintro publication (published | arrived | ⟨worker, member, waiting⟩)
        · exact sound.fresh publication (.inl published)
        · exact sound.fresh publication (.inr (.inl arrived))
        · rcases List.mem_append.mp member with earlier | new
          · exact sound.fresh publication (.inr (.inr ⟨worker, earlier, waiting⟩))
          · obtain rfl := List.mem_singleton.mp new
            simp at waiting
      silent := sound.silent
      once := by simp }

/-- A round that may only fail first keeps the tasks sound. -/
theorem spawn (sound : Sound zenoh s) {idx : Nat} (here : s.phase = .spawning idx)
    {declared : Except String Unit} (early : Early zenoh s (.spawn declared)) :
    Sound zenoh (spawn zenoh s idx declared) := by
  unfold FailedStart.spawn
  split
  next ended => exact sound.enter here ended
  next handler handlers =>
    rcases early idx handler here handlers with rfl | ⟨⟨parsed, ok⟩, there, done⟩
    · split
      next => exact sound.failed here _
      next =>
        split
        next => exact sound.failed here _
        next => exact sound.spawned here handlers
    · subst done
      rw [ok]
      exact sound.spawned here handlers

/-- A loop has a task for every handler. -/
theorem tasked (sound : Sound zenoh s) {since idx : Nat} {handler : Handler κ}
    (here : s.phase = .looping since) (handlers : s.handlers[idx]? = some handler) :
    ∃ worker, s.workers[idx]? = some worker ∧ worker.path = handler.path ∧
      awaited idx s.workers = worker.inbox := by
  have numbered := sound.numbered
  rw [here] at numbered
  have size : s.workers.length = s.handlers.length := by
    simpa [Phase.spawned] using congrArg List.length numbered
  have bound : idx < s.workers.length := by
    rw [size]
    exact (List.getElem?_eq_some_iff.mp handlers).1
  have there : s.workers[idx]? = some s.workers[idx] := List.getElem?_eq_getElem bound
  obtain ⟨own, inbox⟩ := awaited_eq numbered there
  obtain ⟨-, found, present, path, -, -⟩ := sound.own _ (List.mem_of_getElem? there)
  rw [own, handlers] at present
  obtain rfl := Option.some.inj present
  exact ⟨_, there, path, inbox⟩

/-- What is still to be published has neither been handled nor is awaited. -/
theorem unseen (sound : Sound zenoh s) {publication : Publication}
    (later : s.serial ≤ publication.serial) (idx : Nat) :
    publication ∉ delivered idx s.log ∧ publication ∉ awaited idx s.workers := by
  constructor
  · intro arrived
    exact Nat.not_le_of_lt (sound.fresh publication (.inr (.inl ⟨idx, arrived⟩))) later
  · intro waiting
    have held := mem_awaited waiting
    exact Nat.not_le_of_lt (sound.fresh publication (.inr (.inr held))) later

/-- A task that hears a publication stays with its handler. -/
@[simp] theorem handler_idx_hear (publication : Publication) (worker : Worker) :
    (worker.hear zenoh publication).handler_idx = worker.handler_idx := by
  unfold Worker.hear
  split <;> rfl

/-- A task hears what its key expression intersects. -/
theorem inbox_hear (publication : Publication) (worker : Worker) :
    (worker.hear zenoh publication).inbox = worker.inbox ++
      if zenoh.intersects worker.path publication.key then [publication] else [] := by
  unfold Worker.hear
  split <;> simp

/-- A publication does not renumber the tasks. -/
theorem numbered_hear (sound : Sound zenoh s) (publication : Publication) :
    (s.workers.map (Worker.hear zenoh publication)).map Worker.handler_idx =
      List.range (s.phase.spawned s.handlers.length) := by
  rw [List.map_map, ← sound.numbered]
  exact List.map_congr_left fun worker _ => handler_idx_hear publication worker

/-- In a loop a publication is awaited once by each handler that matches it. -/
theorem awaited_hear (sound : Sound zenoh s) {since idx : Nat} {handler : Handler κ}
    (here : s.phase = .looping since) (handlers : s.handlers[idx]? = some handler)
    (publication : Publication) :
    awaited idx (s.workers.map (Worker.hear zenoh publication)) = awaited idx s.workers ++
      if zenoh.intersects handler.path publication.key then [publication] else [] := by
  obtain ⟨worker, there, path, inbox⟩ := sound.tasked here handlers
  have thereNow : (s.workers.map (Worker.hear zenoh publication))[idx]? =
      some (worker.hear zenoh publication) := by
    rw [List.getElem?_map, there, Option.map_some]
  rw [(awaited_eq (sound.numbered_hear publication) thereNow).2, inbox_hear, inbox, path]

/-- The new sample is the only one with its number. -/
theorem publish_fresh (sound : Sound zenoh s) (key payload : Bytes) {publication : Publication}
    (there : publication ∈ publications (publish zenoh s key payload).log ∨
      (∃ idx, publication ∈ delivered idx (publish zenoh s key payload).log) ∨
        ∃ worker ∈ (publish zenoh s key payload).workers, publication ∈ worker.inbox) :
    publication.serial < s.serial + 1 := by
  have new : publications [.published ⟨s.serial, key, payload⟩] = [⟨s.serial, key, payload⟩] := rfl
  have none_ : ∀ idx, delivered idx [.published ⟨s.serial, key, payload⟩] = [] := fun _ => rfl
  simp only [FailedStart.publish, State.record, publications_snoc, new, List.mem_append,
    List.mem_singleton, delivered_snoc, none_, List.append_nil, List.mem_map] at there
  rcases there with (published | rfl) | arrived | ⟨_, ⟨before, member, rfl⟩, waiting⟩
  · exact Nat.lt_succ_of_lt (sound.fresh publication (.inl published))
  · exact Nat.lt_succ_self _
  · exact Nat.lt_succ_of_lt (sound.fresh publication (.inr (.inl arrived)))
  · rw [inbox_hear] at waiting
    rcases List.mem_append.mp waiting with earlier | last
    · exact Nat.lt_succ_of_lt (sound.fresh publication (.inr (.inr ⟨before, member, earlier⟩)))
    · obtain rfl : publication = ⟨s.serial, key, payload⟩ := by
        split at last
        · exact List.mem_singleton.mp last
        · simp at last
      exact Nat.lt_succ_self _

/-- A sample reaches a matching task once. -/
theorem publish (sound : Sound zenoh s) (key payload : Bytes) :
    Sound zenoh (publish zenoh s key payload) where
  slotted := sound.slotted
  numbered := sound.numbered_hear _
  within := sound.within
  own := by
    intro worker member
    obtain ⟨before, earlier, rfl⟩ := List.mem_map.mp member
    have own := sound.own before earlier
    unfold Worker.hear
    split <;> exact own
  ended := by
    intro call error returned
    apply sound.ended call error
    simpa [FailedStart.publish, State.record] using returned
  fresh _ there := sound.publish_fresh key payload there
  silent := by
    apply sound.silent.snoc
    simp [Event.delivery]
  once := by
    intro since here publication published later idx handler handlers
    have new : publications [.published ⟨s.serial, key, payload⟩] =
        [⟨s.serial, key, payload⟩] := rfl
    have none_ : delivered idx [.published ⟨s.serial, key, payload⟩] = [] := rfl
    simp only [FailedStart.publish, State.record, publications_snoc, new, List.mem_append,
      List.mem_singleton, delivered_snoc, none_, List.append_nil] at published ⊢
    rw [sound.awaited_hear here handlers, List.count_append, ← Nat.add_assoc]
    rcases published with earlier | rfl
    · have other : publication ≠ ⟨s.serial, key, payload⟩ := by
        rintro rfl
        exact Nat.lt_irrefl _ (sound.fresh _ (.inl earlier))
      rw [sound.once since here publication earlier later idx handler handlers]
      split <;> split <;> simp [other.symm]
    · obtain ⟨undelivered, unawaited⟩ :=
        sound.unseen (Nat.le_refl (Publication.serial ⟨s.serial, key, payload⟩)) idx
      rw [List.count_eq_zero.mpr undelivered, List.count_eq_zero.mpr unawaited]
      split <;> simp

/-- The samples of one handler, when a task takes its next one. -/
theorem delivered_single {event : Event} {call handler_idx : Nat} {publication : Publication}
    (delivers : event.delivery = some (call, handler_idx, publication)) (idx : Nat) :
    delivered idx [event] = if handler_idx = idx then [publication] else [] := by
  unfold delivered
  rw [List.filterMap_cons, delivers]
  by_cases same : handler_idx = idx <;> simp [same]

/-- A delivery publishes nothing. -/
theorem publications_single {event : Event} {call handler_idx : Nat} {publication : Publication}
    (delivers : event.delivery = some (call, handler_idx, publication)) :
    publications [event] = [] := by
  cases event <;> first | rfl | simp [Event.delivery] at delivers

section Taking

variable {i : Nat} {worker : Worker} {publication : Publication} {rest : List Publication}

/-- Nor does a task that takes a sample. -/
theorem numbered_taken (sound : Sound zenoh s) (there : s.workers[i]? = some worker) :
    (s.workers.set i { worker with inbox := rest }).map Worker.handler_idx =
      List.range (s.phase.spawned s.handlers.length) := by
  rw [← sound.numbered]
  exact map_set_same _ there rfl

/-- In a loop a task takes the first of what its handler awaits. -/
theorem awaited_taken (sound : Sound zenoh s) {since idx : Nat} {handler : Handler κ}
    (here : s.phase = .looping since) (handlers : s.handlers[idx]? = some handler)
    (there : s.workers[i]? = some worker) (waiting : worker.inbox = publication :: rest) :
    awaited idx s.workers = (if worker.handler_idx = idx then [publication] else []) ++
      awaited idx (s.workers.set i { worker with inbox := rest }) := by
  obtain ⟨bound, -⟩ := List.getElem?_eq_some_iff.mp there
  obtain ⟨holder, present, -, inbox⟩ := sound.tasked here handlers
  obtain ⟨position, -⟩ := awaited_eq sound.numbered there
  have numbered : (s.workers.set i { worker with inbox := rest }).map Worker.handler_idx = _ :=
    sound.numbered_taken there
  by_cases same : i = idx
  · subst same
    have thereNow : (s.workers.set i { worker with inbox := rest })[i]? =
        some { worker with inbox := rest } := List.getElem?_set_self bound
    obtain rfl : worker = holder := Option.some.inj (there.symm.trans present)
    rw [(awaited_eq numbered thereNow).2, inbox, if_pos position, waiting]
    rfl
  · have thereNow : (s.workers.set i { worker with inbox := rest })[idx]? = some holder := by
      rw [List.getElem?_set_ne same, present]
    rw [(awaited_eq numbered thereNow).2, inbox, if_neg (position ▸ same), List.nil_append]

/-- A sample in the hands of a task has been published. -/
theorem held_fresh (sound : Sound zenoh s) (there : s.workers[i]? = some worker)
    {waiting : Publication} (inside : waiting ∈ worker.inbox) : waiting.serial < s.serial :=
  sound.fresh waiting (.inr (.inr ⟨worker, List.mem_of_getElem? there, inside⟩))

/-- A task moves one sample of its inbox to the queue or to its slot. -/
theorem taken (sound : Sound zenoh s) (event : Event) (queue : List CriticalSample)
    (cache : LatestSampleCache Publication) (there : s.workers[i]? = some worker)
    (waiting : worker.inbox = publication :: rest)
    (delivers : event.delivery = some (worker.call, worker.handler_idx, publication))
    (keys : cache.keys = s.background_cache.keys) :
    Sound zenoh { s with
      workers := s.workers.set i { worker with inbox := rest }
      critical_queue := queue
      background_cache := cache
      log := s.log ++ [event] } := by
  have member : worker ∈ s.workers := List.mem_of_getElem? there
  have members : ∀ found ∈ s.workers.set i { worker with inbox := rest },
      found ∈ s.workers ∨ found = { worker with inbox := rest } :=
    fun found there => List.mem_or_eq_of_mem_set there
  have published : publications (s.log ++ [event]) = publications s.log := by
    rw [publications_snoc, publications_single delivers, List.append_nil]
  refine ⟨?_, sound.numbered_taken there, sound.within, ?_, ?_, ?_, ?_, ?_⟩
  · intro handler registered background
    rw [keys]
    exact sound.slotted handler registered background
  · intro found present
    rcases members found present with earlier | rfl
    · exact sound.own found earlier
    · exact sound.own worker member
  · intro call error returned
    apply sound.ended call error
    rcases List.mem_append.mp returned with earlier | new
    · exact earlier
    · obtain rfl := List.mem_singleton.mp new
      simp [Event.delivery] at delivers
  · rintro other (earlier | ⟨idx, arrived⟩ | ⟨holder, present, inside⟩)
    · exact sound.fresh other (.inl (published ▸ earlier))
    · rw [delivered_snoc, delivered_single delivers] at arrived
      rcases List.mem_append.mp arrived with earlier | new
      · exact sound.fresh other (.inr (.inl ⟨idx, earlier⟩))
      · obtain rfl : other = publication := by
          split at new
          · exact List.mem_singleton.mp new
          · simp at new
        exact sound.held_fresh there (by simp [waiting])
    · rcases members holder present with earlier | rfl
      · exact sound.fresh other (.inr (.inr ⟨holder, earlier, inside⟩))
      · exact sound.held_fresh there (by simp [waiting, inside])
  · apply sound.silent.snoc
    intro call idx other error same
    rw [delivers] at same
    obtain ⟨rfl, -⟩ := Prod.mk.inj (Option.some.inj same)
    exact sound.running member error
  · intro since here other earlier later idx handler handlers
    have before := sound.once since here other (published ▸ earlier) later idx handler handlers
    rw [sound.awaited_taken here handlers there waiting, List.count_append] at before
    rw [delivered_snoc, delivered_single delivers, List.count_append, Nat.add_assoc, before]

end Taking

/-- The slot of a Background task is there. -/
theorem slot (sound : Sound zenoh s) {worker : Worker} (member : worker ∈ s.workers)
    (background : worker.priority = .background) :
    ∃ slot, s.background_cache.get_slot worker.path_hash = some slot := by
  obtain ⟨-, handler, handlers, -, hash, priority⟩ := sound.own worker member
  rw [hash]
  have present := sound.slotted handler (List.mem_of_getElem? handlers) (priority ▸ background)
  exact ⟨_, if_pos present⟩

/-- A task that takes its oldest publication hands it on once. -/
theorem deliver (sound : Sound zenoh s) {i : Nat} {worker : Worker} {publication : Publication}
    {rest : List Publication} (there : s.workers[i]? = some worker)
    (waiting : worker.inbox = publication :: rest) :
    Sound zenoh (deliver { s with workers := s.workers.set i { worker with inbox := rest } }
      worker publication) := by
  have queued : ∀ pushed queue, Sound zenoh { s with
      workers := s.workers.set i { worker with inbox := rest }
      critical_queue := queue
      log := s.log ++ [.offered worker.call ⟨worker.handler_idx, publication⟩ pushed] } :=
    fun _ _ => sound.taken (.offered ..) _ _ there waiting rfl rfl
  unfold FailedStart.deliver
  split
  next => exact queued _ _
  next => exact queued _ _
  next background =>
    obtain ⟨slot, found⟩ := sound.slot (List.mem_of_getElem? there) background
    simp only [found]
    exact sound.taken (.put worker.call worker.handler_idx publication) s.critical_queue _
      there waiting rfl (LatestSampleCache.keys_setSlot ..)

/-- The loop touches neither the tasks nor the history. -/
theorem loop (sound : Sound zenoh s) (queue : List CriticalSample)
    {cache : LatestSampleCache Publication} (keys : cache.keys = s.background_cache.keys) :
    Sound zenoh { s with critical_queue := queue, background_cache := cache } where
  slotted := by
    intro handler registered background
    rw [keys]
    exact sound.slotted handler registered background
  numbered := sound.numbered
  within := sound.within
  own := sound.own
  ended := sound.ended
  fresh := sound.fresh
  silent := sound.silent
  once := sound.once

end Sound

/-- A step that meets the condition keeps the tasks sound. -/
theorem sound_step (sound : Sound zenoh s) (early : Early zenoh s action)
    (stepped : step zenoh s action = some next) : Sound zenoh next := by
  cases transition stepped with
  | registered here config => exact sound.register here config
  | called here => exact sound.run here
  | spawned here declared => exact sound.spawn here early
  | published key payload => exact sound.publish key payload
  | taken there waiting => exact sound.deliver there waiting
  | popped waiting => exact sound.loop _ rfl
  | drained slot => exact sound.loop s.critical_queue (LatestSampleCache.keys_setSlot ..)

/-- In every run whose rounds fail first or not at all the tasks are sound. -/
theorem reachable_sound (reached : (machine κ zenoh).ReachableWithin (Early zenoh) s) :
    Sound zenoh s :=
  Machine.invariant_within (Sound zenoh) sound_init
    (fun _ _ _ _ sound early stepped => sound_step sound early stepped) reached

/-- The tasks that the call under way has spawned. -/
def State.own (s : State κ) : List Worker :=
  s.workers.filter fun worker => worker.call = s.calls

/-- What holds of every run: a call has as many tasks as rounds. -/
structure Counted (s : State κ) : Prop where
  known : ∀ worker ∈ s.workers, worker.call ≤ s.calls
  rounds : ∀ idx, s.phase = .spawning idx → s.own.length = idx

namespace Counted

/-- The tasks of a call are counted by the calls alone. -/
theorem of_calls {workers : List Worker} {calls : List Nat}
    (same : workers.map Worker.call = calls) (call : Nat) :
    (workers.filter fun worker => worker.call = call).length = (calls.filter (· = call)).length := by
  rw [← same, List.filter_map, List.length_map]
  rfl

/-- Steps that leave the calls of the tasks as they are. -/
theorem keep (counted : Counted s) (calls : next.calls = s.calls)
    (workers : next.workers.map Worker.call = s.workers.map Worker.call)
    (phase : ∀ idx, next.phase = .spawning idx → s.phase = .spawning idx) : Counted next where
  known := by
    intro worker member
    have present : worker.call ∈ s.workers.map Worker.call := workers ▸ List.mem_map_of_mem member
    obtain ⟨before, earlier, same⟩ := List.mem_map.mp present
    rw [calls, ← same]
    exact counted.known before earlier
  rounds := by
    intro idx here
    have before := counted.rounds idx (phase idx here)
    rw [State.own, of_calls rfl] at before ⊢
    rw [workers, calls]
    exact before

/-- The beginning of a call keeps the counts. -/
theorem run (counted : Counted s) :
    Counted { s with phase := .spawning 0, calls := s.calls + 1 } where
  known worker member := Nat.le_succ_of_le (counted.known worker member)
  rounds := by
    rintro idx ⟨⟩
    apply List.length_eq_zero_iff.mpr
    apply List.filter_eq_nil_iff.mpr
    intro worker member
    have earlier := counted.known worker member
    simp only [decide_eq_true_eq]
    omega

/-- A round keeps the counts. -/
theorem spawn (counted : Counted s) {idx : Nat} (here : s.phase = .spawning idx)
    (declared : Except String Unit) : Counted (spawn zenoh s idx declared) := by
  have failed : ∀ error, Counted (fail s error) := fun error =>
    counted.keep rfl rfl (by simp [fail, State.record])
  unfold FailedStart.spawn
  split
  next => exact counted.keep rfl rfl (by simp)
  next handler handlers =>
    split
    next => exact failed _
    next =>
      split
      next => exact failed _
      next =>
        refine ⟨?_, ?_⟩
        · intro worker member
          rcases List.mem_append.mp member with earlier | new
          · exact counted.known worker earlier
          · obtain rfl := List.mem_singleton.mp new
            exact Nat.le_refl _
        · rintro round ⟨⟩
          have before := counted.rounds idx here
          rw [State.own] at before ⊢
          rw [List.filter_append, List.length_append, before]
          simp

/-- Every step keeps the counts. -/
theorem step (counted : Counted s) (stepped : step zenoh s action = some next) :
    Counted next := by
  cases transition stepped with
  | registered here config => exact counted.keep rfl rfl (fun _ same => same)
  | called here => exact counted.run
  | spawned here declared => exact counted.spawn here declared
  | published key payload =>
    refine counted.keep rfl ?_ (fun _ same => same)
    simp only [FailedStart.publish, State.record, List.map_map]
    apply List.map_congr_left
    intro worker _
    simp only [Function.comp, Worker.hear]
    split <;> rfl
  | @taken i worker publication rest there waiting =>
    obtain ⟨workers, calls, phase⟩ := deliver_frame
      { s with workers := s.workers.set i { worker with inbox := rest } } worker publication
    refine counted.keep calls ?_ (fun idx here => phase ▸ here)
    rw [workers]
    exact map_set_same Worker.call there rfl
  | popped waiting => exact counted.keep rfl rfl (fun _ same => same)
  | drained slot => exact counted.keep rfl rfl (fun _ same => same)

end Counted

/-- In every run the call under way has spawned one task in each round. -/
theorem reachable_counted (reached : (machine κ zenoh).Reachable s) : Counted s :=
  Machine.invariant Counted ⟨by simp [machine, init], by simp [machine, init]⟩
    (fun _ _ _ _ counted stepped => counted.step stepped) reached

/-- A round that ends its call has failed. -/
theorem failed_of_idle {idx : Nat} {declared : Except String Unit}
    (returned : (spawn zenoh s idx declared).phase = .idle) :
    ∃ error, spawn zenoh s idx declared = fail s error := by
  unfold spawn at returned ⊢
  split at returned
  next => simp at returned
  next handler handlers =>
    split at returned
    next => exact ⟨_, rfl⟩
    next =>
      split at returned
      next => exact ⟨_, rfl⟩
      next => simp at returned

/-- Runs in which only first rounds fail start cleanly, and a failing round leaves no task of
its call behind exactly if it is the first one. -/
theorem only_first_rounds_clean (zenoh : Zenoh) :
    (∀ s : State κ, (machine κ zenoh).ReachableWithin (Early zenoh) s → CleanStart zenoh s) ∧
      ∀ (s next : State κ) (idx : Nat) (declared : Except String Unit),
        (machine κ zenoh).Reachable s → s.phase = .spawning idx →
        (machine κ zenoh).step s (.spawn declared) = some next → next.phase = .idle →
          ((∀ worker ∈ next.workers, worker.call ≠ next.calls) ↔ idx = 0) := by
  refine ⟨fun s reached => (reachable_sound reached).clean, ?_⟩
  intro s next idx declared reached here stepped returned
  have rounds := (reachable_counted reached).rounds idx here
  obtain rfl : spawn zenoh s idx declared = next := by simpa [machine, step, here] using stepped
  obtain ⟨error, failed⟩ := failed_of_idle returned
  rw [failed, ← rounds, List.length_eq_zero_iff, State.own, List.filter_eq_nil_iff]
  simp [fail, State.record]

section Examples

/-- Keys without wildcards. -/
def plainKeys : Zenoh where
  keyExpr _ := .ok ()
  intersects path key := path = key

/-- A condition on a step and its outcome that a run can be checked against. -/
def early (s : State κ) : Action κ → State κ → Bool
  | .spawn _, next => next.phase ≠ .idle || s.phase = .spawning 0
  | _, _ => true

/-- What the check accepts meets the condition. -/
theorem early_of_check (stepped : step zenoh s action = some next)
    (passed : early s action next = true) : Early zenoh s action := by
  cases transition stepped with
  | @spawned idx here declared =>
    intro round handler phase handlers
    obtain rfl : idx = round := by simpa [here] using phase
    by_cases first : idx = 0
    · exact .inl first
    · right
      have survived : (spawn zenoh s idx declared).phase ≠ .idle := by
        simpa [early, here, first] using passed
      unfold spawn at survived
      simp only [handlers] at survived
      split at survived
      next => exact absurd rfl survived
      next parsed ok =>
        split at survived
        next => exact absurd rfl survived
        next there => exact ⟨⟨parsed, ok⟩, there, rfl⟩
  | _ => trivial

/-- The two handlers of the runs below. -/
def registrations : List (Action Nat) :=
  [.register_handler ⟨[97], .critical, 0⟩, .register_handler ⟨[98], .normal, 1⟩]

/-- A call whose first subscriber is not declared, another one, and a frame. -/
def firstRoundRun : List (Action Nat) :=
  registrations ++ [.run, .spawn (.error "closed"), .run, .spawn (.ok ()), .spawn (.ok ()),
    .spawn (.ok ()), .publish [97] [1], .work 0]

/-- A call that fails in its first round leaves the next one clean, and one that fails later
would not. -/
theorem firstRoundRun_clean :
    (∃ s, (machine Nat plainKeys).execWithin early (init Nat) firstRoundRun = some s ∧
      delivered 0 s.log = [⟨0, [97], [1]⟩] ∧ CleanStart plainKeys s) ∧
    ∃ s next, (machine Nat plainKeys).exec (init Nat) (registrations ++ [.run]) = some s ∧
      (machine Nat plainKeys).step s (.spawn (.error "closed")) = some next ∧
      ∀ worker ∈ next.workers, worker.call ≠ next.calls := by
  have law := @only_first_rounds_clean Nat plainKeys
  constructor
  · have outcome : ((machine Nat plainKeys).execWithin early (init Nat) firstRoundRun).map
        (fun s => delivered 0 s.log) = some [⟨0, [97], [1]⟩] := by
      decide +kernel
    obtain ⟨s, ran, seen⟩ := Option.map_eq_some_iff.mp outcome
    refine ⟨s, ran, seen, law.1 s ?_⟩
    exact Machine.ReachableWithin.exec
      (fun _ _ _ stepped passed => early_of_check stepped passed) .start ran
  · have outcome : ((machine Nat plainKeys).exec (init Nat) (registrations ++ [.run])).bind
        (fun s => ((machine Nat plainKeys).step s (.spawn (.error "closed"))).map
          fun next => (s.phase, next.phase)) = some (.spawning 0, .idle) := by
      decide +kernel
    obtain ⟨s, ran, tail⟩ := Option.bind_eq_some_iff.mp outcome
    obtain ⟨next, stepped, phases⟩ := Option.map_eq_some_iff.mp tail
    obtain ⟨here, returned⟩ := Prod.mk.inj phases
    exact ⟨s, next, ran, stepped, (law.2 s next 0 _ (Machine.reachable_of_exec ran) here stepped
      returned).mpr rfl⟩

/-- The second subscriber is not declared, and the call is repeated, with a frame before and
a frame after it. -/
def secondRoundRun : List (Action Nat) :=
  registrations ++ [.run, .spawn (.ok ()), .spawn (.error "closed"), .publish [97] [1],
    .work 0, .run, .spawn (.ok ()), .spawn (.ok ()), .spawn (.ok ()), .publish [97] [2],
    .work 0, .work 1]

/-- The task that the failed call has left behind pushes on, and after the next call a frame
is delivered twice. -/
theorem secondRoundRun_duplicates :
    (∃ s, (machine Nat plainKeys).exec (init Nat) secondRoundRun = some s ∧
      s.workers.map Worker.call = [1, 2, 2] ∧ .returned 1 (.ZenohError "closed") ∈ s.log ∧
      delivered 0 s.log = [⟨0, [97], [1]⟩, ⟨1, [97], [2]⟩, ⟨1, [97], [2]⟩]) ∧
    ¬ ∀ s : State Nat, (machine Nat plainKeys).Reachable s → CleanStart plainKeys s := by
  have outcome : ((machine Nat plainKeys).exec (init Nat) secondRoundRun).map
      (fun s => (s.workers.map Worker.call, s.log.contains (.returned 1 (.ZenohError "closed")),
        delivered 0 s.log)) =
      some ([1, 2, 2], true, [⟨0, [97], [1]⟩, ⟨1, [97], [2]⟩, ⟨1, [97], [2]⟩]) := by
    decide +kernel
  obtain ⟨s, ran, seen⟩ := Option.map_eq_some_iff.mp outcome
  simp only [Prod.mk.injEq, List.contains_iff_mem] at seen
  obtain ⟨calls, returned, twice⟩ := seen
  refine ⟨⟨s, ran, calls, returned, twice⟩, fun every => ?_⟩
  obtain ⟨worker, member, first⟩ : ∃ worker ∈ s.workers, worker.call = 1 :=
    List.mem_map.mp (calls ▸ List.mem_cons_self)
  exact (every s (Machine.reachable_of_exec ran)).stopped worker member _ (first ▸ returned)

end Examples

end FlowKernel.Rust.FailedStart
