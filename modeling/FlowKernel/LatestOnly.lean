import FlowKernel.Delivery

/-!
# Latest-only, for each path hash

A slot belongs to a path hash, not to the key a frame arrived on. What a drain
guarantees is therefore stated for hashes: it visits the slot of every BACKGROUND
handler, and the last frame put into the slot before that visit has been
dispatched when the drain ends. A frame is discarded only by the next put into
its own slot.

Under a handler whose key expression has wildcards the frames of different keys
share a slot, and a frame of one key is discarded by a frame of another.
-/

namespace FlowKernel.Reactor

open Foundation

universe u
variable {κ : Type u}

/-- A register operation of `take`. -/
def isVisit : LatestRegister.Event Frame → Bool
  | .take _ | .miss => true
  | _ => false

/-- A take is the visit of a drain. -/
theorem isVisit_takeEvent (slot : LatestSampleSlot Frame) : isVisit slot.takeEvent = true := by
  unfold LatestSampleSlot.takeEvent
  split <;> rfl

/-- The drain that is under way has visited this slot. -/
def VisitedSince (hash : U64) (since : List (Event κ)) : Prop :=
  ∃ earlier operation later, since = earlier ++ .slot hash operation :: later ∧
    isVisit operation = true

/-- The course of the drain that is under way. -/
structure Draining (c : Channels κ) (todo : List U64) : Prop where
  serving : c.stage = .serving
  visited : ∃ prior since, c.log = prior ++ .drainStarted :: since ∧
    (∀ event ∈ since, event ≠ .drainStarted) ∧
      ∀ hash ∈ c.background_cache.keys, hash ∈ todo ∨ VisitedSince hash since

/-- The latest drain of a log has visited the slot of this hash, and the last frame
put into it before the visit has been dispatched. -/
def DrainedLatest (hash : U64) (log : List (Event κ)) : Prop :=
  ∃ prior since, log = prior ++ .drainStarted :: since ∧
    (∀ event ∈ since, event ≠ .drainStarted) ∧
      ∃ earlier operation later, since = earlier ++ .slot hash operation :: later ∧
        isVisit operation = true ∧
          ∀ frame, (putFrames hash (prior ++ .drainStarted :: earlier)).getLast? = some frame →
            frame ∈ (slotCalls hash log).map Call.frame

/-- What holds of the drains that have ended. -/
structure Drains (config : Config κ) (c : Channels κ) : Prop where
  draining : ∀ todo, c.todo = some todo → Draining c todo
  ended : Justified (fun before event => event = .drained →
    ∀ registration ∈ config.registrations, registration.priority = .background →
      DrainedLatest (fnv1a_hash registration.path) before) c.log

variable {config : Config κ} {c next : Channels κ} {s : State κ}

/-- What has been visited stays so. -/
theorem VisitedSince.append {hash : U64} {since : List (Event κ)}
    (visited : VisitedSince hash since) (events : List (Event κ)) :
    VisitedSince hash (since ++ events) := by
  obtain ⟨earlier, operation, later, rfl, visits⟩ := visited
  exact ⟨earlier, operation, later ++ events, by simp, visits⟩

/-- Other events leave the drain where it is. -/
theorem Draining.extend {todo : List U64} (draining : Draining c todo) {after : Channels κ}
    {events : List (Event κ)} (stage : after.stage = c.stage)
    (keys : after.background_cache.keys = c.background_cache.keys)
    (log : after.log = c.log ++ events)
    (within : ∀ event ∈ events, event ≠ .drainStarted) :
    Draining after todo where
  serving := stage.trans draining.serving
  visited := by
    obtain ⟨prior, since, split, course, progress⟩ := draining.visited
    refine ⟨prior, since ++ events, by rw [log, split]; simp, ?_, ?_⟩
    · intro event member
      rcases List.mem_append.mp member with old | new
      · exact course event old
      · exact within event new
    · intro hash member
      rw [keys] at member
      exact (progress hash member).imp id (fun visited => visited.append events)

/-- An event that neither starts nor ends a drain. -/
def Event.inDrain : Event κ → Bool
  | .drainStarted | .drained => false
  | _ => true

/-- An event inside a drain is not its end. -/
theorem Event.not_drained {event : Event κ} (inside : event.inDrain = true) :
    event ≠ .drained := by
  rintro rfl
  simp [Event.inDrain] at inside

/-- An event inside a drain is not its beginning. -/
theorem Event.not_drainStarted {event : Event κ} (inside : event.inDrain = true) :
    event ≠ .drainStarted := by
  rintro rfl
  simp [Event.inDrain] at inside

/-- Events inside a drain leave it under way. -/
theorem Drains.extend (drains : Drains config c) {after : Channels κ} {events : List (Event κ)}
    (todo : after.todo = c.todo) (stage : after.stage = c.stage)
    (keys : after.background_cache.keys = c.background_cache.keys)
    (log : after.log = c.log ++ events) (within : ∀ event ∈ events, event.inDrain = true) :
    Drains config after where
  draining := by
    intro left present
    rw [todo] at present
    refine (drains.draining left present).extend stage keys log ?_
    intro event member
    exact Event.not_drainStarted (within event member)
  ended := by
    rw [log]
    apply drains.ended.append
    intro before event after split ended
    have inside := within event (by rw [split]; exact List.mem_append_right _ List.mem_cons_self)
    exact absurd ended (Event.not_drained inside)

/-- While `run()` still prepares, no drain is under way. -/
theorem Drains.prepare (drains : Drains config c) {after : Channels κ}
    (waiting : c.stage ≠ .serving) (todo : after.todo = c.todo) (log : after.log = c.log) :
    Drains config after where
  draining := by
    intro left present
    rw [todo] at present
    exact absurd (drains.draining left present).serving waiting
  ended := by
    rw [log]
    exact drains.ended

/-- A visit answers for every put into the slot before it. -/
theorem visit_covers {hash : U64} {before later : List (Event κ)}
    {operation : LatestRegister.Event Frame} {slots : U64 → LatestSampleSlot Frame}
    (account : SlotAccount slots none (before ++ .slot hash operation :: later))
    (visits : isVisit operation = true) {frame : Frame}
    (last : (putFrames hash before).getLast? = some frame) :
    frame ∈ (slotCalls hash (before ++ .slot hash operation :: later)).map Call.frame := by
  have split : slotOperations hash (before ++ .slot hash operation :: later) =
      slotOperations hash before ++ operation :: slotOperations hash later := by
    simp [slotOperations]
  have explained := (account.legal hash).explained (slotOperations hash before) operation
    (slotOperations hash later) split
  have taken := account.taken hash
  rw [handOf, List.append_nil, split] at taken
  rw [← taken]
  cases operation with
  | put => simp [isVisit] at visits
  | overwrite => simp [isVisit] at visits
  | take item =>
    obtain rfl : item = frame := Option.some.inj (explained.symm.trans last)
    simp [LatestRegister.taken]
  | miss =>
    have held : (LatestRegister.taken (slotOperations hash before)).getLast? = some frame :=
      explained.symm.trans last
    have member := List.mem_of_getLast? held
    rw [LatestRegister.taken_append]
    exact List.mem_append_left _ member

/-- No drain is under way. -/
theorem drains_init : Drains config (init κ).channels where
  draining := by simp [State.channels, init, ReactorPc.todo]
  ended := Justified.nil

/-- Every step of the channels keeps the walk of the drain. -/
theorem drains_step (sourced : Sourced config c) (carried : Carried c)
    (drains : Drains config c) (step : ChannelStep config c next) : Drains config next := by
  cases step with
  | silent => exact drains
  | rest =>
    exact
      { draining := fun todo present => { drains.draining todo present with }
        ended := drains.ended }
  | @note event plain =>
    refine drains.extend rfl rfl rfl rfl ?_
    intro found member
    rw [List.mem_singleton.mp member]
    cases event <;> first | rfl | simp [Event.plain] at plain
  | begin stage => exact drains.prepare (by simp [stage]) rfl rfl
  | allocate stage => exact drains.prepare (by simp [stage]) rfl rfl
  | passOver stage => exact drains.prepare (by simp [stage]) rfl rfl
  | allocated stage => exact drains.prepare (by simp [stage]) rfl rfl
  | subscribe stage => exact drains.prepare (by simp [stage]) rfl rfl
  | skip stage => exact drains.prepare (by simp [stage]) rfl rfl
  | subscribed stage => exact drains.prepare (by simp [stage]) rfl rfl
  | @startDrain order serving listed =>
    exact
      { draining := by
          rintro todo ⟨⟩
          refine ⟨serving, c.log, [], rfl, by simp, ?_⟩
          intro hash member
          exact .inl (listed.mem_iff.mpr member)
        ended := drains.ended.snoc (by simp) }
  | @visit hash todo taken free more found =>
    exact
      { draining := by
          rintro left ⟨⟩
          obtain ⟨serving, prior, since, split, course, progress⟩ := drains.draining _ more
          refine ⟨serving, prior, since ++ [.slot hash _], by rw [split]; simp; rfl, ?_, ?_⟩
          · intro event member
            rcases List.mem_append.mp member with old | new
            · exact course event old
            · rw [List.mem_singleton.mp new]
              simp
          · intro key member
            rcases progress key member with waiting | visited
            · rcases List.mem_cons.mp waiting with rfl | later
              · exact .inr ⟨since, _, [], rfl, isVisit_takeEvent _⟩
              · exact .inl later
            · exact .inr (visited.append _)
        ended := drains.ended.snoc (by simp) }
  | @drained free done =>
    exact
      { draining := by simp
        ended := by
          apply drains.ended.snoc
          intro _ registration member background
          obtain ⟨serving, prior, since, split, course, progress⟩ := drains.draining _ done
          obtain ⟨i, registered⟩ := List.mem_iff_getElem?.mp member
          have handler : config.registry.handlers[i]? = some (Registry.handlerOf registration) := by
            rw [Config.registry, Registry.handlers_registerAll, List.getElem?_map, registered]
            rfl
          have present := sourced.slotted i _ handler background (by rw [serving]; trivial)
          rcases progress _ present with waiting | ⟨earlier, operation, later, rfl, visits⟩
          · simp at waiting
          · refine ⟨prior, _, split, course, earlier, operation, later, rfl, visits, ?_⟩
            intro frame last
            have account := carried.slots
            have whole : c.log = (prior ++ .drainStarted :: earlier) ++
                .slot (fnv1a_hash registration.path) operation :: later := by
              rw [split]
              simp [Registry.handlerOf]
            rw [free, whole] at account
            rw [whole]
            exact visit_covers account visits last }
  | _ => exact drains.extend rfl rfl rfl rfl (by simp [Event.inDrain])

/-- In every run a drain has visited what it no longer has before it. -/
theorem reachable_drains (reached : (machine config).Reachable s) : Drains config s.channels := by
  have all := channels_invariant
    (fun c => Sourced config c ∧ Carried c ∧ Drains config c)
    ⟨sourced_init, carried_init, drains_init⟩
    (fun _ _ holds step => ⟨sourced_step holds.1 step, carried_step holds.1 holds.2.1 step,
      drains_step holds.1 holds.2.1 holds.2.2 step⟩) reached
  exact all.2.2

/-- Latest-only as the code provides it: for each path hash. -/
structure LatestContract (config : Config κ) (s : State κ) : Prop where
  discards : Justified (fun before event => ∀ hash old new,
    event = .slot hash (.overwrite old new) →
      (putFrames hash before).getLast? = some old ∧ Cached config hash new) s.log
  drains : Justified (fun before event => event = .drained →
    ∀ registration ∈ config.registrations, registration.priority = .background →
      DrainedLatest (fnv1a_hash registration.path) before) s.log

/-- In every run a frame is discarded only by the next put into the slot of its
own path hash, and every drain dispatches, for each BACKGROUND path hash, the last
frame put into the slot before the drain visited it. -/
theorem latest_contract (reached : (machine config).Reachable s) : LatestContract config s := by
  have sourced : Sourced config s.channels := reachable_sourced reached
  have carried : Carried s.channels := (reachable_carried reached).1
  exact
    { discards := by
        rintro before event after split hash old new rfl
        have operations : slotOperations hash s.log =
            slotOperations hash before ++ .overwrite old new :: slotOperations hash after := by
          rw [split]
          simp [slotOperations]
        refine ⟨(carried.slots.legal hash).explained _ _ _ operations, ?_⟩
        have member : Event.slot hash (.overwrite old new) ∈ s.log := by
          rw [split]
          exact List.mem_append_right _ List.mem_cons_self
        exact sourced.log _ member new (by simp [LatestRegister.puts])
      drains := (reachable_drains reached).ended }

section PerKey

/-- Frames put into slots that arrived on one key. -/
def framesOnKey (key : Bytes) (log : List (Event κ)) : List Frame :=
  ((storedFrames log).map Prod.snd).filter fun frame => frame.key = key

/-- Frames dispatched out of slots. -/
def slotFrames (log : List (Event κ)) : List Frame :=
  log.filterMap fun
    | .slotDispatched _ call => some call.frame
    | _ => none

/-- The events since the latest drain began. -/
def sinceDrainStart (log : List (Event κ)) : List (Event κ) :=
  (log.reverse.takeWhile fun
    | .drainStarted => false
    | _ => true).reverse

/-- Latest-only read key by key: frames are discarded by frames of their own key,
and at the end of a drain during which nothing arrived the last frame of every key
has been dispatched. -/
def LatestPerKey (s : State κ) : Prop :=
  (∀ pair ∈ replacements s.log, pair.1.key = pair.2.key) ∧
    ∀ background, s.reactor = .addBackgroundProcessed background →
      receivedFrames (sinceDrainStart s.log) = [] →
        ∀ key frame, (framesOnKey key s.log).getLast? = some frame → frame ∈ slotFrames s.log

/-- Keys of two robots that the shipped expression `robot/*/costmap` matches. -/
def robotCostmap (robot : Char) : Bytes :=
  ascii ['r', 'o', 'b', 'o', 't', '/', robot, '/', 'c', 'o', 's', 't', 'm', 'a', 'p']

/-- A frame of a robot on the one BACKGROUND handler. -/
def robotFrame (robot : Char) (serial : Nat) : Frame where
  registration := 2
  serial := serial
  key := robotCostmap robot
  payload := emptyMessage

/-- One costmap from each of two robots, and the drain after them. -/
def wildcardRun : List Action :=
  defaultTurns 10 ++
    [.receive 0 2 0 (robotCostmap '1') emptyMessage 0,
      .receive 0 2 1 (robotCostmap '2') emptyMessage 0] ++ defaultTurns 13

/-- What the run ends in: of the frames of two robots the later one. -/
theorem wildcardRun_outcome :
    ((machine defaultConfig).exec (init TopicPriority) wildcardRun).map (fun s =>
      (s.reactor, receivedFrames (sinceDrainStart s.log), framesOnKey (robotCostmap '1') s.log,
        slotFrames s.log)) =
      some (.addBackgroundProcessed 1, [], [robotFrame '1' 0], [robotFrame '2' 1]) := by
  decide +kernel

/-- Robot 1's only costmap is discarded by robot 2's, and never dispatched. -/
theorem wildcardRun_discards :
    ∃ s, (machine defaultConfig).Reachable s ∧ ¬ LatestPerKey s ∧
      ∃ background, s.reactor = .addBackgroundProcessed background ∧
        (framesOnKey (robotCostmap '1') s.log).getLast? = some (robotFrame '1' 0) ∧
          robotFrame '1' 0 ∉ slotFrames s.log := by
  obtain ⟨s, ran, seen⟩ := Option.map_eq_some_iff.mp wildcardRun_outcome
  simp only [Prod.mk.injEq] at seen
  obtain ⟨here, quiet, onKey, dispatched⟩ := seen
  have last : (framesOnKey (robotCostmap '1') s.log).getLast? = some (robotFrame '1' 0) := by
    rw [onKey]
    rfl
  have missing : robotFrame '1' 0 ∉ slotFrames s.log := by
    rw [dispatched]
    decide
  refine ⟨s, Machine.reachable_of_exec ran, ?_, _, here, last, missing⟩
  intro latest
  exact missing (latest.2 _ here quiet _ _ last)

/-- Two robots share the slot of their handler. -/
theorem wildcardRun_contract :
    ∃ s, (machine defaultConfig).exec (init TopicPriority) wildcardRun = some s ∧
      slotFrames s.log = [robotFrame '2' 1] ∧ LatestContract defaultConfig s := by
  obtain ⟨s, ran, seen⟩ := Option.map_eq_some_iff.mp wildcardRun_outcome
  simp only [Prod.mk.injEq] at seen
  exact ⟨s, ran, seen.2.2.2, latest_contract (Machine.reachable_of_exec ran)⟩

end PerKey

end FlowKernel.Reactor
