import FlowKernel.ReactorSteps

/-!
# Drops on a silent channel

The queue counts its drops without their priority. `handle_events` splits those that are new
since the last cycle in the ratio of the frames that the last cycle processed, and charges all
of them to CRITICAL if the last cycle processed none. A channel that has received nothing is
charged nothing as long as the ratio does not come from misrouted frames, the fallback is not
taken before a CRITICAL frame has been received, and the product of the split fits a word.
-/

namespace FlowKernel.PhantomDrops

open Foundation Reactor

universe u
variable {κ : Type u}

/-- A frame of the priority has been received. -/
def Heard (priority : TopicPriority) (s : State κ) : Prop :=
  ∃ frame, .received priority frame ∈ s.log

/-- A channel that has received nothing reports no drops. -/
structure NoPhantoms (s : State κ) : Prop where
  critical : ¬ Heard .critical s → s.stats.critical_dropped = 0
  normal : ¬ Heard .normal s → s.stats.normal_dropped = 0

/-- The statistics are reset between cycles. All new drops are charged to CRITICAL only after
a CRITICAL frame, a split does not overflow before the first NORMAL frame, and no frame is
counted for a channel that has received none. -/
def Attributed (config : Config κ) (s : State κ) : Action → Prop
  | .beginReset => False
  | .reactor _ =>
      match s.reactor with
      | .readNormalLast _ critical =>
          ¬ critical + s.stats.normal_count_last > 0 → Heard .critical s
      | .split new _ =>
          Heard .normal s ∨ new.toNat * s.stats.critical_count_last.toNat < 2 ^ 64
      | .dispatch _ _ cs => ∀ index handler,
          config.registry.find cs.handler_hash = some (index, handler) →
            (handler.priority = .critical → Heard .critical s) ∧
              (handler.priority ≠ .critical → Heard .normal s)
      | _ => True
  | _ => True

/-- What the reactor has in hand for the CRITICAL counters. -/
def criticalCharge : ReactorPc → U64
  | .addCriticalDropped _ c_drop => c_drop
  | .addAllDropped new => new
  | .pop critical _ | .dispatch critical _ _ | .addCriticalProcessed critical _ => critical
  | .addNormalProcessed critical _ | .storeCriticalLast critical _ => critical
  | _ => 0

/-- What the reactor has in hand for the NORMAL counters. -/
def normalCharge : ReactorPc → U64
  | .addCriticalDropped new c_drop | .addNormalDropped new c_drop => new - c_drop
  | .pop _ normal | .dispatch _ normal _ | .addCriticalProcessed _ normal => normal
  | .addNormalProcessed _ normal | .storeCriticalLast _ normal | .storeNormalLast normal => normal
  | _ => 0

/-- What a silent channel leaves in the counters and in the hands of the reactor. -/
structure Blameless (s : State κ) : Prop where
  resetting : s.resetting = .idle
  carried : ∀ new critical, s.reactor = .readNormalLast new critical →
    critical = s.stats.critical_count_last
  divided : ∀ new total, s.reactor = .split new total →
    total = s.stats.critical_count_last + s.stats.normal_count_last ∧ total > 0
  critical : ¬ Heard .critical s → s.stats.critical_dropped = 0 ∧
    s.stats.critical_count_last = 0 ∧ criticalCharge s.reactor = 0
  normal : ¬ Heard .normal s → s.stats.normal_dropped = 0 ∧
    s.stats.normal_count_last = 0 ∧ normalCharge s.reactor = 0

variable {config : Config κ} {s next : State κ}

/-- What has been heard stays so. -/
theorem Heard.mono {priority : TopicPriority} (heard : Heard priority s)
    (kept : ∀ event ∈ s.log, event ∈ next.log) : Heard priority next := by
  obtain ⟨frame, received⟩ := heard
  exact ⟨frame, kept _ received⟩

/-- Dividing a product by one of its factors, where it has not overflowed. -/
theorem mul_div_self {new count : U64} (fits : new.toNat * count.toNat < 2 ^ 64)
    (positive : count > 0) : new * count / count = new := by
  apply BitVec.eq_of_toNat_eq
  have divisor : 0 < count.toNat := positive
  rw [BitVec.toNat_udiv, BitVec.toNat_mul, Nat.mod_eq_of_lt fits]
  exact Nat.mul_div_cancel _ divisor

namespace Blameless

/-- Nothing has been charged. -/
theorem init : Blameless (init κ) where
  resetting := rfl
  carried := by simp [Reactor.init]
  divided := by simp [Reactor.init]
  critical _ := ⟨rfl, rfl, rfl⟩
  normal _ := ⟨rfl, rfl, rfl⟩

/-- A channel that is blameless has no drops of its own. -/
theorem noPhantoms (blameless : Blameless s) : NoPhantoms s where
  critical silent := (blameless.critical silent).1
  normal silent := (blameless.normal silent).1

/-- Steps of the other threads. -/
theorem frame (blameless : Blameless s) (kept : ∀ event ∈ s.log, event ∈ next.log)
    (stats : next.stats = s.stats) (reactor : next.reactor = s.reactor)
    (resetting : next.resetting = s.resetting) : Blameless next where
  resetting := resetting.trans blameless.resetting
  carried := by
    rw [stats, reactor]
    exact blameless.carried
  divided := by
    rw [stats, reactor]
    exact blameless.divided
  critical silent := by
    rw [stats, reactor]
    exact blameless.critical fun heard => silent (heard.mono kept)
  normal silent := by
    rw [stats, reactor]
    exact blameless.normal fun heard => silent (heard.mono kept)

/-- Accesses of the reactor that leave the split alone. -/
theorem keep (blameless : Blameless s) (kept : ∀ event ∈ s.log, event ∈ next.log)
    (resetting : next.resetting = s.resetting)
    (apart : (∀ new critical, next.reactor ≠ .readNormalLast new critical) ∧
      ∀ new total, next.reactor ≠ .split new total)
    (critical : ¬ Heard .critical s → s.stats.critical_dropped = 0 →
      s.stats.critical_count_last = 0 → criticalCharge s.reactor = 0 →
        next.stats.critical_dropped = 0 ∧ next.stats.critical_count_last = 0 ∧
          criticalCharge next.reactor = 0)
    (normal : ¬ Heard .normal s → s.stats.normal_dropped = 0 →
      s.stats.normal_count_last = 0 → normalCharge s.reactor = 0 →
        next.stats.normal_dropped = 0 ∧ next.stats.normal_count_last = 0 ∧
          normalCharge next.reactor = 0) : Blameless next where
  resetting := resetting.trans blameless.resetting
  carried new last here := absurd here (apart.1 new last)
  divided new total here := absurd here (apart.2 new total)
  critical silent := by
    have before : ¬ Heard .critical s := fun heard => silent (heard.mono kept)
    obtain ⟨dropped, last, charge⟩ := blameless.critical before
    exact critical before dropped last charge
  normal silent := by
    have before : ¬ Heard .normal s := fun heard => silent (heard.mono kept)
    obtain ⟨dropped, last, charge⟩ := blameless.normal before
    exact normal before dropped last charge

/-- An access that meets the condition charges no silent channel. -/
theorem access {answers : Answers} (blameless : Blameless s)
    (attributed : Attributed config s (.reactor answers))
    (access : Access config s answers s.reactor next) : Blameless next := by
  generalize here : s.reactor = pc at access
  simp only [Attributed, here] at attributed
  cases access with
  | @readCriticalLast new =>
    exact
      { resetting := blameless.resetting
        carried := by
          rintro _ _ ⟨⟩
          rfl
        divided := by simp
        critical := fun silent =>
          ⟨(blameless.critical silent).1, (blameless.critical silent).2.1, rfl⟩
        normal := fun silent =>
          ⟨(blameless.normal silent).1, (blameless.normal silent).2.1, rfl⟩ }
  | @divide new critical charged =>
    have carried := blameless.carried new critical here
    exact
      { resetting := blameless.resetting
        carried := by simp
        divided := by
          rintro _ _ ⟨⟩
          exact ⟨by rw [carried], charged⟩
        critical := fun silent =>
          ⟨(blameless.critical silent).1, (blameless.critical silent).2.1, rfl⟩
        normal := fun silent =>
          ⟨(blameless.normal silent).1, (blameless.normal silent).2.1, rfl⟩ }
  | undivided idle =>
    refine blameless.keep (fun _ member => member) rfl (by simp) ?_ ?_
    · exact fun silent => absurd (attributed idle) silent
    · exact fun _ dropped last _ => ⟨dropped, last, rfl⟩
  | @split new total =>
    obtain ⟨rfl, positive⟩ := blameless.divided new total here
    refine blameless.keep (fun _ member => member) rfl (by simp) ?_ ?_
    · intro _ dropped last _
      refine ⟨dropped, last, ?_⟩
      simp [criticalCharge, last]
    · intro silent dropped last _
      refine ⟨dropped, last, ?_⟩
      have counted : s.stats.critical_count_last > 0 := by simpa [last] using positive
      have whole := mul_div_self (attributed.resolve_left silent) counted
      simp [normalCharge, last, whole]
  | dispatchCritical found urgent =>
    refine blameless.keep (by simp +contextual [State.record]) rfl (by simp [State.record]) ?_ ?_
    · exact fun silent => absurd ((attributed _ _ found).1 urgent) silent
    · intro _ dropped last charge
      rw [here] at charge
      exact ⟨dropped, last, charge⟩
  | dispatchNormal found other =>
    refine blameless.keep (by simp +contextual [State.record]) rfl (by simp [State.record]) ?_ ?_
    · intro _ dropped last charge
      rw [here] at charge
      exact ⟨dropped, last, charge⟩
    · exact fun silent => absurd ((attributed _ _ found).2 other) silent
  | _ =>
    refine blameless.keep ?_ rfl ?_ ?_ ?_
    · simp +contextual [State.record, State.setSlot]
    · simp [State.record]
    · simp +contextual [criticalCharge, here, State.record, State.setSlot]
    · simp +contextual [normalCharge, here, State.record, State.setSlot]

/-- Every step that meets the condition charges no silent channel. -/
theorem step {action : Action} (blameless : Blameless s) (attributed : Attributed config s action)
    (stepped : step config s action = some next) : Blameless next := by
  cases step_transition stepped with
  | access access => exact blameless.access attributed access
  | beginReset => exact absurd attributed id
  | resetStep stepped =>
    rw [Reactor.resetStep, blameless.resetting] at stepped
    simp at stepped
  | reset here idle listed =>
    exact
      { resetting := idle
        carried := by simp [reset_stats, State.record, here]
        divided := by simp [reset_stats, State.record, here]
        critical := fun _ => by simp [reset_stats, State.record, Stats.zero, here, criticalCharge]
        normal := fun _ => by simp [reset_stats, State.record, Stats.zero, here, normalCharge] }
  | receive idle known outcome =>
    cases outcome with
    | ignored => exact blameless
    | _ => exact blameless.frame (by simp +contextual) rfl rfl rfl
  | write | stopWrite | stop =>
    exact blameless.frame (by simp +contextual [State.record, State.setStop, State.setCallback])
      rfl rfl rfl

end Blameless

/-- Runs in which the drops are attributed report none on a silent channel. -/
theorem no_phantom_drops (config : Config κ) :
    ∀ s, (machine config).ReachableWithin (Attributed config) s → NoPhantoms s :=
  fun _ reached => (Machine.invariant_within Blameless .init
    (fun _ _ _ _ blameless attributed stepped => blameless.step attributed stepped)
      reached).noPhantoms

section Overflow

variable {context : Nat} {ctx : CallbackContext} {frame : Frame} {now : TimePoint}

/-- A NORMAL frame that passes the checks and finds room. -/
theorem accept_normal (normal : ctx.priority = .normal)
    (fit : frame.payload.length ≠ 0 ∧ config.verify frame.payload = true)
    (room : s.critical_queue.length < queueLimit) :
    zenoh_data_callback config s 0 ctx frame now = { s with
      session_last_seen := seenSession s.session_last_seen frame.key now
      critical_queue := s.critical_queue ++ [sampleOf ctx frame now]
      log := s.log ++ [.received .normal frame, .offered .normal (sampleOf ctx frame now) true] } := by
  simp [zenoh_data_callback, fit, normal, BoundedFifo.push, room, State.record, sampleOf]

/-- A NORMAL frame that passes the checks and finds the queue full. -/
theorem reject_normal (normal : ctx.priority = .normal)
    (fit : frame.payload.length ≠ 0 ∧ config.verify frame.payload = true)
    (full : ¬ s.critical_queue.length < queueLimit) :
    zenoh_data_callback config s 0 ctx frame now = { s with
      session_last_seen := seenSession s.session_last_seen frame.key now
      dropped := s.dropped + 1
      log := s.log ++ [.received .normal frame, .offered .normal (sampleOf ctx frame now) false] } := by
  simp [zenoh_data_callback, fit, normal, BoundedFifo.push, full, State.record, sampleOf]

/-- NORMAL frames fill the queue while nothing else happens. -/
theorem flood {payload : Bytes} (reached : (machine config).Reachable s)
    (known : s.contexts[context]? = some ctx) (normal : ctx.priority = .normal)
    (idle : s.callbacks 0 = .idle)
    (fit : payload.length ≠ 0 ∧ config.verify payload = true) {count : Nat}
    (room : s.critical_queue.length + count ≤ queueLimit) :
    ∃ next sessions queue log, (machine config).Reachable next ∧
      next = { s with session_last_seen := sessions, critical_queue := queue, log := log } ∧
      queue.length = s.critical_queue.length + count ∧
      (Heard .critical next → Heard .critical s) := by
  induction count with
  | zero => exact ⟨s, _, _, _, reached, rfl, rfl, id⟩
  | succ count inductionHypothesis =>
    obtain ⟨before, sessions, queue, log, met, rfl, length, same⟩ := inductionHypothesis (by omega)
    have space : queue.length < queueLimit := by omega
    have stepped := @accept_normal κ config
      { s with session_last_seen := sessions, critical_queue := queue, log := log } ctx
      ⟨ctx.registration, 0, [], payload⟩ 0 normal fit space
    have moved := met.after (.receive 0 context 0 [] payload 0)
      (by simp only [machine, Reactor.step, idle, known]; rw [stepped])
    refine ⟨_, _, _, _, moved, rfl, ?_, ?_⟩
    · rw [List.length_append, length]
      rfl
    · rintro ⟨frame, received⟩
      apply same
      exact ⟨frame, by simpa using received⟩

/-- The event is not the arrival of a frame. -/
def unheard : Event κ → Bool
  | .received _ _ => false
  | _ => true

/-- The shipped configuration at the test of its loop, before any frame. -/
theorem default_silent : ∃ s ctx, (machine defaultConfig).Reachable s ∧ s.reactor = .loopTest ∧
    s.running = true ∧ s.critical_queue = [] ∧ s.callbacks 0 = .idle ∧ s.stats = .zero ∧
      s.dropped = 0 ∧ s.contexts[1]? = some ctx ∧ ctx.priority = .normal ∧
        ¬ Heard .critical s := by
  have outcome : ((machine defaultConfig).exec (init TopicPriority) (defaultTurns 10)).map
      (fun s => (s.contexts[1]?.map CallbackContext.priority,
        decide (s.reactor = .loopTest ∧ s.running = true ∧ s.critical_queue = [] ∧
          s.callbacks 0 = .idle ∧ s.stats = .zero ∧ s.dropped = 0) && s.log.all unheard)) =
      some (some .normal, true) := by
    decide +kernel
  obtain ⟨s, ran, seen⟩ := Option.map_eq_some_iff.mp outcome
  simp only [Prod.mk.injEq, Option.map_eq_some_iff, Bool.and_eq_true, decide_eq_true_eq,
    List.all_eq_true] at seen
  obtain ⟨⟨ctx, known, normal⟩, ⟨here, running, empty, idle, stats, dropped⟩, silent⟩ := seen
  refine ⟨s, ctx, Machine.reachable_of_exec ran, here, running, empty, idle, stats, dropped, known,
    normal, ?_⟩
  rintro ⟨frame, received⟩
  exact Bool.false_ne_true (silent _ received)

/-- The first cycle charges its drops to CRITICAL. -/
theorem first_cycle_charges (reached : (machine config).Reachable s) (here : s.reactor = .loopTest)
    (running : s.running = true) (stats : s.stats = .zero) (dropped : s.dropped = 1) :
    ∃ next, (machine config).Reachable next ∧ next.stats.critical_dropped = 1 ∧
      next.log = s.log ++ [.cycleStarted] := by
  have outcome : ((machine config).exec s (turns [] 7)).map
      (fun next => (next.stats.critical_dropped, next.log)) =
      some (1, s.log ++ [.cycleStarted]) := by
    obtain ⟨_, _, _, _, _, _, _, _, _, _, _, _, _, _, _⟩ := s
    subst here running stats dropped
    simp only [Machine.exec, turns, List.replicate, machine, Reactor.step, reactorStep, Stats.zero,
      State.record, BitVec.ofNat_eq_ofNat, ↓reduceIte, gt_iff_lt, Option.bind_some, BitVec.sub_zero,
      BitVec.reduceLT, BitVec.add_zero, BitVec.lt_irrefl, BitVec.zero_add, Option.map_some]
  obtain ⟨next, ran, seen⟩ := Option.map_eq_some_iff.mp outcome
  obtain ⟨charged, logged⟩ := Prod.mk.inj seen
  exact ⟨next, reached.exec ran, charged, logged⟩

/-- A queue that NORMAL frames have filled refuses one more, and the first cycle charges the
drop to CRITICAL. -/
theorem normalFlood_charges : (∃ s, (machine defaultConfig).Reachable s ∧
      ¬ Heard .critical s ∧ s.stats.critical_dropped = 1) ∧
    ¬ ∀ s : State TopicPriority, (machine defaultConfig).Reachable s → NoPhantoms s := by
  have charged : ∃ s, (machine defaultConfig).Reachable s ∧
      ¬ Heard .critical s ∧ s.stats.critical_dropped = 1 := by
    obtain ⟨s, ctx, reached, here, running, empty, idle, stats, dropped, known, normal, silent⟩ :=
      default_silent
    have fit : emptyMessage.length ≠ 0 ∧ defaultConfig.verify emptyMessage = true := by
      decide
    obtain ⟨_, sessions, queue, log, met, rfl, length, same⟩ :=
      @flood _ _ _ _ _ emptyMessage reached known normal idle fit queueLimit (by simp [empty])
    have full : ¬ queue.length < queueLimit := by simp [length]
    have refused := @reject_normal _ defaultConfig
      { s with session_last_seen := sessions, critical_queue := queue, log := log } ctx
      ⟨ctx.registration, 0, [], emptyMessage⟩ 0 normal fit full
    have moved := met.after (.receive 0 1 0 [] emptyMessage 0)
      (by simp only [machine, Reactor.step, idle, known]; rw [refused])
    obtain ⟨next, met, charged, logged⟩ := first_cycle_charges moved here running stats
      (by simp only [dropped]; rfl)
    refine ⟨next, met, ?_, charged⟩
    rintro ⟨frame, received⟩
    apply silent
    apply same
    exact ⟨frame, by simpa [logged] using received⟩
  refine ⟨charged, fun every => ?_⟩
  obtain ⟨s, reached, silent, one⟩ := charged
  rw [(every s reached).critical silent] at one
  exact absurd one (by decide)

end Overflow

section Example

/-- The event is the arrival of a frame of the priority. -/
def hears (priority : TopicPriority) : Event κ → Bool
  | .received found _ => found = priority
  | _ => false

/-- A priority has been heard if its frames are in the history. -/
theorem heard_iff {priority : TopicPriority} :
    Heard priority s ↔ s.log.any (hears priority) = true := by
  rw [List.any_eq_true]
  constructor
  · rintro ⟨frame, received⟩
    exact ⟨_, received, by simp [hears]⟩
  · rintro ⟨event, member, heard⟩
    cases event with
    | received found frame =>
      obtain rfl : found = priority := by simpa [hears] using heard
      exact ⟨frame, member⟩
    | _ => simp [hears] at heard

/-- The history can be searched. -/
instance decidableHeard (priority : TopicPriority) (s : State κ) : Decidable (Heard priority s) :=
  decidable_of_iff _ heard_iff.symm

/-- The condition on a run, checked along it. -/
def attributed (config : Config κ) (s : State κ) : Action → State κ → Bool
  | .beginReset, _ => false
  | .reactor _, _ =>
      match s.reactor with
      | .readNormalLast _ critical => critical + s.stats.normal_count_last > 0 || Heard .critical s
      | .split new _ =>
          Heard .normal s || new.toNat * s.stats.critical_count_last.toNat < 2 ^ 64
      | .dispatch _ _ cs => (config.registry.find cs.handler_hash).all fun found =>
          if found.2.priority = .critical then Heard .critical s else Heard .normal s
      | _ => true
  | _, _ => true

/-- What the check accepts meets the condition. -/
theorem attributed_of_check {action : Action} (passed : attributed config s action next = true) :
    Attributed config s action := by
  cases action with
  | beginReset => simp [attributed] at passed
  | reactor answers =>
    simp only [attributed] at passed
    simp only [Attributed]
    split
    next here =>
      simp only [here, Bool.or_eq_true, decide_eq_true_eq] at passed
      exact passed.resolve_left
    next here => simpa [here] using passed
    next here =>
      intro index handler found
      simp only [here, found, Option.all_some] at passed
      constructor
      · intro urgent
        simpa [urgent] using passed
      · intro other
        simpa [other] using passed
    next => trivial
  | _ => trivial

/-- A NORMAL frame and the cycle that processes it, then one more frame than the queue
takes, and the split of the drop in the next cycle. -/
def normalRun : List Action :=
  let received : Action := .receive 0 1 0 [] emptyMessage 0
  defaultTurns 10 ++ received :: defaultTurns 20 ++ List.replicate 512 received ++ defaultTurns 20

/-- The drop is charged to NORMAL, and the silent channel has none. -/
theorem normalRun_silent : ∃ s, (machine defaultConfig).execWithin (attributed defaultConfig)
      (init TopicPriority) normalRun = some s ∧
    s.stats.normal_processed = 1 ∧ s.stats.normal_dropped = 1 ∧ ¬ Heard .critical s ∧
      s.stats.critical_dropped = 0 := by
  have outcome : ((machine defaultConfig).execWithin (attributed defaultConfig)
      (init TopicPriority) normalRun).map (fun s => (s.stats.normal_processed,
        s.stats.normal_dropped, decide (Heard .critical s))) = some (1, 1, false) := by
    decide +kernel
  obtain ⟨s, ran, seen⟩ := Option.map_eq_some_iff.mp outcome
  simp only [Prod.mk.injEq, decide_eq_false_iff_not] at seen
  obtain ⟨processed, dropped, silent⟩ := seen
  have kept := (no_phantom_drops defaultConfig s ?_).critical silent
  · exact ⟨s, ran, processed, dropped, silent, kept⟩
  exact Machine.ReachableWithin.exec (fun _ _ _ _ passed => attributed_of_check passed) .start ran

end Example

end FlowKernel.PhantomDrops
