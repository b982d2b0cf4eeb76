import FlowKernel.Foundation.Progress
import FlowKernel.QueueLifetime

/-!
# Progress of the ring queue

A `pop` makes at most four accesses after its load of `head_`, and a `push` at most five
once it has the lock, whatever the other threads do; a full queue does not change that.
Every `push` can be brought to its end by accesses of producers alone. The lock is not
fair, though: a producer that waits for it can be overtaken any number of times.
-/

namespace FlowKernel.MpscQueue

open Foundation RingIndex

universe u
variable {α : Type u} {threads : Nat}

/-- The accesses that a `push` has left once it has the lock. -/
def PushPc.accesses : PushPc α → Nat
  | .idle | .lock _ => 0
  | .loadTail _ => 5
  | .loadHead _ _ => 4
  | .construct _ _ _ => 3
  | .storeTail _ _ | .countDrop => 2
  | .unlock | .unlockFull => 1

/-- The accesses that a `pop` has left. -/
def PopPc.accesses : PopPc α → Nat
  | .idle | .dtorLoadTail _ | .dtorLoop _ _ | .gone => 0
  | .loadTail _ => 4
  | .moveOut _ => 3
  | .destroy _ _ => 2
  | .storeHead _ _ => 1

/-- A step of the consumer. -/
def Action.consumes : Action threads α → Bool
  | .consumer => true
  | _ => false

/-- The call of a pop. -/
def Action.pops : Action threads α → Bool
  | .pop => true
  | _ => false

/-- A step of this producer. -/
def Action.moves (p : Fin threads) : Action threads α → Bool
  | .producer q => q = p
  | _ => false

/-- The call of a push by this producer. -/
def Action.calls (p : Fin threads) : Action threads α → Bool
  | .push q _ => q = p
  | _ => false

/-- The call of the destructor. -/
def Action.destructs : Action threads α → Bool
  | .destruct => true
  | _ => false

/-- How soon the calls under way end. -/
structure ProgressContract (source : Source) (capacity : SizeT) (s : State threads α) : Prop where
  going : Defined source capacity s
  popping : s.dropping = false → ∀ actions final,
    (∀ action ∈ actions, action.destructs = false) →
      (machine source capacity threads α).exec s actions = some final →
        actions.countP Action.consumes ≤ s.consumer.accesses + 4 * actions.countP Action.pops
  pushing : ∀ p, (s.producers p).critical = true → ∀ actions final,
    (∀ action ∈ actions, action.calls p = false) →
      (machine source capacity threads α).exec s actions = some final →
        actions.countP (Action.moves p) ≤ (s.producers p).accesses
  completes : ∀ p, s.producers p ≠ .idle → ∃ actions final,
    (∀ action ∈ actions, ∃ q, action = .producer q) ∧
      (machine source capacity threads α).exec s actions = some final ∧
        final.producers p = .idle ∧ actions.length ≤ 11
  overtaken : ∀ p q item, q ≠ p → s.producers p = .lock item → s.producers q = .idle →
    ∀ n, ∃ actions final, (machine source capacity threads α).exec s actions = some final ∧
      actions.countP (Action.moves p) = n ∧ actions.countP (Action.calls q) = n ∧
        final.producers p = .lock item ∧ final.producers q = .idle

variable {source : Source} {capacity : SizeT} {s next : State threads α} {p q : Fin threads}
  {item : α} {action : Action threads α}

/-- Inside the critical section every access brings the lock's release nearer. -/
theorem pushStep_critical (critical : (s.producers p).critical = true)
    (stepped : pushStep capacity s p = some next) :
    ∃ pc, next.producers = Function.update s.producers p pc ∧
      pc.accesses < (s.producers p).accesses ∧
        (pc.critical = true ∨ pc = .idle ∧ next.push_lock = false) := by
  cases here : s.producers p with
  | idle | lock item => simp [here, PushPc.critical] at critical
  | loadTail item =>
    simp only [pushStep, here] at stepped
    obtain rfl := Option.some.inj stepped
    exact ⟨.loadHead item s.tail, rfl, Nat.lt_succ_self 4, .inl rfl⟩
  | loadHead item t =>
    simp only [pushStep, here] at stepped
    split at stepped
    · obtain rfl := Option.some.inj stepped
      exact ⟨.countDrop, rfl, (by decide : 2 < 4), .inl rfl⟩
    · obtain rfl := Option.some.inj stepped
      exact ⟨.construct item t _, rfl, Nat.lt_succ_self 3, .inl rfl⟩
  | countDrop =>
    simp only [pushStep, here] at stepped
    obtain rfl := Option.some.inj stepped
    exact ⟨.unlockFull, rfl, Nat.lt_succ_self 1, .inl rfl⟩
  | construct item t next =>
    simp only [pushStep, here] at stepped
    obtain rfl := Option.some.inj stepped
    exact ⟨.storeTail item next, rfl, Nat.lt_succ_self 2, .inl rfl⟩
  | storeTail item next =>
    simp only [pushStep, here] at stepped
    obtain rfl := Option.some.inj stepped
    exact ⟨.unlock, rfl, Nat.lt_succ_self 1, .inl rfl⟩
  | unlock | unlockFull =>
    simp only [pushStep, here] at stepped
    obtain rfl := Option.some.inj stepped
    exact ⟨.idle, rfl, Nat.lt_succ_self 0, .inr ⟨rfl, rfl⟩⟩

/-- An access of a producer moves no other producer, and not the consumer. -/
theorem pushStep_producers (stepped : pushStep capacity s q = some next) :
    next.consumer = s.consumer ∧ next.dropping = s.dropping ∧
      ∃ pc, next.producers = Function.update s.producers q pc := by
  cases here : s.producers q with
  | idle => simp [pushStep, here] at stepped
  | lock item =>
    simp only [pushStep, here] at stepped
    split at stepped
    next =>
      obtain rfl := Option.some.inj stepped
      exact ⟨rfl, rfl, .lock item, here ▸ (Function.update_eq_self q s.producers).symm⟩
    next =>
      obtain rfl := Option.some.inj stepped
      exact ⟨rfl, rfl, .loadTail item, rfl⟩
  | loadHead item t =>
    simp only [pushStep, here] at stepped
    split at stepped
    · obtain rfl := Option.some.inj stepped
      exact ⟨rfl, rfl, .countDrop, rfl⟩
    · obtain rfl := Option.some.inj stepped
      exact ⟨rfl, rfl, .construct item t _, rfl⟩
  | _ =>
    simp only [pushStep, here] at stepped
    obtain rfl := Option.some.inj stepped
    exact ⟨rfl, rfl, _, rfl⟩

/-- An access of the consumer moves no producer, and uses up one of those that its `pop`
has left. -/
theorem popStep_accesses (stepped : popStep source capacity s = some next) :
    next.producers = s.producers ∧ next.dropping = s.dropping ∧
      ((∃ h, s.consumer = .dtorLoadTail h) ∨ (∃ h t, s.consumer = .dtorLoop h t) ∨
        next.consumer.accesses < s.consumer.accesses) := by
  cases here : s.consumer with
  | idle | gone => simp [popStep, here] at stepped
  | loadTail h =>
    simp only [popStep, here] at stepped
    split at stepped
    · split at stepped
      all_goals
        obtain rfl := Option.some.inj stepped
        exact ⟨rfl, rfl, .inr (.inr (Nat.zero_lt_succ 3))⟩
    · obtain rfl := Option.some.inj stepped
      exact ⟨rfl, rfl, .inr (.inr (Nat.lt_succ_self 3))⟩
  | moveOut h =>
    simp only [popStep, here] at stepped
    split at stepped
    next =>
      obtain rfl := Option.some.inj stepped
      exact ⟨rfl, rfl, .inr (.inr (Nat.lt_succ_self 2))⟩
    next =>
      obtain rfl := Option.some.inj stepped
      exact ⟨rfl, rfl, .inr (.inr (by decide : 1 < 3))⟩
    next => simp at stepped
  | destroy h item =>
    simp only [popStep, here] at stepped
    split at stepped
    next =>
      obtain rfl := Option.some.inj stepped
      exact ⟨rfl, rfl, .inr (.inr (Nat.lt_succ_self 1))⟩
    next => simp at stepped
  | storeHead h item =>
    simp only [popStep, here] at stepped
    obtain rfl := Option.some.inj stepped
    exact ⟨rfl, rfl, .inr (.inr (Nat.lt_succ_self 0))⟩
  | dtorLoadTail h =>
    simp only [popStep, here] at stepped
    obtain rfl := Option.some.inj stepped
    exact ⟨rfl, rfl, .inl ⟨h, rfl⟩⟩
  | dtorLoop h t =>
    simp only [popStep, here] at stepped
    split at stepped
    · obtain rfl := Option.some.inj stepped
      exact ⟨rfl, rfl, .inr (.inl ⟨h, t, rfl⟩)⟩
    · split at stepped
      next =>
        obtain rfl := Option.some.inj stepped
        exact ⟨rfl, rfl, .inr (.inl ⟨h, t, rfl⟩)⟩
      next => simp at stepped

/-- A producer stands still while others act. -/
theorem producers_kept (stepped : step source capacity s action = some next)
    (still : action.moves p = false) (silent : action.calls p = false) :
    next.producers p = s.producers p := by
  cases action with
  | push q item =>
    have other : p ≠ q := by
      rintro rfl
      simp [Action.calls] at silent
    simp only [step] at stepped
    split at stepped
    next =>
      obtain rfl := Option.some.inj stepped
      exact Function.update_of_ne other _ _
    next => simp at stepped
  | producer q =>
    have other : p ≠ q := by
      rintro rfl
      simp [Action.moves] at still
    obtain ⟨_, _, pc, producers⟩ := pushStep_producers stepped
    rw [producers, Function.update_of_ne other]
  | pop =>
    simp only [step] at stepped
    split at stepped
    next =>
      obtain rfl := Option.some.inj stepped
      rfl
    next =>
      obtain rfl := Option.some.inj stepped
      rfl
    next => simp at stepped
  | consumer => rw [(popStep_accesses stepped).1]
  | destruct =>
    simp only [step] at stepped
    split at stepped
    next =>
      split at stepped
      next =>
        obtain rfl := Option.some.inj stepped
        rfl
      next => simp at stepped
    next => simp at stepped

/-- One step pays for one access of the consumer, and the call of a `pop` for all of them. -/
theorem popping_step (power : PowerOfTwo capacity)
    (reached : (machine source capacity threads α).Reachable s) (alive : s.dropping = false)
    (standing : action.destructs = false) (stepped : step source capacity s action = some next) :
    next.dropping = false ∧
      next.consumer.accesses + (if action.consumes then 1 else 0) ≤
        s.consumer.accesses + if action.pops then 4 else 0 := by
  cases action with
  | push q item =>
    simp only [step] at stepped
    split at stepped
    next =>
      obtain rfl := Option.some.inj stepped
      exact ⟨alive, Nat.le_refl _⟩
    next => simp at stepped
  | producer q =>
    obtain ⟨consumer, dropping, _⟩ := pushStep_producers stepped
    rw [consumer]
    exact ⟨dropping.trans alive, Nat.le_refl _⟩
  | pop =>
    simp only [step] at stepped
    split at stepped
    next =>
      obtain rfl := Option.some.inj stepped
      exact ⟨alive, Nat.le_add_left 4 _⟩
    next =>
      obtain rfl := Option.some.inj stepped
      exact ⟨alive, Nat.le_add_left 4 _⟩
    next => simp at stepped
  | consumer =>
    obtain ⟨_, _, _, described⟩ := reachable_described power reached
    have here := described.consuming
    obtain ⟨_, dropping, ⟨h, standing⟩ | ⟨h, t, standing⟩ | fewer⟩ := popStep_accesses stepped
    · simp [standing, Consuming, alive] at here
    · simp [standing, Consuming, alive] at here
    · exact ⟨dropping.trans alive, fewer⟩
  | destruct => simp [Action.destructs] at standing

section Producers

/-- What a producer leaves behind that has ended its call alone. -/
structure Released (s : State threads α) (p : Fin threads) (final : State threads α) : Prop where
  idle : final.producers p = .idle
  free : final.push_lock = false
  others : ∀ q, q ≠ p → final.producers q = s.producers q

/-- A producer that has the lock ends its call without the help of anyone. -/
theorem holder_finishes (power : PowerOfTwo capacity)
    (reached : (machine source capacity threads α).Reachable s)
    (critical : (s.producers p).critical = true) :
    ∃ actions final, (∀ action ∈ actions, action = .producer p) ∧
      (machine source capacity threads α).exec s actions = some final ∧ Released s p final ∧
        actions.length ≤ 5 := by
  let Inside (t : State threads α) : Prop :=
    (machine source capacity threads α).Reachable t ∧
      (∀ q, q ≠ p → t.producers q = s.producers q) ∧
        ((t.producers p).critical = true ∨ t.producers p = .idle ∧ t.push_lock = false)
  have progress : ∀ t, Inside t → ¬ t.producers p = .idle → ∃ action after,
      action = .producer p ∧ (machine source capacity threads α).step t action = some after ∧
        Inside after ∧ (after.producers p).accesses < (t.producers p).accesses := by
    rintro t ⟨met, others, inside⟩ running
    have critical := inside.resolve_right fun ⟨idle, _⟩ => running idle
    obtain ⟨_, _, _, described⟩ := reachable_described power met
    obtain ⟨after, stepped⟩ := (described.defined power).1 p running
    obtain ⟨pc, producers, fewer, place⟩ := pushStep_critical critical stepped
    have own : after.producers p = pc := by rw [producers, Function.update_self]
    refine ⟨.producer p, after, rfl, stepped, ⟨met.after (.producer p) stepped, ?_, ?_⟩, ?_⟩
    · intro q other
      rw [producers, Function.update_of_ne other]
      exact others q other
    · rw [own]
      exact place
    · rw [own]
      exact fewer
  obtain ⟨actions, final, own, replayed, ⟨_, others, ended⟩, idle, short⟩ :=
    Machine.exec_completes Inside (fun t => t.producers p = .idle)
      (fun action : Action threads α => action = .producer p)
      (fun t => (t.producers p).accesses) progress
      ⟨reached, fun _ _ => rfl, .inl critical⟩
  refine ⟨actions, final, own, replayed, ⟨idle, ?_, others⟩, short.trans ?_⟩
  · rcases ended with inside | ⟨_, free⟩
    · simp [idle, PushPc.critical] at inside
    · exact free
  · cases s.producers p <;> simp [PushPc.accesses]

/-- The same from the test of the lock on, if that is free. -/
theorem caller_finishes (power : PowerOfTwo capacity)
    (reached : (machine source capacity threads α).Reachable s) (here : s.producers p = .lock item)
    (free : s.push_lock = false) :
    ∃ actions final, (∀ action ∈ actions, action = .producer p) ∧
      (machine source capacity threads α).exec s actions = some final ∧ Released s p final ∧
        actions.length ≤ 6 := by
  let taken := { s with push_lock := true }.setProducer p (.loadTail item)
  have stepped : (machine source capacity threads α).step s (.producer p) = some taken := by
    simp [machine, step, pushStep, here, free, taken]
  obtain ⟨actions, final, own, replayed, released, short⟩ :=
    holder_finishes power (reached.after (.producer p) stepped)
      (show (taken.producers p).critical = true by simp [taken, PushPc.critical])
  refine ⟨.producer p :: actions, final, ?_, ?_, ⟨released.idle, released.free, ?_⟩, ?_⟩
  · exact List.forall_mem_cons.mpr ⟨rfl, own⟩
  · exact Option.bind_eq_some_iff.mpr ⟨taken, stepped, replayed⟩
  · intro q other
    exact (released.others q other).trans (Function.update_of_ne other _ _)
  · exact Nat.succ_le_succ short

/-- Whoever holds the lock lets go of it alone. -/
theorem lock_freed (power : PowerOfTwo capacity)
    (reached : (machine source capacity threads α).Reachable s) :
    ∃ actions final, (∀ action ∈ actions, ∃ r, action = .producer r ∧
        (s.producers r).critical = true) ∧
      (machine source capacity threads α).exec s actions = some final ∧
        final.push_lock = false ∧ actions.length ≤ 5 ∧
          ∀ q, (s.producers q).critical = false → final.producers q = s.producers q := by
  obtain ⟨holder, _, _, described⟩ := reachable_described power reached
  cases holder with
  | none => exact ⟨[], s, by simp, rfl, described.locked, Nat.zero_le 5, fun _ _ => rfl⟩
  | some r =>
    have critical := (described.exclusive r).mpr rfl
    obtain ⟨actions, final, own, replayed, released, short⟩ :=
      holder_finishes power reached critical
    refine ⟨actions, final, fun action member => ⟨r, own action member, critical⟩, replayed,
      released.free, short, fun q outside => released.others q ?_⟩
    rintro rfl
    exact absurd critical (by simp [outside])

/-- Every call of `push` ends by accesses of producers alone. -/
theorem push_completes (power : PowerOfTwo capacity)
    (reached : (machine source capacity threads α).Reachable s) (running : s.producers p ≠ .idle) :
    ∃ actions final, (∀ action ∈ actions, ∃ q, action = .producer q) ∧
      (machine source capacity threads α).exec s actions = some final ∧
        final.producers p = .idle ∧ actions.length ≤ 11 := by
  cases critical : (s.producers p).critical with
  | true =>
    obtain ⟨actions, final, own, replayed, released, short⟩ :=
      holder_finishes power reached critical
    exact ⟨actions, final, fun action member => ⟨p, own action member⟩, replayed, released.idle,
      short.trans (by omega)⟩
  | false =>
    have waiting : ∃ item, s.producers p = .lock item := by
      cases here : s.producers p with
      | idle => exact absurd here running
      | lock item => exact ⟨item, rfl⟩
      | _ => simp [here, PushPc.critical] at critical
    obtain ⟨item, here⟩ := waiting
    obtain ⟨first, middle, holders, freed, free, few, others⟩ := lock_freed power reached
    obtain ⟨rest, final, own, replayed, released, short⟩ :=
      caller_finishes power (reached.exec freed) ((others p critical).trans here) free
    refine ⟨first ++ rest, final, ?_, (Machine.exec_append freed).trans replayed, released.idle, ?_⟩
    · intro action member
      rcases List.mem_append.mp member with earlier | later
      · obtain ⟨r, moves, _⟩ := holders action earlier
        exact ⟨r, moves⟩
      · exact ⟨p, own action later⟩
    · rw [List.length_append]
      omega

/-- Between two rounds of being overtaken: the lock is free, one producer tests it, and the
other one has no call. -/
structure Contending (p q : Fin threads) (item : α) (s : State threads α) : Prop where
  free : s.push_lock = false
  waiting : s.producers p = .lock item
  idle : s.producers q = .idle

/-- Accesses of other producers neither move a producer nor make a call. -/
theorem countP_moves (p q : Fin threads) {actions : List (Action threads α)}
    (others : ∀ action ∈ actions, ∃ r, r ≠ p ∧ action = .producer r) :
    actions.countP (Action.moves p) = 0 ∧ actions.countP (Action.calls q) = 0 := by
  constructor
  · refine List.countP_eq_zero.mpr fun action member => ?_
    obtain ⟨r, other, rfl⟩ := others action member
    simp [Action.moves, other]
  · refine List.countP_eq_zero.mpr fun action member => ?_
    obtain ⟨r, _, rfl⟩ := others action member
    simp [Action.calls]

/-- The other producer calls, takes the lock first, and ends its call, while the one that
waits for the lock tests it once. -/
theorem overtake (power : PowerOfTwo capacity)
    (reached : (machine source capacity threads α).Reachable s) (other : q ≠ p)
    (contending : Contending p q item s) :
    ∃ actions final, (machine source capacity threads α).exec s actions = some final ∧
      actions.countP (Action.moves p) = 1 ∧ actions.countP (Action.calls q) = 1 ∧
        Contending p q item final := by
  obtain ⟨free, waiting, idle⟩ := contending
  obtain ⟨_, _, _, described⟩ := reachable_described power reached
  have running : s.producers p ≠ .idle := by simp [waiting]
  have alive : s.dropping = false := described.active running
  let called := (s.setProducer q (.lock item)).log (.called q item)
  let taken := { called with push_lock := true }.setProducer q (.loadTail item)
  have calls : (machine source capacity threads α).step s (.push q item) = some called := by
    simp only [machine, step, idle, alive, called]
  have takes : (machine source capacity threads α).step called (.producer q) = some taken := by
    simp [machine, step, pushStep, called, taken, State.log, State.setProducer, free]
  have waits : taken.producers p = .lock item := by
    simp [taken, called, State.log, State.setProducer, Function.update_of_ne (Ne.symm other),
      waiting]
  have tests : (machine source capacity threads α).step taken (.producer p) = some taken := by
    simp only [machine, step, pushStep, waits]
    rfl
  have met := (reached.after (.push q item) calls).after (.producer q) takes
  obtain ⟨actions, final, own, replayed, released, _⟩ :=
    holder_finishes power met (show (taken.producers q).critical = true by
      simp [taken, PushPc.critical])
  obtain ⟨moves, silent⟩ := countP_moves p q fun action member => ⟨q, other, own action member⟩
  refine ⟨.push q item :: .producer q :: .producer p :: actions, final, ?_, ?_, ?_,
    ⟨released.free, (released.others p (Ne.symm other)).trans waits, released.idle⟩⟩
  · simp only [Machine.exec, calls, takes, tests, Option.bind_some]
    exact replayed
  · simp [Action.moves, other, moves]
  · simp [Action.calls, silent]

/-- A producer that waits for the lock can be overtaken any number of times. -/
theorem contending_overtaken (power : PowerOfTwo capacity)
    (reached : (machine source capacity threads α).Reachable s) (other : q ≠ p)
    (contending : Contending p q item s) (n : Nat) :
    ∃ actions final, (machine source capacity threads α).exec s actions = some final ∧
      actions.countP (Action.moves p) = n ∧ actions.countP (Action.calls q) = n ∧
        Contending p q item final := by
  induction n with
  | zero => exact ⟨[], s, rfl, rfl, rfl, contending⟩
  | succ n inductionHypothesis =>
    obtain ⟨first, middle, before, tested, called, still⟩ := inductionHypothesis
    obtain ⟨round, final, after, once, again, last⟩ :=
      overtake power (reached.exec before) other still
    refine ⟨first ++ round, final, (Machine.exec_append before).trans after, ?_, ?_, last⟩
    · rw [List.countP_append, tested, once]
    · rw [List.countP_append, called, again]

/-- Whoever holds the lock lets go of it, and then the one that waits for it is overtaken. -/
theorem overtaken_often (power : PowerOfTwo capacity)
    (reached : (machine source capacity threads α).Reachable s) (other : q ≠ p)
    (waiting : s.producers p = .lock item) (idle : s.producers q = .idle) (n : Nat) :
    ∃ actions final, (machine source capacity threads α).exec s actions = some final ∧
      actions.countP (Action.moves p) = n ∧ actions.countP (Action.calls q) = n ∧
        final.producers p = .lock item ∧ final.producers q = .idle := by
  obtain ⟨first, middle, holders, freed, free, _, others⟩ := lock_freed power reached
  have outside : (s.producers p).critical = false ∧ (s.producers q).critical = false := by
    rw [waiting, idle]
    exact ⟨rfl, rfl⟩
  have contending : Contending p q item middle :=
    ⟨free, (others p outside.1).trans waiting, (others q outside.2).trans idle⟩
  obtain ⟨rest, final, replayed, tested, called, last⟩ :=
    contending_overtaken power (reached.exec freed) other contending n
  obtain ⟨moves, silent⟩ := countP_moves p q fun action member => by
    obtain ⟨r, rfl, critical⟩ := holders action member
    refine ⟨r, ?_, rfl⟩
    rintro rfl
    exact absurd critical (by simp [outside.1])
  refine ⟨first ++ rest, final, (Machine.exec_append freed).trans replayed, ?_, ?_,
    last.waiting, last.idle⟩
  · rw [List.countP_append, moves, tested, Nat.zero_add]
  · rw [List.countP_append, silent, called, Nat.zero_add]

/-- A `pop` under way has its own accesses left, and each later `pop` brings four more. -/
theorem pops_bounded (power : PowerOfTwo capacity)
    (reached : (machine source capacity threads α).Reachable s) (alive : s.dropping = false)
    {actions : List (Action threads α)} {final : State threads α}
    (standing : ∀ action ∈ actions, action.destructs = false)
    (replayed : (machine source capacity threads α).exec s actions = some final) :
    actions.countP Action.consumes ≤ s.consumer.accesses + 4 * actions.countP Action.pops := by
  have paid := Machine.exec_amortized_within
    (fun action : Action threads α => action.destructs = false)
    (fun t => (machine source capacity threads α).Reachable t ∧ t.dropping = false)
    (fun t => t.consumer.accesses) (fun action => if action.consumes then 1 else 0)
    (fun action => if action.pops then 4 else 0)
    (fun before action after holds allowed stepped => by
      obtain ⟨met, living⟩ := holds
      obtain ⟨lives, covered⟩ := popping_step power met living allowed stepped
      exact ⟨⟨met.after action stepped, lives⟩, covered⟩)
    ⟨reached, alive⟩ standing replayed
  rw [Machine.sum_credit, Machine.sum_credit, Nat.one_mul] at paid
  omega

/-- One step of a producer that has the lock and makes no further call. -/
theorem inside_step (inside : (s.producers p).critical = true ∨ s.producers p = .idle)
    (silent : action.calls p = false) (stepped : step source capacity s action = some next) :
    ((next.producers p).critical = true ∨ next.producers p = .idle) ∧
      (next.producers p).accesses + (if action.moves p then 1 else 0) ≤
        (s.producers p).accesses := by
  cases moves : action.moves p with
  | false =>
    rw [producers_kept stepped moves silent]
    exact ⟨inside, Nat.le_refl _⟩
  | true =>
    cases action with
    | producer q =>
      obtain rfl : q = p := by simpa [Action.moves] using moves
      have critical := inside.resolve_right fun idle => by
        simp [step, pushStep, idle] at stepped
      obtain ⟨pc, producers, fewer, place⟩ := pushStep_critical critical stepped
      rw [producers, Function.update_self]
      exact ⟨place.imp_right And.left, fewer⟩
    | _ => simp [Action.moves] at moves

/-- A `push` that has the lock has its own accesses left. -/
theorem push_bounded (critical : (s.producers p).critical = true)
    {actions : List (Action threads α)} {final : State threads α}
    (silent : ∀ action ∈ actions, action.calls p = false)
    (replayed : (machine source capacity threads α).exec s actions = some final) :
    actions.countP (Action.moves p) ≤ (s.producers p).accesses := by
  have counted := Machine.exec_counted (fun action : Action threads α => action.calls p = false)
    (fun t => (t.producers p).critical = true ∨ t.producers p = .idle)
    (fun t => (t.producers p).accesses) (Action.moves p)
    (fun _ _ _ inside uncalled stepped => inside_step inside uncalled stepped)
    (.inl critical) silent replayed
  omega

end Producers

/-- For every power-of-two capacity, in both sources and in every state: nobody's next
access is undefined; until the destructor a `pop` has at most four accesses after its load
of `head_`, and a `push` at most five once it has the lock, whoever else acts and however
full the queue is; every `push` can be brought to its end without the consumer; but a `push`
that waits for the lock can be overtaken by another producer as often as you like. -/
theorem progress_contract (power : PowerOfTwo capacity)
    (reached : (machine source capacity threads α).Reachable s) :
    ProgressContract source capacity s where
  going := by
    obtain ⟨_, _, _, described⟩ := reachable_described power reached
    exact described.defined power
  popping := fun alive _ _ standing replayed => pops_bounded power reached alive standing replayed
  pushing := fun _ critical _ _ silent replayed => push_bounded critical silent replayed
  completes := fun _ running => push_completes power reached running
  overtaken := fun _ _ _ other waiting idle n =>
    overtaken_often power reached other waiting idle n

/-- A full queue of two slots, one producer with the lock, one waiting for it, and a third
without a call, while a `pop` is under way. -/
def filledRun : List (Action 3 Nat) :=
  .push 0 1 :: List.replicate 6 (.producer 0) ++ [.push 0 2, .push 1 3] ++
    [.producer 0, .producer 0, .pop, .producer 1]

/-- One producer is about to find the ring full while another waits for the lock. -/
theorem filledRun_progresses :
    ∃ s, (machine .cpp 2 3 Nat).exec (init 3 Nat) filledRun = some s ∧
      s.producers 0 = .loadHead 2 1 ∧ s.producers 1 = .lock 3 ∧ s.producers 2 = .idle ∧
        s.consumer = .loadTail 0 ∧ ProgressContract .cpp 2 s := by
  have outcome : ((machine .cpp 2 3 Nat).exec (init 3 Nat) filledRun).map (fun s =>
      (s.producers 0, s.producers 1, s.producers 2, s.consumer)) =
        some (.loadHead 2 1, .lock 3, .idle, .loadTail 0) := by decide
  obtain ⟨s, ran, seen⟩ := Option.map_eq_some_iff.mp outcome
  simp only [Prod.mk.injEq] at seen
  obtain ⟨holding, waiting, idle, popping⟩ := seen
  exact ⟨s, ran, holding, waiting, idle, popping,
    progress_contract ⟨1, by decide, rfl⟩ (Machine.reachable_of_exec ran)⟩

end FlowKernel.MpscQueue
