import FlowKernel.Channels

/-!
# The reactor reaches its loop with every valid handler subscribed

If the environment declares every subscription, `run()` gets through its
preparation whatever the registrations are: each handler whose key expression is
valid has its context, and nothing has been received. Runs that show something to
be possible start here.
-/

namespace FlowKernel.Reactor

open Foundation

universe u
variable {κ : Type u} {config : Config κ}

/-- Nothing has arrived and nothing has been counted. -/
structure Untouched (s : State κ) : Prop where
  running : s.running = true
  queue : s.critical_queue = []
  dropped : s.dropped = 0
  stats : s.stats = .zero
  callbacks : ∀ thread, s.callbacks thread = .idle
  slots : ∀ hash, (s.background_cache.slots hash).held = none

/-- The subscription of a handler whose key expression is valid. -/
def Subscribed (config : Config κ) (s : State κ) (i : Nat) : Prop :=
  ∀ handler, config.registry.handlers[i]? = some handler → config.keyexpr handler.path = true →
    { handler_hash := handler.path_hash, priority := handler.priority, registration := i } ∈
      s.contexts

/-- The environment refuses nothing and walks the map of slots in this order. -/
def walking (order : List U64) : Action :=
  .reactor { now := 0, declared := true, sqe := true, order := order }

/-- A step that walks no map. -/
def granting : Action :=
  walking []

/-- `run()` can come to any of its allocations. -/
theorem preAllocate_reached (i : Nat) (within : i ≤ config.registry.handlers.length) :
    ∃ s, (machine config).Reachable s ∧ s.reactor = .preAllocate i ∧ Untouched s := by
  induction i with
  | zero =>
    refine ⟨_, Machine.Reachable.after .start granting rfl, rfl, ?_⟩
    exact ⟨rfl, rfl, rfl, rfl, fun _ => rfl, fun _ => rfl⟩
  | succ i inductionHypothesis =>
    obtain ⟨s, reached, here, untouched⟩ := inductionHypothesis (by omega)
    obtain ⟨handler, present⟩ : ∃ handler, config.registry.handlers[i]? = some handler :=
      ⟨_, List.getElem?_eq_getElem within⟩
    by_cases background : handler.priority = .background
    · have stepped : step config s granting = some { s with
          background_cache := s.background_cache.pre_allocate handler.path_hash
          reactor := .preAllocate (i + 1) } := by
        simp [step, granting, walking, reactorStep, here, present, background]
      refine ⟨_, reached.after granting stepped, rfl, ?_⟩
      exact { untouched with slots := by simpa using untouched.slots }
    · have stepped : step config s granting = some { s with reactor := .preAllocate (i + 1) } := by
        simp [step, granting, walking, reactorStep, here, present, background]
      exact ⟨_, reached.after granting stepped, rfl, { untouched with }⟩

/-- `run()` can come to any of its subscriptions with the earlier ones declared. -/
theorem subscribe_reached (i : Nat) (within : i ≤ config.registry.handlers.length) :
    ∃ s, (machine config).Reachable s ∧ s.reactor = .subscribe i ∧ Untouched s ∧
      ∀ j, j < i → Subscribed config s j := by
  induction i with
  | zero =>
    obtain ⟨s, reached, here, untouched⟩ :=
      @preAllocate_reached _ config config.registry.handlers.length (Nat.le_refl _)
    have done : config.registry.handlers[config.registry.handlers.length]? = none :=
      List.getElem?_eq_none (Nat.le_refl _)
    have stepped : step config s granting = some { s with reactor := .subscribe 0 } := by
      simp [step, granting, walking, reactorStep, here]
    exact ⟨_, reached.after granting stepped, rfl, { untouched with }, by omega⟩
  | succ i inductionHypothesis =>
    obtain ⟨s, reached, here, untouched, earlier⟩ := inductionHypothesis (by omega)
    obtain ⟨handler, present⟩ : ∃ handler, config.registry.handlers[i]? = some handler :=
      ⟨_, List.getElem?_eq_getElem within⟩
    by_cases valid : config.keyexpr handler.path = true
    · have stepped : step config s granting = some { s with
          contexts := s.contexts ++
            [{ handler_hash := handler.path_hash, priority := handler.priority,
               registration := i }]
          reactor := .subscribe (i + 1) } := by
        simp [step, granting, walking, reactorStep, here, present, valid]
      refine ⟨_, reached.after granting stepped, rfl, { untouched with }, ?_⟩
      intro j before found registered accepted
      rcases Nat.lt_succ_iff_lt_or_eq.mp before with sooner | rfl
      · exact List.mem_append_left _ (earlier j sooner found registered accepted)
      · obtain rfl : handler = found := Option.some.inj (present.symm.trans registered)
        exact List.mem_append_right _ List.mem_cons_self
    · have stepped : step config s granting = some { s with reactor := .subscribe (i + 1) } := by
        simp [step, granting, walking, reactorStep, here, present, valid]
      refine ⟨_, reached.after granting stepped, rfl, { untouched with }, ?_⟩
      intro j before found registered accepted
      rcases Nat.lt_succ_iff_lt_or_eq.mp before with sooner | rfl
      · exact earlier j sooner found registered accepted
      · obtain rfl : handler = found := Option.some.inj (present.symm.trans registered)
        exact absurd accepted valid

/-- The head of the event loop, before any traffic. -/
theorem loop_reached (config : Config κ) :
    ∃ s, (machine config).Reachable s ∧ s.reactor = .loopTest ∧ Untouched s ∧
      ∀ i, Subscribed config s i := by
  obtain ⟨s, reached, here, untouched, subscribed⟩ :=
    @subscribe_reached _ config config.registry.handlers.length (Nat.le_refl _)
  have done : config.registry.handlers[config.registry.handlers.length]? = none :=
    List.getElem?_eq_none (Nat.le_refl _)
  have prepared : step config s granting = some { s with reactor := .armFirst } := by
    simp [step, granting, walking, reactorStep, here]
  refine ⟨_, (reached.after granting prepared).after granting rfl, rfl, { untouched with }, ?_⟩
  intro i handler registered accepted
  exact subscribed i (List.getElem?_eq_some_iff.mp registered).1 handler registered accepted

end FlowKernel.Reactor
