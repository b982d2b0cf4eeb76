import Mathlib.Logic.Function.Basic

/-!
# Runs of a deterministic transition system

A machine has one initial state and a partial step for each action. Everything
nondeterministic (the scheduler, the environment's answers) is carried by the
choice of action. Runs may be restricted to the steps that a side condition
permits; an invariant is proved once for the initial state and once for a step,
and then holds of every state such a run meets.

Finite executions are computed by `exec`, so that a concrete schedule can be
replayed and its last state inspected.
-/

namespace Foundation

universe u v w

/-- A first state and a step function, whose actions may be refused. -/
structure Machine (State : Type u) (Action : Type v) where
  start : State
  step : State → Action → Option State

namespace Machine

variable {State : Type u} {Action : Type v}

/-- States met by the runs whose every step is permitted in the state it leaves. -/
inductive ReachableWithin (machine : Machine State Action)
    (permitted : State → Action → Prop) : State → Prop
  | start : ReachableWithin machine permitted machine.start
  | next {before after : State} {action : Action}
      (reached : ReachableWithin machine permitted before)
      (allowed : permitted before action)
      (stepped : machine.step before action = some after) :
      ReachableWithin machine permitted after

/-- States met by any run. -/
def Reachable (machine : Machine State Action) : State → Prop :=
  ReachableWithin machine (fun _ _ => True)

/-- Replay a schedule. A step that the machine cannot take ends the replay. -/
def exec (machine : Machine State Action) : State → List Action → Option State
  | state, [] => some state
  | state, action :: rest => (machine.step state action).bind (fun next => machine.exec next rest)

/-- Replay a schedule as long as its steps pass a check. -/
def execWithin (machine : Machine State Action) (check : State → Action → State → Bool) :
    State → List Action → Option State
  | state, [] => some state
  | state, action :: rest => (machine.step state action).bind fun next =>
      if check state action next then machine.execWithin check next rest else none

variable {machine : Machine State Action} {permitted : State → Action → Prop}

/-- The induction rule of restricted runs. The step obligation may use that the
state left was itself reached, so that invariants can be proved one on another. -/
theorem invariant_within (Inv : State → Prop) (initially : Inv machine.start)
    (preserved : ∀ before action after, ReachableWithin machine permitted before →
      Inv before → permitted before action → machine.step before action = some after →
      Inv after)
    {state : State} (reached : ReachableWithin machine permitted state) : Inv state := by
  induction reached with
  | start => exact initially
  | next reached allowed stepped inductionHypothesis =>
    exact preserved _ _ _ reached inductionHypothesis allowed stepped

/-- The induction rule of unrestricted runs. -/
theorem invariant (Inv : State → Prop) (initially : Inv machine.start)
    (preserved : ∀ before action after, machine.Reachable before →
      Inv before → machine.step before action = some after → Inv after)
    {state : State} (reached : machine.Reachable state) : Inv state :=
  invariant_within Inv initially
    (fun before action after met holds _ stepped => preserved before action after met holds stepped)
    reached

/-- Forgetting or weakening the side condition keeps a state reachable. -/
theorem ReachableWithin.weaken {weaker : State → Action → Prop} {state : State}
    (reached : ReachableWithin machine permitted state)
    (implied : ∀ before action, permitted before action → weaker before action) :
    ReachableWithin machine weaker state := by
  induction reached with
  | start => exact .start
  | next _ allowed stepped inductionHypothesis =>
    exact .next inductionHypothesis (implied _ _ allowed) stepped

/-- A run within a condition is a run. -/
theorem ReachableWithin.reachable {state : State}
    (reached : ReachableWithin machine permitted state) : machine.Reachable state :=
  reached.weaken (fun _ _ _ => trivial)

/-- A schedule whose steps pass a check that implies the side condition extends a
reached state by the state it ends in. -/
theorem ReachableWithin.exec {state final : State} {actions : List Action}
    {check : State → Action → State → Bool}
    (implied : ∀ before action after, machine.step before action = some after →
      check before action after = true → permitted before action)
    (reached : ReachableWithin machine permitted state)
    (replayed : machine.execWithin check state actions = some final) :
    ReachableWithin machine permitted final := by
  induction actions generalizing state with
  | nil =>
    have same : state = final := Option.some.inj replayed
    exact same ▸ reached
  | cons action rest inductionHypothesis =>
    obtain ⟨next, stepped, tail⟩ := Option.bind_eq_some_iff.mp replayed
    split at tail
    next passed =>
      exact inductionHypothesis (.next reached (implied _ _ _ stepped passed) stepped) tail
    next => simp at tail

/-- What every step keeps, a replay keeps. -/
theorem exec_preserves (Inv : State → Prop)
    (preserved : ∀ before action after, Inv before → machine.step before action = some after →
      Inv after)
    {state final : State} {actions : List Action} (holds : Inv state)
    (replayed : machine.exec state actions = some final) : Inv final := by
  induction actions generalizing state with
  | nil =>
    have same : state = final := Option.some.inj replayed
    exact same ▸ holds
  | cons action rest inductionHypothesis =>
    obtain ⟨next, stepped, tail⟩ := Option.bind_eq_some_iff.mp replayed
    exact inductionHypothesis (preserved _ _ _ holds stepped) tail

/-- One more step from a reachable state. -/
theorem Reachable.after {before next : State} (reached : machine.Reachable before)
    (action : Action) (stepped : machine.step before action = some next) :
    machine.Reachable next :=
  .next reached trivial stepped

/-- Replaying any schedule from a reachable state ends in a reachable state. -/
theorem Reachable.exec {state final : State} {actions : List Action}
    (reached : machine.Reachable state) (replayed : machine.exec state actions = some final) :
    machine.Reachable final := by
  induction actions generalizing state with
  | nil =>
    have same : state = final := Option.some.inj replayed
    exact same ▸ reached
  | cons action rest inductionHypothesis =>
    obtain ⟨next, stepped, tail⟩ := Option.bind_eq_some_iff.mp replayed
    exact inductionHypothesis (reached.after action stepped) tail

/-- A schedule replayed from the start witnesses that its last state is reachable. -/
theorem reachable_of_exec {final : State} {actions : List Action}
    (replayed : machine.exec machine.start actions = some final) : machine.Reachable final :=
  Reachable.exec .start replayed

end Machine

end Foundation
