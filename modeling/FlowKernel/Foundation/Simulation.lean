import Mathlib.Logic.Relation
import FlowKernel.Foundation.Machine

/-!
# Simulation through a view of the state

A view simulates a machine if every step of the machine is, in the view, a step of a
relation. What the relation keeps then holds of the view in every reachable state, and a run
of the machine is a run of the relation. `Link` is what the machine keeps and its steps rely
on; the relation does not speak of it.
-/

namespace Foundation

universe u v w

/-- Every step of the machine is a step of the view, as long as the link holds. -/
structure Simulation {State : Type u} {Action : Type v} {View : Type w}
    (machine : Machine State Action) (Link : State → Prop) (view : State → View)
    (Step : View → View → Prop) : Prop where
  initially : Link machine.start
  kept : ∀ before action after, Link before → machine.step before action = some after →
    Link after
  simulated : ∀ before action after, Link before → machine.step before action = some after →
    Step (view before) (view after)

namespace Simulation

variable {State : Type u} {Action : Type v} {View : Type w} {machine : Machine State Action}
  {Link : State → Prop} {view : State → View} {Step : View → View → Prop} {state : State}

/-- The link holds in every run. -/
theorem linked (simulation : Simulation machine Link view Step)
    (reached : machine.Reachable state) : Link state :=
  Machine.invariant Link simulation.initially
    (fun _ _ _ _ holds stepped => simulation.kept _ _ _ holds stepped) reached

/-- An invariant of the relation is one of the machine. -/
theorem invariant (simulation : Simulation machine Link view Step) (Inv : View → Prop)
    (initially : Inv (view machine.start))
    (preserved : ∀ before after, Inv before → Step before after → Inv after)
    (reached : machine.Reachable state) : Inv (view state) := by
  refine Machine.invariant (fun state => Inv (view state)) initially ?_ reached
  intro before action after met holds stepped
  exact preserved _ _ holds (simulation.simulated _ _ _ (simulation.linked met) stepped)

/-- A run of the machine is a run of the relation. -/
theorem runs (simulation : Simulation machine Link view Step) {final : State}
    {actions : List Action} (reached : machine.Reachable state)
    (replayed : machine.exec state actions = some final) :
    Relation.ReflTransGen Step (view state) (view final) := by
  induction actions generalizing state with
  | nil =>
    have same : state = final := Option.some.inj replayed
    exact same ▸ .refl
  | cons action rest inductionHypothesis =>
    obtain ⟨next, stepped, tail⟩ := Option.bind_eq_some_iff.mp replayed
    have moved := simulation.simulated _ _ _ (simulation.linked reached) stepped
    exact .head moved (inductionHypothesis (reached.after action stepped) tail)

end Simulation

end Foundation
