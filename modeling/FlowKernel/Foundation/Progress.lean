import Mathlib.Algebra.Ring.Nat
import FlowKernel.Foundation.Machine

/-!
# Work that is paid for, and work that comes to an end

A potential bounds the work of a run from above: if every step's cost is covered by
the credit it brings and the potential it uses up, the costs of a whole run are covered
by its credits and the potential it began with. It also bounds it from below: if some
step of the machine's own is possible wherever the goal is not reached, and lowers the
potential, the goal is reached by such steps alone.
-/

namespace Foundation

namespace Machine

universe u v
variable {State : Type u} {Action : Type v} {machine : Machine State Action}

/-- A schedule is replayed part by part. -/
theorem exec_append {state middle : State} {first rest : List Action}
    (replayed : machine.exec state first = some middle) :
    machine.exec state (first ++ rest) = machine.exec middle rest := by
  induction first generalizing state with
  | nil =>
    have same : state = middle := Option.some.inj replayed
    rw [same, List.nil_append]
  | cons action tail inductionHypothesis =>
    obtain ⟨next, stepped, later⟩ := Option.bind_eq_some_iff.mp replayed
    rw [List.cons_append, exec, stepped]
    exact inductionHypothesis later

/-- The costs of a run of permitted actions are covered by its credits, the potential used
up, and what the states earn. -/
theorem exec_balanced (permitted : Action → Prop) (Inv : State → Prop)
    (potential earned : State → Nat) (cost credit : Action → Nat)
    (preserved : ∀ before action after, Inv before → permitted action →
      machine.step before action = some after → Inv after ∧
        potential after + cost action + earned before ≤
          potential before + credit action + earned after)
    {state final : State} {actions : List Action} (holds : Inv state)
    (allowed : ∀ action ∈ actions, permitted action)
    (replayed : machine.exec state actions = some final) :
    potential final + (actions.map cost).sum + earned state ≤
      potential state + (actions.map credit).sum + earned final := by
  induction actions generalizing state with
  | nil =>
    have same : state = final := Option.some.inj replayed
    simp [same]
  | cons action rest inductionHypothesis =>
    obtain ⟨next, stepped, tail⟩ := Option.bind_eq_some_iff.mp replayed
    obtain ⟨first, others⟩ := List.forall_mem_cons.mp allowed
    obtain ⟨kept, covered⟩ := preserved _ _ _ holds first stepped
    have later := inductionHypothesis kept others tail
    rw [List.map_cons, List.map_cons, List.sum_cons, List.sum_cons]
    omega

/-- The same where the states earn nothing. -/
theorem exec_amortized_within (permitted : Action → Prop) (Inv : State → Prop)
    (potential : State → Nat) (cost credit : Action → Nat)
    (preserved : ∀ before action after, Inv before → permitted action →
      machine.step before action = some after →
        Inv after ∧ potential after + cost action ≤ potential before + credit action)
    {state final : State} {actions : List Action} (holds : Inv state)
    (allowed : ∀ action ∈ actions, permitted action)
    (replayed : machine.exec state actions = some final) :
    potential final + (actions.map cost).sum ≤ potential state + (actions.map credit).sum :=
  exec_balanced permitted Inv potential (fun _ => 0) cost credit preserved holds allowed replayed

/-- The same for all actions. -/
theorem exec_amortized (Inv : State → Prop) (potential : State → Nat) (cost credit : Action → Nat)
    (preserved : ∀ before action after, Inv before → machine.step before action = some after →
      Inv after ∧ potential after + cost action ≤ potential before + credit action)
    {state final : State} {actions : List Action} (holds : Inv state)
    (replayed : machine.exec state actions = some final) :
    potential final + (actions.map cost).sum ≤ potential state + (actions.map credit).sum :=
  exec_amortized_within (fun _ => True) Inv potential cost credit
    (fun before action after kept _ => preserved before action after kept) holds
    (fun _ _ => trivial) replayed

/-- A credit of one amount for each chosen action. -/
theorem sum_credit (chosen : Action → Bool) (amount : Nat) (actions : List Action) :
    (actions.map fun action => if chosen action then amount else 0).sum =
      amount * actions.countP chosen := by
  induction actions with
  | nil => rfl
  | cons action rest inductionHypothesis =>
    rw [List.map_cons, List.sum_cons, inductionHypothesis, List.countP_cons]
    split
    · rw [Nat.mul_add, Nat.mul_one, Nat.add_comm]
    · rw [Nat.zero_add, Nat.add_zero]

/-- If each counted step lowers the potential, and no other raises it, a run has at most
that many counted steps. -/
theorem exec_counted (permitted : Action → Prop) (Inv : State → Prop) (potential : State → Nat)
    (counted : Action → Bool)
    (preserved : ∀ before action after, Inv before → permitted action →
      machine.step before action = some after →
        Inv after ∧ potential after + (if counted action then 1 else 0) ≤ potential before)
    {state final : State} {actions : List Action} (holds : Inv state)
    (allowed : ∀ action ∈ actions, permitted action)
    (replayed : machine.exec state actions = some final) :
    potential final + actions.countP counted ≤ potential state := by
  have paid := exec_amortized_within permitted Inv potential
    (fun action => if counted action then 1 else 0) (fun action => if counted action then 0 else 0)
    (fun before action after kept allowed stepped => by
      simpa only [ite_self, Nat.add_zero] using preserved before action after kept allowed stepped)
    holds allowed replayed
  rwa [sum_credit, sum_credit, Nat.one_mul, Nat.zero_mul] at paid

/-- What a chosen step brings about, and every step keeps, holds at the end of each run in
which a chosen step is taken. -/
theorem exec_establishes (Before After : State → Prop) (chosen : Action → Bool)
    (kept : ∀ before action after, Before before → machine.step before action = some after →
      Before after)
    (established : ∀ before action after, Before before → chosen action = true →
      machine.step before action = some after → After after)
    (lasting : ∀ before action after, After before → machine.step before action = some after →
      After after)
    {state final : State} {actions : List Action} (holds : Before state)
    (replayed : machine.exec state actions = some final) (taken : actions.any chosen = true) :
    After final := by
  induction actions generalizing state with
  | nil => simp at taken
  | cons action rest inductionHypothesis =>
    obtain ⟨next, stepped, tail⟩ := Option.bind_eq_some_iff.mp replayed
    cases here : chosen action with
    | true =>
      exact exec_preserves After lasting (established _ _ _ holds here stepped) tail
    | false =>
      rw [List.any_cons, here, Bool.false_or] at taken
      exact inductionHypothesis (kept _ _ _ holds stepped) tail taken

/-- Where every state short of the goal has an own step that lowers the potential, own
steps alone lead to the goal. -/
theorem exec_completes (Inv goal : State → Prop) (own : Action → Prop) (potential : State → Nat)
    (progress : ∀ state, Inv state → ¬ goal state → ∃ action after, own action ∧
      machine.step state action = some after ∧ Inv after ∧ potential after < potential state)
    {state : State} (holds : Inv state) :
    ∃ actions final, (∀ action ∈ actions, own action) ∧
      machine.exec state actions = some final ∧ Inv final ∧ goal final ∧
        actions.length ≤ potential state := by
  generalize size : potential state = bound
  induction bound using Nat.strongRecOn generalizing state with
  | ind bound inductionHypothesis =>
    by_cases reached : goal state
    · exact ⟨[], state, by simp, rfl, holds, reached, Nat.zero_le _⟩
    · obtain ⟨action, after, mine, stepped, kept, lower⟩ := progress state holds reached
      obtain ⟨actions, final, owned, replayed, stays, done, short⟩ :=
        inductionHypothesis (potential after) (by omega) kept rfl
      refine ⟨action :: actions, final, ?_, ?_, stays, done, ?_⟩
      · intro found member
        rcases List.mem_cons.mp member with rfl | later
        · exact mine
        · exact owned found later
      · exact Option.bind_eq_some_iff.mpr ⟨after, stepped, replayed⟩
      · rw [List.length_cons]
        omega

end Machine

end Foundation
