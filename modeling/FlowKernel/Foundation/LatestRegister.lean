import Mathlib.Data.List.Perm.Basic
import FlowKernel.Foundation.History

/-!
# A register that keeps only the latest value

A put into an occupied register discards the value it finds there; a take
empties the register. Operations are reported by events, and a history of events
is legal if a register that starts empty can produce it. Legality alone decides
what such a register promises: takes follow the order of the puts, every value
put is taken, discarded or still held, and what is taken is the latest value.
-/

namespace Foundation.LatestRegister

universe u
variable {α : Type u}

/-- What an operation of a register does. -/
inductive Event (α : Type u) where
  | put (item : α)
  | overwrite (old new : α)
  | take (item : α)
  | miss
deriving DecidableEq

/-- The operations: a put may overwrite, and a take may miss. -/
inductive Step : Option α → Event α → Option α → Prop
  | put {item : α} : Step none (.put item) (some item)
  | overwrite {old new : α} : Step (some old) (.overwrite old new) (some new)
  | take {item : α} : Step (some item) (.take item) none
  | miss : Step none .miss none

/-- Histories of an initially empty register, with what it holds afterwards. -/
inductive Legal : List (Event α) → Option α → Prop
  | nil : Legal [] none
  | snoc {history : List (Event α)} {held after : Option α} {event : Event α}
      (earlier : Legal history held) (step : Step held event after) :
      Legal (history ++ [event]) after

/-- Values put, in order. -/
def puts (history : List (Event α)) : List α :=
  history.filterMap fun
    | .put item => some item
    | .overwrite _ new => some new
    | _ => none

/-- The items taken. -/
def taken (history : List (Event α)) : List α :=
  history.filterMap fun
    | .take item => some item
    | _ => none

/-- Values discarded by a later put. -/
def overwritten (history : List (Event α)) : List α :=
  history.filterMap fun
    | .overwrite old _ => some old
    | _ => none

/-- The latest value put since the last take. -/
def pending (history : List (Event α)) : Option α :=
  history.foldl (fun held event =>
    match event with
    | .put item | .overwrite _ item => some item
    | .take _ => none
    | .miss => held) none

section Histories

variable (before after : List (Event α))

/-- The items put, in two parts of a history. -/
@[simp] theorem puts_append : puts (before ++ after) = puts before ++ puts after :=
  List.filterMap_append

/-- The items taken, in two parts of a history. -/
@[simp] theorem taken_append : taken (before ++ after) = taken before ++ taken after :=
  List.filterMap_append

/-- The items overwritten, in two parts of a history. -/
@[simp] theorem overwritten_append :
    overwritten (before ++ after) = overwritten before ++ overwritten after :=
  List.filterMap_append

end Histories

variable {history : List (Event α)} {held : Option α}

/-- One operation balances values put with values taken, discarded and held. -/
theorem Step.balanced {event : Event α} {after : Option α} (step : Step held event after) :
    (puts [event]).length + held.toList.length =
      (taken [event]).length + (overwritten [event]).length + after.toList.length := by
  cases step <;> rfl

/-- Values are taken at most once and in the order of their puts; the one still
held comes last. -/
theorem Legal.ordered (legal : Legal history held) :
    (taken history ++ held.toList).Sublist (puts history) := by
  induction legal with
  | nil => exact List.Sublist.slnil
  | @snoc history held after event earlier step inductionHypothesis =>
    rw [taken_append, puts_append]
    cases step with
    | @put item =>
      simpa [taken, puts] using inductionHypothesis.append (List.Sublist.refl [item])
    | @overwrite old new =>
      have shorter : (taken history).Sublist (puts history) :=
        (List.sublist_append_left _ _).trans inductionHypothesis
      simpa [taken, puts] using shorter.append (List.Sublist.refl [new])
    | @take item => simpa [taken, puts] using inductionHypothesis
    | miss => simpa [taken, puts] using inductionHypothesis

/-- No value disappears: each one put has been discarded by a later put, has been
taken, or is held. -/
theorem Legal.accounted (legal : Legal history held) :
    (puts history).Perm (overwritten history ++ taken history ++ held.toList) := by
  induction legal with
  | nil => exact List.Perm.refl []
  | @snoc history held after event earlier step inductionHypothesis =>
    rw [puts_append, overwritten_append, taken_append]
    cases step with
    | @put item =>
      simpa [taken, puts, overwritten] using inductionHypothesis.append_right [item]
    | @overwrite old new =>
      have moved : (overwritten history ++ taken history ++ [old]).Perm
          (overwritten history ++ [old] ++ taken history) := by
        rw [List.append_assoc, List.append_assoc]
        exact List.perm_append_comm.append_left _
      simpa [taken, puts, overwritten] using
        (inductionHypothesis.trans moved).append_right [new]
    | @take item => simpa [taken, puts, overwritten] using inductionHypothesis
    | miss => simpa [taken, puts, overwritten] using inductionHypothesis

/-- What a register holds can be read off its history. -/
theorem Legal.pending_eq (legal : Legal history held) : pending history = held := by
  induction legal with
  | nil => rfl
  | @snoc history held after event earlier step inductionHypothesis =>
    rw [pending, List.foldl_append]
    cases step with
    | miss => exact inductionHypothesis
    | _ => rfl

/-- The register holds the latest put, unless that one has been taken: then it
was the last one taken. -/
theorem Legal.latest (legal : Legal history held) :
    (∀ item, held = some item → (puts history).getLast? = some item) ∧
      (held = none → (puts history).getLast? = (taken history).getLast?) := by
  induction legal with
  | nil => simp [puts, taken]
  | @snoc history held after event earlier step inductionHypothesis =>
    rw [taken_append, puts_append]
    cases step with
    | @put item =>
      have added : puts [Event.put item] = [item] := rfl
      simp [added]
    | @overwrite old new =>
      have added : puts [Event.overwrite old new] = [new] := rfl
      simp [added]
    | @take item =>
      have last : (puts history).getLast? = some item := inductionHypothesis.1 item rfl
      have silent : puts [Event.take item] = [] := rfl
      have left : taken [Event.take item] = [item] := rfl
      simp [silent, left, last]
    | miss =>
      have last := inductionHypothesis.2 rfl
      have silent : puts [(Event.miss : Event α)] = [] := rfl
      have kept : taken [(Event.miss : Event α)] = [] := rfl
      simp [silent, kept, last]

/-- What a take says about the history before it: the value is the latest one put,
and an empty answer finds the latest one already taken. -/
def Explained (before : List (Event α)) : Event α → Prop
  | .take item => (puts before).getLast? = some item
  | .miss => (puts before).getLast? = (taken before).getLast?
  | .overwrite old _ => (puts before).getLast? = some old
  | .put _ => (puts before).getLast? = (taken before).getLast?

/-- In a legal history every item taken was the last one put. -/
theorem Legal.explained (legal : Legal history held) : Justified Explained history := by
  induction legal with
  | nil => exact Justified.nil
  | @snoc history held after event earlier step inductionHypothesis =>
    apply inductionHypothesis.snoc
    cases step with
    | put => exact earlier.latest.2 rfl
    | overwrite => exact earlier.latest.1 _ rfl
    | take => exact earlier.latest.1 _ rfl
    | miss => exact earlier.latest.2 rfl

end Foundation.LatestRegister
