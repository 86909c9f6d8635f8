import TaskFlow.Ident
import TaskFlow.Kind

/-!
# Prerequisites

What may stand in the way of a change of status, and how it is reported.
-/

namespace TaskFlow

/-- What a change of status may be refused for. -/
inductive Requirement where
  | summaryLength (actual min max : Nat)
  | blockingDependencies
  | noChildTasks
  | incompleteChildTasks
  | incompleteChildFeatures
  deriving DecidableEq, Repr

/-- An entity that stands in the way; a blocker also says which role it has to reach. -/
structure BlockingItem where
  id : Ident
  kind : Kind
  title : String
  status : String
  requiredRole : Option Role := none
  deriving DecidableEq, Repr

/-- An unmet requirement, with what has to be done about it. -/
structure Shortfall where
  requirement : Requirement
  reason : String
  items : List BlockingItem := []
  deriving DecidableEq, Repr

/-- What checking the prerequisites of a change of status comes to. -/
inductive Readiness where
  | satisfied
  | unmet (shortfall : Shortfall)
  deriving DecidableEq, Repr

def Readiness.isSatisfied : Readiness → Bool
  | .satisfied => true
  | .unmet _ => false

/-- An item that stands in the way, in one line. -/
def BlockingItem.render (i : BlockingItem) : String :=
  let line := s!"{i.kind.name} '{i.title}' ({i.id}, {i.status})"
  match i.requiredRole with
  | some role => s!"{line} must reach {role.name}"
  | none => line

/-- An unmet prerequisite in one line: its reason, and the items in brackets if there are any. -/
def Shortfall.render (f : Shortfall) : String :=
  let items := String.intercalate "; " (f.items.map BlockingItem.render)
  if f.items.isEmpty then f.reason else s!"{f.reason} [{items}]"

end TaskFlow
