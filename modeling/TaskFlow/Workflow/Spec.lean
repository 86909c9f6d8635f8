import TaskFlow.Error
import TaskFlow.Naming
import TaskFlow.Status
import TaskFlow.Workflow.Document

/-!
# Workflows

The lifecycle of one kind of work item: its statuses, the flow they take by default, the ones that
can be entered in an emergency, the ones that end it, and the rules of transition. A workflow is
built in, or read from a document.
-/

namespace TaskFlow.Workflow

structure Rules where
  enforceSequential : Bool := true
  allowBackward : Bool := true
  allowEmergency : Bool := true
  validatePrerequisites : Bool := true
  deriving DecidableEq, Repr

/-- The rules that settings come to; a rule that is not set is on. -/
def RuleSettings.resolve (s : RuleSettings) : Rules where
  enforceSequential := s.enforceSequential.getD true
  allowBackward := s.allowBackward.getD true
  allowEmergency := s.allowEmergency.getD true
  validatePrerequisites := s.validatePrerequisites.getD true

/-- An order in which the keys of a table are gone through. -/
structure KeyOrder where
  arrange : List Status → List Status
  perm : ∀ keys, (arrange keys).Perm keys

/-- The order in which the keys were entered. -/
def KeyOrder.given : KeyOrder where
  arrange keys := keys
  perm _ := .refl _

/-- The lifecycle of one kind. Of several roles for a status the last one counts. -/
structure Spec where
  kind : Kind
  allowed : List Status
  flow : List Status
  emergency : List Status
  terminal : List Status
  roles : List (Status × Role)
  rules : Rules
  deriving DecidableEq, Repr

namespace Spec

/-- The flow of a kind when no document gives one. -/
def builtInFlow : Kind → List Status
  | .task => [.pending, .inProgress, .testing, .completed]
  | .feature => [.planning, .inDevelopment, .testing, .validating, .completed]
  | .project => [.planning, .inDevelopment, .completed, .archived]

/-- The emergency statuses of a kind when no document gives them. -/
def builtInEmergency : Kind → List Status
  | .task => [.blocked, .onHold, .cancelled, .deferred]
  | .feature => [.blocked, .onHold, .archived]
  | .project => [.onHold, .cancelled, .archived]

/-- The terminal statuses of a kind when no document gives them. -/
def builtInTerminal : Kind → List Status
  | .task => [.completed, .cancelled, .deferred]
  | .feature => [.completed, .archived]
  | .project => [.completed, .cancelled, .archived]

/-- The workflow of a kind when no document gives one. -/
def builtIn (kind : Kind) (rules : Rules := {}) : Spec where
  kind
  allowed := kind.vocabulary
  flow := builtInFlow kind
  emergency := builtInEmergency kind
  terminal := builtInTerminal kind
  roles := []
  rules

/-- The full name of a part of a document. -/
def fieldName (kind : Kind) (part : String) : String :=
  s!"status_progression.{kind.plural}.{part}"

/-- Reads the status names that a part of a document lists. -/
def readStatuses (kind : Kind) (part : String) (names : List String) :
    Except ConfigError (List Status) :=
  names.mapM fun name =>
    (Status.parse name).mapError fun e => .invalidValue (fieldName kind part) name e.message

/-- Reads the roles that a document gives to statuses. -/
def readRoles (kind : Kind) (entries : List (String × String)) :
    Except ConfigError (List (Status × Role)) :=
  entries.mapM fun (name, roleName) => do
    let status ← (Status.parse name).mapError fun e =>
      ConfigError.invalidValue (fieldName kind "status_roles") name e.message
    let role ← (Role.parse roleName).mapError fun e =>
      ConfigError.invalidValue (fieldName kind "status_roles") roleName e.message
    return (status, role)

/-- The workflow that a document gives for a kind. It allows the built-in statuses and after them
the new ones of the three lists, in the order in which the document names them. The statuses that
only have a role come last, in whatever order the keys are gone through. -/
def ofProgression (kind : Kind) (p : Progression) (rules : Rules) (order : KeyOrder) :
    Except ConfigError Spec := do
  let flow ← readStatuses kind "default_flow" p.flow
  if flow.isEmpty then
    throw (.missingField (fieldName kind "default_flow") "workflow document")
  let emergency ← readStatuses kind "emergency_transitions" p.emergency
  let terminal ← readStatuses kind "terminal_statuses" p.terminal
  let roles ← readRoles kind p.roles.entries
  let keys := order.arrange (roles.map Prod.fst)
  return {
    kind
    allowed := (kind.vocabulary ++ flow ++ emergency ++ terminal ++ keys).eraseDups
    flow, emergency, terminal, roles, rules }

/-- Whether a status is one that the workflow knows. -/
def isAllowed (w : Spec) (s : Status) : Bool :=
  w.allowed.contains s

/-- Whether a status ends the lifecycle. -/
def isTerminal (w : Spec) (s : Status) : Bool :=
  w.terminal.contains s

/-- Whether a status can be entered in an emergency. -/
def isEmergency (w : Spec) (s : Status) : Bool :=
  w.emergency.contains s

/-- The first place of a status in the flow. -/
def position (w : Spec) (s : Status) : Option Nat :=
  w.flow.idxOf? s

/-- Whether some emergency status does not end the lifecycle. -/
def hasOpenEmergency (w : Spec) : Bool :=
  w.emergency.any fun s => !w.isTerminal s

/-- The role that the document gives to a status. -/
def givenRole (w : Spec) (s : Status) : Option Role :=
  w.roles.reverse.lookup s

/-- The role of a status: the one that the document gives, else `terminal` if the status ends the
lifecycle, else the one that its name suggests. -/
def roleOf (w : Spec) (s : Status) : Role :=
  match w.givenRole s with
  | some role => role
  | none => if w.isTerminal s then .terminal else s.nominalRole

/-- The names of the allowed statuses, separated by commas. -/
def allowedNames (w : Spec) : String :=
  String.intercalate ", " (w.allowed.map Status.name)

end Spec

/-- The workflow of a kind under a document. A kind that the document leaves out keeps its built-in
workflow, under the rules that the document sets. -/
def Document.spec (d : Document) (kind : Kind) (order : KeyOrder := .given) :
    Except ConfigError Spec :=
  match d.progression kind with
  | some p => Spec.ofProgression kind p d.rules.resolve order
  | none => .ok (.builtIn kind d.rules.resolve)

end TaskFlow.Workflow
