import TaskFlow.Dependency
import TaskFlow.Kind
import TaskFlow.Text

/-!
# Names of kinds, roles, relations and directions

Each is read in any case and with blanks around it; a refused name is reported as it was given.
-/

namespace TaskFlow

/-- Why a text is not a name of the wanted sort. A refused name is kept as it was given. -/
inductive ReadError where
  | emptyStatus
  | longStatus (bytes : Nat)
  | badStatus (raw : String)
  | foreignStatus (kind : Kind) (raw : String)
  | unknownKind (raw : String)
  | unknownRole (raw : String)
  | unknownRelation (raw : String)
  | unknownDirection (raw : String)
  deriving DecidableEq, Repr

def ReadError.message : ReadError → String
  | .emptyStatus => "Status must not be empty"
  | .longStatus bytes => s!"Status too long: {bytes} chars (max: 64)"
  | .badStatus raw => s!"Invalid status name: {raw}"
  | .foreignStatus kind raw => s!"Invalid {kind.name} status: {raw}"
  | .unknownKind raw => s!"Invalid entity kind: {raw}"
  | .unknownRole raw => s!"Invalid status role: {raw}"
  | .unknownRelation raw => s!"Invalid dependency type: {raw}"
  | .unknownDirection raw => s!"Invalid direction: {raw}"

/-- Reads the singular or plural name of a kind. -/
def Kind.parse (raw : String) : Except ReadError Kind :=
  let text := Text.lower (Text.trim raw)
  match Kind.all.find? (fun k => text = k.name ∨ text = k.plural) with
  | some k => .ok k
  | none => .error (.unknownKind raw)

def Role.parse (raw : String) : Except ReadError Role :=
  let text := Text.lower (Text.trim raw)
  match Role.all.find? (fun r => text = r.name) with
  | some r => .ok r
  | none => .error (.unknownRole raw)

/-- Reads the name of a relation, in which a hyphen may stand for an underscore. -/
def Relation.parse (raw : String) : Except ReadError Relation :=
  let text := Text.swap '-' '_' (Text.upper (Text.trim raw))
  match Relation.all.find? (fun r => text = r.name) with
  | some r => .ok r
  | none => .error (.unknownRelation raw)

def Direction.parse (raw : String) : Except ReadError Direction :=
  let text := Text.lower (Text.trim raw)
  match [Direction.incoming, .outgoing, .all].find? (fun d => text = d.name) with
  | some d => .ok d
  | none => .error (.unknownDirection raw)

end TaskFlow
