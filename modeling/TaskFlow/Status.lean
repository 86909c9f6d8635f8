import TaskFlow.Kind
import TaskFlow.Naming
import TaskFlow.Text

/-!
# Statuses

A status is a name in canonical form: upper-case ASCII letters, digits and underscores, between 1
and 64 of them. Texts that differ in case, in hyphens, spaces and underscores, or in the blanks
around them name the same status. Every workflow of a kind allows the statuses built in for it.
-/

namespace TaskFlow

/-- Whether a character may stand in a canonical status name. -/
def isStatusChar (c : Char) : Bool :=
  c.isUpper || c.isDigit || c == '_'

/-- Whether a text is a status name in canonical form. -/
def isStatusName (s : String) : Bool :=
  s.toList.all isStatusChar && !s.toList.isEmpty && s.toList.length ≤ 64

/-- A status, known by its canonical name. -/
structure Status where
  name : String
  canonical : isStatusName name = true := by decide
  deriving DecidableEq, Repr

namespace Status

/-- The canonical form of one character: hyphen and space become underscore, letters upper case. -/
def foldChar (c : Char) : Char :=
  if c = '-' ∨ c = ' ' then '_' else c.toUpper

/-- Reads a status name. At most 64 bytes may remain once the blanks around it are gone. -/
def parse (raw : String) : Except ReadError Status :=
  let text := Text.trim raw
  if text.isEmpty then .error .emptyStatus
  else if 64 < text.utf8ByteSize then .error (.longStatus text.utf8ByteSize)
  else
    let name := String.ofList (text.toList.map foldChar)
    if h : isStatusName name = true then .ok ⟨name, h⟩ else .error (.badStatus raw)

/-- The spelling of a status in workflow documents: lower case, with hyphens. -/
def documentName (s : Status) : String :=
  Text.swap '_' '-' (Text.lower s.name)

def backlog : Status := { name := "BACKLOG" }
def pending : Status := { name := "PENDING" }
def inProgress : Status := { name := "IN_PROGRESS" }
def inReview : Status := { name := "IN_REVIEW" }
def changesRequested : Status := { name := "CHANGES_REQUESTED" }
def testing : Status := { name := "TESTING" }
def readyForQa : Status := { name := "READY_FOR_QA" }
def investigating : Status := { name := "INVESTIGATING" }
def blocked : Status := { name := "BLOCKED" }
def onHold : Status := { name := "ON_HOLD" }
def deployed : Status := { name := "DEPLOYED" }
def completed : Status := { name := "COMPLETED" }
def cancelled : Status := { name := "CANCELLED" }
def deferred : Status := { name := "DEFERRED" }
def draft : Status := { name := "DRAFT" }
def planning : Status := { name := "PLANNING" }
def inDevelopment : Status := { name := "IN_DEVELOPMENT" }
def validating : Status := { name := "VALIDATING" }
def pendingReview : Status := { name := "PENDING_REVIEW" }
def archived : Status := { name := "ARCHIVED" }

/-- The role that the name of a status suggests. Whether a status is terminal is for its workflow
to say, so no name suggests `terminal`. -/
def nominalRole (s : Status) : Role :=
  if s ∈ [blocked, onHold] then .blocked
  else if s ∈ [inProgress, investigating, changesRequested, inDevelopment] then .work
  else if s ∈ [inReview, testing, readyForQa, validating, pendingReview, deployed] then .review
  else .queue

end Status

namespace Kind

/-- The statuses built in for a kind, in the order in which they are listed. -/
def vocabulary : Kind → List Status
  | .task =>
    [.backlog, .pending, .inProgress, .inReview, .changesRequested, .testing, .readyForQa,
      .investigating, .blocked, .onHold, .deployed, .completed, .cancelled, .deferred]
  | .feature =>
    [.draft, .planning, .inDevelopment, .testing, .validating, .pendingReview, .blocked, .onHold,
      .deployed, .completed, .archived]
  | .project => [.planning, .inDevelopment, .onHold, .cancelled, .completed, .archived]

/-- Reads a status name that must be built in for the kind. -/
def parseStatus (kind : Kind) (raw : String) : Except ReadError Status := do
  let status ← Status.parse raw
  if status ∈ kind.vocabulary then .ok status else .error (.foreignStatus kind raw)

end Kind

end TaskFlow
