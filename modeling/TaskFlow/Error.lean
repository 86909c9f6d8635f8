import TaskFlow.Dependency
import TaskFlow.Instant
import TaskFlow.Prerequisite
import TaskFlow.Naming

/-!
# Errors

The causes for which the engine refuses a request, the text that reports each, its category, and
whether the same request may succeed later.
-/

namespace TaskFlow

/-- Why settings or a workflow document cannot be used. -/
inductive ConfigError where
  | invalidYaml (file detail : String)
  | unreadableFile (file detail : String)
  | missingField (field context : String)
  | invalidValue (field value context : String)
  | badSettings (directory detail : String)
  | invalid (detail : String)
  deriving DecidableEq, Repr

/-- The text that reports unusable settings or an unusable document. -/
def ConfigError.message : ConfigError → String
  | .invalidYaml file detail => s!"Invalid YAML in configuration file '{file}': {detail}"
  | .unreadableFile file detail => s!"Failed to read configuration file '{file}': {detail}"
  | .missingField field context =>
    s!"Missing required configuration field '{field}' in {context}"
  | .invalidValue field value context => s!"Invalid value '{value}' for field '{field}': {context}"
  | .badSettings directory detail =>
    s!"Failed to build engine settings from {directory}: {detail}"
  | .invalid detail => s!"Configuration validation failed: {detail}"

/-- The detail that tells of a document which is no regular file. -/
def ConfigError.notRegularDetail : String := "workflow document path is not a regular file"

/-- The error for a document that is no regular file. -/
def ConfigError.notRegularFile (file : String) : ConfigError :=
  .unreadableFile file notRegularDetail

inductive RecordSort where
  | entity (kind : Kind)
  | dependency
  deriving DecidableEq, Repr

def RecordSort.name : RecordSort → String
  | .entity kind => kind.name
  | .dependency => "dependency"

/-- What is wrong with the values of a request. -/
inductive Fault where
  | unreadable (error : ReadError)
  | unblockOnRelation (relation : Relation)
  | unblockOnInformational
  | notUnblocking (role : String)
  | rejected (reason : String)
  deriving DecidableEq, Repr

/-- The text that says what is wrong with the values of a request. -/
def Fault.message : Fault → String
  | .unreadable error => error.message
  | .unblockOnRelation relation =>
    s!"unblockAt is only valid for BLOCKS or IS_BLOCKED_BY dependencies, not {relation.name}"
  | .unblockOnInformational => "unblockAt is only valid for BLOCKS or IS_BLOCKED_BY dependencies"
  | .notUnblocking role => s!"Invalid unblockAt '{role}': must be one of work, review, terminal"
  | .rejected reason => reason

/-- Why a request is refused. -/
inductive EngineError where
  | invalid (fault : Fault)
  | selfDependency (task : Ident)
  | missing (sort : RecordSort) (id : Ident)
  | duplicate (source target : Ident) (relation : Relation)
  | cycle (source target : Ident) (relation : Relation)
  | lockTimeout (entity : Ident) (waited : Duration)
  | prerequisite (shortfall : Shortfall)
  | config (error : ConfigError)
  | storage (detail : String)
  deriving DecidableEq, Repr

/-- A coarse class of errors. -/
inductive ErrorCategory where
  | validation
  | missing
  | conflict
  | prerequisite
  | config
  | internal
  deriving DecidableEq, Repr

namespace EngineError

def message : EngineError → String
  | .invalid fault => s!"Validation error: {fault.message}"
  | .selfDependency task => s!"Validation error: a task cannot depend on itself ({task})"
  | .missing sort id => s!"{sort.name} not found: {id}"
  | .duplicate source target relation =>
    s!"Dependency {relation.name} from {source} to {target} already exists"
  | .cycle source target relation =>
    s!"Adding {relation.name} from {source} to {target} would create a cycle"
  | .lockTimeout entity waited =>
    s!"Timed out after {waited.render} waiting for the lock on entity {entity}"
  | .prerequisite shortfall => s!"Prerequisites not met: {shortfall.render}"
  | .config error => error.message
  | .storage detail => s!"Repository error: {detail}"

def category : EngineError → ErrorCategory
  | .invalid _ | .selfDependency _ => .validation
  | .missing _ _ => .missing
  | .duplicate _ _ _ | .cycle _ _ _ | .lockTimeout _ _ => .conflict
  | .prerequisite _ => .prerequisite
  | .config _ => .config
  | .storage _ => .internal

/-- Whether the same request, unchanged, may succeed later. -/
def isRetryable : EngineError → Bool
  | .lockTimeout _ _ | .storage _ => true
  | _ => false

end EngineError

end TaskFlow
