import TaskFlow.Error
import TaskFlow.Wire.Reports

/-!
# The wire forms of errors
-/

namespace TaskFlow.Wire

/-- The name under which unusable settings or documents are reported. -/
def configErrorName : ConfigError → String
  | .invalidYaml _ _ => "InvalidYaml"
  | .unreadableFile _ _ => "FileReadError"
  | .missingField _ _ => "MissingRequiredField"
  | .invalidValue _ _ _ => "InvalidValue"
  | .badSettings _ _ => "SettingsError"
  | .invalid _ => "ValidationError"

/-- Whether the text of an error is the engine's own and not that of a reader beneath it. -/
def hasOwnMessage : ConfigError → Bool
  | .invalidYaml _ _ | .badSettings _ _ => false
  | .unreadableFile _ detail => detail = ConfigError.notRegularDetail
  | .missingField _ _ | .invalidValue _ _ _ | .invalid _ => true

def encodeConfigError (e : ConfigError) : Value :=
  .object (("error", .text (configErrorName e)) ::
    if hasOwnMessage e then [("message", .text e.message)] else [])

def errorName : EngineError → String
  | .invalid _ => "Validation"
  | .selfDependency _ => "SelfDependency"
  | .missing _ _ => "NotFound"
  | .duplicate _ _ _ => "DuplicateDependency"
  | .cycle _ _ _ => "CycleDetected"
  | .lockTimeout _ _ => "LockTimeout"
  | .prerequisite _ => "PrerequisiteUnmet"
  | .config _ => "Configuration"
  | .storage _ => "Repository"

def categoryName : ErrorCategory → String
  | .validation => "Validation"
  | .missing => "NotFound"
  | .conflict => "Conflict"
  | .prerequisite => "PrerequisiteUnmet"
  | .config => "Configuration"
  | .internal => "Internal"

def encodeError (e : EngineError) : Value :=
  .object (
    [("error", .text (errorName e)), ("message", .text e.message),
      ("category", .text (categoryName e.category)), ("retryable", .bool e.isRetryable)] ++
    match e with
    | .prerequisite shortfall => [("failure", encode shortfall)]
    | _ => [])

def encodeReadError (e : ReadError) : Value :=
  .object [("error", .text "Parse"), ("message", .text e.message)]

def ok (v : Value) : Value := .object [("ok", v)]

/-- The wire form of a result or an error. -/
def outcome {ε α : Type} (onError : ε → Value) (onOk : α → Value) : Except ε α → Value
  | .ok a => ok (onOk a)
  | .error e => onError e

end TaskFlow.Wire
