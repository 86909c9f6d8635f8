import TaskFlow.Settings.Read
import TaskFlow.Settings.Text
import TaskFlow.Text.Lowercase

/-!
# Loading settings

The settings of a named environment, with a file laid over them and environment variables over
both. A variable whose name begins with `ORCHESTRATOR__` gives one setting: two underscores lead
from the section to the name, in either case. Only settings that pass the check are handed out.
-/

namespace TaskFlow

/-- The value that the text of a variable stands for. -/
def Given.ofVariable (text : String) : Given :=
  let word := Text.lowercase text
  if word = "true" then .bool true
  else if word = "false" then .bool false
  else
    match int64? 10 text.toList with
    | some n => .whole n
    | none =>
      match Binary64.parse? text with
      | some x => .real x
      | none => .text text

/-- How the names of variables begin that give settings, in lower case. -/
def variablePrefix : List Char := "orchestrator__".toList

/-- The name of the setting that a variable gives, with points between its parts. -/
def settingName? (variable_ : String) : Option String :=
  let name := (Text.lowercase variable_).toList
  if variablePrefix.isPrefixOf name then
    some (".".intercalate (Text.parts "__" (.ofList (name.drop variablePrefix.length))))
  else none

/-- The layer with the setting that a variable gives, if it gives one. -/
def Layer.putVariable (l : Layer) (name text : String) : Layer :=
  match settingName? name with
  | none => l
  | some name =>
    match namePath name with
    | [group, setting] => l.putSetting group setting (.ofVariable text)
    | group :: setting :: _ => l.putSetting group setting (.table false)
    | _ => l.put name (.other (.ofVariable text))

def Layer.putVariables (l : Layer) (vars : List (String × String)) : Layer :=
  vars.foldl (fun l v => l.putVariable v.1 v.2) l

/-- Settings that were loaded, and where they come from. -/
structure LoadedSettings where
  settings : Settings
  environment : String
  directory : String
  deriving DecidableEq, Repr

namespace Settings

/-- The name of the environment that the variables tell, in lower case. -/
def environmentOf (vars : List (String × String)) : String :=
  Text.lowercase (((vars.lookup "ORCHESTRATOR_ENV") <|> vars.lookup "APP_ENV").getD
    "development")

/-- The layer of an environment with a file, if there is one, and variables laid over it. -/
def layerOf (environment : String) (file : Option String) (vars : List (String × String)) :
    Option Layer := do
  let base := (forEnvironment environment).toLayer
  let layer ← match file with
    | some text => base.putText text
    | none => some base
  return layer.putVariables vars

/-- The settings of an environment, of a file in a directory and of variables. -/
def load (directory environment : String) (file : Option String)
    (vars : List (String × String)) : Except ConfigError LoadedSettings :=
  match (layerOf environment file vars).bind ofLayer with
  | none => .error (.badSettings directory "not settings of the engine")
  | some settings =>
    match settings.check with
    | .error e => .error e
    | .ok () => .ok { settings, environment, directory }

end Settings

end TaskFlow
