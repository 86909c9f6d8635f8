import TaskFlow.Error
import TaskFlow.Text
import TaskFlow.Workflow.Document
import TaskFlow.Yaml.Node.Build

/-!
# The text of workflow documents

Workflow documents are written in YAML. Every part may be left out or left empty; entries of other
names are ignored. Names of statuses and roles may be written as any scalar and keep its text.
-/

namespace TaskFlow.Workflow

open Yaml

/-- What aliases stand for. An alias never stands for another one. -/
def deref (t : Tree) : Node → Option Node
  | .alias label => t.find? label
  | n => some n

def readText (t : Tree) (n : Node) : Option String := do
  let .scalar _ _ text ← deref t n | none
  return text

/-- The entries of a map; a place where nothing is written is a map without entries. -/
def readEntries (t : Tree) (n : Node) : Option (List (Node × Node)) := do
  match ← deref t n with
  | .map _ entries => return entries
  | .scalar _ .plain "" => return []
  | _ => none

/-- The items of a list; a place where nothing is written is a list without items. -/
def readItems (t : Tree) (n : Node) : Option (List Node) := do
  match ← deref t n with
  | .list _ items => return items
  | .scalar _ .plain "" => return []
  | _ => none

/-- The entries of a map by the texts of their keys. -/
def readNamed (t : Tree) (n : Node) : Option (List (String × Node)) := do
  (← readEntries t n).mapM fun (k, v) => do return (← readText t k, v)

/-- The entries of a map that has some known names, none of them twice. -/
def readRecord (t : Tree) (known : List String) (n : Node) : Option (List (String × Node)) := do
  let entries ← readNamed t n
  let found := (entries.map Prod.fst).filter known.contains
  if found.eraseDups.length = found.length then some entries else none

/-- The part of a record with a name, `default` if there is none. -/
def readPart {α : Type} (name : String) (default : α) (read : Node → Option α)
    (entries : List (String × Node)) : Option α :=
  match entries.lookup name with
  | some n => read n
  | none => some default

def absentTag : String := "tag:yaml.org,2002:null"

def truthTag : String := "tag:yaml.org,2002:bool"

def isAbsent (text : String) : Bool :=
  ["null", "Null", "NULL", "~"].contains text

/-- Something that may be absent: a plain scalar that is empty or says so, and has no tag but the
one for it. -/
def readOptional {α : Type} (t : Tree) (read : Node → Option α) (n : Node) :
    Option (Option α) := do
  let n ← deref t n
  match n with
  | .scalar { tag := none, .. } .plain text =>
    if text.isEmpty || isAbsent text then return none else return some (← read n)
  | .scalar { tag := some tag, .. } .plain text =>
    if tag = absentTag then if isAbsent text then return none else none
    else return some (← read n)
  | n => return some (← read n)

/-- A truth value: a plain scalar, or a literal one with the tag for it. -/
def readTruth (t : Tree) (n : Node) : Option Bool := do
  let .scalar p style text ← deref t n | none
  if style = .plain || (style = .literal && p.tag = some truthTag) then
    if ["true", "True", "TRUE"].contains text then return true
    else if ["false", "False", "FALSE"].contains text then return false
    else none
  else none

def readNames (t : Tree) (n : Node) : Option (List String) := do
  (← readItems t n).mapM (readText t)

/-- The roles of statuses. Of several entries for one status the last counts. -/
def readRoles (t : Tree) (n : Node) : Option Dictionary := do
  return .ofList (← (← readNamed t n).mapM fun (k, v) => do return (k, ← readText t v))

def readProgression (t : Tree) (n : Node) : Option Progression := do
  let entries ← readRecord t
    ["default_flow", "emergency_transitions", "terminal_statuses", "status_roles"] n
  return {
    flow := ← readPart "default_flow" [] (readNames t) entries
    emergency := ← readPart "emergency_transitions" [] (readNames t) entries
    terminal := ← readPart "terminal_statuses" [] (readNames t) entries
    roles := ← readPart "status_roles" .empty (readRoles t) entries }

def readRules (t : Tree) (n : Node) : Option RuleSettings := do
  let entries ← readRecord t
    ["enforce_sequential", "allow_backward", "allow_emergency", "validate_prerequisites"] n
  let rule (name : String) := readPart name none (readOptional t (readTruth t)) entries
  return {
    enforceSequential := ← rule "enforce_sequential"
    allowBackward := ← rule "allow_backward"
    allowEmergency := ← rule "allow_emergency"
    validatePrerequisites := ← rule "validate_prerequisites" }

/-- The lifecycles of the kinds, in a document that has no rules. -/
def readProgressions (t : Tree) (n : Node) : Option Document := do
  let entries ← readRecord t ["tasks", "features", "projects"] n
  let kind (k : Kind) := readPart k.plural none (readOptional t (readProgression t)) entries
  return { tasks := ← kind .task, features := ← kind .feature, projects := ← kind .project }

namespace Document

def ofTree (t : Tree) : Option Document := do
  let some root := t.root | return {}
  let entries ← readRecord t ["status_progression", "status_validation"] root
  let document ← readPart "status_progression" {} (readProgressions t) entries
  return { document with rules := ← readPart "status_validation" {} (readRules t) entries }

/-- The document of a text, `none` if the text is not one. A text of blanks is a document that says
nothing. -/
def ofText? (text : String) : Option Document :=
  if Text.isAllBlank text then some {} else (Tree.ofText text).bind ofTree

def ofFile (path text : String) : Except ConfigError Document :=
  match ofText? text with
  | some document => .ok document
  | none => .error (.invalidYaml path "not a workflow document")

end Document

end TaskFlow.Workflow
