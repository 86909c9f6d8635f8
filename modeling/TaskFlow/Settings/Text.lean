import TaskFlow.Settings.Layer
import TaskFlow.Text
import TaskFlow.Yaml.Node.Build

/-!
# The text of settings

Settings are written in YAML, in sections or with the section in front of the name. What a plain
scalar stands for shows from its text: nothing, a truth value, a number or a text.
-/

namespace TaskFlow

open Yaml

/-- The number in a base that a list of digits stands for. -/
def readBase (base : Nat) (cs : List Char) : Option Nat :=
  if cs.isEmpty then none
  else cs.foldlM (fun n c => do
    let d ← Text.hexValue? c
    if d < base then some (base * n + d) else none) 0

/-- The signed number of 64 bits, in a base, that a text stands for. A sign may precede the
digits. -/
def int64? (base : Nat) (text : List Char) : Option Int := do
  let (negative, digits) := Binary64.takeSign text
  let n ← readBase base digits
  if negative then if n ≤ Nat.pow 2 63 then some (-n) else none
  else if n < Nat.pow 2 63 then some n else none

namespace Given

/-- The number that a plain scalar stands for: with `0x` or `0o` in front, with signs, or in
decimal. -/
def whole? (s : String) : Option Int :=
  let base : Option Int := match s.toList with
    | '0' :: 'x' :: cs => int64? 16 cs
    | '0' :: 'o' :: cs => int64? 8 cs
    | '+' :: cs => int64? 10 cs
    | _ => none
  base <|> int64? 10 s.toList

/-- Whether a text is a name of infinity, or of what is no number, that begins with a point. Such
numbers are not read. -/
def isPointName (s : String) : Bool :=
  [".inf", ".Inf", ".INF", "+.inf", "+.Inf", "+.INF", "-.inf", "-.Inf", "-.INF", ".nan",
    ".NAN"].contains s

/-- What a plain scalar stands for, `none` if it cannot be read. -/
def ofPlain (s : String) : Option Given :=
  match whole? s with
  | some n => some (.whole n)
  | none =>
    if s = "~" || s = "null" then some .absent
    else if s = "true" then some (.bool true)
    else if s = "false" then some (.bool false)
    else if isPointName s then none
    else
      match Binary64.parse? s with
      | some x => some (.real x)
      | none => some (.text s)

/-- What a plain scalar with a tag stands for, `none` if it cannot be read. -/
def ofTagged (tag s : String) : Option Given :=
  if tag = "tag:yaml.org,2002:bool" then
    if s = "true" then some (.bool true)
    else if s = "false" then some (.bool false)
    else some .absent
  else if tag = "tag:yaml.org,2002:int" then
    some (((int64? 10 s.toList).map .whole).getD .absent)
  else if tag = "tag:yaml.org,2002:float" then
    if isPointName s then none else some (((Binary64.parse? s).map .real).getD .absent)
  else if tag = "tag:yaml.org,2002:null" then some .absent
  else some (.text s)

/-- What a scalar stands for, `none` if it cannot be read. -/
def ofScalar (p : Properties) (style : Style) (s : String) : Option Given :=
  match style, p.tag with
  | .plain, some tag => ofTagged tag s
  | .plain, none => if s = "" && p.anchor.isNone then some .absent else ofPlain s
  | _, _ => some (.text s)

/-- What a node stands for as the value of a setting. -/
def ofNode (t : Tree) (n : Node) : Option Given :=
  match n with
  | .scalar p style s => ofScalar p style s
  | .list _ _ => some .list
  | .map _ entries => some (.table entries.isEmpty)
  | .alias label =>
    match t.find? label with
    | some (.scalar p style s) => ofScalar p style s
    | some (.list _ _) => some .list
    | some (.map _ entries) => some (.table entries.isEmpty)
    | _ => some .absent

end Given

/-- The name that a key stands for, in lower case: a text or a whole number. -/
def keyName? (t : Tree) (key : Node) : Option String :=
  match Given.ofNode t key with
  | some (.text s) => some (Text.lower s)
  | some (.whole n) => some (toString n)
  | _ => none

/-- The entries of a map by their names; of several for one name the last counts. -/
def namedEntries (t : Tree) (entries : List (Node × Node)) : List (String × Node) :=
  (entries.filterMap fun (k, v) => (keyName? t k).map (·, v)).foldl
    (fun l e => putEntry e.1 e.2 l) []

def Section.ofNode (t : Tree) (n : Node) : Option Section := do
  let target := match n with
    | .alias label => t.find? label
    | n => some n
  match target with
  | some (.map _ entries) =>
    let values ← (namedEntries t entries).mapM fun (k, v) => do return (k, ← Given.ofNode t v)
    return .table values
  | some (.list _ items) => return .list (← items.mapM (Given.ofNode t))
  | _ => return .other (← Given.ofNode t n)

/-- The parts of a name that leads to a setting. A name with an empty part, or with other characters
than may stand in one, is not taken apart. -/
def namePath (name : String) : List String :=
  let parts := Text.parts "." name
  let isPart (s : String) : Bool :=
    !s.isEmpty && s.toList.all fun c => c.isAlphanum || c == '_' || c == '-' || c == ' '
  if parts.all isPart then parts else [name]

/-- The layer with an entry of a text of settings. -/
def Layer.putNode (t : Tree) (l : Layer) (name : String) (n : Node) : Option Layer := do
  match namePath name with
  | [group, setting] => return l.putSetting group setting (← Given.ofNode t n)
  | group :: setting :: _ => return l.putSetting group setting (.table false)
  | _ => return l.put name (← Section.ofNode t n)

mutual

/-- Whether every scalar under a node can be read. -/
def isReadable : Node → Bool
  | .scalar p style text => (Given.ofScalar p style text).isSome
  | .list _ items => areReadable items
  | .map _ entries => haveReadable entries
  | .alias _ => true

/-- Whether every scalar under some nodes can be read. -/
def areReadable : List Node → Bool
  | [] => true
  | n :: rest => isReadable n && areReadable rest

/-- Whether every scalar under the values of a map can be read. -/
def haveReadable : List (Node × Node) → Bool
  | [] => true
  | (_, v) :: rest => isReadable v && haveReadable rest

end

/-- A layer with a text of settings laid over it, `none` if the text cannot be read. -/
def Layer.putText (l : Layer) (text : String) : Option Layer := do
  let t ← Tree.ofText text
  match t.root with
  | none => return l
  | some (.map p entries) =>
    if isReadable (.map p entries) then
      (namedEntries t entries).foldlM (fun l e => l.putNode t e.1 e.2) l
    else none
  | some _ => none

end TaskFlow
