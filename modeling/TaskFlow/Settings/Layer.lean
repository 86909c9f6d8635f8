import TaskFlow.Binary64.Text
import TaskFlow.Settings

/-!
# Layers of settings

Settings as they are given before their types are looked at: sections of named values. A layer lies
over another one: it replaces single values and leaves the others as they are.
-/

namespace TaskFlow

/-- A value that is given for a setting. -/
inductive Given where
  | absent
  | bool (b : Bool)
  | whole (n : Int)
  | real (x : Binary64)
  | text (s : String)
  | list
  | table (isEmpty : Bool)
  deriving DecidableEq, Repr

/-- A section as it is given: named values, values in order, or something that is no section. -/
inductive Section where
  | table (entries : List (String × Given))
  | list (items : List Given)
  | other (g : Given)
  deriving DecidableEq, Repr

/-- Sections by their names. -/
structure Layer where
  sections : List (String × Section) := []
  deriving DecidableEq, Repr

/-- A list of entries with the entry for a key replaced, or with one more. -/
def putEntry {α : Type} (key : String) (a : α) : List (String × α) → List (String × α)
  | [] => [(key, a)]
  | (k, b) :: rest => if k = key then (k, a) :: rest else (k, b) :: putEntry key a rest

theorem lookup_putEntry {α : Type} (key other : String) (a : α) (l : List (String × α)) :
    (putEntry key a l).lookup other = if other = key then some a else l.lookup other := by
  induction l with
  | nil =>
    by_cases h : other = key
    · simp [putEntry, h]
    · simp [putEntry, List.lookup_cons, h, beq_false_of_ne h]
  | cons head rest ih =>
    obtain ⟨k, b⟩ := head
    by_cases hk : k = key
    · subst hk
      by_cases h : other = k
      · simp [putEntry, h]
      · simp [putEntry, List.lookup_cons, h, beq_false_of_ne h]
    · by_cases h : other = k
      · subst h
        simp [putEntry, hk]
      · simp [putEntry, List.lookup_cons, hk, beq_false_of_ne h, ih]

/-- What one value of a setting makes of another: it replaces it, unless it is a table that says
nothing. -/
def Given.onto (g : Given) : Option Given → Given
  | some old => if g = .table true then old else g
  | none => g

namespace Section

/-- The named values of a section; what is no such section has none. -/
def entries : Section → List (String × Given)
  | .table es => es
  | _ => []

def put (s : Section) (name : String) (g : Given) : Section :=
  .table (putEntry name (g.onto (s.entries.lookup name)) s.entries)

/-- What one section makes of another: a table replaces its values one by one, and anything else
replaces the whole. -/
def onto : Section → Option Section → Section
  | .table [], some old => old
  | .table es, old => es.foldl (fun s e => s.put e.1 e.2) (.table ((old.map entries).getD []))
  | s, _ => s

/-- The value that a section gives for a setting, by its name or by its place in the order; `none`
if what is given is no section. -/
def get? (s : Section) (place : Nat) (name : String) : Option (Option Given) :=
  match s with
  | .table es => some (es.lookup name)
  | .list items => some items[place]?
  | .other _ => none

end Section

namespace Layer

/-- The layer with a section laid over the one of that name. -/
def put (l : Layer) (name : String) (s : Section) : Layer :=
  ⟨putEntry name (s.onto (l.sections.lookup name)) l.sections⟩

/-- The layer with a value for a setting of a section. What was no table becomes one. -/
def putSetting (l : Layer) (group name : String) (g : Given) : Layer :=
  ⟨putEntry group (((l.sections.lookup group).getD (.table [])).put name g) l.sections⟩

end Layer

namespace Given

/-- The truth value that a given value stands for. -/
def toBool? : Given → Option Bool
  | .bool b => some b
  | .whole n => some (n != 0)
  | .real x => some x.isNonzero
  | .text s =>
    let s := Text.lower s
    if ["1", "true", "on", "yes"].contains s then some true
    else if ["0", "false", "off", "no"].contains s then some false
    else none
  | _ => none

/-- The number that a text of digits stands for, if it is below a limit. A plus sign may precede
the digits. -/
def natBelow? (limit : Nat) (text : String) : Option Nat := do
  let n ← Text.nat? (match text.toList with
    | '+' :: cs => cs
    | cs => cs)
  if n < limit then some n else none

/-- The unsigned number of 64 bits that a given value stands for. -/
def toNat? : Given → Option Nat
  | .bool b => some (if b then 1 else 0)
  | .whole n => if 0 ≤ n then some n.toNat else none
  | .real x => some x.toUnsigned
  | .text s =>
    let t := Text.lower s
    if ["true", "on", "yes"].contains t then some 1
    else if ["false", "off", "no"].contains t then some 0
    else natBelow? (Nat.pow 2 64) s
  | _ => none

/-- The text that a given value stands for. -/
def toText? : Given → Option String
  | .bool b => some (if b then "true" else "false")
  | .whole n => some (toString n)
  | .real x => some x.render
  | .text s => some s
  | _ => none

end Given

end TaskFlow
