import TaskFlow.Dependency
import TaskFlow.Ident
import TaskFlow.Instant.Text
import TaskFlow.Status
import TaskFlow.Naming
import TaskFlow.Wire.Value

/-!
# Wire forms

How a value of a type is written as a wire value and read back. Fields of a record are read by name
from an object, or by place from a list; fields that nobody asks for are passed over.
-/

namespace TaskFlow.Wire

/-- Types whose values have a wire form. -/
class Codec (α : Type) where
  encode : α → Value
  decode : Value → Option α

export Codec (encode decode)

/-- The natural numbers below this are those that fit 64 bits. -/
def natBound : Nat := Nat.pow 2 64

instance : Codec Nat where
  encode := .nat
  decode
    | .number m 0 => if 0 ≤ m ∧ m < natBound then some m.toNat else none
    | _ => none

instance : Codec Bool where
  encode := .bool
  decode
    | .bool b => some b
    | _ => none

instance : Codec String where
  encode := .text
  decode
    | .text s => some s
    | _ => none

instance {α : Type} [Codec α] : Codec (List α) where
  encode l := .list (l.map encode)
  decode
    | .list items => items.mapM decode
    | _ => none

instance {α : Type} [Codec α] : Codec (Option α) where
  encode := .optional encode
  decode
    | .null => some none
    | v => (decode v).map some

instance : Codec Ident where
  encode i := .text i.render
  decode
    | .text s => Ident.parse? s
    | _ => none

instance : Codec Instant where
  encode t := .text t.render
  decode
    | .text s => Instant.parse? s
    | _ => none

instance : Codec Status where
  encode s := .text s.name
  decode
    | .text s => (Status.parse s).toOption
    | _ => none

/-- Reads one of several named things: its name, or an object that gives null to its name. -/
def decodeNamed {α : Type} (all : List α) (name : α → String) : Value → Option α
  | .text s => all.find? (name · = s)
  | .object [(s, .null)] => all.find? (name · = s)
  | _ => none

instance : Codec Kind where
  encode k := .text k.name
  decode := decodeNamed Kind.all Kind.name

instance : Codec Role where
  encode r := .text r.name
  decode := decodeNamed Role.all Role.name

instance : Codec Relation where
  encode r := .text r.name
  decode := decodeNamed Relation.all Relation.name

instance : Codec Direction where
  encode d := .text d.name
  decode := decodeNamed [.incoming, .outgoing, .all] Direction.name

/-- Reads a built-in status of a kind by its exact name. -/
def decodeBuiltIn (kind : Kind) : Value → Option Status :=
  decodeNamed kind.vocabulary Status.name

/-- What a record holds at a field: a value, nothing, or nothing because the list that it was given
as ends before the place of the field. -/
inductive Slot where
  | given (v : Value)
  | absent
  | short

namespace Slot

/-- The value of a field that must be given. -/
def required {α : Type} [Codec α] : Slot → Option α
  | .given v => decode v
  | .absent | .short => none

/-- The value of a field that may be left out of an object. -/
def optional {α : Type} [Codec α] : Slot → Option (Option α)
  | .given v => decode v
  | .absent => some none
  | .short => none

/-- The value of a field that has a default. -/
def defaulted {α : Type} [Codec α] (default : α) : Slot → Option α
  | .given v => decode v
  | .absent | .short => some default

end Slot

/-- The fields of a record, read from an object by name or from a list by place in `names`. -/
def slots (names : List String) : Value → Option (String → Slot)
  | .object fields => some fun name =>
    match fields.lookup name with
    | some v => .given v
    | none => .absent
  | .list items =>
    if items.length ≤ names.length then
      some fun name =>
        match items[names.idxOf name]? with
        | some v => .given v
        | none => .short
    else none
  | _ => none

end TaskFlow.Wire
