/-!
# Wire values

The values that are exchanged with callers: null, booleans, decimal numbers, texts, lists, and
objects whose fields are looked up by name.
-/

namespace TaskFlow.Wire

/-- A value on the wire. A number is its mantissa with the point moved left by its scale. -/
inductive Value where
  | null
  | bool (b : Bool)
  | number (mantissa : Int) (scale : Nat)
  | text (s : String)
  | list (items : List Value)
  | object (fields : List (String × Value))
  deriving Inhabited, Repr

namespace Value

def nat (n : Nat) : Value := .number n 0

/-- The value of something optional: null if there is nothing. -/
def optional {α : Type} (encode : α → Value) : Option α → Value
  | some a => encode a
  | none => .null

def field (v : Value) (name : String) : Option Value :=
  match v with
  | .object fields => fields.lookup name
  | _ => none

/-- An object whose fields are replaced by those of another; where both give an object for a name,
the same is done to these. Other values are replaced as a whole. -/
def overlay (base top : Value) : Value :=
  match base, top with
  | .object fields, .object others =>
    .object (overlayFields fields others ++ others.filter fun f => (fields.lookup f.1).isNone)
  | _, top => top
where
  overlayFields (fields others : List (String × Value)) : List (String × Value) :=
    match fields with
    | [] => []
    | (name, v) :: rest =>
      (name, match others.lookup name with
        | some w => overlay v w
        | none => v) :: overlayFields rest others

end Value

/-- A field that is left out if there is nothing to put into it. -/
def field? {α : Type} (name : String) (encode : α → Value) : Option α → List (String × Value)
  | some a => [(name, encode a)]
  | none => []

end TaskFlow.Wire
