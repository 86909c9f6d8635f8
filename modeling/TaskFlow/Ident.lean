import TaskFlow.Text

/-!
# Identifiers

Entities and edges are known by numbers of 128 bits, which are compared as numbers. An identifier is
written as 32 lower-case hexadecimal digits in groups of 8, 4, 4, 4 and 12 that hyphens join. It is
read in either case, also without hyphens, in braces or as a URN.
-/

namespace TaskFlow

/-- A number of 128 bits that names an entity or an edge. -/
structure Ident where
  val : Nat
  lt : val < Nat.pow 2 128
  deriving DecidableEq, Repr

namespace Ident

/-- The identifier with a given number, which counts modulo 2^128. -/
def ofNat (n : Nat) : Ident :=
  ⟨n % Nat.pow 2 128, Nat.mod_lt _ (by decide)⟩

instance : Inhabited Ident := ⟨ofNat 0⟩

instance : LE Ident := ⟨fun a b => a.val ≤ b.val⟩

instance : LT Ident := ⟨fun a b => a.val < b.val⟩

instance (a b : Ident) : Decidable (a ≤ b) := inferInstanceAs (Decidable (a.val ≤ b.val))

instance (a b : Ident) : Decidable (a < b) := inferInstanceAs (Decidable (a.val < b.val))

theorem ext {a b : Ident} (h : a.val = b.val) : a = b := by
  cases a; cases b; cases h; rfl

theorem le_total (a b : Ident) : a ≤ b ∨ b ≤ a := Nat.le_total a.val b.val

theorem le_trans {a b c : Ident} (h : a ≤ b) (k : b ≤ c) : a ≤ c := Nat.le_trans h k

/-- Cuts a list into a first group of each size, with a hyphen between two groups. -/
def group (cs : List Char) : List Char :=
  cs.take 8 ++ '-' :: ((cs.drop 8).take 4 ++ '-' :: ((cs.drop 12).take 4 ++ '-' ::
    ((cs.drop 16).take 4 ++ '-' :: (cs.drop 20))))

/-- Takes the hyphens out of a grouped text of 36 characters, if they stand where they should. -/
def ungroup (cs : List Char) : Option (List Char) :=
  let digits := cs.take 8 ++ (cs.drop 9).take 4 ++ (cs.drop 14).take 4 ++ (cs.drop 19).take 4 ++
    cs.drop 24
  if cs.length = 36 ∧ group digits = cs then some digits else none

def render (i : Ident) : String :=
  String.ofList (group (Text.hexDigits 32 i.val))

instance : ToString Ident := ⟨render⟩

def ofDigits? (cs : List Char) : Option Ident := do
  let n ← Text.readHex cs
  if h : n < Nat.pow 2 128 ∧ cs.length = 32 then some ⟨n, h.1⟩ else none

/-- The grouped text inside braces or after the URN scheme, or the text itself. -/
def unwrap (cs : List Char) : List Char :=
  match cs with
  | '\x7b' :: rest => if cs.length = 38 ∧ rest.getLast? = some '\x7d' then rest.dropLast else cs
  | _ => if cs.length = 45 ∧ cs.take 9 = "urn:uuid:".toList then cs.drop 9 else cs

/-- Reads an identifier in any of its four forms. -/
def parse? (s : String) : Option Ident :=
  let cs := s.toList
  if cs.length = 32 then ofDigits? cs else (ungroup (unwrap cs)).bind ofDigits?

end Ident

end TaskFlow
