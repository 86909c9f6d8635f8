import TaskFlow.Binary64
import TaskFlow.Text

/-!
# Decimal text of binary numbers

Reads decimal numbers, rounding them to the nearest binary one, and writes a binary number with the
fewest digits that read back, always in positional notation.
-/

namespace TaskFlow.Binary64

/-- The number next to `digits · 10 ^ exponent`. Numbers far out of range are not computed. -/
def ofDecimal (negative : Bool) (digits : Nat) (exponent : Int) : Binary64 :=
  let size : Int := (Nat.toDigits 10 digits).length + exponent
  if digits = 0 || size < -400 then ofQuotient negative 0 1
  else if 400 < size then .infinite negative
  else ofQuotient negative (digits * Nat.pow 10 exponent.toNat) (Nat.pow 10 (-exponent).toNat)

/-- A sign at the front, and what follows it. -/
def takeSign : List Char → Bool × List Char
  | '-' :: cs => (true, cs)
  | '+' :: cs => (false, cs)
  | cs => (false, cs)

/-- The exponent at the end of a number, 0 if there is none. -/
def exponent? : List Char → Option Int
  | [] => some 0
  | c :: cs => do
    if c ≠ 'e' ∧ c ≠ 'E' then none
    let (negative, digits) := takeSign cs
    let n ← Text.nat? digits
    return if negative then -n else n

/-- The number that an unsigned decimal text stands for: digits with at most one point among them
and an exponent after them. -/
def unsigned? (negative : Bool) (cs : List Char) : Option Binary64 := do
  let (whole, rest) := cs.span Char.isDigit
  let (fraction, rest) := match rest with
    | '.' :: rest => rest.span Char.isDigit
    | rest => ([], rest)
  if whole.isEmpty && fraction.isEmpty then none
  let e ← exponent? rest
  return ofDecimal negative (Text.readDigits (whole ++ fraction)) (e - fraction.length)

/-- The number that a text stands for. Infinity and what is no number have names, in any case. -/
def parse? (text : String) : Option Binary64 :=
  let (negative, cs) := takeSign text.toList
  match Text.lower (.ofList cs) with
  | "inf" | "infinity" => some (.infinite negative)
  | "nan" => some .nan
  | _ => unsigned? negative cs

/-- The bounds of the numbers that round to `m · 2 ^ e`, and the number itself, as multiples of a
common divisor. Below a power of two the binary numbers are twice as dense. -/
def bounds (m : Nat) (e : Int) : Nat × Nat × Nat × Nat :=
  let scaled (k : Nat) : Nat := k * Nat.pow 2 e.toNat
  let below := if m = Nat.pow 2 (precision - 1) ∧ minExponent < e then 1 else 2
  (scaled (4 * m - below), scaled (4 * m), scaled (4 * m + 2), 4 * Nat.pow 2 (-e).toNat)

/-- The multiple of `10 ^ exponent` that is next to a number among those that round to it. -/
def nearest? (m : Nat) (e exponent : Int) : Option Nat :=
  let (low, value, high, divisor) := bounds m e
  let unit := divisor * Nat.pow 10 exponent.toNat
  let factor := Nat.pow 10 (-exponent).toNat
  let (low, value, high) := (low * factor, value * factor, high * factor)
  let q := value / unit
  let inside (k : Nat) : Bool :=
    if m % 2 = 0 then low ≤ k * unit && k * unit ≤ high
    else low < k * unit && k * unit < high
  let lower := inside q && 0 < q
  let upper := inside (q + 1)
  if upper && (!lower || unit ≤ 2 * (value - q * unit)) then some (q + 1)
  else if lower then some q
  else none

/-- The coarsest decimal grid, from one on, with a point that rounds to a number, and that point. -/
def shortestFrom (m : Nat) (e : Int) : (tries : Nat) → (exponent : Int) → Nat × Int
  | 0, exponent => (0, exponent)
  | tries + 1, exponent =>
    match nearest? m e exponent with
    | some digits => (digits, exponent)
    | none => shortestFrom m e tries (exponent - 1)

/-- The decimal with the fewest digits that rounds to a number, as digits and an exponent. -/
def shortest (m : Nat) (e : Int) : Nat × Int :=
  let (_, value, _, divisor) := bounds m e
  let size : Int := ((Nat.toDigits 10 value).length : Int) - (Nat.toDigits 10 divisor).length + 1
  shortestFrom m e 20 size

/-- A decimal in positional notation. -/
def positional (digits : Nat) (exponent : Int) : List Char :=
  if 0 ≤ exponent then Nat.toDigits 10 (digits * Nat.pow 10 exponent.toNat)
  else
    let places := (-exponent).toNat
    let ds := Text.padDigits (places + 1) digits
    ds.take (ds.length - places) ++ '.' :: ds.drop (ds.length - places)

def render : Binary64 → String
  | .nan => "NaN"
  | .infinite negative => if negative then "-inf" else "inf"
  | .finite negative m e =>
    let (digits, exponent) := if m = 0 then (0, 0) else shortest m e
    .ofList ((if negative then ['-'] else []) ++ positional digits exponent)

end TaskFlow.Binary64
