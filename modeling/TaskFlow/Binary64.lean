/-!
# Binary floating-point numbers

The numbers of the 64-bit binary format, as exact multiples of powers of two, and the rounding of a
quotient to the nearest of them.
-/

namespace TaskFlow

/-- A number of the 64-bit binary format. A finite one is `mantissa · 2 ^ exponent`. -/
inductive Binary64 where
  | nan
  | infinite (negative : Bool)
  | finite (negative : Bool) (mantissa : Nat) (exponent : Int)
  deriving DecidableEq, Repr

namespace Binary64

/-- The number of bits of a mantissa. -/
def precision : Nat := 53

/-- The least exponent. -/
def minExponent : Int := -1074

def maxExponent : Int := 971

/-- The quotient of two numbers, rounded to the nearest whole number, a half to an even one. -/
def roundDiv (n d : Nat) : Nat :=
  let q := n / d
  if 2 * (n % d) < d then q
  else if 2 * (n % d) = d then q + q % 2
  else q + 1

/-- The terms of the quotient `n / d / 2 ^ e`. -/
def scale (n d : Nat) (e : Int) : Nat × Nat :=
  (n * Nat.pow 2 (-e).toNat, d * Nat.pow 2 e.toNat)

/-- The exponent with which a positive quotient has a mantissa of full length, or the least one. -/
def exponentOf (n d : Nat) : Int :=
  let e : Int := (n.log2 : Int) - d.log2 - (precision - 1 : Nat)
  let (a, b) := scale n d e
  max minExponent (if a < Nat.pow 2 (precision - 1) * b then e - 1 else e)

/-- The number next to the quotient of `n` and a positive `d`. -/
def ofQuotient (negative : Bool) (n d : Nat) : Binary64 :=
  if n = 0 then .finite negative 0 minExponent
  else
    let e := exponentOf n d
    let (a, b) := scale n d e
    let m := roundDiv a b
    let (m, e) := if m = Nat.pow 2 precision then (Nat.pow 2 (precision - 1), e + 1) else (m, e)
    if maxExponent < e then .infinite negative else .finite negative m e

def isNonzero : Binary64 → Bool
  | .finite _ m _ => m != 0
  | _ => true

def maxUnsigned : Nat := Nat.pow 2 64 - 1

/-- The nearest whole number, a half away from zero, within the range of the unsigned numbers of 64
bits: what is beyond it becomes its nearest end, and what is no number becomes 0. -/
def toUnsigned : Binary64 → Nat
  | .nan | .infinite true | .finite true _ _ => 0
  | .infinite false => maxUnsigned
  | .finite false m e =>
    let whole := m * Nat.pow 2 e.toNat
    let divisor := Nat.pow 2 (-e).toNat
    min maxUnsigned ((2 * whole + divisor) / (2 * divisor))

end Binary64

end TaskFlow
