/-!
# Floating-point numbers

Doubles as exact binary fractions. `Real.ofDecimal` rounds a decimal to the nearest double, ties to
even.
-/

namespace PluginRegistry.Document

/-- A double: `finite negative q p` is `q * 2 ^ p` with its sign, where `q` is below `2 ^ 53`, and
not below `2 ^ 52` unless `p` is -1074. -/
inductive Real
  | nan
  | infinite (negative : Bool)
  | finite (negative : Bool) (significand : Nat) (exponent : Int)
  deriving DecidableEq, Repr

namespace Real

def minExponent : Int := -1074

def zero (negative : Bool) : Real := finite negative 0 minExponent

/-- The quotient rounded to the nearest number, ties to even. -/
def divRound (num den : Nat) : Nat :=
  let q := num / den
  let r := num % den
  if 2 * r < den then q else if den < 2 * r then q + 1 else q + q % 2

/-- The fraction `num / den` times a power of the given base, as a fraction. -/
def scale (base num den : Nat) (e : Int) : Nat × Nat :=
  if 0 ≤ e then (num * base.pow e.toNat, den) else (num, den * base.pow (-e).toNat)

/-- The largest `k` with `2 ^ k ≤ num / den`, for positive numbers. -/
def binaryExponent (num den : Nat) : Int :=
  let k := (num.log2 : Int) - den.log2
  let (a, b) := scale 2 num den (-k)
  if a < b then k - 1 else k

/-- The double nearest to a positive fraction. -/
def ofFraction (negative : Bool) (num den : Nat) : Real :=
  let p := max (binaryExponent num den - 52) minExponent
  let (a, b) := scale 2 num den (-p)
  let q := divRound a b
  let (q, p) := if q = Nat.pow 2 53 then (Nat.pow 2 52, p + 1) else (q, p)
  if 971 < p then infinite negative else finite negative q p

/-- The double nearest to `digits * 10 ^ exponent`. Beyond four hundred places on either side of the
point it is infinite or zero. -/
def ofDecimal (negative : Bool) (digits : Nat) (exponent : Int) : Real :=
  let size : Int := (Nat.toDigits 10 digits).length + exponent
  if digits = 0 || size < -400 then zero negative
  else if 400 < size then infinite negative
  else
    let (num, den) := scale 10 digits 1 exponent
    ofFraction negative num den

end Real

end PluginRegistry.Document
