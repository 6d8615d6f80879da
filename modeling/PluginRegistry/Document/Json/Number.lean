import PluginRegistry.Document.Value

/-!
# JSON numbers

The value of a number as JSON writes it. Integers of 64 bits, signed or not, are exact. Every other
number, also minus zero and one with an exponent, is a real. That is not always the nearest double:
the digits that fit into 64 bits are rounded to a double, which is then multiplied with or divided
by a rounded power of ten.
-/

namespace PluginRegistry.Document.Json

/-- The number that the digits in front make as long as it fits into 64 bits, and how many digits
are left. -/
def leading (n : Nat) : List Char → Nat × Nat
  | [] => (n, 0)
  | c :: r =>
    let m := 10 * n + (c.toNat - '0'.toNat)
    if m < 2 ^ 64 then leading m r else (n, r.length + 1)

/-- The product with `10 ^ e`, both rounded; with `e` negative, the quotient by `10 ^ -e`. -/
def timesPower (e : Int) : Real → Real
  | .finite negative q p =>
    match Real.ofDecimal false 1 e.natAbs with
    | .finite _ ten k =>
      if q = 0 then .zero negative
      else if 0 ≤ e then
        let (a, b) := Real.scale 2 (q * ten) 1 (p + k)
        .ofFraction negative a b
      else
        let (a, b) := Real.scale 2 q ten (p - k)
        .ofFraction negative a b
    | x => x
  | x => x

/-- The product with a power of ten that need not be a double itself: it is taken in steps, of which
three make every double zero. -/
def scaled : Nat → Int → Real → Real
  | 0, _, x => x
  | n + 1, e, x =>
    if -308 ≤ e then timesPower e x else scaled n (e + 308) (timesPower (-308) x)

/-- The real that digits in front of the point, digits behind it and an exponent stand for. -/
def ofParts (negative : Bool) (whole fraction : List Char) (exponent : Int) : Real :=
  let (n, rest) := leading 0 (whole ++ fraction)
  scaled 4 (rest - fraction.length + exponent) (.ofDecimal negative n 0)

/-- The real that a numeral without its sign stands for. -/
def readReal (negative : Bool) (cs : List Char) : Real :=
  let body := cs.takeWhile fun c => c != 'e' && c != 'E'
  let exponent := (cs.drop (body.length + 1)).dropWhile (· = '+')
  let whole := body.takeWhile (· != '.')
  ofParts negative whole (body.drop (whole.length + 1)) ((String.ofList exponent).toInt?.getD 0)

/-- The value of a numeral. -/
def readNumber (numeral : String) : Value :=
  let x := match numeral.toList with
    | '-' :: r => readReal true r
    | cs => readReal false cs
  match numeral.toInt? with
  | some n => if -Int.pow 2 63 ≤ n ∧ n < Int.pow 2 64 ∧ numeral ≠ "-0" then .integer n else .real x
  | none => .real x

end PluginRegistry.Document.Json
