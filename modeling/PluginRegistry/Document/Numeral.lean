import PluginRegistry.Document.Real

/-!
# Numerals of floating-point numbers

A double is written with as few digits as tell it from its neighbours. `Numeral.shortest` looks for
the coarsest decimal grid with a point in the interval of numbers that round to the double; of two
such points it takes the nearer. A format decides how ties go and where exponents are written.
-/

namespace PluginRegistry.Document

/-- Which of two points of a grid stands for a double halfway between them. -/
inductive Tie | larger | even deriving DecidableEq, Repr

structure NumeralStyle where
  tie : Tie
  /-- Whether the point may stand behind so many digits, instead of an exponent. -/
  positional : Int → Bool
  /-- What is written in front of positive exponents. -/
  plus : String

namespace Numeral

/-- The numbers that round to `q * 2 ^ p`, in units of `10 ^ e`. All three share a denominator. -/
structure Interval where
  low : Nat
  value : Nat
  high : Nat
  den : Nat
  /-- Whether the ends round to it as well. -/
  closed : Bool
  deriving DecidableEq, Repr

namespace Interval

/-- Below a power of two the next double is only half as far. -/
def ofReal (q : Nat) (p e : Int) : Interval :=
  let scaled (n : Nat) : Nat × Nat :=
    let (a, b) := Real.scale 2 n 4 p
    Real.scale 10 a b (-e)
  let low := if q = Nat.pow 2 52 ∧ Real.minExponent < p then 4 * q - 1 else 4 * q - 2
  ⟨(scaled low).1, (scaled (4 * q)).1, (scaled (4 * q + 2)).1, (scaled q).2, q % 2 = 0⟩

def contains (i : Interval) (d : Nat) : Bool :=
  if i.closed then i.low ≤ d * i.den && d * i.den ≤ i.high
  else i.low < d * i.den && d * i.den < i.high

/-- The two whole numbers around the value, the preferred one first. -/
def neighbours (i : Interval) (tie : Tie) : List Nat :=
  let d := i.value / i.den
  let r := 2 * (i.value % i.den)
  let up := i.den < r ∨ r = i.den ∧ (tie = .larger ∨ d % 2 = 1)
  if up then [d + 1, d] else [d, d + 1]

end Interval

/-- Digits and exponent of the shortest decimal of `q * 2 ^ p`, on the grid of `10 ^ e` or on one of
the next finer ones. -/
def shortestFrom (tie : Tie) (q : Nat) (p : Int) : Nat → Int → Nat × Int
  | 0, e => (0, e)
  | n + 1, e =>
    let i := Interval.ofReal q p e
    match (i.neighbours tie).find? fun d => 0 < d && i.contains d with
    | some d => (d, e)
    | none => shortestFrom tie q p n (e - 1)

/-- A place above all digits of `q * 2 ^ p`, and at most three places above the first one. -/
def topPlace (q : Nat) (p : Int) : Int := (q.log2 + p + 1) * 30103 / 100000 + 2

/-- Digits and exponent of the shortest decimal; seventeen digits always suffice. -/
def shortest (tie : Tie) (q : Nat) (p : Int) : Nat × Int :=
  if q = 0 then (0, 0) else shortestFrom tie q p 22 (topPlace q p)

/-- Digits with a point after the first `point` of them; at least one digit on either side. -/
def positional (ds : List Char) (point : Int) : List Char :=
  if (ds.length : Int) ≤ point then
    ds ++ List.replicate (point - ds.length).toNat '0' ++ ['.', '0']
  else if 0 < point then
    ds.take point.toNat ++ '.' :: ds.drop point.toNat
  else
    '0' :: '.' :: List.replicate (-point).toNat '0' ++ ds

/-- Digits with a point after the first one and an exponent. -/
def scientific (plus : String) (ds : List Char) (point : Int) : List Char :=
  let e := point - 1
  let exponent := 'e' :: ((if 0 < e then plus else "") ++ toString e).toList
  match ds with
  | [] => []
  | [c] => c :: exponent
  | c :: r => c :: '.' :: r ++ exponent

/-- The digits of a finite number, set out. -/
def finite (s : NumeralStyle) (q : Nat) (p : Int) : List Char :=
  let (d, e) := shortest s.tie q p
  let ds := Nat.toDigits 10 d
  let point : Int := ds.length + e
  if d = 0 || s.positional point then positional ds point else scientific s.plus ds point

end Numeral

def Real.text (s : NumeralStyle) : Real → String
  | nan => "NaN"
  | infinite negative => if negative then "-inf" else "inf"
  | finite negative q p =>
    let body := Numeral.finite s q p
    String.ofList (if negative then '-' :: body else body)

end PluginRegistry.Document
