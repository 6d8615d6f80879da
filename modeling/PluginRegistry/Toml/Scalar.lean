import PluginRegistry.Document.Value
import PluginRegistry.Text.Hex

/-!
# Numbers, truth values and dates in TOML

A scalar without quotes is a run of characters up to a space or a delimiter. Digits may be grouped
by single underscores. Integers have 64 bits, and reals must not overflow. Dates and times have to
exist, but are kept as they were written. Numerals that pass for integers or reals without having
such a number are kept as well, even with tabs inside.
-/

namespace PluginRegistry.Toml

open Document

/-- The value of a digit in a base up to sixteen. -/
def digit? (base : Nat) (c : Char) : Option Nat := (Text.hexDigit? c).filter (· < base)

/-- The digits of a run in which single underscores may stand between digits. -/
def ungroup? (base : Nat) : List Char → Option (List Nat)
  | [] => none
  | [c] => (digit? base c).map ([·])
  | c :: '_' :: r => do return (← digit? base c) :: (← ungroup? base r)
  | c :: r => do return (← digit? base c) :: (← ungroup? base r)

def ofDigits (base : Nat) (ds : List Nat) : Nat := ds.foldl (fun n d => base * n + d) 0

/-- Takes a sign off the front and tells whether it is a minus. -/
def sign : List Char → Bool × List Char
  | '+' :: r => (false, r)
  | '-' :: r => (true, r)
  | cs => (false, cs)

/-- The digits of a decimal number; only zero itself starts with a zero. -/
def decimal? (cs : List Char) : Option (List Nat) := do
  let ds ← ungroup? 10 cs
  if ds.head? = some 0 ∧ 1 < ds.length then none else some ds

/-- What a numeral stands for that has no number of its kind. -/
def numeral (cs : List Char) : Value := .numeral (String.ofList cs)

def ofInt (cs : List Char) (n : Int) : Value :=
  if -Int.pow 2 63 ≤ n ∧ n < Int.pow 2 63 then .integer n else numeral cs

/-- The value of a numeral with the given digits behind the mark of their base. There may be
none. -/
def inBase? (base : Nat) (cs digits : List Char) : Option Value :=
  if digits.isEmpty then some (numeral cs)
  else (ungroup? base digits).map fun ds => ofInt cs (ofDigits base ds)

def integer? : List Char → Option Value
  | '0' :: 'x' :: r => inBase? 16 ('0' :: 'x' :: r) r
  | '0' :: 'o' :: r => inBase? 8 ('0' :: 'o' :: r) r
  | '0' :: 'b' :: r => inBase? 2 ('0' :: 'b' :: r) r
  | cs => do
    let (negative, r) := sign cs
    let n : Int := ofDigits 10 (← decimal? r)
    return ofInt cs (if negative then -n else n)

/-- Whether every underscore stands between two hexadecimal digits. -/
def isGrouped : List Char → Bool
  | [] => true
  | '_' :: _ => false
  | a :: '_' :: r =>
    (digit? 16 a).isSome && (r.head?.bind (digit? 16)).isSome && isGrouped r
  | _ :: r => isGrouped r

/-- Whether a run passes for an integer by its first group of digits alone. -/
def isLoose (cs : List Char) : Bool :=
  let (_, r) := sign cs
  (r.head?.any fun c => c.isDigit && c != '0') && (r.dropWhile Char.isDigit).head? = some '_' &&
    isGrouped r && r.all fun c => c != '.' && c != 'e' && c != 'E'

/-- Cuts a run at the first character that passes a test; the second part starts behind it. -/
def cut (p : Char → Bool) (cs : List Char) : List Char × Option (List Char) :=
  match cs.dropWhile (!p ·) with
  | [] => (cs, none)
  | _ :: r => (cs.takeWhile (!p ·), some r)

/-- A number in decimal notation with a fraction, an exponent or both. -/
def decimalReal? (cs : List Char) : Option Value := do
  let (negative, unsigned) := sign cs
  let (body, exponent) := cut (fun c => c = 'e' || c = 'E') unsigned
  let (whole, fraction) := cut (· = '.') body
  if exponent.isNone && fraction.isNone then none
  else
    let ws ← decimal? whole
    let fs ← match fraction with
      | some f => ungroup? 10 f
      | none => some []
    let e : Int ← match exponent with
      | some x =>
        let (down, r) := sign x
        (ungroup? 10 r).map fun ds => if down then -(ofDigits 10 ds : Int) else ofDigits 10 ds
      | none => some 0
    match Real.ofDecimal negative (ofDigits 10 (ws ++ fs)) (e - fs.length) with
    | .infinite _ => some (numeral cs)
    | x => some (.real x)

def real? (cs : List Char) : Option Value :=
  match sign cs with
  | (negative, ['i', 'n', 'f']) => some (.real (.infinite negative))
  | (_, ['n', 'a', 'n']) => some (.real .nan)
  | _ => decimalReal? cs

def boolean? : List Char → Option Value
  | ['t', 'r', 'u', 'e'] => some (.boolean true)
  | ['f', 'a', 'l', 's', 'e'] => some (.boolean false)
  | _ => none

/-- Takes a number of exactly so many decimal digits. -/
def fixed? (n : Nat) (cs : List Char) : Option (Nat × List Char) :=
  if cs.length < n then none
  else do return (ofDigits 10 (← (cs.take n).mapM (digit? 10)), cs.drop n)

def daysOf (year month : Nat) : Nat :=
  if month = 2 then
    if year % 4 = 0 ∧ (year % 100 ≠ 0 ∨ year % 400 = 0) then 29 else 28
  else if month ∈ [4, 6, 9, 11] then 30
  else 31

/-- What follows a date that exists. -/
def afterDate? (cs : List Char) : Option (List Char) := do
  let (year, '-' :: r) ← fixed? 4 cs | none
  let (month, '-' :: r) ← fixed? 2 r | none
  let (day, r) ← fixed? 2 r
  if 1 ≤ month ∧ month ≤ 12 ∧ 1 ≤ day ∧ day ≤ daysOf year month then some r else none

/-- What follows a fraction of a second, which may be missing. -/
def afterFraction? : List Char → Option (List Char)
  | '.' :: r =>
    match r.dropWhile Char.isDigit with
    | s => if s.length < r.length then some s else none
  | cs => some cs

/-- What follows a time of day; its seconds may be missing. -/
def afterTime? (cs : List Char) : Option (List Char) := do
  let (hour, ':' :: r) ← fixed? 2 cs | none
  let (minute, r) ← fixed? 2 r
  if 23 < hour ∨ 59 < minute then none
  else match r with
    | ':' :: r =>
      let (second, r) ← fixed? 2 r
      if 60 < second then none else afterFraction? r
    | _ => some r

def isOffset : List Char → Bool
  | ['Z'] => true
  | ['z'] => true
  | c :: r =>
    (c = '+' || c = '-') &&
      match fixed? 2 r with
      | some (hour, ':' :: r) =>
        match fixed? 2 r with
        | some (minute, []) => hour ≤ 23 && minute ≤ 59
        | _ => false
      | _ => false
  | [] => false

def isDateTime (cs : List Char) : Bool :=
  match afterDate? cs with
  | some [] => true
  | some (d :: r) =>
    (d = 'T' || d = 't' || d = ' ') &&
      match afterTime? r with
      | some z => z.isEmpty || isOffset z
      | none => false
  | none => afterTime? cs = some []

def isDateTimeText : Value → Bool
  | .text s => isDateTime s.toList
  | _ => false

def scalar (cs : List Char) : Option Value :=
  boolean? cs <|> integer? cs <|> real? cs <|>
    if isDateTime cs then some (.dateTime (String.ofList cs))
    else if isLoose cs then some (numeral cs)
    else none

/-- Whether a character may be part of a scalar. -/
def isScalarChar (c : Char) : Bool :=
  c ∉ ['=', ',', '[', ']', '{', '}', '#', ' ', '\t', '\r', '\n']

/-- Whether a scalar goes on behind the tabs in front. A quote would start a string. -/
def goesOn (cs : List Char) : Bool :=
  (cs.dropWhile (· = '\t')).head?.any fun c => isScalarChar c && c != '"' && c != '\''

/-- The characters of a scalar without spaces and what follows it. Tabs may stand inside it. -/
def spanScalar : List Char → List Char × List Char
  | [] => ([], [])
  | c :: r =>
    if isScalarChar c || (c = '\t' && goesOn r) then
      let (run, rest) := spanScalar r
      (c :: run, rest)
    else ([], c :: r)

/-- The characters of a scalar and what follows it. A date and a time may stand apart by one
space. -/
def scalarRun (cs : List Char) : List Char × List Char :=
  match spanScalar cs with
  | (run, ' ' :: d :: r) =>
    if afterDate? run = some [] ∧ d.isDigit then
      let (time, rest) := spanScalar (d :: r)
      (run ++ ' ' :: time, rest)
    else (run, ' ' :: d :: r)
  | parts => parts

def readScalar (cs : List Char) : Option (Value × List Char) :=
  let (run, r) := scalarRun cs
  (scalar run).map (·, r)

end PluginRegistry.Toml
