/-!
# Hexadecimal numbers

Numbers are written with lower-case digits and read in either case.
-/

namespace PluginRegistry.Text

def hexDigit? (c : Char) : Option Nat :=
  let n := c.toNat
  if '0' ≤ c ∧ c ≤ '9' then some (n - 48)
  else if 'a' ≤ c ∧ c ≤ 'f' then some (n - 87)
  else if 'A' ≤ c ∧ c ≤ 'F' then some (n - 55)
  else none

/-- The lower-case digits of a number, without leading zeros. -/
def hexText (n : Nat) : String := String.ofList (Nat.toDigits 16 n)

/-- The number that a non-empty text of digits denotes. -/
def readHex? (cs : List Char) : Option Nat :=
  if cs.isEmpty then none
  else cs.foldl (fun acc c => do return 16 * (← acc) + (← hexDigit? c)) (some 0)

end PluginRegistry.Text
