import PluginRegistry.Wire.Reader

/-!
# Numbers of varying length

A natural number is written in base 128, lowest digit first, with the high bit set on every byte but
the last. A reader is given the width in bits that the number must fit; longer forms than needed are
read. Signed numbers are mapped to naturals so that small magnitudes stay small.
-/

namespace PluginRegistry.Wire

def writeVarint (n : Nat) : List UInt8 :=
  if n < 128 then [UInt8.ofNat n] else UInt8.ofNat (128 + n % 128) :: writeVarint (n / 128)

/-- Takes a number below two to the given width. The last byte that the width leaves room for must
not ask for another one and must not exceed the width. -/
def readVarint (width : Nat) : Reader Nat
  | [] => .error .endOfBuffer
  | b :: r =>
    if b < 128 then
      if b.toNat < 2 ^ width then .ok (b.toNat, r) else .error .badVarint
    else if width ≤ 7 then .error .badVarint
    else do
      let (n, r') ← readVarint (width - 7) r
      return (b.toNat - 128 + 128 * n, r')

/-- Numbers 0, -1, 1, -2, … become 0, 1, 2, 3, …. -/
def zigzag (v : Int64) : Nat :=
  if 0 ≤ v.toInt then (2 * v.toInt).toNat else (-2 * v.toInt - 1).toNat

def unzigzag (n : Nat) : Int64 :=
  if n % 2 = 0 then Int64.ofInt (n / 2) else Int64.ofInt (-(n / 2 : Nat) - 1)

end PluginRegistry.Wire
