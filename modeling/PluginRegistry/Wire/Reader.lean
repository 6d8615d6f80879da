/-!
# Reading bytes

A reader takes a value off the front of a list of bytes and returns the rest. The first fault in
reading order ends the reading.
-/

namespace PluginRegistry.Wire

/-- Why bytes denote no value. -/
inductive Fault | endOfBuffer | badVarint | badText | badValue deriving DecidableEq, Repr

def Fault.message : Fault → String
  | endOfBuffer => "Hit the end of buffer, expected more data"
  | badVarint => "Found a varint that didn't terminate. Is the usize too big for this platform?"
  | badText => "Tried to parse invalid utf-8"
  | badValue => "Serde Deserialization Error"

/-- Takes a value off the front of the bytes. -/
abbrev Reader := StateT (List UInt8) (Except Fault)

def readByte : Reader UInt8
  | [] => .error .endOfBuffer
  | b :: r => .ok (b, r)

def readBytes (n : Nat) : Reader (List UInt8) := fun bs =>
  if bs.length < n then .error .endOfBuffer else .ok (bs.take n, bs.drop n)

def readMany {α : Type} (read : Reader α) : Nat → Reader (List α)
  | 0 => pure []
  | n + 1 => do
    let a ← read
    let as ← readMany read n
    return a :: as

end PluginRegistry.Wire
