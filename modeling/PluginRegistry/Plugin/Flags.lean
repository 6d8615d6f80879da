import PluginRegistry.Text.Blank
import PluginRegistry.Text.Hex

/-!
# Compatibility flags

A set of flags is a byte. Six bits have names; the other two are kept but mean nothing. The text of
a set joins the names of its flags and, last, one hexadecimal number for the bits without a name.
-/

namespace PluginRegistry

/-- What may be known of the compatibility of a plugin. -/
inductive Flag
  | backwardsCompatible
  | requiresConnectivity
  | disruptsConnectivity
  | buggy
  | drainsBattery
  | blacklisted
  deriving DecidableEq, Repr

namespace Flag

/-- The flags in the order of their bits. -/
def all : List Flag :=
  [backwardsCompatible, requiresConnectivity, disruptsConnectivity, buggy, drainsBattery,
    blacklisted]

def mask : Flag → UInt8
  | backwardsCompatible => 1
  | requiresConnectivity => 2
  | disruptsConnectivity => 4
  | buggy => 8
  | drainsBattery => 16
  | blacklisted => 32

/-- The name in the text of a set of flags. -/
def name : Flag → String
  | backwardsCompatible => "BACKWARDS_COMPATIBLE"
  | requiresConnectivity => "REQUIRES_CONNECTIVITY"
  | disruptsConnectivity => "DISRUPTS_CONNECTIVITY"
  | buggy => "BUGGY"
  | drainsBattery => "DRAINS_BATTERY"
  | blacklisted => "BLACKLISTED"

/-- The name in listings. -/
def label : Flag → String
  | backwardsCompatible => "backwards-compatible"
  | requiresConnectivity => "requires-connectivity"
  | disruptsConnectivity => "disrupts-connectivity"
  | buggy => "buggy"
  | drainsBattery => "drains-battery"
  | blacklisted => "blacklisted"

def ofName? (cs : List Char) : Option Flag := all.find? fun f => f.name.toList = cs

end Flag

structure Flags where
  bits : UInt8
  deriving DecidableEq, Repr, Inhabited

namespace Flags

/-- Why a text denotes no set of flags. -/
inductive Fault | emptyTerm | badHex | unknownName deriving DecidableEq, Repr

def Fault.message : Fault → String
  | emptyTerm => "encountered empty flag"
  | badHex => "invalid hex flag"
  | unknownName => "unrecognized named flag"

def empty : Flags := ⟨0⟩

instance : EmptyCollection Flags := ⟨empty⟩

def has (s : Flags) (f : Flag) : Bool := s.bits &&& f.mask ≠ 0

def union (s t : Flags) : Flags := ⟨s.bits ||| t.bits⟩

def ofList (fs : List Flag) : Flags := fs.foldl (fun s f => s.union ⟨f.mask⟩) ∅

def known (s : Flags) : Flags := ⟨s.bits &&& 63⟩

/-- The bits of a set that have no name. -/
def unknown (s : Flags) : Flags := ⟨s.bits &&& 192⟩

def terms (s : Flags) : List String :=
  (Flag.all.filter s.has).map Flag.name ++
    if s.unknown.bits = 0 then [] else ["0x" ++ Text.hexText s.unknown.bits.toNat]

def text (s : Flags) : String := " | ".intercalate s.terms

/-- Reads one trimmed term. A hexadecimal number may carry a plus sign. -/
def readTerm : List Char → Except Fault Flags
  | [] => .error .emptyTerm
  | '0' :: 'x' :: ds =>
    match Text.readHex? (match ds with | '+' :: r => r | r => r) with
    | some n => if n < 256 then .ok ⟨UInt8.ofNat n⟩ else .error .badHex
    | none => .error .badHex
  | cs =>
    match Flag.ofName? cs with
    | some f => .ok ⟨f.mask⟩
    | none => .error .unknownName

/-- Reads the terms of a text between bars; a blank text is the empty set. -/
def readChars (cs : List Char) : Except Fault Flags :=
  if (Text.trim cs).isEmpty then .ok ∅
  else (Text.splitAt '|' cs).foldlM (fun s t => return s.union (← readTerm (Text.trim t))) ∅

def read (s : String) : Except Fault Flags := readChars s.toList

end Flags

end PluginRegistry
