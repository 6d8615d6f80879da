import PluginRegistry.Collection.KeyMap
import PluginRegistry.Document.Numeral
import PluginRegistry.Text.Quoted

/-!
# Document values

The values that documents are made of, and the faults of reading a typed value out of one. The two
formats, JSON and TOML, share the faults and differ in a few words and rules.
-/

namespace PluginRegistry.Document

inductive Format | json | toml deriving DecidableEq, Repr

/-- A value of a document. A mapping lists its fields in increasing key order. A date-time is kept
as it was written, and so is a numeral whose number cannot be held or that has none. -/
inductive Value where
  | null
  | boolean (b : Bool)
  | integer (n : Int)
  | real (x : Real)
  | text (s : String)
  | dateTime (written : String)
  | numeral (written : String)
  | sequence (items : List Value)
  | mapping (fields : List (String × Value))
  deriving Inhabited

/-- A date-time stands for a mapping with this one key and its own text. -/
def dateTimeKey : String := "$__toml_private_datetime"

/-- What a fault says about the value that was found. -/
inductive Found
  | null
  | boolean (b : Bool)
  | integer (n : Int)
  | real (x : Real)
  | text (s : String)
  | numeral (written : String)
  | sequence
  | mapping
  deriving DecidableEq, Repr

namespace Value

/-- A date-time counts as a mapping. -/
def found : Value → Found
  | null => .null
  | boolean b => .boolean b
  | integer n => .integer n
  | real x => .real x
  | text s => .text s
  | numeral w => .numeral w
  | sequence _ => .sequence
  | mapping _ => .mapping
  | dateTime _ => .mapping

def typeName : Value → String
  | null => "null"
  | boolean _ => "boolean"
  | integer _ => "integer"
  | real _ => "float"
  | text _ => "string"
  | dateTime _ => "datetime"
  | numeral _ => "numeral"
  | sequence _ => "array"
  | mapping _ => "table"

/-- A mapping of the given fields, put into key order. The last of equal keys wins. -/
def ofFields (fields : List (String × Value)) : Value := mapping (KeyMap.ofList fields).entries

end Value

/-- JSON faults write exponents below 1e-5 and from 1e16 on, and ties go to the even digit. TOML
faults write none, and ties go up. -/
def Format.numerals : Format → NumeralStyle
  | json => ⟨.even, fun point => -5 < point && point ≤ 16, "+"⟩
  | toml => ⟨.larger, fun _ => true, ""⟩

def Format.realText (f : Format) : Real → String := Real.text f.numerals

def Found.words (f : Format) : Found → String
  | null => match f with | .json => "null" | .toml => "unit value"
  | boolean b => "boolean `" ++ toString b ++ "`"
  | integer n => "integer `" ++ toString n ++ "`"
  | real x => "floating point `" ++ f.realText x ++ "`"
  | .text s => "string " ++ Text.quoted s
  | numeral w => "numeral `" ++ w ++ "`"
  | sequence => "sequence"
  | mapping => "map"

/-- Why a document value is not of the type asked for. -/
inductive Fault
  | invalidType (found : Found) (expected : String)
  | invalidValue (found : Found) (expected : String)
  | invalidLength (length : Nat) (expected : String)
  | unknownField (name : String) (known : List String)
  | unknownVariant (name : String) (known : List String)
  | missingField (name : String)
  | other (message : String)
  deriving DecidableEq, Repr

/-- A list of choices: one, two with "or", or more after "one of". -/
def choices (names : List String) : String :=
  match names.map fun n => "`" ++ n ++ "`" with
  | [] => ""
  | [a] => a
  | [a, b] => a ++ " or " ++ b
  | ns => "one of " ++ ", ".intercalate ns

def Fault.message (f : Format) : Fault → String
  | invalidType found expected => "invalid type: " ++ found.words f ++ ", expected " ++ expected
  | invalidValue found expected => "invalid value: " ++ found.words f ++ ", expected " ++ expected
  | invalidLength n expected => "invalid length " ++ toString n ++ ", expected " ++ expected
  | unknownField name known => "unknown field `" ++ name ++ "`, expected " ++ choices known
  | unknownVariant name known => "unknown variant `" ++ name ++ "`, expected " ++ choices known
  | missingField name => "missing field `" ++ name ++ "`"
  | other message => message

end PluginRegistry.Document
