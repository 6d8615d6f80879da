import PluginRegistry.Document.Value

/-!
# Reading typed values

Readers of texts, numbers, sequences, variants and records out of document values. The fields that
are present are read in document order and the first fault wins; only then are the missing ones
looked for, in declaration order. A record may also stand as the sequence of its fields.
-/

namespace PluginRegistry.Document

/-- Reads a typed value out of a document value. -/
abbrev Reader (α : Type) := Value → Except Fault α

def readText : Reader String
  | .text s => .ok s
  | v => .error (.invalidType v.found "a string")

def readBoolean : Reader Bool
  | .boolean b => .ok b
  | v => .error (.invalidType v.found "a boolean")

def readInteger (bits : Nat) : Reader Int
  | .integer n =>
    if -Int.pow 2 (bits - 1) ≤ n ∧ n < Int.pow 2 (bits - 1) then .ok n
    else .error (.invalidValue (.integer n) ("i" ++ toString bits))
  | v => .error (.invalidType v.found ("i" ++ toString bits))

def readInt64 : Reader Int64 := fun v => Int64.ofInt <$> readInteger 64 v

def readInt32 : Reader Int32 := fun v => Int32.ofInt <$> readInteger 32 v

def readSequence {α : Type} (read : Reader α) : Reader (List α)
  | .sequence vs => vs.mapM read
  | v => .error (.invalidType v.found "a sequence")

/-- The content that a variant without data may carry where it stands as a field. -/
def checkContent : Format → Value → Except Fault Unit
  | .json, .null => .ok ()
  | .json, v => .error (.invalidType v.found "unit")
  | .toml, .sequence [] => .ok ()
  | .toml, .sequence _ => .error (.other "expected empty array")
  | .toml, .mapping [] => .ok ()
  | .toml, .mapping _ => .error (.other "expected empty table")
  | .toml, v => .error (.other ("expected table, found " ++ v.typeName))

/-- Reads one of a list of values by its name: a text, or a mapping whose only field has the
name. -/
def readVariant {α : Type} (f : Format) (values : List α) (name : α → String) : Reader α := fun v =>
  let named (s : String) : Except Fault α :=
    match values.find? fun a => name a = s with
    | some a => .ok a
    | none => .error (.unknownVariant s (values.map name))
  match f, v with
  | _, .text s => named s
  | _, .mapping [(s, content)] => do
    let a ← named s
    checkContent f content
    return a
  | .json, .mapping _ => .error (.invalidValue .mapping "map with a single key")
  | .json, v => .error (.invalidType v.found "string or map")
  | .toml, .mapping [] => .error (.other "wanted exactly 1 element, found 0 elements")
  | .toml, .mapping _ => .error (.other "wanted exactly 1 element, more than 1 element")
  | .toml, _ => .error (.other "wanted string or table")

/-- The fields of a record as found in a document, with the fault that a missing one causes. -/
structure Fields where
  present : List (String × Value)
  missing : String → Fault

namespace Fields

def find? (fs : Fields) (name : String) : Option Value :=
  (fs.present.find? fun e => e.1 = name).map (·.2)

def required {α : Type} (fs : Fields) (name : String) (read : Reader α) : Except Fault α :=
  match fs.find? name with
  | some v => read v
  | none => .error (fs.missing name)

def optional {α : Type} (fs : Fields) (name : String) (read : Reader α) (dflt : α) :
    Except Fault α :=
  match fs.find? name with
  | some v => read v
  | none => .ok dflt

end Fields

/-- A field of a record: its name and the check that its value has to pass. -/
structure Field where
  name : String
  check : Value → Except Fault Unit

/-- A field whose value is read by the given reader. -/
def Field.of {α : Type} (name : String) (read : Reader α) : Field :=
  ⟨name, fun v => (fun _ => ()) <$> read v⟩

/-- The form of a record. A closed record refuses fields it does not know. -/
structure Shape where
  format : Format
  title : String
  fields : List Field
  closed : Bool

namespace Shape

def names (s : Shape) : List String := s.fields.map Field.name

def lengthText (s : Shape) : String :=
  s.title ++ " with " ++ toString s.fields.length ++
    (if s.fields.length = 1 then " element" else " elements")

/-- Checks the value of one field of a mapping. -/
def checkField (s : Shape) (e : String × Value) : Except Fault Unit :=
  match s.fields.find? fun f => f.name = e.1 with
  | some f => f.check e.2
  | none => if s.closed then .error (.unknownField e.1 s.names) else .ok ()

/-- The fields of a value that stands for a record. Every field found has passed its check. -/
def fieldsOf (s : Shape) : Value → Except Fault Fields
  | .mapping fs => do
    fs.forM s.checkField
    return ⟨fs, .missingField⟩
  | .dateTime w => do
    let fs := [(dateTimeKey, Value.text w)]
    fs.forM s.checkField
    return ⟨fs, .missingField⟩
  | .sequence vs => do
    (s.fields.zip vs).forM fun (f, v) => f.check v
    return ⟨s.names.zip vs, fun name => .invalidLength (s.names.idxOf name) s.lengthText⟩
  | v => .error (.invalidType v.found s.title)

/-- Refuses a sequence that is longer than the record, where the format does not ignore the rest. -/
def checkSurplus (s : Shape) : Value → Except Fault Unit
  | .sequence vs =>
    if s.format = .json ∧ s.fields.length < vs.length then
      .error (.invalidLength vs.length "fewer elements in array")
    else .ok ()
  | _ => .ok ()

/-- Reads a record and builds a value from its fields. -/
def read {α : Type} (s : Shape) (build : Fields → Except Fault α) : Reader α := fun v => do
  let fs ← s.fieldsOf v
  let a ← build fs
  s.checkSurplus v
  return a

end Shape

end PluginRegistry.Document
