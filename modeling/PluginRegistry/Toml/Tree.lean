import PluginRegistry.Collection.KeyMap
import PluginRegistry.Document.Value

/-!
# The tree of a TOML document

Key-value pairs and headers enter a tree one after another. A node remembers how it came about,
because that decides what may still be added to it: a value is complete, a table with a header of
its own takes no dotted keys from outside, and a table on the way of dotted keys gets no header.
-/

namespace PluginRegistry.Toml

open Document

/-- A key with the path that leads to it. -/
structure Key where
  path : List String
  name : String
  deriving DecidableEq, Repr

/-- How a table came about: by a header, by a longer header, or by a dotted key. -/
inductive Origin | header | implied | dotted deriving DecidableEq, Repr

/-- A node of the tree. The fields of a table stand in key order. -/
inductive Node where
  | value (v : Value)
  | table (origin : Origin) (fields : List (String × Node))
  | rows (tables : List (List (String × Node)))

/-- The fields of a table in key order. -/
abbrev Fields := List (String × Node)

namespace Fields

/-- Changes the table at a path. Tables missing on the way are made; rows stand for the last one of
them. Dotted keys do not pass through a table with a header, and no table on their way gets one
afterwards. -/
def changeAt (dotted : Bool) (change : Origin → Fields → Option Fields) :
    List String → Origin → Fields → Option Fields
  | [], origin, fs => change origin fs
  | k :: path, _, fs =>
    let put (n : Node) : Fields := KeyMap.insertEntry k n fs
    let passed (origin : Origin) : Origin := if dotted then .dotted else origin
    match KeyMap.find? k fs with
    | none =>
      (changeAt dotted change path (passed .implied) []).map fun gs =>
        put (.table (passed .implied) gs)
    | some (.table origin gs) =>
      if dotted ∧ origin = .header then none
      else (changeAt dotted change path origin gs).map fun gs => put (.table (passed origin) gs)
    | some (.rows ts) =>
      match ts.getLast? with
      | none => none
      | some gs =>
        (changeAt dotted change path .header gs).map fun gs => put (.rows (ts.dropLast ++ [gs]))
    | some (.value _) => none

/-- Enters a value under a key that is still free. A table that gets it by a dotted key must not
have a header. -/
def assign (key : Key) (v : Value) (origin : Origin) (fs : Fields) : Option Fields :=
  changeAt true (fun origin fs =>
    if key.path ≠ [] ∧ origin = .header ∨ (KeyMap.find? key.name fs).isSome then none
    else some (KeyMap.insertEntry key.name (.value v) fs)) key.path origin fs

/-- Enters the table of a header. It must be new or implied by an earlier, longer header. -/
def openTable (key : Key) (fs : Fields) : Option Fields :=
  changeAt false (fun _ fs =>
    match KeyMap.find? key.name fs with
    | none => some (KeyMap.insertEntry key.name (.table .header []) fs)
    | some (.table .implied gs) => some (KeyMap.insertEntry key.name (.table .header gs) fs)
    | some _ => none) key.path .header fs

/-- Enters one more row of an array of tables. -/
def openRow (key : Key) (fs : Fields) : Option Fields :=
  changeAt false (fun _ fs =>
    match KeyMap.find? key.name fs with
    | none => some (KeyMap.insertEntry key.name (.rows [[]]) fs)
    | some (.rows ts) => some (KeyMap.insertEntry key.name (.rows (ts ++ [[]])) fs)
    | some _ => none) key.path .header fs

/-- Enters a value under a key of the table that a header opened. -/
def assignUnder (table : List String) (key : Key) (v : Value) (fs : Fields) : Option Fields :=
  changeAt false (assign key v) table .header fs

end Fields

mutual

def Node.toValue : Node → Value
  | .value v => v
  | .table _ fs => .mapping (toValues fs)
  | .rows ts => .sequence (rowsToValues ts)

/-- The fields of a table as fields of a document. -/
def toValues : List (String × Node) → List (String × Value)
  | [] => []
  | (k, n) :: r => (k, n.toValue) :: toValues r

def rowsToValues : List (List (String × Node)) → List Value
  | [] => []
  | fs :: r => .mapping (toValues fs) :: rowsToValues r

end

end PluginRegistry.Toml
