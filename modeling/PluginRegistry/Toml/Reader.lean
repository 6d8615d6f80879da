import PluginRegistry.Toml.Quotation
import PluginRegistry.Toml.Scalar
import PluginRegistry.Toml.Tree

/-!
# Reading TOML

A document is a list of statements, one a line: a key with its value, the header of a table, or the
header of a row of tables. `Toml.read` reads the statements and enters them into a tree. Loops carry
the length of the text as a bound, because each round takes at least one character.
-/

namespace PluginRegistry.Toml

open Document

inductive Statement
  | entry (key : Key) (v : Value)
  | table (key : Key)
  | row (key : Key)

def isBare (c : Char) : Bool := c.isAlphanum || c = '_' || c = '-'

/-- Takes one part of a key: bare, or quoted on one line. -/
def readName : List Char → Option (String × List Char)
  | '"' :: r => (readBasic r).map fun (s, r) => (String.ofList s, r)
  | '\'' :: r => (readLiteral r).map fun (s, r) => (String.ofList s, r)
  | cs =>
    match cs.takeWhile isBare with
    | [] => none
    | s => some (String.ofList s, cs.dropWhile isBare)

/-- How deep arrays and inline tables may be nested, and how many parts a key may have. -/
def maxDepth : Nat := 80

/-- Takes a key of at most so many parts with its dots. -/
def readKey : Nat → List Char → Option (Key × List Char)
  | 0, _ => none
  | n + 1, cs => do
    let (name, r) ← readName cs
    match skipSpace r with
    | '.' :: r =>
      let (key, r) ← readKey n (skipSpace r)
      return (⟨name :: key.path, key.name⟩, r)
    | r => return (⟨[], name⟩, r)

/-- Skips blanks, line breaks and comments; `comment` tells whether the text starts inside a
comment. -/
def skipFiller (comment : Bool) : List Char → List Char
  | [] => []
  | '\r' :: '\n' :: r => skipFiller false r
  | c :: r =>
    if c = '\n' then skipFiller false r
    else if comment then if isPlain c then skipFiller true r else c :: r
    else if isSpace c then skipFiller false r
    else if c = '#' then skipFiller true r
    else c :: r

/-- Takes the items of an array behind its opening bracket. -/
def readItems (read : List Char → Option (Value × List Char)) :
    Nat → List Char → Option (List Value × List Char)
  | 0, _ => none
  | n + 1, cs =>
    match skipFiller false cs with
    | ']' :: r => some ([], r)
    | cs => do
      let (v, r) ← read cs
      match skipFiller false r with
      | ',' :: r =>
        let (vs, r) ← readItems read n r
        return (v :: vs, r)
      | ']' :: r => return ([v], r)
      | _ => none

/-- Takes a key, an equals sign and a value. What `gap` skips may stand around the sign. -/
def readEntry (gap : List Char → List Char) (read : List Char → Option (Value × List Char))
    (cs : List Char) : Option ((Key × Value) × List Char) := do
  let (key, r) ← readKey maxDepth cs
  match gap r with
  | '=' :: r =>
    let (v, r) ← read (gap r)
    return ((key, v), r)
  | _ => none

/-- Takes the entries of an inline table behind its opening brace. -/
def readEntries (read : List Char → Option (Value × List Char)) :
    Nat → List Char → Option (List (Key × Value) × List Char)
  | 0, _ => none
  | n + 1, cs =>
    match skipFiller false cs with
    | '}' :: r => some ([], r)
    | cs => do
      let (e, r) ← readEntry (skipFiller false) read cs
      match skipFiller false r with
      | ',' :: r =>
        let (es, r) ← readEntries read n r
        return (e :: es, r)
      | '}' :: r => return ([e], r)
      | _ => none

def inlineTable (es : List (Key × Value)) : Option Value :=
  (es.foldlM (fun (fs : Fields) (key, v) => fs.assign key v .header) []).map fun fs =>
    .mapping (toValues fs)

/-- Takes a value in which arrays and inline tables are nested no deeper than the given number. -/
def readValue : Nat → List Char → Option (Value × List Char)
  | depth, '[' :: r =>
    match depth with
    | 0 => none
    | d + 1 => (readItems (readValue d) (r.length + 1) r).map fun (vs, r) => (.sequence vs, r)
  | depth, '{' :: r =>
    match depth with
    | 0 => none
    | d + 1 => do
      let (es, r) ← readEntries (readValue d) (r.length + 1) r
      return (← inlineTable es, r)
  | _, '"' :: r => (readQuotation ('"' :: r)).map fun (s, r) => (.text (String.ofList s), r)
  | _, '\'' :: r => (readQuotation ('\'' :: r)).map fun (s, r) => (.text (String.ofList s), r)
  | _, cs => readScalar cs

/-- The key between the brackets of a header, and what follows it. -/
def readHeader (cs : List Char) : Option (Key × List Char) := do
  let (key, r) ← readKey maxDepth (skipSpace cs)
  return (key, skipSpace r)

def readStatement : List Char → Option (Statement × List Char)
  | '[' :: '[' :: r => do
    let (key, ']' :: ']' :: r) ← readHeader r | none
    return (.row key, r)
  | '[' :: r => do
    let (key, ']' :: r) ← readHeader r | none
    return (.table key, r)
  | cs => do
    let ((key, v), r) ← readEntry skipSpace (readValue maxDepth) cs
    return (.entry key v, r)

/-- What follows the rest of a line, which holds at most a comment. -/
def endLine (cs : List Char) : Option (List Char) :=
  let finish : List Char → Option (List Char)
    | [] => some []
    | cs => newline? cs
  match skipSpace cs with
  | '#' :: r => finish (r.dropWhile isPlain)
  | r => finish r

def readStatements : Nat → List Char → Option (List Statement)
  | _, [] => some []
  | 0, _ => none
  | n + 1, cs =>
    match endLine cs with
    | some r => readStatements n r
    | none => do
      let (s, r) ← readStatement (skipSpace cs)
      return s :: (← readStatements n (← endLine r))

/-- The fields of a document so far and the path of the table that the last header opened. -/
structure Draft where
  fields : Fields
  current : List String

def Draft.enter (d : Draft) : Statement → Option Draft
  | .entry key v => do return { d with fields := ← d.fields.assignUnder d.current key v }
  | .table key => do return ⟨← d.fields.openTable key, key.path ++ [key.name]⟩
  | .row key => do return ⟨← d.fields.openRow key, key.path ++ [key.name]⟩

/-- The document that a text denotes. A byte order mark in front is ignored. -/
def read (text : String) : Option Value := do
  let cs := match text.toList with
    | '\ufeff' :: r => r
    | cs => cs
  let d ← (← readStatements cs.length cs).foldlM Draft.enter ⟨[], []⟩
  return .mapping (toValues d.fields)

end PluginRegistry.Toml
