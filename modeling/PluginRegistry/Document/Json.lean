import PluginRegistry.Document.Value

/-!
# JSON text

A value on several lines, indented by two spaces a level, with empty sequences and mappings closed
at once. Quotes, backslashes and controls are escaped; all other characters stand for themselves.
-/

namespace PluginRegistry.Document.Json

def escapedChar (c : Char) : String :=
  if c = '"' then "\\\""
  else if c = '\\' then "\\\\"
  else if c = '\n' then "\\n"
  else if c = '\r' then "\\r"
  else if c = '\t' then "\\t"
  else if c = '\x08' then "\\b"
  else if c = '\x0c' then "\\f"
  else if c.toNat < 0x20 then
    "\\u00" ++ (if c.toNat < 0x10 then "0" else "") ++ Text.hexText c.toNat
  else String.singleton c

def quote (s : String) : String := "\"" ++ String.join (s.toList.map escapedChar) ++ "\""

def newline (level : Nat) : String := "\n" ++ "".pushn ' ' (2 * level)

mutual

/-- The text of a value that starts on a given level. -/
def text (level : Nat) : Value → String
  | .null => "null"
  | .boolean b => toString b
  | .integer n => toString n
  | .real x => Format.json.realText x
  | .text s => quote s
  | .dateTime w => quote w
  | .numeral w => quote w
  | .sequence [] => "[]"
  | .sequence (v :: vs) =>
    "[" ++ newline (level + 1) ++ text (level + 1) v ++ itemsText (level + 1) vs ++
      newline level ++ "]"
  | .mapping [] => "\x7b\x7d"
  | .mapping ((k, v) :: fs) =>
    "\x7b" ++ newline (level + 1) ++ quote k ++ ": " ++ text (level + 1) v ++
      fieldsText (level + 1) fs ++ newline level ++ "\x7d"

/-- The items after the first one. -/
def itemsText (level : Nat) : List Value → String
  | [] => ""
  | v :: vs => "," ++ newline level ++ text level v ++ itemsText level vs

/-- The fields after the first one. -/
def fieldsText (level : Nat) : List (String × Value) → String
  | [] => ""
  | (k, v) :: fs => "," ++ newline level ++ quote k ++ ": " ++ text level v ++ fieldsText level fs

end

def render (v : Value) : String := text 0 v

end PluginRegistry.Document.Json
