import PluginRegistry.Text.Hex
import PluginRegistry.Text.Hidden

/-!
# Quoted text

A text between double quotes. Quotes and backslashes are escaped, the common controls have letters,
and other characters without a visible form are shown by their number.
-/

namespace PluginRegistry.Text

def quotedChar (c : Char) : String :=
  if c = '\t' then "\\t"
  else if c = '\r' then "\\r"
  else if c = '\n' then "\\n"
  else if c = '\x00' then "\\0"
  else if c = '"' then "\\\""
  else if c = '\\' then "\\\\"
  else if isHidden c then "\\u\x7b" ++ hexText c.toNat ++ "\x7d"
  else String.singleton c

def quoted (s : String) : String :=
  "\"" ++ String.join (s.toList.map quotedChar) ++ "\""

end PluginRegistry.Text
