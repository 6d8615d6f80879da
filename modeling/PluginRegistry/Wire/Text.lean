import PluginRegistry.Wire.Varint

/-!
# Texts as bytes

A text is the length of its UTF-8 form and that form.
-/

namespace PluginRegistry.Wire

def utf8 (s : String) : List UInt8 := s.toUTF8.data.toList

def ofUtf8? (bs : List UInt8) : Option String := String.fromUTF8? ⟨bs.toArray⟩

def writeText (s : String) : List UInt8 := writeVarint (utf8 s).length ++ utf8 s

def readText : Reader String := do
  let n ← readVarint 64
  let bs ← readBytes n
  match ofUtf8? bs with
  | some s => return s
  | none => throw .badText

end PluginRegistry.Wire
