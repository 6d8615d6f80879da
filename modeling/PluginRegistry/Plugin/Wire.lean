import PluginRegistry.Plugin.Basic
import PluginRegistry.Wire.Text

/-!
# The binary form of a plugin

The fields stand one after another in a fixed order. The registry name is derived and not written.
Bytes after the value are left alone, numbers may be longer than needed, and alternatives may repeat
and stand in any order; a plugin with an empty name is refused.
-/

namespace PluginRegistry.Plugin

open Wire

def categoryCode : Category → Nat
  | .condition => 0
  | .setting => 1

def kindCode : ComponentKind → Nat
  | .activity => 0
  | .receiver => 1
  | .service => 2

/-- Takes a number that is the code of one of the given values. -/
def readCode {α : Type} (code : α → Nat) (values : List α) : Reader α := do
  let n ← readVarint 32
  match values.find? fun a => code a = n with
  | some a => return a
  | none => throw .badValue

def encodeConfiguration (c : Configuration) : List UInt8 :=
  c.flags.bits :: (writeVarint c.alternatives.toList.length ++
    c.alternatives.toList.flatMap writeText)

def readConfiguration : Reader Configuration := do
  let bits ← readByte
  let n ← readVarint 64
  let names ← readMany readText n
  return ⟨⟨bits⟩, NameSet.ofList names⟩

def encode (p : Plugin) : List UInt8 :=
  writeVarint (categoryCode p.category) ++ writeText p.packageName ++ writeText p.editorComponent ++
    writeVarint (kindCode p.executorKind) ++ writeText p.executorComponent ++
    writeVarint (zigzag p.version) ++ encodeConfiguration p.configuration

/-- Takes the fields of a plugin, whatever its names. -/
def readFields : Reader Plugin := do
  let category ← readCode categoryCode Category.all
  let packageName ← readText
  let editorComponent ← readText
  let executorKind ← readCode kindCode ComponentKind.all
  let executorComponent ← readText
  let version ← readVarint 64
  let configuration ← readConfiguration
  return { category, packageName, editorComponent, executorKind, executorComponent,
           version := unzigzag version, configuration }

def decode (bs : List UInt8) : Except Fault Plugin := do
  let (p, _) ← readFields bs
  match p.create with
  | .ok p => return p
  | .error _ => throw .badValue

/-- The fault of a binary form, as reported to callers. -/
def faultText (e : Fault) : String := "plugin wire codec: " ++ e.message

end PluginRegistry.Plugin
