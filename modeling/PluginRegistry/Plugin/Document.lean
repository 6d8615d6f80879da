import PluginRegistry.Document.Reading
import PluginRegistry.Plugin.Basic

/-!
# The document form of a plugin

A plugin as a mapping of its fields, the flags of its configuration as text. Unknown fields are
ignored on reading, the registry name is derived again, and a plugin with an empty name is refused.
-/

namespace PluginRegistry

open Document

def readFlags : Reader Flags
  | .text s =>
    match Flags.read s with
    | .ok s => .ok s
    | .error e => .error (.other e.message)
  | v => .error (.invalidType v.found "a string value of `|` separated flags")

def readNames : Reader NameSet := fun v => NameSet.ofList <$> readSequence readText v

namespace Configuration

def toDocument (c : Configuration) : Value :=
  .mapping [
    ("alternatives", .sequence (c.alternatives.toList.map .text)),
    ("flags", .text c.flags.text)]

def shape : Shape where
  format := .json
  title := "struct PluginConfiguration"
  fields := [.of "flags" readFlags, .of "alternatives" readNames]
  closed := false

def ofDocument : Reader Configuration := shape.read fun fs => do
  let flags ← fs.required "flags" readFlags
  let alternatives ← fs.required "alternatives" readNames
  return { flags, alternatives }

end Configuration

namespace Plugin

def toDocument (p : Plugin) : Value :=
  .mapping [
    ("category", .text p.category.name),
    ("configuration", p.configuration.toDocument),
    ("editor_component", .text p.editorComponent),
    ("executor_component", .text p.executorComponent),
    ("executor_kind", .text p.executorKind.name),
    ("package_name", .text p.packageName),
    ("version_code", .integer p.version.toInt)]

def readCategory (f : Format) : Reader Category := readVariant f Category.all Category.name

def readKind (f : Format) : Reader ComponentKind :=
  readVariant f ComponentKind.all ComponentKind.name

def shape : Shape where
  format := .json
  title := "struct PluginWire"
  fields := [
    .of "category" (readCategory .json),
    .of "package_name" readText,
    .of "editor_component" readText,
    .of "executor_kind" (readKind .json),
    .of "executor_component" readText,
    .of "version_code" readInt64,
    .of "configuration" Configuration.ofDocument]
  closed := false

/-- Reads the fields of a plugin, whatever its names. -/
def fieldsOfDocument : Reader Plugin := shape.read fun fs => do
  let category ← fs.required "category" (readCategory .json)
  let packageName ← fs.required "package_name" readText
  let editorComponent ← fs.required "editor_component" readText
  let executorKind ← fs.required "executor_kind" (readKind .json)
  let executorComponent ← fs.required "executor_component" readText
  let version ← fs.required "version_code" readInt64
  let configuration ← fs.required "configuration" Configuration.ofDocument
  return {
    category, packageName, editorComponent, executorKind, executorComponent, version,
    configuration }

def ofDocument : Reader Plugin := fun v => do
  let p ← fieldsOfDocument v
  match p.create with
  | .ok p => return p
  | .error e => throw (.other e.message)

end Plugin

end PluginRegistry
