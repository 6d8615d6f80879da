import PluginRegistry.Directory.Characteristics
import PluginRegistry.Directory.Installation
import PluginRegistry.Plugin.Document
import PluginRegistry.Toml.Typed

/-!
# Inventories

An inventory lists packages, granted permissions and characteristics in a TOML document. Loading it
installs the packages and enters the characteristics. A package may be listed once; of
characteristics with the same category and name the last one counts.
-/

namespace PluginRegistry

open Document

/-- The surroundings of a registry: what is installed and what is known about plugins. -/
structure Site where
  installation : Installation
  characteristics : Characteristics

instance : Inhabited Site := ⟨⟨default, default⟩⟩

namespace Inventory

/-- A configuration as an inventory lists it. -/
structure Characteristic where
  category : Category
  registryName : String
  configuration : Configuration

/-- An inventory as it is written. -/
structure Listed where
  hostVersion : Int32
  permissions : List String
  packages : List Package
  characteristics : List Characteristic

inductive Failure
  | document (e : Toml.Failure)
  | duplicatePackage (name : String)
  deriving DecidableEq, Repr

def Failure.message : Failure → String
  | document e => e.message
  | duplicatePackage name => "duplicate package in inventory: " ++ name

/-- Installs packages one after another, each of which must not be installed yet. -/
def installAll (i : Installation) : List Package → Except Failure Installation
  | [] => .ok i
  | p :: ps =>
    if (i.package? p.name).isSome then .error (.duplicatePackage p.name)
    else installAll (i.install p) ps

def tableOf (l : List Characteristic) : Characteristics :=
  l.foldl (fun t x => t.insert x.category x.registryName x.configuration) ∅

/-- Makes the site that an inventory describes. -/
def Listed.load (l : Listed) : Except Failure Site := do
  let bare := l.permissions.foldl Installation.grant (.bare l.hostVersion)
  let installation ← installAll bare l.packages
  return { installation, characteristics := tableOf l.characteristics }

def readLocation : Reader (Option InstallLocation) := fun v =>
  some <$> readVariant .toml InstallLocation.all InstallLocation.name v

def readPermission : Reader (Option String) := fun v => some <$> readText v

def declarationShape : Shape where
  format := .toml
  title := "struct ComponentSpec"
  fields := [
    .of "id" readText,
    .of "kind" (Plugin.readKind .toml),
    .of "actions" (readSequence readText),
    .of "enabled" readBoolean,
    .of "exported" readBoolean,
    .of "permission" readPermission]
  closed := true

def readDeclaration : Reader Declaration := declarationShape.read fun fs => do
  let id ← fs.required "id" readText
  let kind ← fs.required "kind" (Plugin.readKind .toml)
  let actions ← fs.optional "actions" (readSequence readText) []
  let enabled ← fs.optional "enabled" readBoolean true
  let exported ← fs.optional "exported" readBoolean true
  let permission ← fs.optional "permission" readPermission none
  return { id, kind, actions, enabled, exported, permission }

def packageShape : Shape where
  format := .toml
  title := "struct PackageSpec"
  fields := [
    .of "name" readText,
    .of "version" readInt64,
    .of "enabled" readBoolean,
    .of "target_version" readInt32,
    .of "on_removable_storage" readBoolean,
    .of "install_location" readLocation,
    .of "component" (readSequence readDeclaration)]
  closed := true

def readPackage : Reader Package := packageShape.read fun fs => do
  let name ← fs.required "name" readText
  let version ← fs.optional "version" readInt64 1
  let enabled ← fs.optional "enabled" readBoolean true
  let targetVersion ← fs.optional "target_version" readInt32 0
  let onRemovableStorage ← fs.optional "on_removable_storage" readBoolean false
  let installLocation ← fs.optional "install_location" readLocation none
  let components ← fs.optional "component" (readSequence readDeclaration) []
  return { name, version, enabled, targetVersion, onRemovableStorage, installLocation, components }

/-- The field of an inventory that stands for a flag. -/
def flagField : Flag → String
  | .backwardsCompatible => "backwards_compatible"
  | .requiresConnectivity => "requires_connectivity"
  | .disruptsConnectivity => "disrupts_connectivity"
  | .buggy => "buggy"
  | .drainsBattery => "drains_battery"
  | .blacklisted => "blacklisted"

def characteristicShape : Shape where
  format := .toml
  title := "struct CharacteristicSpec"
  fields := [.of "category" (Plugin.readCategory .toml), .of "registry_name" readText] ++
    (Flag.all.map fun f => .of (flagField f) readBoolean) ++
    [.of "alternatives" (readSequence readText)]
  closed := true

def readCharacteristic : Reader Characteristic := characteristicShape.read fun fs => do
  let category ← fs.required "category" (Plugin.readCategory .toml)
  let registryName ← fs.required "registry_name" readText
  let flags ← Flag.all.filterM fun f => fs.optional (flagField f) readBoolean false
  let alternatives ← fs.optional "alternatives" (readSequence readText) []
  return { category, registryName, configuration := ⟨.ofList flags, .ofList alternatives⟩ }

def shape : Shape where
  format := .toml
  title := "an inventory"
  fields := [
    .of "host_target_version" readInt32,
    .of "granted_permissions" (readSequence readText),
    .of "package" (readSequence readPackage),
    .of "characteristic" (readSequence readCharacteristic)]
  closed := true

def ofDocument : Reader Listed := shape.read fun fs => do
  let hostVersion ← fs.optional "host_target_version" readInt32 0
  let permissions ← fs.optional "granted_permissions" (readSequence readText) []
  let packages ← fs.optional "package" (readSequence readPackage) []
  let characteristics ← fs.optional "characteristic" (readSequence readCharacteristic) []
  return { hostVersion, permissions, packages, characteristics }

def load (text : String) : Except Failure Site := do
  let listed ← (Toml.readAs ofDocument text).mapError .document
  listed.load

end Inventory

end PluginRegistry
