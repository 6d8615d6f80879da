import PluginRegistry.Plugin.Basic

/-!
# Component directories

A directory lists the components that declare an action, knows the installed versions, and says
which permissions the host holds. What it answers is fixed while one scan runs.
-/

namespace PluginRegistry

/-- Where the manifest of a package allows it to be installed. -/
inductive InstallLocation | internalOnly | auto | preferExternal deriving DecidableEq, Repr

def InstallLocation.all : List InstallLocation := [.internalOnly, .auto, .preferExternal]

def InstallLocation.name : InstallLocation → String
  | .internalOnly => "internal_only"
  | .auto => "auto"
  | .preferExternal => "prefer_external"

/-- One component as a directory lists it. The install location is missing when the manifest could
not be read. -/
structure Component where
  packageName : String
  id : String
  kind : ComponentKind
  applicationEnabled : Bool
  enabled : Bool
  exported : Bool
  permission : Option String
  targetVersion : Int32
  onRemovableStorage : Bool
  installLocation : Option InstallLocation
  deriving DecidableEq, Repr

/-- What a scan asks of its surroundings. -/
structure Directory where
  /-- The components that declare an action, of one package or of all. -/
  query : String → Option String → List Component
  installedVersion : String → Option Int64
  hostVersion : Int32
  granted : String → Bool

def passes (filter : Option String) (packageName : String) : Bool :=
  match filter with
  | none => true
  | some p => decide (p = packageName)

/-- A directory given outright by its entries: actions with the components that declare them. -/
structure Listing where
  entries : List (String × Component)
  versions : KeyMap Int64
  hostVersion : Int32
  granted : NameSet

def Listing.directory (l : Listing) : Directory where
  query action filter :=
    (l.entries.filter fun e => e.1 = action && passes filter e.2.packageName).map (·.2)
  installedVersion := l.versions.get?
  hostVersion := l.hostVersion
  granted := l.granted.contains

end PluginRegistry
