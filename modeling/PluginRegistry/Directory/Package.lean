import PluginRegistry.Directory.Component

/-!
# Packages

A package declares components; a component of a package is listed with the package's own fields. The
functions after the structures build up a package step by step.
-/

namespace PluginRegistry

/-- One component declared by a package, with the actions it responds to. -/
structure Declaration where
  id : String
  kind : ComponentKind
  actions : List String
  enabled : Bool
  exported : Bool
  permission : Option String
  deriving DecidableEq, Repr

/-- One package as it is or would be installed. -/
structure Package where
  name : String
  version : Int64
  enabled : Bool
  targetVersion : Int32
  onRemovableStorage : Bool
  installLocation : Option InstallLocation
  components : List Declaration
  deriving DecidableEq, Repr

namespace Declaration

/-- An enabled, exported component that responds to one action and requires no permission. -/
def simple (id : String) (kind : ComponentKind) (action : String) : Declaration :=
  { id, kind, actions := [action], enabled := true, exported := true, permission := none }

def disabled (d : Declaration) : Declaration := { d with enabled := false }

def unexported (d : Declaration) : Declaration := { d with exported := false }

def requiring (d : Declaration) (permission : String) : Declaration :=
  { d with permission := some permission }

end Declaration

namespace Package

/-- An enabled package without components, on internal storage only. -/
def bare (name : String) (version : Int64) : Package :=
  { name, version, enabled := true, targetVersion := 0, onRemovableStorage := false,
    installLocation := some .internalOnly, components := [] }

def withComponent (p : Package) (d : Declaration) : Package :=
  { p with components := p.components ++ [d] }

/-- Adds an editor activity and an executor; conditions get a receiver and settings a service. -/
def withPlugin (p : Package) (c : Category) (editor executor : String) : Package :=
  (p.withComponent (.simple editor .activity c.editorAction)).withComponent
    (.simple executor (match c with | .condition => .receiver | .setting => .service)
      c.executorAction)

def targeting (p : Package) (version : Int32) : Package := { p with targetVersion := version }

def disabled (p : Package) : Package := { p with enabled := false }

def located (p : Package) (location : Option InstallLocation) : Package :=
  { p with installLocation := location }

def onRemovable (p : Package) : Package := { p with onRemovableStorage := true }

/-- A component of the package as a directory lists it. -/
def component (p : Package) (d : Declaration) : Component where
  packageName := p.name
  id := d.id
  kind := d.kind
  applicationEnabled := p.enabled
  enabled := d.enabled
  exported := d.exported
  permission := d.permission
  targetVersion := p.targetVersion
  onRemovableStorage := p.onRemovableStorage
  installLocation := p.installLocation

/-- The components of the package that respond to an action, in declaration order. -/
def responding (p : Package) (action : String) : List Component :=
  (p.components.filter fun d => decide (action ∈ d.actions)).map p.component

end Package

end PluginRegistry
