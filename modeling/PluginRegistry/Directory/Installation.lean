import PluginRegistry.Directory.Package

/-!
# Installations

The packages installed on a host, by name, with the permissions that the host holds. Queries list
the packages in name order and the components of each in declaration order.
-/

namespace PluginRegistry

/-- Installed packages, each under its own name. -/
structure Installation where
  hostVersion : Int32
  permissions : NameSet
  packages : KeyMap Package
  named : ∀ e ∈ packages.entries, e.1 = e.2.name

namespace Installation

/-- A host without packages and permissions. -/
def bare (hostVersion : Int32) : Installation where
  hostVersion := hostVersion
  permissions := ∅
  packages := ∅
  named := by intro e he; exact absurd he List.not_mem_nil

instance : Inhabited Installation := ⟨bare 0⟩

def grant (i : Installation) (permission : String) : Installation :=
  { i with permissions := i.permissions.insert permission }

/-- Installs a package in place of any package with the same name. -/
def install (i : Installation) (p : Package) : Installation :=
  { i with
    packages := i.packages.insert p.name p
    named := fun e he => by
      rcases KeyMap.mem_insertEntry he with rfl | he
      · rfl
      · exact i.named e he }

def uninstall (i : Installation) (name : String) : Installation :=
  { i with
    packages := i.packages.erase name
    named := fun e he => i.named e (List.mem_filter.1 he).1 }

def package? (i : Installation) (name : String) : Option Package := i.packages.get? name

def query (i : Installation) (action : String) (filter : Option String) : List Component :=
  (i.packages.values.filter fun p => passes filter p.name).flatMap fun p => p.responding action

def installedVersion (i : Installation) (name : String) : Option Int64 :=
  (i.package? name).map Package.version

def directory (i : Installation) : Directory where
  query := i.query
  installedVersion := i.installedVersion
  hostVersion := i.hostVersion
  granted := i.permissions.contains

theorem package?_install (i : Installation) (p : Package) (name : String) :
    (i.install p).package? name = if p.name = name then some p else i.package? name :=
  KeyMap.get?_insert i.packages p.name name p

theorem package?_uninstall (i : Installation) (n name : String) :
    (i.uninstall n).package? name = if n = name then none else i.package? name :=
  KeyMap.get?_erase i.packages n name

/-- An installed package is found under its own name. -/
theorem name_of_package? {i : Installation} {name : String} {p : Package}
    (h : i.package? name = some p) : p.name = name :=
  (i.named (name, p) (KeyMap.mem_entries_iff.2 h)).symm

end Installation

end PluginRegistry
