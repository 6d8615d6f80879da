import PluginRegistry.Plugin.Category

/-!
# Changes

What happened to a package, and which category maps changed in consequence.
-/

namespace PluginRegistry

/-- Which category maps changed. -/
abbrev Changes := ByCategory Bool

namespace Changes

def none : Changes := ByCategory.both false

def all : Changes := ByCategory.both true

def any (x : Changes) : Bool := x.condition || x.setting

def name : Changes → String
  | ⟨false, false⟩ => "nothing_changed"
  | ⟨true, false⟩ => "conditions_changed"
  | ⟨false, true⟩ => "settings_changed"
  | ⟨true, true⟩ => "both_changed"

end Changes

inductive ChangeKind | added | removed | changed deriving DecidableEq, Repr

def ChangeKind.name : ChangeKind → String
  | added => "package_added"
  | removed => "package_removed"
  | changed => "package_changed"

/-- A change of one package that a registry has to follow. -/
structure PackageChange where
  kind : ChangeKind
  package : String
  deriving DecidableEq, Repr

end PluginRegistry
