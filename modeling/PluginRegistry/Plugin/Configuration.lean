import PluginRegistry.Collection.NameSet
import PluginRegistry.Plugin.Flags

/-!
# Compatibility configurations

What is known about one plugin: its flags and the registry names of first-party replacements.
-/

namespace PluginRegistry

/-- The compatibility configuration of one plugin. -/
structure Configuration where
  flags : Flags
  alternatives : NameSet
  deriving DecidableEq

namespace Configuration

def default : Configuration := ⟨∅, ∅⟩

instance : Inhabited Configuration := ⟨default⟩

def isDefault (c : Configuration) : Bool := decide (c = default)

end Configuration

end PluginRegistry
