import PluginRegistry.Catalogue.Changes

/-!
# Package events

What the surroundings report about packages, and the changes that a registry has to follow in
consequence. The two halves of an upgrade are left out, because the replacement reported after them
stands for both.
-/

namespace PluginRegistry

inductive PackageEvent
  | added (package : String) (replacing : Bool)
  | removed (package : String) (replacing : Bool)
  | replaced (package : String)
  | changed (package : String)
  | storage (packages : List String) (available : Bool)
  deriving DecidableEq, Repr

/-- The changes that an event implies, in the order in which they are to be followed. -/
def PackageEvent.changes : PackageEvent → List PackageChange
  | added p replacing => if replacing then [] else [⟨.added, p⟩]
  | removed p replacing => if replacing then [] else [⟨.removed, p⟩]
  | replaced p => [⟨.changed, p⟩]
  | changed p => [⟨.changed, p⟩]
  | storage ps _ => ps.map fun p => ⟨.changed, p⟩

end PluginRegistry
