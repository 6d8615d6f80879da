import PluginRegistry.Plugin.Basic

/-!
# Characteristics

The table of what is known about plugins, by category and registry name. A plugin that is not in the
table has the default configuration.
-/

namespace PluginRegistry

/-- Configurations by category and registry name. -/
structure Characteristics where
  entries : ByCategory (KeyMap Configuration)

namespace Characteristics

def empty : Characteristics := ⟨.both ∅⟩

instance : EmptyCollection Characteristics := ⟨empty⟩

instance : Inhabited Characteristics := ⟨∅⟩

/-- Enters a configuration in place of any earlier one under the same category and name. -/
def insert (t : Characteristics) (c : Category) (name : String) (configuration : Configuration) :
    Characteristics :=
  ⟨t.entries.set c ((t.entries.get c).insert name configuration)⟩

def lookup (t : Characteristics) (c : Category) (name : String) : Configuration :=
  ((t.entries.get c).get? name).getD .default

def size (t : Characteristics) : Nat := t.entries.condition.size + t.entries.setting.size

theorem lookup_insert (t : Characteristics) (c d : Category) (n m : String) (x : Configuration) :
    (t.insert c n x).lookup d m = if c = d ∧ n = m then x else t.lookup d m := by
  unfold lookup insert
  rw [ByCategory.get_set]
  by_cases h : c = d
  · subst h
    by_cases h' : n = m <;> simp [h']
  · simp [h]

end Characteristics

end PluginRegistry
