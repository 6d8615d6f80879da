import PluginRegistry.Collection.KeyMap
import PluginRegistry.Plugin.Category
import PluginRegistry.Plugin.Configuration

/-!
# Plugins

A plugin is an editor component of a package together with the executor that runs it. Its registry
name joins the package name and the editor component; `Plugin.create` is the only check a plugin
passes.
-/

namespace PluginRegistry

inductive ComponentKind | activity | receiver | service deriving DecidableEq, Repr, Inhabited

def ComponentKind.all : List ComponentKind := [.activity, .receiver, .service]

def ComponentKind.name : ComponentKind → String
  | .activity => "activity"
  | .receiver => "receiver"
  | .service => "service"

/-- The key under which the plugin of an editor component is registered. -/
def registryName (packageName editorComponent : String) : String :=
  packageName ++ ":" ++ editorComponent

/-- A discovered plugin. -/
structure Plugin where
  category : Category
  packageName : String
  editorComponent : String
  executorKind : ComponentKind
  executorComponent : String
  version : Int64
  configuration : Configuration
  deriving DecidableEq

/-- Plugins of one category by registry name. -/
abbrev PluginMap := KeyMap Plugin

namespace Plugin

/-- The name that a plugin must not leave empty. -/
inductive EmptyName | package | editor | executor deriving DecidableEq, Repr

def EmptyName.message : EmptyName → String
  | package => "package name must not be empty"
  | editor => "editor component must not be empty"
  | executor => "executor component must not be empty"

def registryName (p : Plugin) : String :=
  PluginRegistry.registryName p.packageName p.editorComponent

/-- The first name of a plugin that is empty. -/
def emptyName? (p : Plugin) : Option EmptyName :=
  if p.packageName = "" then some .package
  else if p.editorComponent = "" then some .editor
  else if p.executorComponent = "" then some .executor
  else none

def create (p : Plugin) : Except EmptyName Plugin :=
  match p.emptyName? with
  | some e => .error e
  | none => .ok p

def Named (p : Plugin) : Prop :=
  p.packageName ≠ "" ∧ p.editorComponent ≠ "" ∧ p.executorComponent ≠ ""

theorem emptyName?_eq_none_iff {p : Plugin} : p.emptyName? = none ↔ p.Named := by
  unfold emptyName? Named
  by_cases h1 : p.packageName = "" <;> by_cases h2 : p.editorComponent = "" <;>
    by_cases h3 : p.executorComponent = "" <;> simp [h1, h2, h3]

theorem create_eq_ok_iff {p q : Plugin} : p.create = .ok q ↔ p = q ∧ p.Named := by
  rw [create, ← emptyName?_eq_none_iff]
  cases p.emptyName? <;> simp

def summary (p : Plugin) : String :=
  p.category.name ++ " " ++ p.registryName ++ " (v" ++ toString p.version.toInt ++ ")"

end Plugin

end PluginRegistry
