/-!
# Plugin categories

A plugin is a condition, which evaluates a state and reports it, or a setting, which performs an
action when fired. Each category is recognised by the directory action of its editors and of its
executors.
-/

namespace PluginRegistry

inductive Category | condition | setting deriving DecidableEq, Repr, Inhabited

namespace Category

/-- Every category, in publication order. -/
def all : List Category := [condition, setting]

def name : Category → String
  | condition => "condition"
  | setting => "setting"

def editorAction : Category → String
  | condition => "plugreg.intent.action.EDIT_CONDITION"
  | setting => "plugreg.intent.action.EDIT_SETTING"

def executorAction : Category → String
  | condition => "plugreg.intent.action.QUERY_CONDITION"
  | setting => "plugreg.intent.action.FIRE_SETTING"

/-- Whether an upgrade that changes only the version counts as a change. A condition may hold
running state that has to be set up again; a setting is fired and forgotten. -/
def relaunchesOnUpgrade : Category → Bool
  | condition => true
  | setting => false

theorem mem_all (c : Category) : c ∈ all := by cases c <;> simp [all]

end Category

/-- One value for each category. -/
structure ByCategory (α : Type) where
  condition : α
  setting : α
  deriving DecidableEq, Repr

namespace ByCategory

variable {α β : Type}

def get (p : ByCategory α) : Category → α
  | .condition => p.condition
  | .setting => p.setting

def set (p : ByCategory α) (c : Category) (a : α) : ByCategory α :=
  match c with
  | .condition => { p with condition := a }
  | .setting => { p with setting := a }

def both (a : α) : ByCategory α := ⟨a, a⟩

def map (f : α → β) (p : ByCategory α) : ByCategory β := ⟨f p.condition, f p.setting⟩

def toList (p : ByCategory α) : List α := [p.condition, p.setting]

@[simp] theorem get_set_self (p : ByCategory α) (c : Category) (a : α) : (p.set c a).get c = a := by
  cases c <;> rfl

theorem get_set (p : ByCategory α) (c d : Category) (a : α) :
    (p.set c a).get d = if c = d then a else p.get d := by
  cases c <;> cases d <;> rfl

@[simp] theorem get_both (a : α) (c : Category) : (both a).get c = a := by cases c <;> rfl

@[simp] theorem get_map (f : α → β) (p : ByCategory α) (c : Category) :
    (p.map f).get c = f (p.get c) := by cases c <;> rfl

@[ext] theorem ext_get {p q : ByCategory α} (h : ∀ c, p.get c = q.get c) : p = q := by
  cases p; cases q
  exact congr (congrArg mk (h .condition)) (h .setting)

end ByCategory

end PluginRegistry
