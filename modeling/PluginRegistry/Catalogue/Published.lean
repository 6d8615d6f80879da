import PluginRegistry.Log
import PluginRegistry.Plugin.Basic

/-!
# Published snapshots

Every publication makes a new snapshot, told apart from all earlier ones by its stamp even when its
content is the same. A snapshot never changes.
-/

namespace PluginRegistry

/-- A published map and the number of its publication. -/
structure Snapshot where
  stamp : Nat
  plugins : PluginMap
  deriving DecidableEq

/-- The latest snapshot of each category and the number of publications so far. -/
structure Published where
  latest : ByCategory (Option Snapshot)
  count : Nat
  deriving DecidableEq

namespace Published

def none : Published := ⟨.both .none, 0⟩

instance : Inhabited Published := ⟨none⟩

def snapshot? (p : Published) (c : Category) : Option Snapshot := p.latest.get c

def plugins? (p : Published) (c : Category) : Option PluginMap :=
  (p.snapshot? c).map Snapshot.plugins

def publish (p : Published) (c : Category) (m : PluginMap) : Published :=
  ⟨p.latest.set c (some ⟨p.count + 1, m⟩), p.count + 1⟩

def record (c : Category) (m : PluginMap) : Log.Record :=
  ⟨.trace, "registry.snapshot.publish", [("category", .text c.name), ("plugins", .number m.size)]⟩

def sizeText (s : Option Snapshot) : String :=
  match s with
  | .none => "None"
  | some s => "Some(" ++ toString s.plugins.size ++ ")"

def describe (p : Published) : String :=
  "Snapshots \x7b conditions: " ++ sizeText p.latest.condition ++ ", settings: " ++
    sizeText p.latest.setting ++ " \x7d"

theorem snapshot?_publish (p : Published) (c d : Category) (m : PluginMap) :
    (p.publish c m).snapshot? d = if c = d then some ⟨p.count + 1, m⟩ else p.snapshot? d := by
  cases c <;> cases d <;> rfl

theorem plugins?_publish (p : Published) (c d : Category) (m : PluginMap) :
    (p.publish c m).plugins? d = if c = d then some m else p.plugins? d := by
  cases c <;> cases d <;> rfl

end Published

end PluginRegistry
