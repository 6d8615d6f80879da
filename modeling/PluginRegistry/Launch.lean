import PluginRegistry.Actor.ThreadName
import PluginRegistry.Directory.Inventory
import PluginRegistry.Files
import PluginRegistry.Settings

/-!
# Launching a registry from files

The settings and the inventory of a registry may stand in files. The settings are read first, then
the inventory; the worker's thread is started last.
-/

namespace PluginRegistry.Launch

/-- Why a file does not give what it should. -/
inductive Unusable (ε : Type)
  | unreadable (path : String) (e : FileFault)
  | invalid (e : ε)

def unreadableText (path : String) (e : FileFault) : String :=
  "I/O error reading " ++ path ++ ": " ++ e.message

/-- Why a registry cannot be launched. -/
inductive Failure
  | settings (e : Unusable Toml.Failure)
  | inventory (e : Unusable Inventory.Failure)
  | worker (e : Actor.BadThreadName)

def readFile {α ε : Type} (files : Files) (path : String) (make : String → Except ε α) :
    Except (Unusable ε) α := do
  let text ← (files path).mapError (.unreadable path)
  (make text).mapError .invalid

def readSettings (files : Files) (path : String) : Except (Unusable Toml.Failure) Settings :=
  readFile files path Settings.load

def readInventory (files : Files) (path : String) : Except (Unusable Inventory.Failure) Site :=
  readFile files path Inventory.load

/-- Reads what a registry needs; without a settings file the defaults are taken. -/
def prepare (files : Files) (inventory : String) (config : Option String) :
    Except Failure (Settings × Site) := do
  let settings ← match config with
    | some path => (readSettings files path).mapError .settings
    | none => .ok .default
  let site ← (readInventory files inventory).mapError .inventory
  (Actor.checkThreadName settings.workerName).mapError .worker
  return (settings, site)

def documentCauses (e : Toml.Failure) : List String := [e.message, e.detail]

def inventoryCauses : Unusable Inventory.Failure → List String
  | .unreadable path e => [unreadableText path e]
  | .invalid (.document e) => documentCauses e
  | .invalid e => [e.message]

def Failure.causes : Failure → List String
  | settings (.unreadable path e) => [unreadableText path e]
  | settings (.invalid e) => documentCauses e
  | inventory e => inventoryCauses e
  | worker e => [e.message]

end PluginRegistry.Launch
