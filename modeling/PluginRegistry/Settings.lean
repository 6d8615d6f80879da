import PluginRegistry.Toml.Typed

/-!
# Settings of a registry

The settings scope the signal by which a registry tells that it changed: its action carries a suffix
that keeps instances apart, and its permission belongs to the host. Without a suffix of its own an
instance uses the number of its process.
-/

namespace PluginRegistry

open Document

/-- The identity of the signal that a registry changed. It carries no data. -/
structure Channel where
  action : String
  permission : String
  deriving DecidableEq, Repr

structure Settings where
  hostPackage : String
  changeAction : String
  instanceSuffix : Option String
  workerName : String
  deriving DecidableEq, Repr

namespace Settings

def default : Settings where
  hostPackage := "plugreg.host"
  changeAction := "plugreg.intent.action.PLUGIN_REGISTRY_CHANGED"
  instanceSuffix := none
  workerName := "plugin-registry"

instance : Inhabited Settings := ⟨default⟩

/-- The channel of an instance in the process with the given number. -/
def channel (s : Settings) (process : String) : Channel where
  action := s.changeAction ++ ":" ++ s.instanceSuffix.getD process
  permission := s.hostPackage ++ ".permission.internal"

def readSuffix : Reader (Option String) := fun v => some <$> readText v

def shape : Shape where
  format := .toml
  title := "settings"
  fields := [
    .of "host_package" readText,
    .of "change_action" readText,
    .of "instance_suffix" readSuffix,
    .of "worker_thread_name" readText]
  closed := true

def ofDocument : Reader Settings := shape.read fun fs => do
  let hostPackage ← fs.optional "host_package" readText default.hostPackage
  let changeAction ← fs.optional "change_action" readText default.changeAction
  let instanceSuffix ← fs.optional "instance_suffix" readSuffix default.instanceSuffix
  let workerName ← fs.optional "worker_thread_name" readText default.workerName
  return { hostPackage, changeAction, instanceSuffix, workerName }

def load (text : String) : Except Toml.Failure Settings := Toml.readAs ofDocument text

end Settings

end PluginRegistry
