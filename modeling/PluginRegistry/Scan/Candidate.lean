import PluginRegistry.Directory.Characteristics
import PluginRegistry.Directory.Component
import PluginRegistry.Log
import PluginRegistry.Scan.Finding

/-!
# Candidates

A candidate is an editor component with the executors of its package. The rules of `Finding.applies`
decide what is wrong with it; without a fatal finding it becomes a plugin run by its first executor.
-/

namespace PluginRegistry

/-- Whether the host may reach a component. -/
def Component.reachable (granted : String → Bool) (x : Component) : Bool :=
  match x.permission with
  | none => true
  | some p => granted p

/-- Whether a component stays on internal storage, where it can be reached at all times. -/
def Component.staysInternal (x : Component) : Bool :=
  !x.onRemovableStorage &&
    !(x.installLocation = some .auto || x.installLocation = some .preferExternal)

def Finding.applies (host : Int32) (granted : String → Bool) (editor : Component)
    (executors : List Component) : Finding → Bool
  | targetVersionOutdated => editor.targetVersion < host
  | installLocationBad => !editor.staysInternal
  | applicationNotEnabled => !editor.applicationEnabled
  | editorNotEnabled => !editor.enabled
  | editorNotExported => !editor.exported
  | editorRequiresPermission => !editor.reachable granted
  | executorNotEnabled => match executors with | [x] => !x.enabled | _ => false
  | executorNotExported => match executors with | [x] => !x.exported | _ => false
  | executorRequiresPermission => match executors with | [x] => !x.reachable granted | _ => false
  | missingExecutor => executors.isEmpty
  | duplicateExecutor => 1 < executors.length

def findings (d : Directory) (editor : Component) (executors : List Component) : List Finding :=
  Finding.all.filter (Finding.applies d.hostVersion d.granted editor executors)

/-- An editor component, the installed version of its package and the executors of its package. -/
structure Candidate where
  editor : Component
  version : Option Int64
  executors : List Component

namespace Candidate

/-- The version of a package that vanished while the scan ran. -/
def unknownVersion : Int64 := -1

def versionCode (k : Candidate) : Int64 := k.version.getD unknownVersion

def findings (d : Directory) (k : Candidate) : List Finding :=
  PluginRegistry.findings d k.editor k.executors

def rejected (d : Directory) (k : Candidate) : Bool := (k.findings d).any Finding.fatal

def registryName (k : Candidate) : String :=
  PluginRegistry.registryName k.editor.packageName k.editor.id

/-- The plugin of an editor with a given executor. -/
def pluginWith (t : Characteristics) (c : Category) (k : Candidate) (executor : Component) :
    Plugin where
  category := c
  packageName := k.editor.packageName
  editorComponent := k.editor.id
  executorKind := executor.kind
  executorComponent := executor.id
  version := k.versionCode
  configuration := t.lookup c k.registryName

/-- The plugin that a candidate without fatal findings becomes, unless one of its names is empty. -/
def outcome? (d : Directory) (t : Characteristics) (c : Category) (k : Candidate) :
    Option (Except Plugin.EmptyName Plugin) :=
  if k.rejected d then none
  else k.executors.head?.map fun x => (k.pluginWith t c x).create

def plugin? (d : Directory) (t : Characteristics) (c : Category) (k : Candidate) : Option Plugin :=
  (k.outcome? d t c).bind Except.toOption

def records (d : Directory) (t : Characteristics) (c : Category) (k : Candidate) :
    List Log.Record :=
  let package := k.editor.packageName
  (if k.version.isSome then [] else
    [⟨.debug, "package vanished before its version was read", [("package", .text package)]⟩]) ++
  [⟨.info, "found plugin candidate",
    [("category", .text c.name), ("package", .text package), ("editor", .text k.editor.id),
     ("executors", .number k.executors.length), ("version", .number k.versionCode.toInt)]⟩] ++
  (k.findings d).map (fun f =>
    ⟨if f.fatal then .warn else .info, f.explanation,
     [("category", .text c.name), ("package", .text package), ("error", .text f.name)]⟩) ++
  match k.outcome? d t c with
  | some (.error e) =>
    [⟨.warn, "skipping malformed plugin candidate",
      [("category", .text c.name), ("package", .text package), ("error", .text e.message)]⟩]
  | _ => []

end Candidate

end PluginRegistry
