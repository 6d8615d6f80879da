import PluginRegistry.Scan.Candidate

/-!
# Scans

A scan visits the editor components of a category in the order of their package names, components of
one package in the order in which the directory lists them. It reports the plugins by registry name,
a later candidate replacing an earlier one with the same name, and every finding as a diagnostic.
-/

namespace PluginRegistry

/-- A finding about the candidate of an editor component. -/
structure Diagnostic where
  category : Category
  packageName : String
  component : String
  finding : Finding
  deriving DecidableEq, Repr

structure Report where
  plugins : PluginMap
  diagnostics : List Diagnostic

def Report.fatalCount (r : Report) : Nat := r.diagnostics.countP fun d => d.finding.fatal

namespace Scan

/-- The editor components in visiting order. -/
def editors (d : Directory) (c : Category) (filter : Option String) : List Component :=
  (d.query c.editorAction filter).mergeSort fun a b => a.packageName ≤ b.packageName

/-- The candidate of an editor component. -/
def candidate (d : Directory) (c : Category) (editor : Component) : Candidate where
  editor := editor
  version := d.installedVersion editor.packageName
  executors := d.query c.executorAction (some editor.packageName)

def candidates (d : Directory) (c : Category) (filter : Option String) : List Candidate :=
  (editors d c filter).map (candidate d c)

/-- The queries of a scan in the order in which they are made: actions with package filters. -/
def queries (d : Directory) (c : Category) (filter : Option String) :
    List (String × Option String) :=
  (c.editorAction, filter) ::
    (editors d c filter).map fun e => (c.executorAction, some e.packageName)

def diagnosticsOf (d : Directory) (c : Category) (k : Candidate) : List Diagnostic :=
  (k.findings d).map fun f => ⟨c, k.editor.packageName, k.editor.id, f⟩

/-- The plugins of a list of candidates, each under the name of its candidate; the last of equal
names wins. -/
def pluginsOf (d : Directory) (t : Characteristics) (c : Category) (ks : List Candidate) :
    PluginMap :=
  KeyMap.ofList (ks.filterMap fun k => (k.plugin? d t c).map fun p => (k.registryName, p))

end Scan

/-- Scans one category, all packages or one. -/
def scan (d : Directory) (t : Characteristics) (c : Category) (filter : Option String) :
    Report where
  plugins := Scan.pluginsOf d t c (Scan.candidates d c filter)
  diagnostics := (Scan.candidates d c filter).flatMap (Scan.diagnosticsOf d c)

def loadPlugins (d : Directory) (t : Characteristics) (c : Category) (filter : Option String) :
    PluginMap :=
  (scan d t c filter).plugins

def scanLog (d : Directory) (t : Characteristics) (c : Category) (filter : Option String) :
    List Log.Record :=
  (Scan.candidates d c filter).flatMap (Candidate.records d t c) ++
    [⟨.debug, "loaded plugin map",
      [("category", .text c.name), ("package", .text (filter.getD "*")),
       ("plugins", .number (loadPlugins d t c filter).size)]⟩]

end PluginRegistry
