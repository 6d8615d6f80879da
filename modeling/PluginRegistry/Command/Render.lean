import PluginRegistry.Document.Json
import PluginRegistry.Plugin.Document
import PluginRegistry.Scan.Report
import PluginRegistry.Settings

/-!
# Rendering

Plugins and diagnostics as lines of text or as JSON. The plugins of a category come in any order and
are put into the order of their registry names.
-/

namespace PluginRegistry.Command

open Document

/-- The plugins of a category in any order. -/
structure Roster where
  category : Category
  plugins : List Plugin

def Roster.ofMap (c : Category) (m : PluginMap) : Roster := ⟨c, m.values⟩

/-- The plugins in the order of their registry names. -/
def Roster.sorted (r : Roster) : List Plugin :=
  r.plugins.mergeSort fun p q => p.registryName ≤ q.registryName

def flagsText (s : Flags) : String :=
  match Flag.all.filter s.has with
  | [] => ""
  | fs => " [" ++ ", ".intercalate (fs.map Flag.label) ++ "]"

def pluginLine (p : Plugin) : String :=
  "  " ++ p.registryName ++ " v" ++ toString p.version.toInt ++ " -> " ++ p.executorKind.name ++
    " " ++ p.executorComponent ++ flagsText p.configuration.flags ++ "\n"

/-- The header of a category and a line for each plugin. -/
def Roster.text (r : Roster) : String :=
  r.category.name ++ ": " ++ toString r.plugins.length ++ " plugin(s)\n" ++
    String.join (r.sorted.map pluginLine)

def Roster.json (r : Roster) : Value :=
  .ofFields (r.sorted.map fun p => (p.registryName, p.toDocument))

def diagnosticLine (d : Diagnostic) : String :=
  "  " ++ (if d.finding.fatal then "rejected" else "warning") ++ ": " ++ d.packageName ++ " (" ++
    d.component ++ "): " ++ d.finding.name ++ "\n"

def diagnosticJson (d : Diagnostic) : Value :=
  .mapping [
    ("component", .text d.component),
    ("error", .text d.finding.name),
    ("explanation", .text d.finding.explanation),
    ("fatal", .boolean d.finding.fatal),
    ("package", .text d.packageName)]

/-- What a scan found in one category. -/
structure Findings where
  roster : Roster
  diagnostics : List Diagnostic

def Findings.ofReport (c : Category) (r : Report) : Findings := ⟨.ofMap c r.plugins, r.diagnostics⟩

def Findings.text (f : Findings) : String :=
  f.roster.text ++ String.join (f.diagnostics.map diagnosticLine)

def Findings.json (f : Findings) : Value :=
  .mapping [
    ("diagnostics", .sequence (f.diagnostics.map diagnosticJson)), ("plugins", f.roster.json)]

def scanText (fs : List Findings) : String := String.join (fs.map Findings.text)

def scanJson (fs : List Findings) : String :=
  Json.render (.ofFields (fs.map fun f => (f.roster.category.name, f.json)))

def renderScan (json : Bool) (fs : List Findings) : String :=
  if json then scanJson fs else scanText fs

def registryText (c : Channel) (rs : List Roster) : String :=
  "change action: " ++ c.action ++ "\n" ++ "permission: " ++ c.permission ++ "\n" ++
    String.join (rs.map Roster.text)

def registryJson (c : Channel) (rs : List Roster) : String :=
  Json.render (.mapping [
    ("channel", .mapping [("action", .text c.action), ("permission", .text c.permission)]),
    ("plugins", .ofFields (rs.map fun r => (r.category.name, r.json)))])

def renderRegistry (json : Bool) (c : Channel) (rs : List Roster) : String :=
  if json then registryJson c rs else registryText c rs

end PluginRegistry.Command
