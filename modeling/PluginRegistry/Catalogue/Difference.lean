import PluginRegistry.Catalogue.Changes
import PluginRegistry.Plugin.Basic

/-!
# Differences

Comparison of the full map of a category with a fresh scan of one package, and the ways of bringing
the map in line with it. The scan is the truth about the package.
-/

namespace PluginRegistry.PluginMap

/-- Whether a scan holds a key that the map lacks. -/
def isAdded (current scanned : PluginMap) : Bool :=
  scanned.any fun k _ => !current.contains k

/-- Whether the map holds an entry of a package that the scan lacks. -/
def isRemoved (current scanned : PluginMap) (package : String) : Bool :=
  current.any fun k p => p.packageName = package && !scanned.contains k

/-- Whether a scanned plugin has another version than the published one of its key. -/
def isVersionChanged (published scanned : PluginMap) : Bool :=
  scanned.any fun k p =>
    match published.get? k with
    | some old => old.version ≠ p.version
    | none => false

/-- Takes over every scanned entry, replacing those with equal keys. -/
def overwrite (current scanned : PluginMap) : PluginMap := current.merge scanned

/-- Takes over every scanned entry if one of them is new. -/
def mergeAdded (current scanned : PluginMap) : PluginMap × Bool :=
  if isAdded current scanned then (overwrite current scanned, true) else (current, false)

/-- Drops the entries of a package that the scan lacks. -/
def pruneRemoved (current scanned : PluginMap) (package : String) : PluginMap × Bool :=
  let kept := current.filter fun k p => p.packageName ≠ package || scanned.contains k
  (kept, kept.size ≠ current.size)

/-- Brings a map in line with a scan of a package that changed, and tells whether the map changed.
The published map, where one is given, is compared with the scan for other versions. -/
def follow (kind : ChangeKind) (package : String) (current scanned : PluginMap)
    (published : Option PluginMap) : PluginMap × Bool :=
  match kind with
  | .added => mergeAdded current scanned
  | .removed => pruneRemoved current scanned package
  | .changed =>
    let (pruned, removed) := pruneRemoved current scanned package
    let (merged, added) := mergeAdded pruned scanned
    let upgraded := published.any fun old => isVersionChanged old scanned
    (if upgraded then overwrite merged scanned else merged, removed || added || upgraded)

end PluginRegistry.PluginMap
