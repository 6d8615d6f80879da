import PluginRegistry.Catalogue.Difference
import PluginRegistry.Catalogue.Published
import PluginRegistry.Scan.Report

/-!
# The catalogue

A catalogue holds a working map and the latest snapshot of each category. It is loaded by full scans
and then follows the changes of single packages by scanning those packages again; a category whose
working map changed is published anew.
-/

namespace PluginRegistry

/-- Working maps and published snapshots. -/
structure Catalogue where
  working : ByCategory PluginMap
  published : Published
  deriving DecidableEq

namespace Catalogue

def empty : Catalogue := ⟨.both ∅, .none⟩

instance : Inhabited Catalogue := ⟨empty⟩

def publishOne (k : Catalogue) (c : Category) : Catalogue :=
  { k with published := k.published.publish c (k.working.get c) }

def publish (k : Catalogue) (marks : Changes) : Catalogue :=
  Category.all.foldl (fun k c => if marks.get c then k.publishOne c else k) k

def load (d : Directory) (t : Characteristics) (k : Catalogue) (c : Category) : Catalogue :=
  { k with working := k.working.set c (loadPlugins d t c none) }

def loadAll (d : Directory) (t : Characteristics) (k : Catalogue) : Catalogue :=
  ((k.load d t .condition).load d t .setting).publish .all

def clear (k : Catalogue) : Catalogue := { k with working := .both ∅ }

def reset (k : Catalogue) : Catalogue := k.clear.publish .all

/-- Brings the working map of one category in line with a changed package, and tells whether it
changed. Only a category that relaunches on upgrade looks at its snapshot for other versions. -/
def follow (d : Directory) (t : Characteristics) (x : PackageChange) (k : Catalogue)
    (c : Category) : Catalogue × Bool :=
  let scanned := loadPlugins d t c (some x.package)
  let published := if c.relaunchesOnUpgrade then k.published.plugins? c else none
  let (m, changed) := PluginMap.follow x.kind x.package (k.working.get c) scanned published
  ({ k with working := k.working.set c m }, changed)

/-- Brings both working maps in line with a changed package and publishes those that changed. -/
def apply (d : Directory) (t : Characteristics) (x : PackageChange) (k : Catalogue) :
    Catalogue × Changes :=
  let (k, condition) := k.follow d t x .condition
  let (k, setting) := k.follow d t x .setting
  (k.publish ⟨condition, setting⟩, ⟨condition, setting⟩)

def sizeOf (k : Catalogue) (c : Category) : Nat := (k.working.get c).size

/-- A short description: the sizes of the working maps. -/
def describe (k : Catalogue) : String :=
  "RegistryCore \x7b conditions: " ++ toString (k.sizeOf .condition) ++ ", settings: " ++
    toString (k.sizeOf .setting) ++ ", .. \x7d"

def publishLog (k : Catalogue) (marks : Changes) : List Log.Record :=
  (Category.all.filter marks.get).map fun c => Published.record c (k.working.get c)

def loadAllLog (d : Directory) (t : Characteristics) (k : Catalogue) : List Log.Record :=
  Category.all.flatMap (scanLog d t · none) ++ (k.loadAll d t).publishLog .all

def resetLog (k : Catalogue) : List Log.Record := k.reset.publishLog .all

def applyLog (d : Directory) (t : Characteristics) (x : PackageChange) (k : Catalogue) :
    List Log.Record :=
  let (after, marks) := k.apply d t x
  (Category.all.flatMap fun c =>
    scanLog d t c (some x.package) ++
      [⟨.debug, "registry.diff",
        [("category", .text c.name), ("package", .text x.package),
          ("changed", .flag (marks.get c))]⟩]) ++
    after.publishLog marks

end Catalogue

end PluginRegistry
