import PluginRegistry.Proofs.Acceptance
import PluginRegistry.Proofs.PackageIsolation
import Mathlib.Data.String.Basic

/-!
# What becomes of a candidate

A candidate is rejected with a fatal finding, or skipped because a name is empty, or it makes a
plugin (`Candidate.fate`). A plugin stays in the map unless a package that is visited later brings
one under the same key (`held_or_displaced`). So every editor that a directory lists leaves a trace
in the report or in the log (`traced_of_query`). The report alone does not show all of them
(`candidates_lost`).
-/

namespace PluginRegistry

/-- A package whose name goes on after a colon is visited later. -/
theorem not_append_colon_le (package rest : String) : ¬package ++ ":" ++ rest ≤ package := by
  intro h
  have h' : ¬package ++ ":" ++ rest < package := by
    rw [String.append_assoc, String.lt_iff, String.toList_append]
    exact List.not_lt.2 List.le_append_left
  have he := congrArg String.toList (String.le_antisymm h (String.not_lt.1 h'))
  simp at he

theorem editor_of_registryName_append {package rest editor editor' : String}
    (h : registryName package editor = registryName (package ++ ":" ++ rest) editor') :
    editor = rest ++ ":" ++ editor' := by
  simpa [registryName, String.append_assoc] using h

/-- Rejected, or made a plugin by the only executor, unless a name is empty. -/
theorem Candidate.fate (d : Directory) (t : Characteristics) (c : Category) (k : Candidate) :
    k.rejected d = true ∨
      ∃ x, k.executors = [x] ∧ k.outcome? d t c = some (k.pluginWith t c x).create := by
  cases h : k.rejected d with
  | true => exact Or.inl rfl
  | false =>
    obtain ⟨x, hx⟩ := exists_executor h
    exact Or.inr ⟨x, hx, by simp [outcome?, h, hx]⟩

def Report.Holds (r : Report) (e : Component) : Prop :=
  ∃ key p, r.plugins.get? key = some p ∧ p.packageName = e.packageName ∧ p.editorComponent = e.id

def Report.Faults (r : Report) (e : Component) : Prop :=
  ∃ g ∈ r.diagnostics, g.packageName = e.packageName ∧ g.component = e.id ∧ g.finding.fatal = true

/-- Under the registry name of an editor stands the plugin of a package with a longer name, which
splits the registry name at a later colon. -/
def Report.Displaces (r : Report) (e : Component) : Prop :=
  ∃ p rest, r.plugins.get? (registryName e.packageName e.id) = some p ∧
    p.packageName = e.packageName ++ ":" ++ rest ∧ e.id = rest ++ ":" ++ p.editorComponent

instance (r : Report) (e : Component) : Decidable (r.Holds e) :=
  decidable_of_iff
    (∃ x ∈ r.plugins.entries, x.2.packageName = e.packageName ∧ x.2.editorComponent = e.id) <| by
      simp only [Report.Holds, ← KeyMap.mem_entries_iff, Prod.exists]

instance (r : Report) (e : Component) : Decidable (r.Faults e) :=
  inferInstanceAs (Decidable (∃ g ∈ r.diagnostics, _))

namespace Scan

/-- Whether an editor, or the only executor of its package, lacks a name that a plugin needs. -/
def Lacks (d : Directory) (c : Category) (e : Component) : Plugin.EmptyName → Prop
  | .package => e.packageName = ""
  | .editor => e.id = ""
  | .executor => ∃ x, d.query c.executorAction (some e.packageName) = [x] ∧ x.id = ""

/-- The warning about an editor that makes no plugin because a name is empty. -/
def skipped (c : Category) (e : Component) (n : Plugin.EmptyName) : Log.Record :=
  ⟨.warn, "skipping malformed plugin candidate",
    [("category", .text c.name), ("package", .text e.packageName), ("error", .text n.message)]⟩

variable {d : Directory} {t : Characteristics} {c : Category} {filter : Option String}
  {e : Component}

theorem mem_editors : e ∈ editors d c filter ↔ e ∈ d.query c.editorAction filter :=
  List.mem_mergeSort

theorem mem_candidates (h : e ∈ d.query c.editorAction filter) :
    candidate d c e ∈ candidates d c filter :=
  List.mem_map_of_mem (mem_editors.2 h)

theorem faults_of_rejected (h : e ∈ d.query c.editorAction filter)
    (rejected : (candidate d c e).rejected d = true) : (scan d t c filter).Faults e := by
  obtain ⟨f, found, fatal⟩ := List.any_eq_true.1 rejected
  refine ⟨⟨c, e.packageName, e.id, f⟩, ?_, rfl, rfl, fatal⟩
  exact List.mem_flatMap.2 ⟨_, mem_candidates h, List.mem_map_of_mem found⟩

theorem skipped_of_outcome (h : e ∈ d.query c.editorAction filter) {n : Plugin.EmptyName}
    (error : (candidate d c e).outcome? d t c = some (.error n)) :
    skipped c e n ∈ scanLog d t c filter := by
  have logged : skipped c e n ∈ (candidate d c e).records d t c := by
    rw [Candidate.records, error]
    exact List.mem_append_right _ (List.mem_singleton_self _)
  exact List.mem_append_left _ (List.mem_flatMap.2 ⟨_, mem_candidates h, logged⟩)

theorem lacks_of_emptyName? {x : Component} {n : Plugin.EmptyName}
    (only : (candidate d c e).executors = [x])
    (h : ((candidate d c e).pluginWith t c x).emptyName? = some n) : Lacks d c e n := by
  unfold Plugin.emptyName? at h
  split at h
  · next he => cases h; exact he
  · split at h
    · next he => cases h; exact he
    · split at h
      · next he => cases h; exact ⟨x, only, he⟩
      · cases h

/-- The plugin that an editor makes stays in the map, unless a package visited later brings one
under the same key. -/
theorem held_or_displaced (h : e ∈ d.query c.editorAction filter) {p : Plugin}
    (made : (candidate d c e).plugin? d t c = some p) :
    (scan d t c filter).Holds e ∨ (scan d t c filter).Displaces e := by
  have named := registryName_of_plugin? made
  have contained : (loadPlugins d t c filter).contains (registryName e.packageName e.id) = true :=
    contains_pluginsOf.2 ⟨_, mem_candidates h, p, made, named⟩
  obtain ⟨q, hq⟩ := Option.isSome_iff_exists.1 contained
  obtain ⟨before, e', after, visited, made', named', last⟩ := get?_loadPlugins_iff.1 hq
  have hp : q.packageName = e'.packageName := packageName_of_plugin? made'
  have he : q.editorComponent = e'.id := editorComponent_of_plugin? made'
  have hk : registryName e.packageName e.id = registryName e'.packageName e'.id := by
    rw [← named', Plugin.registryName, hp, he]
  by_cases same : e.packageName = e'.packageName
  · have hid : e.id = e'.id := by simpa [registryName, same] using hk
    exact Or.inl ⟨_, q, hq, hp.trans same.symm, he.trans hid.symm⟩
  -- Nothing of that name comes after the last editor, so this one comes before it.
  have earlier : e ∈ before := by
    have met : e ∈ before ++ e' :: after := visited ▸ mem_editors.2 h
    rcases List.mem_append.1 met with met | met
    · exact met
    rcases List.mem_cons.1 met with rfl | met
    · exact absurd rfl same
    · exact absurd named (last e met p made)
  have order : e.packageName ≤ e'.packageName := by
    have sorted := (inPackageOrder_mergeSort (d.query c.editorAction filter)).sorted
    rw [← editors, visited] at sorted
    exact (List.pairwise_append.1 sorted).2.2 e earlier e' (by simp)
  rcases registryName_collides hk same with ⟨rest, longer⟩ | ⟨rest, longer⟩
  · rw [longer] at hk hp
    exact Or.inr ⟨q, rest, hq, hp, he ▸ editor_of_registryName_append hk⟩
  · exact absurd (longer ▸ order) (not_append_colon_le _ rest)

/-- Every editor that the directory lists has an entry or a fatal finding, or a name is missing and
the log says so, or the plugin of a package visited later stands under its registry name. -/
theorem traced_of_query (h : e ∈ d.query c.editorAction filter) :
    (scan d t c filter).Holds e ∨ (scan d t c filter).Faults e ∨
      (∃ n, Lacks d c e n ∧ skipped c e n ∈ scanLog d t c filter) ∨
      (scan d t c filter).Displaces e := by
  rcases (candidate d c e).fate d t c with rejected | ⟨x, only, outcome⟩
  · exact Or.inr (Or.inl (faults_of_rejected h rejected))
  · cases hn : ((candidate d c e).pluginWith t c x).emptyName? with
    | some n =>
      rw [Plugin.create, hn] at outcome
      exact Or.inr (Or.inr (Or.inl ⟨n, lacks_of_emptyName? only hn, skipped_of_outcome h outcome⟩))
    | none =>
      rw [Plugin.create, hn] at outcome
      have made : (candidate d c e).plugin? d t c = some ((candidate d c e).pluginWith t c x) := by
        rw [Candidate.plugin?, outcome]
        rfl
      rcases held_or_displaced h made with held | displaced
      · exact Or.inl held
      · exact Or.inr (Or.inr (Or.inr displaced))

end Scan

/-- Beside two packages that share a registry name there is one whose executor has an empty id. -/
def Installation.crowded : Installation :=
  rivalled.install ((Package.bare "mute" 1).withPlugin .condition "Edit" "")

def Package.editor (name id : String) : Component :=
  (bare name 1).component (.simple id .activity Category.condition.editorAction)

namespace Scan

theorem traced_of_query_crowded :
    let d := Installation.crowded.directory
    Package.editor "a" "b:c" ∈ d.query Category.condition.editorAction none ∧
      (scan d ∅ .condition none).Displaces (Package.editor "a" "b:c") := by
  intro d
  have listed : Package.editor "a" "b:c" ∈ d.query Category.condition.editorAction none := by
    decide +kernel
  have lost : ¬(scan d ∅ .condition none).Holds (Package.editor "a" "b:c") ∧
      ¬(scan d ∅ .condition none).Faults (Package.editor "a" "b:c") := by
    simp only [scan, d, candidates_directory]
    decide +kernel
  refine ⟨listed, ?_⟩
  rcases traced_of_query (t := ∅) listed with held | faulted | ⟨n, lacks, -⟩ | displaced
  · exact absurd held lost.1
  · exact absurd faulted lost.2
  · cases n with
    | package => exact absurd (show "a" = "" from lacks) (by decide)
    | editor => exact absurd (show "b:c" = "" from lacks) (by decide)
    | executor =>
      obtain ⟨x, only, unnamed⟩ := lacks
      have names : (d.query Category.condition.executorAction (some "a")).map Component.id =
          ["Query"] := by decide +kernel
      rw [show d.query _ (some "a") = [x] from only] at names
      simp [unnamed] at names
  · exact displaced

theorem candidates_lost :
    let d := Installation.crowded.directory
    let r := scan d ∅ .condition none
    ∀ e ∈ [Package.editor "mute" "Edit", Package.editor "a" "b:c"],
      e ∈ d.query Category.condition.editorAction none ∧ ¬r.Holds e ∧ ¬r.Faults e := by
  simp only [scan, candidates_directory]
  decide +kernel

end Scan

end PluginRegistry
