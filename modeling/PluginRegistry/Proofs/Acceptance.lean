import PluginRegistry.Proofs.ScanLocality

/-!
# What a scan accepts

The rules for plugins, said of a listing alone: what is found wrong with an editor (`Finds`) and what
an editor and its executor must be like (`Accepts`). Editors are visited in package order, those of
one package as they are listed (`InPackageOrder`). A scan has a plugin under a name just if the
listing has an accepted editor of that name, the last one visited, and reports everything that is
found (`scan_exact`).
-/

namespace PluginRegistry

/-- The components that are listed, in package order, those of one package as they are listed. -/
structure InPackageOrder (listed es : List Component) : Prop where
  sorted : es.Pairwise fun a b => a.packageName ≤ b.packageName
  stable : ∀ name, es.filter (fun e => e.packageName = name) =
    listed.filter fun e => e.packageName = name

theorem inPackageOrder_mergeSort (listed : List Component) :
    InPackageOrder listed (listed.mergeSort fun a b => a.packageName ≤ b.packageName) := by
  have trans : ∀ a b c : Component, decide (a.packageName ≤ b.packageName) = true →
      decide (b.packageName ≤ c.packageName) = true →
      decide (a.packageName ≤ c.packageName) = true := by
    intro a b c hab hbc
    exact decide_eq_true (String.le_trans (of_decide_eq_true hab) (of_decide_eq_true hbc))
  have total : ∀ a b : Component,
      (decide (a.packageName ≤ b.packageName) || decide (b.packageName ≤ a.packageName)) = true := by
    intro a b
    rw [Bool.or_eq_true, decide_eq_true_eq, decide_eq_true_eq]
    exact String.le_total a.packageName b.packageName
  refine ⟨(List.pairwise_mergeSort trans total listed).imp of_decide_eq_true, fun name => ?_⟩
  -- What is listed of one package is in order already, so sorting keeps it as a part.
  have ordered : (listed.filter fun e => e.packageName = name).Pairwise
      fun a b => decide (a.packageName ≤ b.packageName) = true := by
    apply List.pairwise_of_forall_mem_list
    intro a ha b hb
    have ha := of_decide_eq_true (List.mem_filter.1 ha).2
    have hb := of_decide_eq_true (List.mem_filter.1 hb).2
    exact decide_eq_true (ha.trans hb.symm ▸ String.le_refl _)
  have part := (List.sublist_mergeSort trans total ordered List.filter_sublist).filter
    fun e => decide (e.packageName = name)
  rw [List.filter_filter] at part
  simp only [Bool.and_self] at part
  exact (part.eq_of_length ((List.mergeSort_perm _ _).filter _).length_eq.symm).symm

namespace Listing

def editors (l : Listing) (c : Category) (filter : Option String) : List Component :=
  (l.entries.filter fun y => y.1 = c.editorAction ∧ ∀ p ∈ filter, y.2.packageName = p).map (·.2)

def executors (l : Listing) (c : Category) (package : String) : List Component :=
  (l.entries.filter fun y => y.1 = c.executorAction ∧ y.2.packageName = package).map (·.2)

/-- What is wrong with an editor or, if there is just one, with its executor. -/
def Finds (l : Listing) (c : Category) (e : Component) : Finding → Prop
  | .targetVersionOutdated => e.targetVersion < l.hostVersion
  | .installLocationBad => e.onRemovableStorage = true ∨ e.installLocation = some .auto ∨
      e.installLocation = some .preferExternal
  | .applicationNotEnabled => e.applicationEnabled = false
  | .editorNotEnabled => e.enabled = false
  | .editorNotExported => e.exported = false
  | .editorRequiresPermission => ∃ p, e.permission = some p ∧ p ∉ l.granted
  | .executorNotEnabled => ∃ x, l.executors c e.packageName = [x] ∧ x.enabled = false
  | .executorNotExported => ∃ x, l.executors c e.packageName = [x] ∧ x.exported = false
  | .executorRequiresPermission => ∃ x, l.executors c e.packageName = [x] ∧
      ∃ p, x.permission = some p ∧ p ∉ l.granted
  | .missingExecutor => l.executors c e.packageName = []
  | .duplicateExecutor => 1 < (l.executors c e.packageName).length

/-- What an editor and an executor must be like to make a plugin. -/
structure Accepts (l : Listing) (c : Category) (e x : Component) : Prop where
  applicationEnabled : e.applicationEnabled = true
  editorEnabled : e.enabled = true
  editorExported : e.exported = true
  editorPermitted : ∀ p ∈ e.permission, p ∈ l.granted
  notRemovable : e.onRemovableStorage = false
  notAuto : e.installLocation ≠ some .auto
  notPreferExternal : e.installLocation ≠ some .preferExternal
  only : l.executors c e.packageName = [x]
  executorEnabled : x.enabled = true
  executorExported : x.exported = true
  executorPermitted : ∀ p ∈ x.permission, p ∈ l.granted
  packageNamed : e.packageName ≠ ""
  editorNamed : e.id ≠ ""
  executorNamed : x.id ≠ ""

def plugin (l : Listing) (t : Characteristics) (c : Category) (e x : Component) : Plugin where
  category := c
  packageName := e.packageName
  editorComponent := e.id
  executorKind := x.kind
  executorComponent := x.id
  version := (l.versions.get? e.packageName).getD (-1)
  configuration := t.lookup c (registryName e.packageName e.id)

variable {l : Listing} {t : Characteristics} {c : Category} {e x : Component}

theorem mem_editors {filter : Option String} :
    e ∈ l.editors c filter ↔
      (c.editorAction, e) ∈ l.entries ∧ ∀ p ∈ filter, e.packageName = p := by
  simp [editors]

theorem query_editors (l : Listing) (c : Category) (filter : Option String) :
    l.directory.query c.editorAction filter = l.editors c filter := by
  cases filter with
  | none => simp [directory, editors, passes]
  | some p => simp [directory, editors, passes, eq_comm]

theorem query_executors (l : Listing) (c : Category) (package : String) :
    l.directory.query c.executorAction (some package) = l.executors c package := by
  simp [directory, executors, passes, eq_comm]

theorem reachable_eq_false_iff :
    e.reachable l.directory.granted = false ↔ ∃ p, e.permission = some p ∧ p ∉ l.granted := by
  unfold Component.reachable
  cases e.permission <;> simp [directory, NameSet.contains]

theorem staysInternal_eq_false_iff :
    e.staysInternal = false ↔ e.onRemovableStorage = true ∨
      e.installLocation = some .auto ∨ e.installLocation = some .preferExternal := by
  unfold Component.staysInternal
  cases e.onRemovableStorage <;> simp [or_iff_not_imp_left]

theorem applies_iff (f : Finding) :
    f.applies l.hostVersion l.directory.granted e (l.executors c e.packageName) = true ↔
      l.Finds c e f := by
  cases f with
  | targetVersionOutdated | applicationNotEnabled | editorNotEnabled | editorNotExported |
    missingExecutor | duplicateExecutor => simp [Finding.applies, Finds]
  | installLocationBad => simp [Finding.applies, Finds, staysInternal_eq_false_iff]
  | editorRequiresPermission => simp [Finding.applies, Finds, reachable_eq_false_iff]
  | executorNotEnabled | executorNotExported | executorRequiresPermission =>
    rcases h : l.executors c e.packageName with _ | ⟨x, _ | ⟨y, r⟩⟩ <;>
      simp [Finding.applies, Finds, h, reachable_eq_false_iff]

theorem mem_findings_iff {f : Finding} :
    f ∈ (Scan.candidate l.directory c e).findings l.directory ↔ l.Finds c e f := by
  rw [← applies_iff, ← query_executors]
  simp [Candidate.findings, findings, Scan.candidate, directory, f.mem_all]

/-- Accepted is what has one executor, nothing wrong with it but its target version, and names. -/
theorem accepts_iff :
    l.Accepts c e x ↔ l.executors c e.packageName = [x] ∧
      (∀ f, l.Finds c e f → f.fatal = false) ∧ (l.plugin t c e x).Named := by
  constructor
  · intro h
    refine ⟨h.only, fun f hf => ?_, h.packageNamed, h.editorNamed, h.executorNamed⟩
    cases f with
    | targetVersionOutdated => rfl
    | installLocationBad => simp [Finds, h.notRemovable, h.notAuto, h.notPreferExternal] at hf
    | applicationNotEnabled => simp [Finds, h.applicationEnabled] at hf
    | editorNotEnabled => simp [Finds, h.editorEnabled] at hf
    | editorNotExported => simp [Finds, h.editorExported] at hf
    | editorRequiresPermission =>
      obtain ⟨p, required, withheld⟩ := hf
      exact absurd (h.editorPermitted p required) withheld
    | executorNotEnabled => simp [Finds, h.only, h.executorEnabled] at hf
    | executorNotExported => simp [Finds, h.only, h.executorExported] at hf
    | executorRequiresPermission =>
      obtain ⟨x', only, p, required, withheld⟩ := hf
      rw [h.only] at only
      cases only
      exact absurd (h.executorPermitted p required) withheld
    | missingExecutor | duplicateExecutor => simp [Finds, h.only] at hf
  · rintro ⟨only, clean, packageNamed, editorNamed, executorNamed⟩
    have sound (f : Finding) (hf : f.fatal = true) : ¬l.Finds c e f := fun h =>
      absurd (clean f h) (by simp [hf])
    have internal := sound .installLocationBad rfl
    simp only [Finds, not_or] at internal
    exact {
      applicationEnabled := by simpa [Finds] using sound .applicationNotEnabled rfl
      editorEnabled := by simpa [Finds] using sound .editorNotEnabled rfl
      editorExported := by simpa [Finds] using sound .editorNotExported rfl
      editorPermitted := by simpa [Finds] using sound .editorRequiresPermission rfl
      notRemovable := by simpa using internal.1
      notAuto := internal.2.1
      notPreferExternal := internal.2.2
      only
      executorEnabled := by simpa [Finds, only] using sound .executorNotEnabled rfl
      executorExported := by simpa [Finds, only] using sound .executorNotExported rfl
      executorPermitted := by simpa [Finds, only] using sound .executorRequiresPermission rfl
      packageNamed, editorNamed, executorNamed }

theorem rejected_eq_false_iff :
    (Scan.candidate l.directory c e).rejected l.directory = false ↔
      ∀ f, l.Finds c e f → f.fatal = false := by
  simp [Candidate.rejected, mem_findings_iff]

theorem plugin?_candidate {p : Plugin} :
    (Scan.candidate l.directory c e).plugin? l.directory t c = some p ↔
      ∃ x, l.Accepts c e x ∧ p = l.plugin t c e x := by
  rw [Scan.plugin?_eq_some_iff, rejected_eq_false_iff]
  have made (x : Component) :
      (Scan.candidate l.directory c e).pluginWith t c x = l.plugin t c e x := rfl
  have listed : (Scan.candidate l.directory c e).executors = l.executors c e.packageName :=
    query_executors l c e.packageName
  simp only [made, listed]
  constructor
  · rintro ⟨clean, x, first, rfl, named⟩
    refine ⟨x, accepts_iff.2 ⟨?_, clean, named⟩, rfl⟩
    obtain ⟨y, only⟩ := Candidate.exists_executor (rejected_eq_false_iff.2 clean)
    rw [listed] at only
    simpa [only] using first
  · rintro ⟨x, accepted, rfl⟩
    obtain ⟨only, clean, named⟩ := accepts_iff.1 accepted
    exact ⟨clean, x, by simp [only], rfl, named⟩

theorem editors_directory (l : Listing) (c : Category) (filter : Option String) :
    Scan.editors l.directory c filter =
      (l.editors c filter).mergeSort fun a b => a.packageName ≤ b.packageName := by
  rw [Scan.editors, query_editors]

theorem get?_loadPlugins_iff {filter : Option String} {k : String} {p : Plugin} :
    (loadPlugins l.directory t c filter).get? k = some p ↔
      ∃ before e after x, Scan.editors l.directory c filter = before ++ e :: after ∧
        registryName e.packageName e.id = k ∧ l.Accepts c e x ∧ p = l.plugin t c e x ∧
        ∀ e' ∈ after, registryName e'.packageName e'.id = k → ∀ x', ¬l.Accepts c e' x' := by
  rw [Scan.get?_loadPlugins_iff]
  constructor
  · rintro ⟨before, e, after, visited, made, hk, last⟩
    obtain ⟨x, accepted, rfl⟩ := plugin?_candidate.1 made
    refine ⟨before, e, after, x, visited, hk, accepted, rfl, fun e' he' hk' x' accepted' => ?_⟩
    exact last e' he' _ (plugin?_candidate.2 ⟨x', accepted', rfl⟩) hk'
  · rintro ⟨before, e, after, x, visited, hk, accepted, rfl, last⟩
    refine ⟨before, e, after, visited, plugin?_candidate.2 ⟨x, accepted, rfl⟩, hk, ?_⟩
    intro e' he' q made hk'
    obtain ⟨x', accepted', rfl⟩ := plugin?_candidate.1 made
    exact last e' he' hk' x' accepted'

theorem contains_loadPlugins_iff {filter : Option String} {k : String} :
    (loadPlugins l.directory t c filter).contains k = true ↔
      ∃ e ∈ l.editors c filter, registryName e.packageName e.id = k ∧ ∃ x, l.Accepts c e x := by
  rw [loadPlugins, scan, Scan.contains_pluginsOf, Scan.candidates, editors_directory]
  constructor
  · rintro ⟨_, hy, p, made, hk⟩
    obtain ⟨e, he, rfl⟩ := List.mem_map.1 hy
    obtain ⟨x, accepted, rfl⟩ := plugin?_candidate.1 made
    exact ⟨e, List.mem_mergeSort.1 he, hk, x, accepted⟩
  · rintro ⟨e, he, hk, x, accepted⟩
    exact ⟨_, List.mem_map_of_mem (List.mem_mergeSort.2 he), _,
      plugin?_candidate.2 ⟨x, accepted, rfl⟩, hk⟩

theorem diagnostics_eq (l : Listing) (t : Characteristics) (c : Category)
    (filter : Option String) :
    (scan l.directory t c filter).diagnostics =
      (Scan.editors l.directory c filter).flatMap fun e =>
        ((Scan.candidate l.directory c e).findings l.directory).map fun f =>
          ⟨c, e.packageName, e.id, f⟩ :=
  Scan.diagnostics_eq l.directory t c filter

/-- A scan of a listing has a plugin under just those names that belong to an editor which the
filter lets pass and the rules accept: the plugin of the last one in package order, run by the only
executor of its package. It reports, editor by editor and in the order of the rules, everything that
is wrong. -/
theorem scan_exact (l : Listing) (t : Characteristics) (c : Category) (filter : Option String) :
    (∀ k, (scan l.directory t c filter).plugins.contains k = true ↔
      ∃ e x, (c.editorAction, e) ∈ l.entries ∧ (∀ p ∈ filter, e.packageName = p) ∧
        registryName e.packageName e.id = k ∧ l.Accepts c e x) ∧
    ∃ es, InPackageOrder (l.editors c filter) es ∧
      (∀ k p, (scan l.directory t c filter).plugins.get? k = some p ↔
        ∃ before e after x, es = before ++ e :: after ∧
          registryName e.packageName e.id = k ∧ l.Accepts c e x ∧ p = l.plugin t c e x ∧
          ∀ e' ∈ after, registryName e'.packageName e'.id = k → ∀ x', ¬l.Accepts c e' x') ∧
      ∃ found : Component → List Finding,
        (∀ e, (found e).Sublist Finding.all ∧ ∀ f, f ∈ found e ↔ l.Finds c e f) ∧
        (scan l.directory t c filter).diagnostics =
          es.flatMap fun e => (found e).map fun f => ⟨c, e.packageName, e.id, f⟩ := by
  refine ⟨fun k => ?_, Scan.editors l.directory c filter, ?_, fun k p => get?_loadPlugins_iff,
    fun e => (Scan.candidate l.directory c e).findings l.directory, fun e => ⟨?_, fun f => ?_⟩,
    diagnostics_eq l t c filter⟩
  · refine contains_loadPlugins_iff.trans ?_
    constructor
    · rintro ⟨e, he, hk, x, accepted⟩
      obtain ⟨listed, passed⟩ := mem_editors.1 he
      exact ⟨e, x, listed, passed, hk, accepted⟩
    · rintro ⟨e, x, listed, passed, hk, accepted⟩
      exact ⟨e, mem_editors.2 ⟨listed, passed⟩, hk, x, accepted⟩
  · rw [editors_directory]
    exact inPackageOrder_mergeSort _
  · exact List.filter_sublist
  · exact mem_findings_iff

end Listing

end PluginRegistry
