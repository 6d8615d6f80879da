import PluginRegistry.Proofs.CandidateFates
import Mathlib.Data.List.Flatten
import Mathlib.Data.List.Nodup
import Mathlib.Data.List.Perm.Basic

/-!
# Scans compared

Two scans that differ in one thing. The scan of one package is a part of the full scan
(`scan_package`). The order in which a directory lists components decides only in which order the
findings about a package are told (`scan_reordered`). The host version decides about advice alone,
and further permissions take findings away and no plugin name (`scan_of_host_and_grants`).
-/

namespace PluginRegistry

/-- The diagnostics about a candidate bear the name of its package. -/
theorem filter_diagnosticsOf (d : Directory) (c : Category) (k : Candidate) (package : String) :
    (Scan.diagnosticsOf d c k).filter (fun g => g.packageName = package) =
      if k.editor.packageName = package then Scan.diagnosticsOf d c k else [] := by
  by_cases h : k.editor.packageName = package <;> simp [Scan.diagnosticsOf, h]

theorem filter_flatMap_diagnosticsOf (d : Directory) (c : Category) (ks : List Candidate)
    (package : String) :
    (ks.flatMap (Scan.diagnosticsOf d c)).filter (fun g => g.packageName = package) =
      (ks.filter fun k => k.editor.packageName = package).flatMap (Scan.diagnosticsOf d c) := by
  induction ks with
  | nil => rfl
  | cons k ks ih =>
    rw [List.flatMap_cons, List.filter_append, ih, filter_diagnosticsOf, List.filter_cons]
    by_cases h : k.editor.packageName = package <;> simp [h]

/-- The scan of a package reports what the full scan reports about that package, in the same order.
Where no package name has a colon, its plugins are those that the full scan has of the package. -/
theorem scan_package (i : Installation) (t : Characteristics) (c : Category) (package : String) :
    (scan i.directory t c (some package)).diagnostics =
        ((scan i.directory t c none).diagnostics.filter fun g => g.packageName = package) ∧
      (i.Plain → (scan i.directory t c (some package)).plugins =
        (scan i.directory t c none).plugins.filter fun _ p => p.packageName = package) := by
  constructor
  · rw [scan, scan, filter_flatMap_diagnosticsOf, candidates_package]
  · intro plain
    apply KeyMap.ext_get?
    intro key
    rw [KeyMap.get?_filter]
    exact get?_loadPlugins_package plain package key

def Installation.aged : Installation :=
  ((bare 21).install (.meter 1)).install
    ((Package.bare "clock" 2).withPlugin .condition "Edit" "Query")

theorem Installation.plain_aged : aged.Plain := by
  apply ((plain_bare 21).install (Package.plainName_meter 1)).install
  change ':' ∉ "clock".toList
  decide

theorem scan_package_aged :
    let d := Installation.aged.directory
    Installation.aged.Plain ∧
      (scan d ∅ .condition none).diagnostics.map Diagnostic.packageName = ["clock", "meter"] ∧
      (scan d ∅ .condition none).plugins.keys = ["clock:Edit", "meter:Edit"] ∧
      (scan d ∅ .condition (some "meter")).diagnostics.map Diagnostic.packageName = ["meter"] ∧
      (scan d ∅ .condition (some "meter")).plugins.keys = ["meter:Edit"] := by
  intro d
  obtain ⟨diagnostics, plugins⟩ := scan_package Installation.aged ∅ .condition "meter"
  rw [diagnostics, plugins Installation.plain_aged]
  refine ⟨Installation.plain_aged, ?_⟩
  simp only [d, scan, candidates_directory]
  decide +kernel

/-- Entries under different keys make the same map in any order. -/
theorem KeyMap.ofList_perm {α : Type} {l l' : List (String × α)} (h : l.Perm l')
    (distinct : (l.map (·.1)).Nodup) : ofList l = ofList l' := by
  have insert_insert (m : KeyMap α) {a b : String × α} (hab : a.1 ≠ b.1) :
      (m.insert a.1 a.2).insert b.1 b.2 = (m.insert b.1 b.2).insert a.1 a.2 := by
    apply ext_get?
    intro k
    by_cases ha : a.1 = k
    · simp [ha, show b.1 ≠ k from fun hb => hab (ha.trans hb.symm)]
    · simp [ha]
  apply h.foldl_eq'
  intro a ha b hb m
  by_cases hab : a.1 = b.1
  · rw [List.inj_on_of_nodup_map distinct ha hb hab]
  · exact insert_insert m hab

/-- Directories that answer alike but for the order in which they list components. -/
structure Directory.Reordered (d d' : Directory) : Prop where
  query : ∀ action filter, (d.query action filter).Perm (d'.query action filter)
  installedVersion : d.installedVersion = d'.installedVersion
  hostVersion : d.hostVersion = d'.hostVersion
  granted : d.granted = d'.granted

theorem Listing.reordered (l : Listing) {entries : List (String × Component)}
    (h : l.entries.Perm entries) :
    Directory.Reordered l.directory { l with entries : Listing }.directory where
  query _ _ := (h.filter _).map _
  installedVersion := rfl
  hostVersion := rfl
  granted := rfl

/-- The rules look at an executor only where it is the only one. -/
theorem Finding.applies_perm {host : Int32} {granted : String → Bool} {e : Component}
    {xs ys : List Component} (h : xs.Perm ys) (f : Finding) :
    f.applies host granted e xs = f.applies host granted e ys := by
  rcases xs with _ | ⟨x, _ | ⟨x', r⟩⟩
  · rw [List.nil_perm.1 h]
  · rw [← List.singleton_perm.1 h]
  · rcases ys with _ | ⟨y, _ | ⟨y', s⟩⟩
    · exact absurd h.length_eq (by simp)
    · exact absurd h.length_eq (by simp)
    · cases f <;> simp [Finding.applies]

namespace Scan

theorem editors_perm (d : Directory) (c : Category) (filter : Option String) :
    (editors d c filter).Perm (d.query c.editorAction filter) :=
  List.mergeSort_perm _ _

/-- The diagnostics come in package order. -/
theorem pairwise_diagnostics (d : Directory) (t : Characteristics) (c : Category)
    (filter : Option String) :
    (scan d t c filter).diagnostics.Pairwise fun g g' => g.packageName ≤ g'.packageName := by
  have named {e : Component} {g : Diagnostic} (hg : g ∈ diagnosticsOf d c (candidate d c e)) :
      g.packageName = e.packageName := by
    obtain ⟨f, -, rfl⟩ := List.mem_map.1 hg
    rfl
  rw [diagnostics_eq, List.pairwise_flatMap]
  constructor
  · intro e _
    apply List.pairwise_of_forall_mem_list
    intro g hg g' hg'
    rw [named hg, named hg']
  · apply (inPackageOrder_mergeSort (d.query c.editorAction filter)).sorted.imp
    intro e e' order g hg g' hg'
    rwa [named hg, named hg']

/-- Editors with different registry names make plugins under different keys. -/
theorem nodup_keys (d : Directory) (t : Characteristics) (c : Category) {es : List Component}
    (distinct : (es.map fun e => registryName e.packageName e.id).Nodup) :
    ((es.filterMap fun e =>
      ((candidate d c e).plugin? d t c).map fun p => (p.registryName, p)).map (·.1)).Nodup := by
  have key {e : Component} {k : String} (h : (((candidate d c e).plugin? d t c).map
      fun p => (p.registryName, p)).map (·.1) = some k) :
      registryName e.packageName e.id = k := by
    rw [Option.map_map, Option.map_eq_some_iff] at h
    obtain ⟨p, made, rfl⟩ := h
    exact (registryName_of_plugin? made).symm
  rw [List.map_filterMap, List.Nodup, List.pairwise_filterMap]
  apply (List.pairwise_map.1 distinct).imp
  intro e e' hne k hk k' hk'
  rwa [← key hk, ← key hk']

end Scan

namespace Directory.Reordered

variable {d d' : Directory}

theorem editors (h : d.Reordered d') (c : Category) (filter : Option String) :
    (Scan.editors d c filter).Perm (Scan.editors d' c filter) :=
  (Scan.editors_perm d c filter).trans
    ((h.query c.editorAction filter).trans (Scan.editors_perm d' c filter).symm)

theorem findings (h : d.Reordered d') (c : Category) (e : Component) :
    (Scan.candidate d c e).findings d = (Scan.candidate d' c e).findings d' := by
  rw [Candidate.findings, Candidate.findings, PluginRegistry.findings, PluginRegistry.findings,
    h.hostVersion, h.granted]
  exact List.filter_congr fun f _ => f.applies_perm (h.query _ _)

theorem plugin? (h : d.Reordered d') (t : Characteristics) (c : Category) (e : Component) :
    (Scan.candidate d c e).plugin? d t c = (Scan.candidate d' c e).plugin? d' t c := by
  have rejected : (Scan.candidate d c e).rejected d = (Scan.candidate d' c e).rejected d' := by
    rw [Candidate.rejected, Candidate.rejected, h.findings]
  cases hr : (Scan.candidate d c e).rejected d with
  | true =>
    have hr' := rejected.symm.trans hr
    simp [Candidate.plugin?, Candidate.outcome?, hr, hr']
  | false =>
    -- An editor that is not rejected has one executor, which leaves nothing to reorder.
    obtain ⟨x, hx⟩ := Candidate.exists_executor hr
    have only : d.query c.executorAction (some e.packageName) = [x] := hx
    have only' : d'.query c.executorAction (some e.packageName) = [x] := by
      have := h.query c.executorAction (some e.packageName)
      rw [only] at this
      exact (List.singleton_perm.1 this).symm
    have same : Scan.candidate d c e = Scan.candidate d' c e := by
      rw [Scan.candidate, Scan.candidate, only, only', h.installedVersion]
    rw [same]
    exact Scan.plugin?_congr h.hostVersion h.granted _

theorem diagnostics (h : d.Reordered d') (t : Characteristics) (c : Category)
    (filter : Option String) :
    (scan d t c filter).diagnostics.Perm (scan d' t c filter).diagnostics := by
  rw [Scan.diagnostics_eq, Scan.diagnostics_eq]
  apply (h.editors c filter).flatMap
  intro e _
  rw [Scan.diagnosticsOf, Scan.diagnosticsOf, h.findings]
  rfl

end Directory.Reordered

/-- A directory that lists its components in another order has the same findings, package by package
in the same order, and the same plugins, if no two of the editors share a registry name. -/
theorem scan_reordered {d d' : Directory} (h : d.Reordered d') (t : Characteristics) (c : Category)
    (filter : Option String) :
    (scan d t c filter).diagnostics.Perm (scan d' t c filter).diagnostics ∧
      (scan d t c filter).diagnostics.map Diagnostic.packageName =
        (scan d' t c filter).diagnostics.map Diagnostic.packageName ∧
      (((d.query c.editorAction filter).map fun e => registryName e.packageName e.id).Nodup →
        (scan d t c filter).plugins = (scan d' t c filter).plugins) := by
  refine ⟨h.diagnostics t c filter, ?_, fun distinct => ?_⟩
  · apply ((h.diagnostics t c filter).map _).eq_of_pairwise
    · intro a b _ _ hab hba
      exact String.le_antisymm hab hba
    · exact List.pairwise_map.2 (Scan.pairwise_diagnostics d t c filter)
    · exact List.pairwise_map.2 (Scan.pairwise_diagnostics d' t c filter)
  · show loadPlugins d t c filter = loadPlugins d' t c filter
    rw [Scan.loadPlugins_eq, Scan.loadPlugins_eq]
    simp only [h.plugin?]
    apply KeyMap.ofList_perm ((h.editors c filter).filterMap _)
    have listed := ((Scan.editors_perm d c filter).map _).nodup_iff.2 distinct
    simpa only [h.plugin?] using Scan.nodup_keys d t c listed

def Package.executor (name id : String) : Component :=
  (bare name 1).component (.simple id .receiver Category.condition.executorAction)

def Listing.mixed : Listing where
  entries := [
    (Category.condition.editorAction, Package.editor "radio" "Tune"),
    (Category.condition.editorAction, Package.editor "clock" "Edit"),
    (Category.condition.executorAction, Package.executor "radio" "Ask"),
    (Category.condition.editorAction, Package.editor "radio" "Edit"),
    (Category.condition.executorAction, Package.executor "clock" "Query")]
  versions := ∅
  hostVersion := 21
  granted := ∅

theorem scan_reordered_mixed :
    let d := Listing.mixed.directory
    let d' := { Listing.mixed with entries := Listing.mixed.entries.reverse : Listing }.directory
    d.Reordered d' ∧
      (scan d ∅ .condition none).diagnostics.map Diagnostic.packageName =
        (scan d' ∅ .condition none).diagnostics.map Diagnostic.packageName ∧
      (scan d ∅ .condition none).plugins = (scan d' ∅ .condition none).plugins := by
  intro d d'
  have reordered : d.Reordered d' := Listing.mixed.reordered (List.reverse_perm _).symm
  obtain ⟨-, names, plugins⟩ := scan_reordered reordered ∅ .condition none
  exact ⟨reordered, names, plugins (by decide +kernel)⟩

/-- The host version decides about advice alone. -/
theorem Finding.applies_host {f : Finding} (h : f ≠ .targetVersionOutdated) (host host' : Int32)
    (granted : String → Bool) (e : Component) (xs : List Component) :
    f.applies host granted e xs = f.applies host' granted e xs := by
  cases f with
  | targetVersionOutdated => exact absurd rfl h
  | _ => rfl

theorem Component.reachable_mono {granted granted' : String → Bool}
    (h : ∀ p, granted p = true → granted' p = true) (x : Component) :
    x.reachable granted = true → x.reachable granted' = true := by
  unfold reachable
  cases x.permission with
  | none => simp
  | some p => exact h p

/-- What applies under more permissions applies under fewer. -/
theorem Finding.applies_of_granted {granted granted' : String → Bool}
    (h : ∀ p, granted p = true → granted' p = true) {host : Int32} {e : Component}
    {xs : List Component} (f : Finding) :
    f.applies host granted' e xs = true → f.applies host granted e xs = true := by
  have unreachable (x : Component) :
      x.reachable granted' = false → x.reachable granted = false := by
    simpa using mt (x.reachable_mono h)
  cases f with
  | editorRequiresPermission => simpa [applies] using unreachable e
  | executorRequiresPermission =>
    rcases xs with _ | ⟨x, _ | ⟨y, r⟩⟩
    · simp [applies]
    · simpa [applies] using unreachable x
    · simp [applies]
  | _ => exact id

namespace Candidate

variable {d : Directory} {k : Candidate}

theorem findings_host (d : Directory) (host : Int32) (k : Candidate) :
    ((k.findings { d with hostVersion := host }).filter fun f => f ≠ .targetVersionOutdated) =
      (k.findings d).filter fun f => f ≠ .targetVersionOutdated := by
  rw [findings, findings, PluginRegistry.findings, PluginRegistry.findings, List.filter_filter,
    List.filter_filter]
  apply List.filter_congr
  intro f _
  by_cases h : f = .targetVersionOutdated
  · simp [h]
  · rw [Finding.applies_host h]

theorem rejected_eq_any (d : Directory) (k : Candidate) :
    k.rejected d =
      ((k.findings d).filter fun f => f ≠ .targetVersionOutdated).any Finding.fatal := by
  rw [rejected, List.any_filter]
  congr 1
  funext f
  cases f <;> rfl

theorem rejected_host (d : Directory) (host : Int32) (k : Candidate) :
    k.rejected { d with hostVersion := host } = k.rejected d := by
  rw [rejected_eq_any, rejected_eq_any, findings_host]

theorem findings_granted {granted : String → Bool}
    (h : ∀ p, d.granted p = true → granted p = true) (k : Candidate) :
    (k.findings { d with granted }).Sublist (k.findings d) :=
  List.monotone_filter_right _ fun f => f.applies_of_granted h

theorem rejected_granted {granted : String → Bool}
    (h : ∀ p, d.granted p = true → granted p = true) (hk : k.rejected d = false) :
    k.rejected { d with granted } = false := by
  rw [rejected, List.any_eq_false] at hk ⊢
  intro f hf
  exact hk f ((findings_granted h k).subset hf)

end Candidate

namespace Scan

variable {d : Directory} {t : Characteristics} {c : Category} {filter : Option String}

theorem plugins_host (host : Int32) :
    (scan { d with hostVersion := host } t c filter).plugins = (scan d t c filter).plugins := by
  have same : Candidate.plugin? { d with hostVersion := host } t c = Candidate.plugin? d t c :=
    funext fun k => plugin?_of_rejected (k.rejected_host d host)
  rw [scan, scan, pluginsOf, pluginsOf, same]
  rfl

theorem diagnostics_host (host : Int32) :
    ((scan { d with hostVersion := host } t c filter).diagnostics.filter
        fun g => g.finding ≠ .targetVersionOutdated) =
      (scan d t c filter).diagnostics.filter fun g => g.finding ≠ .targetVersionOutdated := by
  rw [scan, scan, List.filter_flatMap, List.filter_flatMap]
  apply List.flatMap_congr
  intro k _
  rw [diagnosticsOf, diagnosticsOf, List.filter_map, List.filter_map]
  exact congrArg (List.map _) (k.findings_host d host)

theorem contains_granted {granted : String → Bool}
    (h : ∀ p, d.granted p = true → granted p = true) {key : String}
    (hk : (scan d t c filter).plugins.contains key = true) :
    (scan { d with granted } t c filter).plugins.contains key = true := by
  obtain ⟨k, met, p, made, named⟩ := contains_pluginsOf.1 hk
  obtain ⟨accepted, made⟩ := plugin?_eq_some_iff.1 made
  refine contains_pluginsOf.2 ⟨k, met, p, ?_, named⟩
  exact plugin?_eq_some_iff.2 ⟨Candidate.rejected_granted h accepted, made⟩

theorem diagnostics_granted {granted : String → Bool}
    (h : ∀ p, d.granted p = true → granted p = true) :
    (scan { d with granted } t c filter).diagnostics.Sublist (scan d t c filter).diagnostics :=
  List.Sublist.flatMap_right _ fun k _ => (Candidate.findings_granted h k).map _

end Scan

/-- Another host version leaves the plugins as they are and the diagnostics as they are but for the
advice on target versions. More permissions leave every key in place and only take diagnostics
away. -/
theorem scan_of_host_and_grants (d : Directory) (t : Characteristics) (c : Category)
    (filter : Option String) :
    (∀ host,
      let rehosted := scan { d with hostVersion := host } t c filter
      rehosted.plugins = (scan d t c filter).plugins ∧
        (rehosted.diagnostics.filter fun g => g.finding ≠ .targetVersionOutdated) =
          (scan d t c filter).diagnostics.filter fun g => g.finding ≠ .targetVersionOutdated) ∧
    ∀ granted, (∀ p, d.granted p = true → granted p = true) →
      let trusted := scan { d with granted } t c filter
      (∀ key, (scan d t c filter).plugins.contains key = true →
          trusted.plugins.contains key = true) ∧
        trusted.diagnostics.Sublist (scan d t c filter).diagnostics := by
  constructor
  · intro host
    exact ⟨Scan.plugins_host host, Scan.diagnostics_host host⟩
  · intro granted more
    exact ⟨fun key => Scan.contains_granted more, Scan.diagnostics_granted more⟩

/-- A package that shares a registry name with another one requires a permission. -/
def Installation.guarded : Installation :=
  let editor := (Declaration.simple "c" .activity Category.condition.editorAction).requiring "entry"
  let executor := Declaration.simple "Ask" .receiver Category.condition.executorAction
  alone.install (((Package.bare "a:b" 2).withComponent editor).withComponent executor)

/-- With the permission the other plugin stands under the same key. -/
theorem scan_of_host_and_grants_guarded :
    let d := Installation.guarded.directory
    let d' := (Installation.guarded.grant "entry").directory
    (∀ p, d.granted p = true → d'.granted p = true) ∧
      ((scan d ∅ .condition none).plugins.get? "a:b:c").map Plugin.packageName = some "a" ∧
      ((scan d' ∅ .condition none).plugins.get? "a:b:c").map Plugin.packageName = some "a:b" ∧
      (scan d' ∅ .condition none).plugins.contains "a:b:c" = true ∧
      (scan d' ∅ .condition none).diagnostics.Sublist (scan d ∅ .condition none).diagnostics := by
  intro d d'
  have more (p : String) (h : d.granted p = true) : d'.granted p = true :=
    decide_eq_true (NameSet.mem_insert.2 (Or.inr (of_decide_eq_true h)))
  have before : ((scan d ∅ .condition none).plugins.get? "a:b:c").map Plugin.packageName =
      some "a" := by
    simp only [d, scan, candidates_directory]
    decide +kernel
  have after : ((scan d' ∅ .condition none).plugins.get? "a:b:c").map Plugin.packageName =
      some "a:b" := by
    simp only [d', scan, candidates_directory]
    decide +kernel
  obtain ⟨kept, fewer⟩ := (scan_of_host_and_grants d ∅ .condition none).2 d'.granted more
  refine ⟨more, before, after, kept "a:b:c" ?_, fewer⟩
  obtain ⟨q, hq, -⟩ := Option.map_eq_some_iff.1 before
  rw [KeyMap.contains, hq]
  rfl

end PluginRegistry
