import PluginRegistry.Directory.Installation
import PluginRegistry.Scan.Report
import Mathlib.Data.List.Basic

/-!
# What a scan of one package depends on

A scan of one package sees that package only (`loadPlugins_congr`). Where no package name has a
colon, the key of an entry tells its package, and the scan of a package is the part of the full scan
that belongs to it (`get?_loadPlugins_package`). What is known about plugins decides only which
configurations they get (`get?_loadPlugins_configured`).
-/

namespace PluginRegistry

/-- A package name without a colon ends where the registry name has its first colon. -/
def PlainName (name : String) : Prop := ':' ∉ name.toList

def packageOf (key : String) : String := String.ofList (key.toList.takeWhile (· ≠ ':'))

theorem packageOf_registryName {package : String} (h : PlainName package) (editor : String) :
    packageOf (registryName package editor) = package := by
  have hp : ∀ a ∈ package.toList, decide (a ≠ ':') = true := by
    intro a ha
    rw [decide_eq_true_eq]
    rintro rfl
    exact h ha
  rw [packageOf, registryName]
  simp only [String.toList_append, List.append_assoc]
  rw [List.takeWhile_append_of_pos hp]
  simp

/-- Every entry stands under a key of its own package. -/
def PluginMap.Filed (m : PluginMap) : Prop := ∀ k p, m.get? k = some p → p.packageName = packageOf k

namespace Package

theorem packageName_of_mem_responding {p : Package} {a : String} {e : Component}
    (h : e ∈ p.responding a) : e.packageName = p.name := by
  obtain ⟨d, -, rfl⟩ := List.mem_map.1 h
  rfl

theorem filter_responding (p : Package) (a name : String) :
    (p.responding a).filter (fun e => e.packageName = name) =
      if p.name = name then p.responding a else [] := by
  split
  · next h =>
    rw [List.filter_eq_self]
    intro e he
    rw [packageName_of_mem_responding he, h, decide_eq_true rfl]
  · next h =>
    rw [List.filter_eq_nil_iff]
    intro e he
    rw [packageName_of_mem_responding he]
    simpa using h

end Package

namespace Installation

variable {i j : Installation}

def Plain (i : Installation) : Prop := ∀ name p, i.package? name = some p → PlainName name

theorem Plain.install (h : i.Plain) {p : Package} (hp : PlainName p.name) :
    (i.install p).Plain := by
  intro name q hq
  rw [package?_install] at hq
  split at hq
  · next he => exact he ▸ hp
  · exact h name q hq

theorem Plain.uninstall (h : i.Plain) (name : String) : (i.uninstall name).Plain := by
  intro n q hq
  rw [package?_uninstall] at hq
  split at hq
  · cases hq
  · exact h n q hq

theorem mem_values {p : Package} (h : p ∈ i.packages.values) : i.package? p.name = some p := by
  obtain ⟨e, he, rfl⟩ := List.mem_map.1 h
  exact i.named e he ▸ KeyMap.mem_entries_iff.1 he

theorem query_package (i : Installation) (a name : String) :
    i.query a (some name) = (i.package? name).toList.flatMap fun p => p.responding a := by
  have hv : (i.packages.values.filter fun p => passes (some name) p.name) =
      (i.package? name).toList := by
    have hc : i.packages.entries.filter (fun e => passes (some name) e.2.name) =
        i.packages.entries.filter (fun e => e.1 = name) := by
      apply List.filter_congr
      intro e he
      simp [passes, i.named e he, eq_comm]
    rw [KeyMap.values, List.filter_map, Function.comp_def, hc, KeyMap.filter_entries_eq]
    simp [package?, Function.comp_def]
  rw [query, hv]

theorem query_package_of_none {name : String} (h : i.package? name = none) (a : String) :
    i.query a (some name) = [] := by
  rw [query_package, h]
  rfl

/-- The answer about one package is a part of the answer about all. -/
theorem query_package_eq_filter (i : Installation) (a name : String) :
    i.query a (some name) = (i.query a none).filter fun e => e.packageName = name := by
  rw [query, query]
  induction i.packages.values with
  | nil => rfl
  | cons p ps ih =>
    have hp : passes none p.name = true := rfl
    rw [List.filter_cons, List.filter_cons, if_pos hp, List.flatMap_cons, List.filter_append,
      Package.filter_responding, ← ih]
    by_cases h : p.name = name
    · simp [passes, h]
    · have h' : name ≠ p.name := fun e => h e.symm
      simp [passes, h, h']

theorem package?_of_mem_query {a : String} {filter : Option String} {e : Component}
    (h : e ∈ i.query a filter) :
    ∃ p, i.package? e.packageName = some p ∧ passes filter e.packageName = true := by
  obtain ⟨p, hp, he⟩ := List.mem_flatMap.1 h
  obtain ⟨hp, hf⟩ := List.mem_filter.1 hp
  rw [Package.packageName_of_mem_responding he]
  exact ⟨p, mem_values hp, hf⟩

theorem pairwise_values (i : Installation) :
    i.packages.values.Pairwise fun p q => p.name < q.name := by
  rw [KeyMap.values, List.pairwise_map]
  apply i.packages.sorted.imp_of_mem
  intro e f he hf h
  rwa [← i.named e he, ← i.named f hf]

theorem pairwise_query (i : Installation) (a : String) (filter : Option String) :
    (i.query a filter).Pairwise fun e f => e.packageName ≤ f.packageName := by
  rw [query, List.pairwise_flatMap]
  refine ⟨fun p _ => ?_, (i.pairwise_values.filter _).imp fun {p q} h e he f hf => ?_⟩
  · apply List.pairwise_of_forall_mem_list
    intro e he f hf
    have hef := (Package.packageName_of_mem_responding he).trans
      (Package.packageName_of_mem_responding hf).symm
    exact hef ▸ String.le_refl _
  · rw [Package.packageName_of_mem_responding he, Package.packageName_of_mem_responding hf]
    exact String.not_lt.1 (String.lt_asymm h)

end Installation

namespace Candidate

variable {d : Directory} {k : Candidate}

theorem applies_eq_false (h : k.rejected d = false) {f : Finding} (hf : f.fatal = true) :
    f.applies d.hostVersion d.granted k.editor k.executors = false := by
  rw [rejected, List.any_eq_false] at h
  by_contra applied
  refine h f ?_ hf
  simpa [findings, PluginRegistry.findings, f.mem_all] using applied

/-- A candidate that is not rejected has just one executor. -/
theorem exists_executor (h : k.rejected d = false) : ∃ x, k.executors = [x] := by
  have missing := applies_eq_false h (f := .missingExecutor) rfl
  have duplicate := applies_eq_false h (f := .duplicateExecutor) rfl
  rcases hx : k.executors with _ | ⟨x, _ | ⟨y, r⟩⟩
  · simp [Finding.applies, hx] at missing
  · exact ⟨x, rfl⟩
  · simp [Finding.applies, hx] at duplicate

end Candidate

namespace Scan

variable {d : Directory} {t : Characteristics} {c : Category} {ks : List Candidate}

theorem plugin?_eq_some_iff {k : Candidate} {p : Plugin} :
    k.plugin? d t c = some p ↔
      k.rejected d = false ∧ ∃ x, k.executors.head? = some x ∧ p = k.pluginWith t c x ∧ p.Named := by
  rw [Candidate.plugin?, Candidate.outcome?]
  cases k.rejected d with
  | true => simp
  | false =>
    cases k.executors.head? with
    | none => simp
    | some x =>
      have accepted : (k.pluginWith t c x).create.toOption = some p ↔
          (k.pluginWith t c x).create = .ok p := by
        cases (k.pluginWith t c x).create <;> simp [Except.toOption]
      simp only [Bool.false_eq_true, if_false, Option.map_some, Option.bind_some, accepted,
        Plugin.create_eq_ok_iff, Option.some.injEq, exists_eq_left', true_and]
      constructor
      · rintro ⟨rfl, named⟩
        exact ⟨rfl, named⟩
      · rintro ⟨rfl, named⟩
        exact ⟨rfl, named⟩

theorem plugin?_eq_some {k : Candidate} {p : Plugin} (h : k.plugin? d t c = some p) :
    ∃ x, k.executors.head? = some x ∧ p = k.pluginWith t c x ∧ p.Named :=
  (plugin?_eq_some_iff.1 h).2

theorem packageName_of_plugin? {k : Candidate} {p : Plugin} (h : k.plugin? d t c = some p) :
    p.packageName = k.editor.packageName := by
  obtain ⟨x, -, rfl, -⟩ := plugin?_eq_some h
  rfl

theorem editorComponent_of_plugin? {k : Candidate} {p : Plugin} (h : k.plugin? d t c = some p) :
    p.editorComponent = k.editor.id := by
  obtain ⟨x, -, rfl, -⟩ := plugin?_eq_some h
  rfl

theorem registryName_of_plugin? {k : Candidate} {p : Plugin} (h : k.plugin? d t c = some p) :
    p.registryName = k.registryName := by
  obtain ⟨x, -, rfl, -⟩ := plugin?_eq_some h
  rfl

theorem version_of_plugin? {k : Candidate} {p : Plugin} (h : k.plugin? d t c = some p) :
    p.version = k.versionCode := by
  obtain ⟨x, -, rfl, -⟩ := plugin?_eq_some h
  rfl

/-- A directory decides about a candidate by rejecting it or not. -/
theorem plugin?_of_rejected {d' : Directory} {k : Candidate} (h : k.rejected d = k.rejected d') :
    k.plugin? d t c = k.plugin? d' t c := by
  rw [Candidate.plugin?, Candidate.plugin?, Candidate.outcome?, Candidate.outcome?, h]

/-- What becomes of a candidate depends on the host version and the granted permissions only. -/
theorem plugin?_congr {d' : Directory} (hv : d.hostVersion = d'.hostVersion)
    (hg : d.granted = d'.granted) (k : Candidate) : k.plugin? d t c = k.plugin? d' t c := by
  have hf : k.findings d = k.findings d' := by
    rw [Candidate.findings, Candidate.findings, findings, findings, hv, hg]
  exact plugin?_of_rejected (by rw [Candidate.rejected, Candidate.rejected, hf])

/-- The name of a candidate is the name that its plugin has of itself. -/
theorem pluginsOf_eq (d : Directory) (t : Characteristics) (c : Category) (ks : List Candidate) :
    pluginsOf d t c ks =
      KeyMap.ofList ((ks.filterMap (Candidate.plugin? d t c)).map fun p => (p.registryName, p)) := by
  rw [pluginsOf, List.map_filterMap]
  congr 2
  funext k
  cases h : k.plugin? d t c with
  | none => rfl
  | some p => rw [Option.map_some, Option.map_some, registryName_of_plugin? h]

theorem get?_pluginsOf {k : String} {p : Plugin} (h : (pluginsOf d t c ks).get? k = some p) :
    p.registryName = k ∧ ∃ x ∈ ks, x.plugin? d t c = some p := by
  rw [pluginsOf_eq, KeyMap.get?_ofList] at h
  obtain ⟨q, hq, he⟩ := List.mem_map.1 (List.mem_reverse.1 (KeyMap.mem_of_find? h))
  cases he
  obtain ⟨x, hx, hp⟩ := List.mem_filterMap.1 hq
  exact ⟨rfl, x, hx, hp⟩

theorem contains_pluginsOf {k : String} :
    (pluginsOf d t c ks).contains k = true ↔
      ∃ x ∈ ks, ∃ p, x.plugin? d t c = some p ∧ p.registryName = k := by
  rw [pluginsOf_eq, KeyMap.contains, KeyMap.get?_ofList, KeyMap.isSome_find?]
  simp only [List.mem_reverse, List.mem_map, List.mem_filterMap]
  constructor
  · rintro ⟨v, p, ⟨x, hx, hp⟩, he⟩
    exact ⟨x, hx, p, hp, congrArg Prod.fst he⟩
  · rintro ⟨x, hx, p, hp, rfl⟩
    exact ⟨p, p, ⟨x, hx, hp⟩, rfl⟩

theorem loadPlugins_eq (d : Directory) (t : Characteristics) (c : Category)
    (filter : Option String) :
    loadPlugins d t c filter =
      KeyMap.ofList ((editors d c filter).filterMap fun e =>
        ((candidate d c e).plugin? d t c).map fun p => (p.registryName, p)) := by
  rw [loadPlugins, scan, pluginsOf_eq, candidates, List.map_filterMap, List.filterMap_map]
  rfl

theorem diagnostics_eq (d : Directory) (t : Characteristics) (c : Category)
    (filter : Option String) :
    (scan d t c filter).diagnostics =
      (editors d c filter).flatMap fun e => diagnosticsOf d c (candidate d c e) := by
  rw [scan, candidates, List.flatMap_map]

/-- The entry under a name is the plugin of the last editor that makes one of that name. -/
theorem get?_loadPlugins_iff {filter : Option String} {k : String} {p : Plugin} :
    (loadPlugins d t c filter).get? k = some p ↔
      ∃ before e after, editors d c filter = before ++ e :: after ∧
        (candidate d c e).plugin? d t c = some p ∧ p.registryName = k ∧
        ∀ e' ∈ after, ∀ q, (candidate d c e').plugin? d t c = some q → q.registryName ≠ k := by
  have entry (e : Component) (p : Plugin) :
      ((candidate d c e).plugin? d t c).map (fun p => (p.registryName, p)) = some (k, p) ↔
        (candidate d c e).plugin? d t c = some p ∧ p.registryName = k := by
    rw [Option.map_eq_some_iff]
    constructor
    · rintro ⟨q, made, he⟩
      cases he
      exact ⟨made, rfl⟩
    · rintro ⟨made, rfl⟩
      exact ⟨p, made, rfl⟩
  simp only [loadPlugins_eq, KeyMap.get?_ofList_filterMap_eq_some_iff, ne_eq, entry, and_assoc,
    not_and]

end Scan

section

variable {d : Directory} {t u : Characteristics} {c : Category} {filter : Option String}

def Plugin.configured (u : Characteristics) (c : Category) (p : Plugin) : Plugin :=
  { p with configuration := u.lookup c p.registryName }

theorem Scan.plugin?_configured (k : Candidate) :
    k.plugin? d u c = (k.plugin? d t c).map (Plugin.configured u c) := by
  have hw (x : Component) : k.pluginWith u c x = (k.pluginWith t c x).configured u c := rfl
  have he (p : Plugin) : (p.configured u c).emptyName? = p.emptyName? := rfl
  rw [Candidate.plugin?, Candidate.outcome?, Candidate.plugin?, Candidate.outcome?]
  cases k.rejected d with
  | true => rfl
  | false =>
    cases k.executors.head? with
    | none => rfl
    | some x =>
      simp only [Bool.false_eq_true, if_false, Option.map_some, Option.bind_some, hw x,
        Plugin.create, he]
      cases (k.pluginWith t c x).emptyName? <;> rfl

/-- Other characteristics give the scanned plugins other configurations and change nothing else. -/
theorem get?_loadPlugins_configured (t u : Characteristics) (key : String) :
    (loadPlugins d u c filter).get? key =
      ((loadPlugins d t c filter).get? key).map (Plugin.configured u c) := by
  have hl (ks : List Candidate) :
      (ks.filterMap (Candidate.plugin? d u c)).map (fun p => (p.registryName, p)) =
        ((ks.filterMap (Candidate.plugin? d t c)).map fun p => (p.registryName, p)).map
          fun e => (e.1, e.2.configured u c) := by
    have hp : Candidate.plugin? d u c =
        fun k => (Candidate.plugin? d t c k).map (Plugin.configured u c) :=
      funext Scan.plugin?_configured
    rw [hp, ← List.map_filterMap, List.map_map, List.map_map]
    rfl
  rw [loadPlugins, scan, Scan.pluginsOf_eq, hl, KeyMap.get?_ofList_map, ← Scan.pluginsOf_eq]
  rfl

/-- What is scanned is also scanned with other characteristics, in the same version. -/
theorem exists_of_loadPlugins (t : Characteristics) {key : String} {p : Plugin}
    (h : (loadPlugins d u c filter).get? key = some p) :
    ∃ q, (loadPlugins d t c filter).get? key = some q ∧ q.version = p.version := by
  rw [get?_loadPlugins_configured t u] at h
  obtain ⟨q, hq, rfl⟩ := Option.map_eq_some_iff.1 h
  exact ⟨q, hq, rfl⟩

theorem contains_loadPlugins (t u : Characteristics) (key : String) :
    (loadPlugins d t c filter).contains key = (loadPlugins d u c filter).contains key := by
  rw [KeyMap.contains, get?_loadPlugins_configured u t, Option.isSome_map, KeyMap.contains]

end

section

variable {i j : Installation} {t : Characteristics} {c : Category} {filter : Option String}

/-- An installation answers in package order already. -/
theorem editors_directory (i : Installation) (c : Category) (filter : Option String) :
    Scan.editors i.directory c filter = i.query c.editorAction filter := by
  apply List.mergeSort_of_pairwise
  exact (i.pairwise_query c.editorAction filter).imp fun h => by simpa using h

theorem candidates_directory (i : Installation) (c : Category) (filter : Option String) :
    Scan.candidates i.directory c filter =
      (i.query c.editorAction filter).map (Scan.candidate i.directory c) := by
  rw [Scan.candidates, editors_directory]

theorem mem_candidates {k : Candidate} (h : k ∈ Scan.candidates i.directory c filter) :
    ∃ e ∈ i.query c.editorAction filter, k = Scan.candidate i.directory c e := by
  rw [candidates_directory] at h
  obtain ⟨e, he, rfl⟩ := List.mem_map.1 h
  exact ⟨e, he, rfl⟩

theorem packageName_of_loadPlugins {k : String} {p : Plugin}
    (h : (loadPlugins i.directory t c filter).get? k = some p) :
    p.registryName = k ∧ ∃ q, i.package? p.packageName = some q ∧ p.version = q.version ∧
      passes filter p.packageName = true := by
  obtain ⟨hk, x, hx, hp⟩ := Scan.get?_pluginsOf h
  obtain ⟨e, he, rfl⟩ := mem_candidates hx
  obtain ⟨q, hq, hf⟩ := i.package?_of_mem_query he
  have hn : p.packageName = e.packageName := Scan.packageName_of_plugin? hp
  refine ⟨hk, q, hn ▸ hq, ?_, hn ▸ hf⟩
  rw [Scan.version_of_plugin? hp]
  simp [Candidate.versionCode, Scan.candidate, Installation.directory,
    Installation.installedVersion, hq]

theorem filed_loadPlugins (h : i.Plain) : (loadPlugins i.directory t c filter).Filed := by
  intro k p hp
  obtain ⟨rfl, q, hq, -, -⟩ := packageName_of_loadPlugins hp
  exact (packageOf_registryName (h _ _ hq) _).symm

/-- The scan of a package depends on that package, the host version and the permissions. -/
theorem loadPlugins_congr {package : String} (hp : i.package? package = j.package? package)
    (hv : i.hostVersion = j.hostVersion) (hg : i.permissions = j.permissions) :
    loadPlugins i.directory t c (some package) = loadPlugins j.directory t c (some package) := by
  have hq (a : String) : i.query a (some package) = j.query a (some package) := by
    rw [Installation.query_package, Installation.query_package, hp]
  have hk : Scan.candidates i.directory c (some package) =
      Scan.candidates j.directory c (some package) := by
    rw [candidates_directory, candidates_directory, hq]
    apply List.map_congr_left
    intro e he
    obtain ⟨-, -, hf⟩ := Installation.package?_of_mem_query he
    have hn : e.packageName = package := (of_decide_eq_true hf).symm
    have hi : i.installedVersion package = j.installedVersion package := by
      rw [Installation.installedVersion, Installation.installedVersion, hp]
    simp only [Scan.candidate, Installation.directory, hn, hq, hi]
  have hc : Candidate.plugin? i.directory t c = Candidate.plugin? j.directory t c :=
    funext (Scan.plugin?_congr hv (by simp only [Installation.directory, hg]))
  simp only [loadPlugins, scan, Scan.pluginsOf, hk, hc]

theorem loadPlugins_of_absent {package : String} (h : i.package? package = none) :
    loadPlugins i.directory t c (some package) = ∅ := by
  have hk : Scan.candidates i.directory c (some package) = [] := by
    rw [candidates_directory, Installation.query_package_of_none h]
    rfl
  rw [loadPlugins, scan, hk]
  rfl

theorem candidates_package (i : Installation) (c : Category) (package : String) :
    Scan.candidates i.directory c (some package) =
      (Scan.candidates i.directory c none).filter fun k => k.editor.packageName = package := by
  rw [candidates_directory, candidates_directory, Installation.query_package_eq_filter,
    List.filter_map]
  rfl

/-- The scan of a package is the part of the full scan that belongs to it. -/
theorem get?_loadPlugins_package (h : i.Plain) (package k : String) :
    (loadPlugins i.directory t c (some package)).get? k =
      ((loadPlugins i.directory t c none).get? k).filter fun p => p.packageName = package := by
  have hl : ((Scan.candidates i.directory c (some package)).filterMap
        (Candidate.plugin? i.directory t c)).map (fun p => (p.registryName, p)) =
      (((Scan.candidates i.directory c none).filterMap
        (Candidate.plugin? i.directory t c)).map (fun p => (p.registryName, p))).filter
          (fun e => e.2.packageName = package) := by
    rw [candidates_package, List.filter_map, List.filter_filterMap, List.filterMap_filter]
    congr 1
    apply List.filterMap_congr
    intro x _
    cases hp : x.plugin? i.directory t c with
    | none => simp
    | some p => simp [Option.filter_some, Scan.packageName_of_plugin? hp]
  rw [loadPlugins, scan, Scan.pluginsOf_eq, hl, loadPlugins, scan, Scan.pluginsOf_eq]
  apply KeyMap.get?_ofList_filter
  have hkey : ∀ e ∈ ((Scan.candidates i.directory c none).filterMap
      (Candidate.plugin? i.directory t c)).map (fun p => (p.registryName, p)),
      packageOf e.1 = e.2.packageName := by
    intro e he
    obtain ⟨p, hp, rfl⟩ := List.mem_map.1 he
    obtain ⟨x, hx, hxp⟩ := List.mem_filterMap.1 hp
    obtain ⟨y, hy, rfl⟩ := mem_candidates hx
    obtain ⟨q, hq, -⟩ := i.package?_of_mem_query hy
    have hn : p.packageName = y.packageName := Scan.packageName_of_plugin? hxp
    exact packageOf_registryName (hn ▸ h _ _ hq) _
  intro e he f hf hef
  rw [← hkey e he, ← hkey f hf, hef]

/-- A full scan holds a key just as the scan of the package of the key does. -/
theorem get?_loadPlugins_packageOf (h : i.Plain) (k : String) :
    (loadPlugins i.directory t c (some (packageOf k))).get? k =
      (loadPlugins i.directory t c none).get? k := by
  rw [get?_loadPlugins_package h]
  cases hp : (loadPlugins i.directory t c none).get? k with
  | none => rfl
  | some p => simp [filed_loadPlugins h k p hp]

theorem packageOf_of_get?_loadPlugins (h : i.Plain) {package k : String} {p : Plugin}
    (hp : (loadPlugins i.directory t c (some package)).get? k = some p) :
    packageOf k = package := by
  obtain ⟨-, -, -, -, hf⟩ := packageName_of_loadPlugins hp
  rw [← filed_loadPlugins h k p hp]
  exact (of_decide_eq_true hf).symm

end

def Package.meter (version : Int64) : Package :=
  (bare "meter" version).withPlugin .condition "Edit" "Query"

def Installation.metered (version : Int64) : Installation := (bare 0).install (.meter version)

theorem Installation.plain_bare (hostVersion : Int32) : (bare hostVersion).Plain := by
  intro name p hp
  cases hp

theorem Package.plainName_meter (version : Int64) : PlainName (meter version).name := by
  change ':' ∉ "meter".toList
  decide

theorem Installation.plain_metered (version : Int64) : (metered version).Plain :=
  (plain_bare 0).install (Package.plainName_meter version)

end PluginRegistry
