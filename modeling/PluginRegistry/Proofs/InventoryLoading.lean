import PluginRegistry.Directory.Inventory
import PluginRegistry.Proofs.ByteOrder
import PluginRegistry.Proofs.ScanLocality
import Mathlib.Data.List.Induction
import Mathlib.Data.List.Nodup

/-!
# What an inventory makes of its lists

An inventory loads unless it lists two packages of one name (`installAll_append`). Its installation
has the listed packages in the order of their names (`perm_values_foldl_install`), and its table
keeps the last characteristic of each plugin (`lookup_tableOf`), whose flags and alternatives are
those in its fields (`stated_of_readCharacteristic`). The answers of a loaded inventory follow
(`load_exact`).
-/

namespace PluginRegistry

open Document
open Wire (utf8)

namespace Flags

theorem union_and (s t : Flags) (m : UInt8) :
    (s.union t).bits &&& m = s.bits &&& m ||| t.bits &&& m := by
  apply UInt8.toBitVec_inj.1
  simp only [union, UInt8.toBitVec_and, UInt8.toBitVec_or]
  exact BitVec.and_or_distrib_right

/-- Bits are in a set of flags just if they are in one of its flags. -/
theorem ofList_and_eq_zero_iff {fs : List Flag} {m : UInt8} :
    (ofList fs).bits &&& m = 0 ↔ ∀ f ∈ fs, f.mask &&& m = 0 := by
  have step (s : Flags) : (fs.foldl (fun s f => s.union ⟨f.mask⟩) s).bits &&& m = 0 ↔
      s.bits &&& m = 0 ∧ ∀ f ∈ fs, f.mask &&& m = 0 := by
    induction fs generalizing s with
    | nil => simp
    | cons f fs ih =>
      rw [List.foldl_cons, ih, union_and, UInt8.or_eq_zero_iff, List.forall_mem_cons, and_assoc]
  rw [ofList, step]
  simp [EmptyCollection.emptyCollection, empty]

theorem has_ofList {fs : List Flag} {f : Flag} : (ofList fs).has f = true ↔ f ∈ fs := by
  have own : ∀ g : Flag, g.mask &&& f.mask ≠ 0 ↔ g = f := by
    intro g
    cases f <;> cases g <;> decide
  rw [has, decide_eq_true_eq, Ne, ofList_and_eq_zero_iff]
  constructor
  · intro h
    push Not at h
    obtain ⟨g, hg, hm⟩ := h
    exact (own g).1 hm ▸ hg
  · exact fun hf h => (own f).2 rfl (h f hf)

theorem unknown_ofList (fs : List Flag) : (ofList fs).unknown = ∅ := by
  have : (ofList fs).bits &&& 192 = 0 := ofList_and_eq_zero_iff.2 fun f _ => by cases f <;> decide
  rw [unknown, this]
  rfl

end Flags

namespace Installation

variable {i : Installation} {ps : List Package}

theorem packages_foldl_install (i : Installation) (ps : List Package) :
    (ps.foldl install i).packages = i.packages.insertAll (ps.map fun p => (p.name, p)) := by
  induction ps generalizing i with
  | nil => rfl
  | cons p ps ih => exact ih (i.install p)

/-- Of the packages of one name the last one is installed. -/
theorem package?_foldl_install (i : Installation) (ps : List Package) (name : String) :
    (ps.foldl install i).package? name =
      (KeyMap.find? name (ps.map fun p => (p.name, p)).reverse).or (i.package? name) := by
  rw [package?, packages_foldl_install, KeyMap.get?_insertAll, package?]

theorem isSome_package?_foldl_install {name : String} (h : name ∈ ps.map Package.name) :
    ((ps.foldl install i).package? name).isSome = true := by
  obtain ⟨p, hp, rfl⟩ := List.mem_map.1 h
  rw [package?_foldl_install, Option.isSome_or, Bool.or_eq_true, KeyMap.isSome_find?]
  exact Or.inl ⟨p, List.mem_reverse.2 (List.mem_map.2 ⟨p, hp, rfl⟩)⟩

theorem package?_foldl_grant (i : Installation) (permissions : List String) (name : String) :
    (permissions.foldl grant i).package? name = i.package? name := by
  induction permissions generalizing i with
  | nil => rfl
  | cons permission permissions ih => exact ih (i.grant permission)

/-- Packages of different names are all installed, and nothing else is. -/
theorem perm_values_foldl_install (empty : ∀ name, i.package? name = none)
    (nodup : (ps.map Package.name).Nodup) : (ps.foldl install i).packages.values.Perm ps := by
  have names : (ps.foldl install i).packages.values.Nodup :=
    (pairwise_values _).imp fun {p q} (h : p.name < q.name) (he : p = q) =>
      String.lt_irrefl _ (he ▸ h)
  refine (List.perm_ext_iff_of_nodup names nodup.of_map).2 fun p => ?_
  have listed {q : Package} {name : String}
      (h : (ps.foldl install i).package? name = some q) : q ∈ ps ∧ q.name = name := by
    refine ⟨?_, name_of_package? h⟩
    rw [package?_foldl_install, empty, Option.or_none] at h
    have he := KeyMap.mem_of_find? h
    simp only [List.mem_reverse, List.mem_map] at he
    obtain ⟨_, hq, he⟩ := he
    cases he
    exact hq
  constructor
  · exact fun hp => (listed (mem_values hp)).1
  · intro hp
    obtain ⟨q, hq⟩ := Option.isSome_iff_exists.1
      (isSome_package?_foldl_install (i := i) (List.mem_map_of_mem hp))
    obtain ⟨hm, hn⟩ := listed hq
    rw [← List.inj_on_of_nodup_map nodup hm hp hn]
    exact List.mem_map.2 ⟨_, KeyMap.mem_entries_iff.2 hq, rfl⟩

end Installation

namespace Inventory

variable {i : Installation} {ps qs : List Package} {l : Listed}

/-- The name is the first in the list that stands there a second time. -/
def FirstRepeated (name : String) (names : List String) : Prop :=
  ∃ before after, names = before ++ name :: after ∧ before.Nodup ∧ name ∈ before

theorem exists_firstRepeated {names : List String} (h : ¬names.Nodup) :
    ∃ name, FirstRepeated name names := by
  induction names using List.reverseRecOn with
  | nil => exact absurd List.nodup_nil h
  | append_singleton names name ih =>
    by_cases hn : names.Nodup
    · refine ⟨name, names, [], rfl, hn, ?_⟩
      by_contra hm
      exact h (hn.append (List.nodup_singleton name) (List.disjoint_singleton.2 hm))
    · obtain ⟨n, before, after, rfl, hb, hm⟩ := ih hn
      exact ⟨n, before, after ++ [name], by simp, hb, hm⟩

/-- Packages of new and different names are installed before the rest. -/
theorem installAll_append (fresh : ∀ p ∈ ps, i.package? p.name = none)
    (nodup : (ps.map Package.name).Nodup) :
    installAll i (ps ++ qs) = installAll (ps.foldl Installation.install i) qs := by
  induction ps generalizing i with
  | nil => rfl
  | cons p ps ih =>
    obtain ⟨hp, hps⟩ := List.forall_mem_cons.1 fresh
    obtain ⟨hne, hnodup⟩ := List.nodup_cons.1 nodup
    rw [List.cons_append, installAll, hp]
    refine ih (fun q hq => ?_) hnodup
    rw [Installation.package?_install, if_neg, hps q hq]
    exact fun he => hne (he ▸ List.mem_map_of_mem hq)

def Listed.host (l : Listed) : Installation :=
  l.permissions.foldl Installation.grant (.bare l.hostVersion)

theorem Listed.package?_host (l : Listed) (name : String) : l.host.package? name = none :=
  Installation.package?_foldl_grant _ _ _

/-- What an inventory loads as if no name is repeated. -/
def Listed.site (l : Listed) : Site :=
  ⟨l.packages.foldl Installation.install l.host, tableOf l.characteristics⟩

theorem load_of_nodup (nodup : (l.packages.map Package.name).Nodup) : l.load = .ok l.site := by
  have installed :
      installAll l.host (l.packages ++ []) = installAll (l.packages.foldl .install l.host) [] :=
    installAll_append (fun p _ => l.package?_host p.name) nodup
  rw [List.append_nil] at installed
  change (installAll l.host l.packages >>= _) = _
  rw [installed]
  rfl

theorem load_of_firstRepeated {name : String}
    (h : FirstRepeated name (l.packages.map Package.name)) :
    l.load = .error (.duplicatePackage name) := by
  obtain ⟨before, after, hl, nodup, hm⟩ := h
  obtain ⟨ps, rest, hps, rfl, hrest⟩ := List.map_eq_append_iff.1 hl
  obtain ⟨p, qs, rfl, rfl, -⟩ := List.map_eq_cons_iff.1 hrest
  have repeated := Installation.isSome_package?_foldl_install (i := l.host) hm
  change (installAll l.host l.packages >>= _) = _
  rw [hps, installAll_append (fun p _ => l.package?_host p.name) nodup, installAll, if_pos repeated]
  rfl

theorem load_cases (l : Listed) :
    (l.packages.map Package.name).Nodup ∧ l.load = .ok l.site ∨
      ∃ name, FirstRepeated name (l.packages.map Package.name) ∧
        l.load = .error (.duplicatePackage name) := by
  by_cases h : (l.packages.map Package.name).Nodup
  · exact Or.inl ⟨h, load_of_nodup h⟩
  · obtain ⟨name, first⟩ := exists_firstRepeated h
    exact Or.inr ⟨name, first, load_of_firstRepeated first⟩

def Listed.about (l : Listed) (c : Category) (name : String) : List Characteristic :=
  l.characteristics.filter fun x => x.category = c ∧ x.registryName = name

theorem lookup_tableOf (l : Listed) (c : Category) (name : String) :
    (tableOf l.characteristics).lookup c name =
      ((l.about c name).getLast?.map Characteristic.configuration).getD .default := by
  have step (xs : List Characteristic) (t : Characteristics) :
      (xs.foldl (fun t x => t.insert x.category x.registryName x.configuration) t).lookup c name =
        ((xs.filter fun x => x.category = c ∧ x.registryName = name).getLast?.map
          Characteristic.configuration).getD (t.lookup c name) := by
    induction xs generalizing t with
    | nil => rfl
    | cons x xs ih =>
      rw [List.foldl_cons, ih, Characteristics.lookup_insert, List.filter_cons]
      simp only [decide_eq_true_eq]
      split
      · rw [List.getLast?_cons]
        cases (xs.filter _).getLast? <;> rfl
      · rfl
  have nothing : (∅ : Characteristics).lookup c name = .default := by cases c <;> rfl
  rw [tableOf, step, nothing, Listed.about]

theorem exists_of_bind {ε α β : Type} {x : Except ε α} {next : α → Except ε β} {b : β}
    (h : x >>= next = .ok b) : ∃ a, x = .ok a ∧ next a = .ok b := by
  cases x with
  | error e => cases h
  | ok a => exact ⟨a, rfl, h⟩

theorem mem_of_filterAuxM {ε α : Type} {test : α → Except ε Bool} {as acc bs : List α}
    (h : as.filterAuxM test acc = .ok bs) (a : α) :
    a ∈ bs ↔ a ∈ acc ∨ a ∈ as ∧ test a = .ok true := by
  induction as generalizing acc with
  | nil =>
    cases h
    simp
  | cons x xs ih =>
    obtain ⟨b, hb, h⟩ := exists_of_bind h
    rw [ih h]
    cases b <;> grind

/-- What passes a test that may fail is what the test is true of. -/
theorem mem_of_filterM {ε α : Type} {test : α → Except ε Bool} {as bs : List α}
    (h : as.filterM test = .ok bs) (a : α) : a ∈ bs ↔ a ∈ as ∧ test a = .ok true := by
  obtain ⟨rs, hrs, h⟩ := exists_of_bind h
  cases h
  simpa using mem_of_filterAuxM hrs a

theorem exists_of_required {α : Type} {fs : Fields} {name : String} {read : Reader α} {a : α}
    (h : fs.required name read = .ok a) : ∃ v, fs.find? name = some v ∧ read v = .ok a := by
  rw [Fields.required] at h
  split at h
  · next v hv => exact ⟨v, hv, h⟩
  · cases h

theorem optional_eq_ok_iff {α : Type} {fs : Fields} {name : String} {read : Reader α} {a dflt : α} :
    fs.optional name read dflt = .ok a ↔
      (∃ v, fs.find? name = some v ∧ read v = .ok a) ∨ fs.find? name = none ∧ dflt = a := by
  rw [Fields.optional]
  cases fs.find? name <;> simp

theorem readText_eq_ok_iff {v : Value} {s : String} :
    readText v = .ok s ↔ v = .text s := by
  cases v <;> simp [readText]

theorem readBoolean_eq_ok_iff {v : Value} {b : Bool} : readBoolean v = .ok b ↔ v = .boolean b := by
  cases v <;> simp [readBoolean]

theorem mem_of_mapM_readText {vs : List Value} {names : List String}
    (h : vs.mapM readText = .ok names) (a : String) : a ∈ names ↔ .text a ∈ vs := by
  induction vs generalizing names with
  | nil =>
    cases h
    simp
  | cons v vs ih =>
    rw [List.mapM_cons] at h
    obtain ⟨name, hv, h⟩ := exists_of_bind h
    obtain ⟨rest, hvs, h⟩ := exists_of_bind h
    cases h
    cases readText_eq_ok_iff.1 hv
    simp [ih hvs]

structure Characteristic.Stated (x : Characteristic) (fs : Fields) : Prop where
  category : ∃ v, fs.find? "category" = some v ∧ Plugin.readCategory .toml v = .ok x.category
  registryName : fs.find? "registry_name" = some (.text x.registryName)
  flags : ∀ f, x.configuration.flags.has f = true ↔ fs.find? (flagField f) = some (.boolean true)
  named : x.configuration.flags.unknown = ∅
  alternatives : ∀ a, a ∈ x.configuration.alternatives ↔
    ∃ vs, fs.find? "alternatives" = some (.sequence vs) ∧ .text a ∈ vs

theorem stated_of_readCharacteristic {v : Value} {x : Characteristic}
    (h : readCharacteristic v = .ok x) :
    ∃ fs, characteristicShape.fieldsOf v = .ok fs ∧ x.Stated fs := by
  obtain ⟨fs, hfs, h⟩ := exists_of_bind h
  obtain ⟨y, hy, h⟩ := exists_of_bind h
  obtain ⟨-, -, h⟩ := exists_of_bind h
  cases h
  refine ⟨fs, hfs, ?_⟩
  obtain ⟨category, hcategory, hy⟩ := exists_of_bind hy
  obtain ⟨name, hname, hy⟩ := exists_of_bind hy
  obtain ⟨flags, hflags, hy⟩ := exists_of_bind hy
  obtain ⟨names, hnames, hy⟩ := exists_of_bind hy
  cases hy
  obtain ⟨v, hv, hr⟩ := exists_of_required hname
  cases readText_eq_ok_iff.1 hr
  refine ⟨exists_of_required hcategory, hv, fun f => ?_, Flags.unknown_ofList flags, fun a => ?_⟩
  · have listed : f ∈ Flag.all := by cases f <;> decide
    rw [Flags.has_ofList, mem_of_filterM hflags f, and_iff_right listed, optional_eq_ok_iff]
    simp [readBoolean_eq_ok_iff]
  · rw [NameSet.mem_ofList]
    rcases optional_eq_ok_iff.1 hnames with ⟨v, hv, hr⟩ | ⟨hv, rfl⟩
    · cases v with
      | sequence vs => simp [hv, mem_of_mapM_readText hr]
      | _ => cases hr
    · simp [hv]

def items (fs : Fields) (name : String) : List Value :=
  match fs.find? name with
  | some (.sequence vs) => vs
  | _ => []

theorem forall₂_of_mapM {α : Type} {read : Reader α} {vs : List Value} {as : List α}
    (h : vs.mapM read = .ok as) : List.Forall₂ (fun v a => read v = .ok a) vs as := by
  induction vs generalizing as with
  | nil =>
    cases h
    exact .nil
  | cons v vs ih =>
    rw [List.mapM_cons] at h
    obtain ⟨a, ha, h⟩ := exists_of_bind h
    obtain ⟨rest, hvs, h⟩ := exists_of_bind h
    cases h
    exact .cons ha (ih hvs)

theorem forall₂_of_optional {α : Type} {fs : Fields} {name : String} {read : Reader α} {as : List α}
    (h : fs.optional name (readSequence read) [] = .ok as) :
    List.Forall₂ (fun v a => read v = .ok a) (items fs name) as := by
  rcases optional_eq_ok_iff.1 h with ⟨v, hv, hr⟩ | ⟨hv, rfl⟩
  · cases v with
    | sequence vs =>
      rw [items, hv]
      exact forall₂_of_mapM hr
    | _ => cases hr
  · rw [items, hv]
    exact .nil

/-- The characteristics of an inventory are what the entries of its document say, in their order. -/
theorem stated_of_ofDocument {v : Value} (h : ofDocument v = .ok l) :
    ∃ fs, shape.fieldsOf v = .ok fs ∧
      List.Forall₂ (fun v x => ∃ gs, characteristicShape.fieldsOf v = .ok gs ∧
        Characteristic.Stated x gs) (items fs "characteristic") l.characteristics := by
  obtain ⟨fs, hfs, h⟩ := exists_of_bind h
  obtain ⟨y, hy, h⟩ := exists_of_bind h
  obtain ⟨-, -, h⟩ := exists_of_bind h
  cases h
  obtain ⟨_, -, hy⟩ := exists_of_bind hy
  obtain ⟨_, -, hy⟩ := exists_of_bind hy
  obtain ⟨_, -, hy⟩ := exists_of_bind hy
  obtain ⟨xs, hxs, hy⟩ := exists_of_bind hy
  cases hy
  exact ⟨fs, hfs, (forall₂_of_optional hxs).imp fun _ _ => stated_of_readCharacteristic⟩

/-- The site answers as the lists of the inventory say: one component a declaration with the action
and with what its package says of all its components, packages in the order of the bytes of their
names, and the last characteristic of a plugin. -/
structure Listed.Answers (l : Listed) (s : Site) : Prop where
  query : ∃ ps : List Package, ps.Perm l.packages ∧
    ps.Pairwise (fun p q => utf8 p.name < utf8 q.name) ∧
    ∀ action filter, s.installation.directory.query action filter =
      (ps.filter fun p => passes filter p.name).flatMap fun p =>
        (p.components.filter fun d => action ∈ d.actions).map fun d =>
          { packageName := p.name
            applicationEnabled := p.enabled
            targetVersion := p.targetVersion
            onRemovableStorage := p.onRemovableStorage
            installLocation := p.installLocation
            id := d.id
            kind := d.kind
            enabled := d.enabled
            exported := d.exported
            permission := d.permission }
  lookup : ∀ c name, s.characteristics.lookup c name =
    ((l.about c name).getLast?.map Characteristic.configuration).getD .default

theorem answers_site (nodup : (l.packages.map Package.name).Nodup) : l.Answers l.site where
  query := ⟨l.site.installation.packages.values,
    Installation.perm_values_foldl_install l.package?_host nodup,
    (Installation.pairwise_values _).imp Wire.utf8_lt_iff.2, fun _ _ => rfl⟩
  lookup := lookup_tableOf l

/-- An inventory loads just if no two of its packages have the same name, and fails with the first
repeated one otherwise. What it loads answers as its lists say. -/
theorem load_exact (l : Listed) :
    ((∃ s, l.load = .ok s) ↔ (l.packages.map Package.name).Nodup) ∧
      (∀ e, l.load = .error e ↔
        ∃ name, e = .duplicatePackage name ∧ FirstRepeated name (l.packages.map Package.name)) ∧
      (∀ s, l.load = .ok s → l.Answers s) ∧
      (∀ text, Toml.readAs ofDocument text = .ok l → load text = l.load) ∧
      ∀ v, ofDocument v = .ok l → ∃ fs, shape.fieldsOf v = .ok fs ∧
        List.Forall₂ (fun v x => ∃ gs, characteristicShape.fieldsOf v = .ok gs ∧
          Characteristic.Stated x gs) (items fs "characteristic") l.characteristics := by
  refine ⟨⟨?nodup, fun nodup => ⟨l.site, load_of_nodup nodup⟩⟩, fun e => ⟨?first, ?fails⟩, ?answers,
    fun text h => ?text, fun v => stated_of_ofDocument⟩
  case nodup =>
    rintro ⟨s, hs⟩
    rcases load_cases l with ⟨nodup, -⟩ | ⟨name, -, fails⟩
    · exact nodup
    · cases hs.symm.trans fails
  case first =>
    intro he
    rcases load_cases l with ⟨-, loads⟩ | ⟨name, first, fails⟩
    · cases he.symm.trans loads
    · cases he.symm.trans fails
      exact ⟨name, rfl, first⟩
  case fails =>
    rintro ⟨name, rfl, first⟩
    exact load_of_firstRepeated first
  case answers =>
    intro s hs
    rcases load_cases l with ⟨nodup, loads⟩ | ⟨name, -, fails⟩
    · cases hs.symm.trans loads
      exact answers_site nodup
    · cases hs.symm.trans fails
  case text =>
    rw [load, h]
    rfl

def Listed.cluttered : Listed where
  hostVersion := 0
  permissions := []
  packages := [
    ((Package.bare "radio" 1).onRemovable.targeting 7).withComponent
      { Declaration.simple "Tune" .activity "edit" with actions := ["edit", "edit"] },
    ((Package.bare "clock" 1).disabled.located none).withComponent (.simple "Dial" .activity "edit")]
  characteristics := [
    ⟨.condition, "clock:Dial", ⟨.ofList [.buggy], ∅⟩⟩,
    ⟨.condition, "clock:Dial", ⟨.ofList [.drainsBattery], ∅⟩⟩]

def Listed.doubled : Listed :=
  { cluttered with packages := cluttered.packages ++ [Package.bare "radio" 2] }

/-- One component of each package in name order with the fields of its own package, although an
action is repeated; the second of two characteristics. With one more package of a known name nothing
is loaded. -/
theorem load_exact_cluttered :
    (∃ s, Listed.cluttered.load = .ok s ∧
      s.installation.directory.query "edit" none = [
        { packageName := "clock"
          applicationEnabled := false
          targetVersion := 0
          onRemovableStorage := false
          installLocation := none
          id := "Dial"
          kind := .activity
          enabled := true
          exported := true
          permission := none },
        { packageName := "radio"
          applicationEnabled := true
          targetVersion := 7
          onRemovableStorage := true
          installLocation := some .internalOnly
          id := "Tune"
          kind := .activity
          enabled := true
          exported := true
          permission := none }] ∧
      (s.characteristics.lookup .condition "clock:Dial").flags = .ofList [.drainsBattery]) ∧
      Listed.doubled.load = .error (.duplicatePackage "radio") := by
  obtain ⟨loads, -, answers, -⟩ := load_exact Listed.cluttered
  obtain ⟨s, hs⟩ := loads.2 (by decide)
  obtain ⟨⟨ps, perm, ordered, query⟩, lookup⟩ := answers s hs
  refine ⟨⟨s, hs, ?query, ?flags⟩, ?fails⟩
  case query =>
    have backwards : ps = Listed.cluttered.packages.reverse := by
      refine (perm.trans (List.reverse_perm _).symm).eq_of_pairwise ?_
        (ordered.imp Wire.utf8_lt_iff.1) (by decide)
      exact fun p q _ _ hpq hqp => absurd hqp (String.lt_asymm hpq)
    rw [query, backwards]
    decide
  case flags =>
    rw [lookup]
    decide
  case fails =>
    obtain ⟨-, fails, -⟩ := load_exact Listed.doubled
    exact (fails _).2 ⟨"radio", rfl, ["radio", "clock"], [], rfl, by decide, by decide⟩

end Inventory

end PluginRegistry
