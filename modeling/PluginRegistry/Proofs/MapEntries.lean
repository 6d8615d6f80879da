import PluginRegistry.Proofs.WorldRuns

/-!
# The entries of the maps

A scan puts a plugin under the name of its candidate, which is the name that the plugin has of
itself (`wellFormed_loadPlugins`). Whatever is merged, dropped, emptied or published afterwards, an
entry stays under its own name and in the map of its category, and no name of it is empty. This is
so after every operation (`entries_of_run`), and also between any two tasks of a worker, some of
which may never be followed by the rest of their operation (`wellFormed_of_reading`).
-/

namespace PluginRegistry

/-- The plugin may stand under the key in the map of the category. -/
structure Plugin.Fits (c : Category) (key : String) (p : Plugin) : Prop where
  key : key = p.registryName
  category : p.category = c
  named : p.Named

def PluginMap.WellFormed (c : Category) (m : PluginMap) : Prop :=
  ∀ key p, m.get? key = some p → p.Fits c key

namespace PluginMap

variable {c : Category} {m current scanned : PluginMap}

theorem wellFormed_empty (c : Category) : WellFormed c ∅ := nofun

/-- What following a change leaves under a key was there before or was scanned. -/
theorem WellFormed.follow (h : current.WellFormed c) (hs : scanned.WellFormed c) (kind : ChangeKind)
    (package : String) (published : Option PluginMap) :
    WellFormed c (PluginMap.follow kind package current scanned published).1 := by
  intro key p hp
  rw [get?_follow] at hp
  cases hk : scanned.get? key with
  | some q =>
    rw [hk] at hp
    dsimp only at hp
    split at hp
    · exact hs key p (hk.trans hp)
    · exact h key p hp
  | none =>
    rw [hk] at hp
    dsimp only at hp
    split at hp
    · exact h key p (Option.filter_eq_some_iff.1 hp).1
    · exact h key p hp

/-- The keys of a map are the names of its plugins. -/
theorem WellFormed.names (h : m.WellFormed c) : m.values.map Plugin.registryName = m.keys := by
  rw [KeyMap.values, KeyMap.keys, List.map_map]
  refine List.map_congr_left fun e he => ?_
  exact (h e.1 e.2 (KeyMap.mem_entries_iff.1 he)).key.symm

theorem WellFormed.nodup_names (h : m.WellFormed c) :
    (m.values.map Plugin.registryName).Nodup := by
  rw [h.names]
  exact m.pairwise_keys.imp String.ne_of_lt

end PluginMap

theorem wellFormed_loadPlugins (d : Directory) (t : Characteristics) (c : Category)
    (filter : Option String) : (loadPlugins d t c filter).WellFormed c := by
  intro key p hp
  obtain ⟨hk, x, -, made⟩ := Scan.get?_pluginsOf hp
  obtain ⟨_, -, rfl, named⟩ := Scan.plugin?_eq_some made
  exact ⟨hk.symm, rfl, named⟩

namespace Catalogue

variable {d : Directory} {t : Characteristics} {k : Catalogue} {c : Category} {m : PluginMap}

/-- The working maps and the snapshots have every entry in its place. -/
structure WellFormed (k : Catalogue) : Prop where
  working : ∀ c, (k.working.get c).WellFormed c
  published : ∀ c m, k.published.plugins? c = some m → m.WellFormed c

theorem wellFormed_empty : WellFormed empty where
  working c := by cases c <;> exact PluginMap.wellFormed_empty _
  published c m hm := by cases c <;> cases hm

theorem WellFormed.set (h : k.WellFormed) (hm : m.WellFormed c) :
    WellFormed { k with working := k.working.set c m } where
  working b := by
    rw [ByCategory.get_set]
    split
    · next he => exact he ▸ hm
    · exact h.working b
  published := h.published

theorem WellFormed.load (h : k.WellFormed) (d : Directory) (t : Characteristics) (c : Category) :
    (k.load d t c).WellFormed :=
  h.set (wellFormed_loadPlugins d t c none)

theorem WellFormed.clear (h : k.WellFormed) : k.clear.WellFormed where
  working c := by
    rw [Catalogue.clear, ByCategory.get_both]
    exact PluginMap.wellFormed_empty c
  published := h.published

theorem WellFormed.publishOne (h : k.WellFormed) (c : Category) : (k.publishOne c).WellFormed where
  working := h.working
  published b m hm := by
    rw [Catalogue.publishOne, Published.plugins?_publish] at hm
    split at hm
    · next he =>
      subst he
      cases hm
      exact h.working c
    · exact h.published b m hm

theorem WellFormed.follow (h : k.WellFormed) (d : Directory) (t : Characteristics)
    (x : PackageChange) (c : Category) : (k.follow d t x c).1.WellFormed := by
  rw [follow_eq]
  exact h.set ((h.working c).follow (wellFormed_loadPlugins d t c _) _ _ _)

theorem WellFormed.publish (h : k.WellFormed) (marks : Changes) : (k.publish marks).WellFormed := by
  rw [Catalogue.publish]
  refine List.foldlRecOn (motive := WellFormed) _ _ h fun k hk c _ => ?_
  split
  · exact hk.publishOne c
  · exact hk

theorem WellFormed.perform (h : k.WellFormed) (d : Directory) (t : Characteristics)
    (o : Operation) : (o.perform d t k).1.WellFormed := by
  cases o with
  | loadAll => exact ((h.load d t .condition).load d t .setting).publish .all
  | reset => exact h.clear.publish .all
  | follow x => exact ((h.follow d t x .condition).follow d t x .setting).publish _

theorem wellFormed_run {k' : Catalogue} (h : k.WellFormed) (run : Run k k') : k'.WellFormed := by
  induction run with
  | refl => exact h
  | perform d t o _ ih => exact ih.perform d t o

/-- After any operations in any surroundings, every entry of a working map or of a snapshot stands
under the name that its plugin has of itself, in the map of its category, and no name of the plugin
is empty. No two entries of one map have the same name. -/
theorem entries_of_run (run : Run empty k) (c : Category) (m : PluginMap)
    (held : m = k.working.get c ∨ k.published.plugins? c = some m) :
    (∀ e ∈ m.entries, e.1 = e.2.registryName ∧
      e.2.registryName = e.2.packageName ++ ":" ++ e.2.editorComponent ∧
      e.2.category = c ∧
      e.2.packageName ≠ "" ∧ e.2.editorComponent ≠ "" ∧ e.2.executorComponent ≠ "") ∧
    (m.values.map Plugin.registryName).Nodup := by
  have hk := wellFormed_run wellFormed_empty run
  have hm : m.WellFormed c := by
    rcases held with rfl | hp
    · exact hk.working c
    · exact hk.published c m hp
  refine ⟨fun e he => ?_, hm.nodup_names⟩
  obtain ⟨key, category, named⟩ := hm e.1 e.2 (KeyMap.mem_entries_iff.1 he)
  exact ⟨key, rfl, category, named⟩

/-- The snapshot and the working map of an upgraded condition. -/
theorem entries_of_run_upgraded :
    let k := empty.loadAll (Installation.metered 1).directory ∅
    let k' := (k.apply (Installation.metered 2).directory ∅ ⟨.changed, "meter"⟩).1
    Run empty k' ∧ ∃ m, k'.published.plugins? .condition = some m ∧ m.keys = ["meter:Edit"] ∧
      ∀ e ∈ m.entries, e.1 = e.2.registryName ∧ e.2.category = .condition := by
  intro k k'
  have hr : Run empty k' :=
    .perform _ ∅ (.follow ⟨.changed, "meter"⟩)
      (.perform (Installation.metered 1).directory ∅ .loadAll .refl)
  have hkeys : (k'.published.plugins? .condition).map KeyMap.keys = some ["meter:Edit"] := by
    decide +kernel
  obtain ⟨m, hm, hk⟩ := Option.map_eq_some_iff.1 hkeys
  obtain ⟨he, -⟩ := entries_of_run hr .condition m (Or.inr hm)
  exact ⟨hr, m, hm, hk, fun e h => ⟨(he e h).1, (he e h).2.2.1⟩⟩

end Catalogue

namespace Live

open Actor

namespace Registry

variable {a : Nat} {s s' : Shared} {r r' : Registry} {o : Outage} {x : Task} {todo : List Task}
  {marks : Changes} {act : Act}

theorem wellFormed_carries (h : r.catalogue.WellFormed)
    (hp : r.Carries o a s todo marks x s' r') : r'.catalogue.WellFormed := by
  cases hp with
  | load c => exact h.load _ _ c
  | clear => exact h.clear
  | publish c => exact h.publishOne c
  | follow c y => exact h.follow _ _ y c
  | fails | subscribe | becomeReady | signal | report | openGate | breaks | conclude => exact h

theorem wellFormed_turn (h : r.catalogue.WellFormed) (ht : r.Turn a s act r') :
    r'.catalogue.WellFormed := by
  rcases ht.works_or_kept with ⟨o, s', -, step⟩ | ⟨-, hk⟩
  · cases works_of_step step with
    | take m q hw hq ha =>
      cases m <;> rw [accept] at ha <;> split at ha <;> cases ha <;> exact h
    | finish | rest | stop | leave => exact h
    | perform y todo marks hw hp => exact wellFormed_carries h hp
  · rw [hk.catalogue]
    exact h

end Registry

namespace World

variable {site : Site} {t : List Moment} {w : World} {a : Nat} {r : Registry}

/-- Whatever a reader gets, at any moment and whichever queries have panicked, has every entry in
its place. -/
theorem wellFormed_of_reading (run : Run (ofSite site) t w) (hr : w.registry? a = some r)
    {c : Category} {m : PluginMap} (hm : r.peek c = some m ∨ r.get? c = some m) :
    m.WellFormed c := by
  have hk : r.catalogue.WellFormed := run.registry (P := fun r => r.catalogue.WellFormed) hr
    (fun _ => Catalogue.wellFormed_empty) Registry.wellFormed_turn
  have hc : (r.current c).WellFormed c := by
    rw [Registry.current]
    cases hp : r.catalogue.published.plugins? c with
    | none => exact PluginMap.wellFormed_empty c
    | some m => exact hk.published c m hp
  rcases hm with hm | hm
  · rw [Registry.peek, Option.ite_none_right_eq_some] at hm
    exact Option.some.inj hm.2 ▸ hc
  · rw [Registry.get?, Option.ite_none_right_eq_some] at hm
    exact Option.some.inj hm.2 ▸ hc

end World

end Live

end PluginRegistry
