import PluginRegistry.Proofs.Adoption

/-!
# Executors of stored plugins

After a package was followed as changed, all its scanned keys have entries, with the configurations
that the scan finds. Executors are not compared: an entry keeps a former executor unless the scan
brings a new key or another version of a condition (`stored_of_changed`). A package that replaces
an executor under the same keys and in the same version is left with executors that are gone
(`executor_outlived`).
-/

namespace PluginRegistry

theorem configuration_of_loadPlugins {d : Directory} {t : Characteristics} {c : Category}
    {filter : Option String} {key : String} {p : Plugin}
    (h : (loadPlugins d t c filter).get? key = some p) : p.configuration = t.lookup c key := by
  obtain ⟨rfl, x, -, hp⟩ := Scan.get?_pluginsOf h
  obtain ⟨_, -, rfl, -⟩ := Scan.plugin?_eq_some hp
  rfl

/-- A package with a condition and a setting, run by the given components. -/
def Installation.relayed (query fire : String) : Installation :=
  (bare 0).install (((Package.bare "relay" 1).withPlugin .condition "Edit" query).withPlugin
    .setting "Set" fire)

namespace Catalogue

variable {d d₀ : Directory} {t : Characteristics} {k k₀ : Catalogue} {c : Category}

/-- As long as the characteristics stay the same, the entries have the configurations that they
would be given now. -/
theorem configuration_of_run (hr : RunIn (fun _ u => u = t) (k₀.loadAll d₀ t) k) {key : String}
    {p : Plugin} (hp : (k.working.get c).get? key = some p) : p.configuration = t.lookup c key := by
  rcases scanned_run (settled_loadAll k₀ d₀ t) hr hp with h | ⟨_, _, _, rfl, h⟩
  · rw [working_loadAll] at h
    exact configuration_of_loadPlugins h
  · exact configuration_of_loadPlugins h

/-- A scanned key of a changed package has an entry with the scanned configuration. It is the
scanned plugin if the scan is taken over, and otherwise the one that was there before, in the
scanned version if the category relaunches on upgrade. -/
theorem stored_of_changed (hr : RunIn (fun _ u => u = t) (k₀.loadAll d₀ t) k) (d : Directory)
    (package : String) (c : Category) {key : String} {p : Plugin}
    (hp : (loadPlugins d t c (some package)).get? key = some p) :
    ∃ q, ((k.apply d t ⟨.changed, package⟩).1.working.get c).get? key = some q ∧
      q.configuration = p.configuration ∧
      if k.adopts d t ⟨.changed, package⟩ c then q = p
      else (k.working.get c).get? key = some q ∧
        (c.relaunchesOnUpgrade = true → q.version = p.version) := by
  have hk := settled_run (settled_loadAll k₀ d₀ t) hr.run
  have hg : ((k.apply d t ⟨.changed, package⟩).1.working.get c).get? key =
      if k.adopts d t ⟨.changed, package⟩ c then some p else (k.working.get c).get? key := by
    rw [get?_apply hk, hp]
  rw [hg]
  cases ha : k.adopts d t ⟨.changed, package⟩ c with
  | true => exact ⟨p, rfl, rfl, rfl⟩
  | false =>
    obtain ⟨q, hq, hv⟩ := known_of_not_adopts ha hp
    have hc := (configuration_of_run hr hq).trans (configuration_of_loadPlugins hp).symm
    exact ⟨q, hq, hc, hq, hv⟩

theorem stored_of_changed_relayed :
    let k := empty.loadAll (Installation.relayed "Query" "Fire").directory ∅
    ∃ q, ((k.apply (Installation.relayed "Ask" "Send").directory ∅
        ⟨.changed, "relay"⟩).1.working.get .setting).get? "relay:Set" = some q ∧
      q.executorComponent = "Fire" := by
  intro k
  have hs : ((loadPlugins (Installation.relayed "Ask" "Send").directory ∅ .setting
      (some "relay")).get? "relay:Set").isSome = true := by decide +kernel
  obtain ⟨p, hp⟩ := Option.isSome_iff_exists.1 hs
  have hr : RunIn (fun _ u => u = (∅ : Characteristics)) k k := .refl
  obtain ⟨q, hq, -, ha⟩ := stored_of_changed hr _ "relay" .setting hp
  rw [if_neg (by decide +kernel)] at ha
  have he : ((k.working.get .setting).get? "relay:Set").map Plugin.executorComponent =
      some "Fire" := by decide +kernel
  rw [ha.1] at he
  exact ⟨q, hq, Option.some.inj he⟩

theorem executor_outlived :
    ¬∀ (t : Characteristics) (k₀ k : Catalogue) (d₀ d : Directory) (package : String)
      (c : Category) (key : String) (p : Plugin),
      RunIn (fun _ u => u = t) (k₀.loadAll d₀ t) k →
      (loadPlugins d t c (some package)).get? key = some p →
      ∃ q, ((k.apply d t ⟨.changed, package⟩).1.working.get c).get? key = some q ∧
        q.executorKind = p.executorKind ∧ q.executorComponent = p.executorComponent ∧
        q.configuration = p.configuration := by
  intro h
  have hs : ((loadPlugins (Installation.relayed "Ask" "Send").directory ∅ .condition
      (some "relay")).get? "relay:Edit").map Plugin.executorComponent = some "Ask" := by
    decide +kernel
  obtain ⟨p, hp, hpe⟩ := Option.map_eq_some_iff.1 hs
  obtain ⟨q, hq, -, he, -⟩ := h ∅ empty _ (Installation.relayed "Query" "Fire").directory _ "relay"
    .condition "relay:Edit" p .refl hp
  have hf : ((((empty.loadAll (Installation.relayed "Query" "Fire").directory ∅).apply
      (Installation.relayed "Ask" "Send").directory ∅ ⟨.changed, "relay"⟩).1.working.get
        .condition).get? "relay:Edit").map Plugin.executorComponent = some "Query" := by
    decide +kernel
  rw [hq, Option.map_some, he, hpe] at hf
  exact absurd hf (by decide)

end Catalogue

end PluginRegistry
