import PluginRegistry.Proofs.Adoption

/-!
# Reconciliation with a scan

After a package was followed as changed, its entries stand under the scanned keys, conditions in the
scanned versions, and settings are not touched for the sake of a version
(`reconciled_of_changed`). A change that was followed leaves nothing to do for the same change
(`apply_again`).
-/

namespace PluginRegistry

/-- A package with a condition under the given editor and a setting. -/
def Installation.relaunched (editor : String) (version : Int64) : Installation :=
  (bare 0).install (((Package.bare "relay" version).withPlugin .condition editor "Query").withPlugin
    .setting "Set" "Fire")

namespace Catalogue

variable {d : Directory} {t u : Characteristics} {x : PackageChange} {k : Catalogue} {c : Category}
  {key : String} {p q : Plugin} {package : String}

theorem contains_of_apply (h : k.Settled) (hx : x.kind ≠ .removed)
    (hs : (loadPlugins d t c (some x.package)).contains key = true) :
    ((k.apply d t x).1.working.get c).contains key = true := by
  obtain ⟨p, hp⟩ := Option.isSome_iff_exists.1 hs
  rw [KeyMap.contains, get?_apply h, hp]
  dsimp only
  split
  · rfl
  · next ha =>
    have hadd := isAdded_of_not_adopts (Bool.eq_false_iff.2 ha) hx
    exact PluginMap.contains_of_not_isAdded hadd hs

theorem scanned_of_apply (h : k.Settled) (hx : x.kind.prunes = true)
    (hq : ((k.apply d t x).1.working.get c).get? key = some q) (hn : q.packageName = x.package) :
    (loadPlugins d t c (some x.package)).contains key = true := by
  cases hs : (loadPlugins d t c (some x.package)).get? key with
  | some p => rw [KeyMap.contains, hs, Option.isSome_some]
  | none =>
    rw [get?_apply h, hs] at hq
    simp [hx, Option.filter_eq_some_iff, hn] at hq

theorem version_of_changed (h : k.Settled) (hc : c.relaunchesOnUpgrade = true)
    (hp : (loadPlugins d t c (some package)).get? key = some p) :
    ∃ q, ((k.apply d t ⟨.changed, package⟩).1.working.get c).get? key = some q ∧
      q.version = p.version := by
  rw [get?_apply h, hp]
  dsimp only
  split
  · exact ⟨p, rfl, rfl⟩
  · next ha =>
    obtain ⟨q, hq, hv⟩ := known_of_not_adopts (by simpa using ha) hp
    exact ⟨q, hq, hv hc⟩

/-- After a package was followed as changed, every scanned key has an entry, in the scanned version
if it is a condition, and every entry of the package has a scanned key. Settings are followed only
for the sake of their keys. -/
theorem reconciled_of_changed (run : Run empty k) (d : Directory) (t : Characteristics)
    (package : String) :
    let k' := k.apply d t ⟨.changed, package⟩
    let scanned := fun c => loadPlugins d t c (some package)
    (∀ c key, (scanned c).contains key = true → (k'.1.working.get c).contains key = true) ∧
    (∀ c key q, (k'.1.working.get c).get? key = some q → q.packageName = package →
      (scanned c).contains key = true) ∧
    (∀ key p, (scanned .condition).get? key = some p →
      ∃ q, (k'.1.working.get .condition).get? key = some q ∧ q.version = p.version) ∧
    ((∀ key, (scanned .setting).contains key = true →
        (k.working.get .setting).contains key = true) →
      (∀ key q, (k.working.get .setting).get? key = some q → q.packageName = package →
        (scanned .setting).contains key = true) →
      k'.1.working.get .setting = k.working.get .setting ∧
        k'.1.published.snapshot? .setting = k.published.snapshot? .setting ∧
        k'.2.get .setting = false) := by
  intro k' scanned
  have hk := settled_run settled_empty run
  refine ⟨fun c key hs => ?_, fun c key q hq hn => ?_, fun key p hp => ?_, fun known owned => ?_⟩
  · exact contains_of_apply (x := ⟨.changed, package⟩) hk (by simp) hs
  · exact scanned_of_apply (x := ⟨.changed, package⟩) hk rfl hq hn
  · exact version_of_changed hk rfl hp
  · have hm : k'.2.get .setting = false := by
      rw [marks_apply_eq hk, PluginMap.isRemoved_eq_false_iff.2 owned, adopts, PluginMap.rewrites,
        PluginMap.isAdded_eq_false_iff.2 known]
      rfl
    exact ⟨working_of_not_marked (o := .follow ⟨.changed, package⟩) hm,
      (publishes_apply k d t ⟨.changed, package⟩).kept .setting hm, hm⟩

theorem reconciled_of_changed_renamed :
    let k := empty.loadAll (Installation.relaunched "Edit" 1).directory ∅
    let k' := k.apply (Installation.relaunched "Alter" 2).directory ∅ ⟨.changed, "relay"⟩
    (∃ q, (k'.1.working.get .condition).get? "relay:Alter" = some q ∧ q.version = 2) ∧
      (∀ q, (k'.1.working.get .condition).get? "relay:Edit" = some q →
        q.packageName ≠ "relay") ∧
      k'.1.working.get .setting = k.working.get .setting ∧ k'.2.get .setting = false ∧
      ((k.working.get .setting).get? "relay:Set").map Plugin.version = some 1 := by
  intro k k'
  have hk : Run empty k := .perform _ ∅ .loadAll .refl
  obtain ⟨-, owned, current, still⟩ :=
    reconciled_of_changed hk (Installation.relaunched "Alter" 2).directory ∅ "relay"
  have hs : ((loadPlugins (Installation.relaunched "Alter" 2).directory ∅ .condition
      (some "relay")).get? "relay:Alter").map Plugin.version = some 2 := by decide +kernel
  obtain ⟨p, hp, hv⟩ := Option.map_eq_some_iff.1 hs
  obtain ⟨q, hq, hqv⟩ := current "relay:Alter" p hp
  have hkeys : (loadPlugins (Installation.relaunched "Alter" 2).directory ∅ .setting
      (some "relay")).keys = (k.working.get .setting).keys := by decide +kernel
  have hsame := KeyMap.keys_eq_iff.1 hkeys
  obtain ⟨hw, -, hm⟩ := still (fun key h => (hsame key).symm.trans h)
    (fun key q h _ => (hsame key).trans (by simp [KeyMap.contains, h]))
  refine ⟨⟨q, hq, hqv.trans hv⟩, fun q hq hn => ?_, hw, hm, by decide +kernel⟩
  have hc := owned .condition "relay:Edit" q hq hn
  revert hc
  decide +kernel

theorem follow_of_not_marked (h : (k.followed d t x c).2 = false) :
    k.follow d t x c = (k, false) := by
  have hw : k.working.set c (k.working.get c) = k.working := by cases c <;> rfl
  rw [follow_eq, h, followed, PluginMap.follow_of_not_changed x.kind h, hw]

theorem apply_of_not_marked (h : ∀ c, (k.apply d t x).2.get c = false) :
    k.apply d t x = (k, .none) := by
  have hf (c : Category) : k.follow d t x c = (k, false) :=
    follow_of_not_marked (marks_apply.symm.trans (h c))
  rw [apply, hf .condition]
  dsimp only
  rw [hf .setting]
  rfl

/-- Nothing of the package is left to be dropped. -/
theorem isRemoved_apply (h : k.Settled) (hx : x.kind.prunes = true) :
    PluginMap.isRemoved ((k.apply d t x).1.working.get c) (loadPlugins d u c (some x.package))
      x.package = false := by
  rw [PluginMap.isRemoved_eq_false_iff]
  intro key q hq hn
  rw [contains_loadPlugins u t]
  exact scanned_of_apply h hx hq hn

/-- Nothing of the scan is left to be taken over. -/
theorem adopts_apply (h : k.Settled) : (k.apply d t x).1.adopts d u x c = false := by
  -- The scan with other characteristics has the keys and versions of the one that was followed.
  have hadd (hx : x.kind ≠ .removed) : PluginMap.isAdded ((k.apply d t x).1.working.get c)
      (loadPlugins d u c (some x.package)) = false := by
    rw [PluginMap.isAdded_eq_false_iff]
    intro key hs
    rw [contains_loadPlugins u t] at hs
    exact contains_of_apply h hx hs
  obtain ⟨kind, package⟩ := x
  cases kind with
  | added => exact hadd (by simp)
  | removed => rfl
  | changed =>
    rw [adopts, PluginMap.rewrites, hadd (by simp), Bool.false_or]
    cases hc : c.relaunchesOnUpgrade with
    | false => rfl
    | true =>
      rw [if_pos rfl, Option.any_some, PluginMap.isVersionChanged_eq_false_iff]
      intro key p hp r hr
      obtain ⟨q, hq, hv⟩ := exists_of_loadPlugins t hp
      obtain ⟨s, hs, hsv⟩ := version_of_changed h hc hq
      cases hr.symm.trans hs
      exact hsv.trans hv

/-- A change that was followed is not followed again, whatever is known about plugins by then. -/
theorem apply_again (run : Run empty k) (d : Directory) (t u : Characteristics)
    (x : PackageChange) : (k.apply d t x).1.apply d u x = ((k.apply d t x).1, .none) := by
  have hk := settled_run settled_empty run
  have hk' : (k.apply d t x).1.Settled := settled_perform hk d t (.follow x)
  refine apply_of_not_marked fun c => ?_
  rw [marks_apply_eq hk', adopts_apply hk, Bool.or_false]
  cases hx : x.kind.prunes with
  | false => rfl
  | true => exact isRemoved_apply hk hx

/-- By the second time the plugin is known to be buggy. -/
theorem apply_again_upgraded :
    let k := empty.loadAll (Installation.metered 1).directory ∅
    let d := (Installation.metered 2).directory
    let noted := Characteristics.insert ∅ .condition "meter:Edit" ⟨.ofList [.buggy], ∅⟩
    let k' := k.apply d ∅ ⟨.changed, "meter"⟩
    k'.2 = ⟨true, false⟩ ∧ k'.1.apply d noted ⟨.changed, "meter"⟩ = (k'.1, .none) := by
  intro k d noted k'
  have hk : Run empty k := .perform _ ∅ .loadAll .refl
  have hm : k'.2 = ⟨true, false⟩ := by decide +kernel
  exact ⟨hm, apply_again hk d ∅ noted ⟨.changed, "meter"⟩⟩

end Catalogue

end PluginRegistry
