import PluginRegistry.Proofs.Commutation
import PluginRegistry.Proofs.FullReload

/-!
# Packages that come and go

A package may be installed, replaced and uninstalled many times, and changes of it may be followed
whether they happened or not: once it is gone and its removal is followed, the catalogue is as it
was before, less the entries that the package had then (`get?_departed`). A catalogue that knew
nothing of the package shows no trace of it (`restored_of_departure`).
-/

namespace PluginRegistry.Catalogue

variable {t : Characteristics} {i j : Installation} {k k' : Catalogue} {c : Category}
  {package : String}

/-- A package is installed, replaced and uninstalled, and changes of it are followed, in any order
and with whatever is known about plugins by then. -/
inductive Stay (package : String) (i : Installation) (k : Catalogue) :
    Installation → Catalogue → Prop
  | refl : Stay package i k i k
  | alter {j : Installation} {k' : Catalogue} (stay : Stay package i k j k') (a : Alteration)
      (about : a.package = package) (plain : a.Plain) : Stay package i k (j.alter a) k'
  | follow {j : Installation} {k' : Catalogue} (stay : Stay package i k j k')
      (t : Characteristics) (kind : ChangeKind) :
      Stay package i k j (k'.apply j.directory t ⟨kind, package⟩).1

theorem snapshot?_runIn {S : Directory → Characteristics → Prop} (run : RunIn S k k')
    (h : k.published.snapshot? c ≠ none) : k'.published.snapshot? c ≠ none := by
  induction run with
  | refl => exact h
  | perform o _ _ ih => exact snapshot?_perform o ih

/-- A stay is a run in plain surroundings. -/
theorem run_stay (hi : i.Plain) (stay : Stay package i k j k') :
    j.Plain ∧ RunIn PlainlyInstalled k k' := by
  induction stay with
  | refl => exact ⟨hi, .refl⟩
  | alter _ a _ plain ih =>
    have hplain : ∀ b ∈ [a], b.Plain := by simpa using plain
    exact ⟨ih.1.alterAll hplain, ih.2⟩
  | follow _ t kind ih => exact ⟨ih.1, ih.2.perform (.follow ⟨kind, package⟩) ⟨_, ih.1, rfl⟩⟩

/-- Whatever happens to a package, the entries of the others stay as they are. -/
theorem agrees_stay (hi : i.Plain) (hk : k.Orderly) (stay : Stay package i k j k')
    {other : String} (hne : package ≠ other) : Agrees other k' k := by
  induction stay with
  | refl => exact fun _ _ _ => rfl
  | alter _ _ _ _ ih => exact ih
  | follow stay t kind ih =>
    obtain ⟨hj, run⟩ := run_stay hi stay
    exact (agrees_of_other hj (orderly_run hk run) hne).trans ih

/-- Once a package is gone and its removal is followed, just its entries are gone. -/
theorem get?_departed (hi : i.Plain) (hk : k.Orderly) (stay : Stay package i k j k')
    (gone : j.package? package = none) (t : Characteristics) (c : Category) (key : String) :
    ((k'.apply j.directory t ⟨.removed, package⟩).1.working.get c).get? key =
      ((k.working.get c).get? key).filter fun p => p.packageName ≠ package := by
  have hk' : k'.Orderly := orderly_run hk (run_stay hi stay).2
  have hown {m : PluginMap} (hf : m.Filed) (hkey : packageOf key = package) :
      (m.get? key).filter (fun p => p.packageName ≠ package) = none := by
    rw [Option.filter_eq_none_iff]
    intro p hp
    simpa using (hf key p hp).trans hkey
  have hs : loadPlugins j.directory t c (some package) = ∅ := loadPlugins_of_absent gone
  rw [get?_apply hk'.settled, hs]
  change ((k'.working.get c).get? key).filter (fun p => p.packageName ≠ package) = _
  -- Keys of the package lose their entries on both sides, all other keys were never touched.
  by_cases hkey : packageOf key = package
  · rw [hown (hk'.filed c) hkey, hown (hk.filed c) hkey]
  · rw [agrees_stay hi hk stay (fun h => hkey h.symm) c key rfl]

/-- A loaded catalogue without entries of a package has the same maps and the same published maps
again when the package was there in the meantime. -/
theorem restored_of_departure {i₀ : Installation} {t₀ : Characteristics} {k₀ : Catalogue}
    (plain : i₀.Plain) (loaded : RunIn PlainlyInstalled (k₀.loadAll i₀.directory t₀) k)
    (absent : ∀ c key p, (k.working.get c).get? key = some p → p.packageName ≠ package)
    (hi : i.Plain) (stay : Stay package i k j k') (gone : j.package? package = none)
    (t : Characteristics) :
    (k'.apply j.directory t ⟨.removed, package⟩).1.contents = k.contents := by
  have hk : k.Orderly :=
    orderly_run ⟨settled_loadAll k₀ i₀.directory t₀, filed_loadAll plain k₀ t₀⟩ loaded
  obtain ⟨hj, run⟩ := run_stay hi stay
  have left : RunIn PlainlyInstalled k (k'.apply j.directory t ⟨.removed, package⟩).1 :=
    run.perform (.follow ⟨.removed, package⟩) ⟨j, hj, rfl⟩
  have hw (c : Category) :
      (k'.apply j.directory t ⟨.removed, package⟩).1.working.get c = k.working.get c := by
    apply KeyMap.ext_get?
    intro key
    rw [get?_departed hi hk stay gone]
    cases hp : (k.working.get c).get? key with
    | none => rfl
    | some p => simp [absent c key p hp]
  have hs (c : Category) : k.published.snapshot? c ≠ none :=
    snapshot?_runIn loaded (snapshot?_loadAll k₀ i₀.directory t₀ c)
  refine contents_eq_iff.2 fun c => ⟨hw c, ?_⟩
  rw [(orderly_run hk left).settled.plugins?_eq (snapshot?_runIn left (hs c)),
    hk.settled.plugins?_eq (hs c), hw]

/-- A package comes and is upgraded; it goes and comes back before anybody looks, and goes again. -/
theorem restored_of_departure_metered :
    let i := (Installation.bare 0).timed
    let upgraded := (i.install (.meter 1)).install (.meter 2)
    let back := (upgraded.uninstall "meter").install (.meter 3)
    let k := empty.loadAll i.directory ∅
    let k₁ := (k.apply (i.install (.meter 1)).directory ∅ ⟨.added, "meter"⟩).1
    let k₂ := (k₁.apply upgraded.directory ∅ ⟨.changed, "meter"⟩).1
    let k₃ := (k₂.apply back.directory ∅ ⟨.added, "meter"⟩).1
    k₃.contents ≠ k.contents ∧
      (k₃.apply (back.uninstall "meter").directory ∅ ⟨.removed, "meter"⟩).1.contents =
        k.contents := by
  intro i upgraded back k k₁ k₂ k₃
  have hi : i.Plain := Installation.plain_timed (Installation.plain_bare 0)
  have hmeter (version : Int64) : (Alteration.install (.meter version)).Plain :=
    Package.plainName_meter version
  have absent (c : Category) (key : String) (p : Plugin)
      (hp : (k.working.get c).get? key = some p) : p.packageName ≠ "meter" := by
    rw [working_loadAll] at hp
    obtain ⟨-, q, hq, -⟩ := packageName_of_loadPlugins hp
    intro hn
    have hnone : i.package? "meter" = none := by decide +kernel
    rw [hn, hnone] at hq
    cases hq
  have noticed : Stay "meter" i k upgraded k₂ :=
    ((Stay.refl.alter (.install (.meter 1)) rfl (hmeter 1)).follow ∅ .added |>.alter
      (.install (.meter 2)) rfl (hmeter 2)).follow ∅ .changed
  have stay : Stay "meter" i k (back.uninstall "meter") k₃ :=
    ((noticed.alter (.uninstall "meter") rfl trivial).alter (.install (.meter 3)) rfl
      (hmeter 3)).follow ∅ .added |>.alter (.uninstall "meter") rfl trivial
  exact ⟨by decide +kernel, restored_of_departure hi .refl absent hi stay (by decide +kernel) ∅⟩

end PluginRegistry.Catalogue
