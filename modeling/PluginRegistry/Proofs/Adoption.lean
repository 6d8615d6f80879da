import PluginRegistry.Proofs.Publication

/-!
# What a handler takes over

Whether a handler takes over the scan of a package can be told from the working map and that scan
(`adopts`), since the snapshot that is compared with the scan is the working map. Every entry of a
working map was scanned at some time of the run (`scanned_run`).
-/

namespace PluginRegistry.Catalogue

variable {d : Directory} {t : Characteristics} {x : PackageChange} {k k' : Catalogue} {c : Category}

/-- Whether following a change takes over all that is scanned of the package: it arrives or changes
with a new key, or it changes with a condition in another version. -/
def adopts (d : Directory) (t : Characteristics) (x : PackageChange) (k : Catalogue)
    (c : Category) : Bool :=
  PluginMap.rewrites x.kind (k.working.get c) (loadPlugins d t c (some x.package))
    (if c.relaunchesOnUpgrade then some (k.working.get c) else none)

theorem isVersionChanged_empty (scanned : PluginMap) :
    PluginMap.isVersionChanged ∅ scanned = false := by
  by_contra h
  obtain ⟨_, _, q, -, hq, -⟩ := PluginMap.isVersionChanged_iff.1 (by simpa using h)
  cases hq

theorem rewrites_consulted (h : k.Settled) (scanned : PluginMap) (kind : ChangeKind) :
    PluginMap.rewrites kind (k.working.get c) scanned (k.consulted c) =
      PluginMap.rewrites kind (k.working.get c) scanned
        (if c.relaunchesOnUpgrade then some (k.working.get c) else none) := by
  rw [consulted]
  rcases h.published c with hp | ⟨hp, hw⟩
  · rw [hp]
  · -- Before the first publication nothing is compared, and nothing is there to compare with.
    have hn : k.published.plugins? c = none := by rw [Published.plugins?, hp, Option.map_none]
    rw [hn, hw]
    cases kind <;> cases c <;>
      simp [PluginMap.rewrites, Category.relaunchesOnUpgrade, isVersionChanged_empty]

/-- Under a scanned key stands the scanned entry if the scan is taken over and the former entry
otherwise; a handler that prunes drops all other entries of the package. -/
theorem get?_apply (h : k.Settled) (key : String) :
    ((k.apply d t x).1.working.get c).get? key =
      match (loadPlugins d t c (some x.package)).get? key with
      | some p => if k.adopts d t x c then some p else (k.working.get c).get? key
      | none =>
        if x.kind.prunes then ((k.working.get c).get? key).filter fun p => p.packageName ≠ x.package
        else (k.working.get c).get? key := by
  rw [working_apply, followed, PluginMap.get?_follow, rewrites_consulted h]
  rfl

/-- A category is marked if entries were dropped or the scan was taken over. -/
theorem marks_apply_eq (h : k.Settled) :
    (k.apply d t x).2.get c =
      (x.kind.prunes && PluginMap.isRemoved (k.working.get c)
          (loadPlugins d t c (some x.package)) x.package || k.adopts d t x c) := by
  rw [marks_apply, followed, PluginMap.changed_follow, rewrites_consulted h, adopts]

theorem isAdded_of_not_adopts (h : k.adopts d t x c = false) (hx : x.kind ≠ .removed) :
    PluginMap.isAdded (k.working.get c) (loadPlugins d t c (some x.package)) = false := by
  rw [adopts] at h
  cases hk : x.kind with
  | added =>
    rw [hk] at h
    exact h
  | removed => exact absurd hk hx
  | changed =>
    rw [hk] at h
    exact (Bool.or_eq_false_iff.1 h).1

theorem known_of_not_adopts {package key : String} {p : Plugin}
    (h : k.adopts d t ⟨.changed, package⟩ c = false)
    (hp : (loadPlugins d t c (some package)).get? key = some p) :
    ∃ q, (k.working.get c).get? key = some q ∧
      (c.relaunchesOnUpgrade = true → q.version = p.version) := by
  obtain ⟨⟨q, hq⟩, hv⟩ := PluginMap.known_of_not_rewrites h hp
  refine ⟨q, hq, fun hr => hv _ ?_ q hq⟩
  rw [if_pos hr]
  rfl

inductive RunIn (surroundings : Directory → Characteristics → Prop) (k : Catalogue) :
    Catalogue → Prop
  | refl : RunIn surroundings k k
  | perform {k' : Catalogue} {d : Directory} {t : Characteristics} (o : Operation)
      (h : RunIn surroundings k k') (inside : surroundings d t) :
      RunIn surroundings k (o.perform d t k').1

theorem RunIn.run {S : Directory → Characteristics → Prop} (h : RunIn S k k') : Run k k' := by
  induction h with
  | refl => exact .refl
  | perform o _ _ ih => exact .perform _ _ o ih

theorem scanned_perform (h : k.Settled) (o : Operation) {key : String} {p : Plugin}
    (hp : ((o.perform d t k).1.working.get c).get? key = some p) :
    (k.working.get c).get? key = some p ∨
      ∃ filter, (loadPlugins d t c filter).get? key = some p := by
  cases o with
  | loadAll =>
    rw [Operation.perform, working_loadAll] at hp
    exact Or.inr ⟨none, hp⟩
  | reset =>
    have he : (k.reset).working.get c = ∅ := by cases c <;> rfl
    rw [Operation.perform, he] at hp
    cases hp
  | follow x =>
    rw [Operation.perform, get?_apply h] at hp
    cases hs : (loadPlugins d t c (some x.package)).get? key with
    | some q =>
      rw [hs] at hp
      dsimp only at hp
      split at hp
      · exact Or.inr ⟨some x.package, hs.trans hp⟩
      · exact Or.inl hp
    | none =>
      rw [hs] at hp
      dsimp only at hp
      split at hp
      · exact Or.inl (Option.filter_eq_some_iff.1 hp).1
      · exact Or.inl hp

/-- Every entry of a working map was there from the start or was scanned during the run. -/
theorem scanned_run {S : Directory → Characteristics → Prop} (hk : k.Settled) (h : RunIn S k k')
    {key : String} {p : Plugin} (hp : (k'.working.get c).get? key = some p) :
    (k.working.get c).get? key = some p ∨
      ∃ d t filter, S d t ∧ (loadPlugins d t c filter).get? key = some p := by
  induction h with
  | refl => exact Or.inl hp
  | perform o h inside ih =>
    rcases scanned_perform (settled_run hk h.run) o hp with hp | ⟨filter, hp⟩
    · exact ih hp
    · exact Or.inr ⟨_, _, filter, inside, hp⟩

end PluginRegistry.Catalogue
