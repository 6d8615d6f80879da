import PluginRegistry.Proofs.Adoption

/-!
# What a change of one package does to the others

Entries stand under joined names, and names of different packages may join to the same key where
one of them goes on with a colon (`registryName_collides`). Such a key is the only place where
following a package can reach the entry of another one, and it does so only when it takes over what
it scanned (`others_of_apply`).
-/

namespace PluginRegistry

/-- If two packages share a registry name, one package name is the other, a colon and more. -/
theorem registryName_collides {package other editor editor' : String}
    (h : registryName package editor = registryName other editor') (hne : package ≠ other) :
    (∃ rest, other = package ++ ":" ++ rest) ∨ ∃ rest, package = other ++ ":" ++ rest := by
  have hl : package.toList ++ ':' :: editor.toList = other.toList ++ ':' :: editor'.toList := by
    have := congrArg String.toList h
    simpa [registryName] using this
  -- Where the shorter name ends and its colon stands, the longer one goes on with that colon.
  have key {p q : String} {l r s : List Char} (hq : q.toList = p.toList ++ s) (hpq : p ≠ q)
      (hs : ':' :: l = s ++ ':' :: r) : ∃ rest, q = p ++ ":" ++ rest := by
    cases s with
    | nil => exact absurd (String.toList_inj.1 (by simpa using hq.symm)) hpq
    | cons c s =>
      obtain ⟨rfl, -⟩ := List.cons.inj hs
      refine ⟨String.ofList s, String.toList_inj.1 ?_⟩
      simpa using hq
  rcases List.append_eq_append_iff.1 hl with ⟨s, hq, hs⟩ | ⟨s, hq, hs⟩
  · exact Or.inl (key hq hne hs)
  · exact Or.inr (key hq hne.symm hs)

def Installation.alone : Installation :=
  (bare 0).install ((Package.bare "a" 1).withPlugin .condition "b:c" "Query")

/-- The new package `a:b` brings a condition under the key of the one that is there. -/
def Installation.rivalled : Installation :=
  alone.install ((Package.bare "a:b" 2).withPlugin .condition "c" "Ask")

namespace Catalogue

variable {k : Catalogue}

/-- Surroundings whose directory lists an installation. -/
def Installed (d : Directory) (_ : Characteristics) : Prop := ∃ i : Installation, d = i.directory

theorem registryName_of_run (hr : RunIn Installed empty k) {c : Category} {key : String}
    {p : Plugin} (hp : (k.working.get c).get? key = some p) : p.registryName = key := by
  rcases scanned_run settled_empty hr hp with h | ⟨_, _, _, ⟨i, rfl⟩, h⟩
  · cases c <;> cases h
  · exact (packageName_of_loadPlugins h).1

/-- An entry of another package stays as it is, unless the scan holds its key and is taken over;
then the scanned plugin takes its place. Their package names differ by a colon and more. -/
theorem others_of_apply (hr : RunIn Installed empty k) (i : Installation) (t : Characteristics)
    (x : PackageChange) (c : Category) {key : String} {q : Plugin}
    (hq : (k.working.get c).get? key = some q) (hn : q.packageName ≠ x.package) :
    ((k.apply i.directory t x).1.working.get c).get? key =
        (if k.adopts i.directory t x c then
          ((loadPlugins i.directory t c (some x.package)).get? key).or (some q) else some q) ∧
      ((loadPlugins i.directory t c (some x.package)).contains key = true →
        (∃ rest, x.package = q.packageName ++ ":" ++ rest) ∨
          ∃ rest, q.packageName = x.package ++ ":" ++ rest) := by
  have hk := settled_run settled_empty hr.run
  constructor
  · rw [get?_apply hk, hq]
    cases (loadPlugins i.directory t c (some x.package)).get? key with
    | some p => rfl
    | none => simp [hn]
  · intro hs
    obtain ⟨p, hp⟩ := Option.isSome_iff_exists.1 hs
    obtain ⟨hpk, -, -, -, hf⟩ := packageName_of_loadPlugins hp
    have hpn : x.package = p.packageName := of_decide_eq_true hf
    have hj : q.registryName = p.registryName := (registryName_of_run hr hq).trans hpk.symm
    rw [hpn] at hn ⊢
    exact registryName_collides hj hn

theorem run_alone : RunIn Installed empty (empty.loadAll Installation.alone.directory ∅) :=
  .perform .loadAll .refl ⟨_, rfl⟩

theorem others_of_apply_rivalled :
    let k := empty.loadAll Installation.alone.directory ∅
    ∃ q, (k.working.get .condition).get? "a:b:c" = some q ∧ q.packageName = "a" ∧
      (((k.apply Installation.rivalled.directory ∅ ⟨.changed, "a:b"⟩).1.working.get
        .condition).get? "a:b:c").map Plugin.packageName = some "a:b" ∧
      ((k.apply Installation.rivalled.directory ∅ ⟨.removed, "a:b"⟩).1.working.get
        .condition).get? "a:b:c" = some q := by
  intro k
  have hs : ((k.working.get .condition).get? "a:b:c").map Plugin.packageName = some "a" := by
    decide +kernel
  obtain ⟨q, hq, hn⟩ := Option.map_eq_some_iff.1 hs
  have hne : q.packageName ≠ "a:b" := by
    rw [hn]
    decide
  obtain ⟨hc, -⟩ := others_of_apply run_alone Installation.rivalled ∅ ⟨.changed, "a:b"⟩ .condition
    hq hne
  obtain ⟨hr, -⟩ := others_of_apply run_alone Installation.rivalled ∅ ⟨.removed, "a:b"⟩ .condition
    hq hne
  have hp : ((loadPlugins Installation.rivalled.directory ∅ .condition (some "a:b")).get?
      "a:b:c").map Plugin.packageName = some "a:b" := by decide +kernel
  obtain ⟨p, hp, hpn⟩ := Option.map_eq_some_iff.1 hp
  rw [if_pos (by decide +kernel), hp, Option.some_or] at hc
  exact ⟨q, hq, hn, by rw [hc, Option.map_some, hpn], hr⟩

theorem other_package_overwritten :
    ¬∀ (k : Catalogue) (i : Installation) (t : Characteristics) (x : PackageChange) (c : Category)
      (key : String) (q : Plugin), RunIn Installed empty k →
      (k.working.get c).get? key = some q → q.packageName ≠ x.package →
      ((k.apply i.directory t x).1.working.get c).get? key = some q := by
  intro h
  have hs : (((empty.loadAll Installation.alone.directory ∅).working.get .condition).get?
      "a:b:c").map Plugin.packageName = some "a" := by decide +kernel
  obtain ⟨q, hq, hn⟩ := Option.map_eq_some_iff.1 hs
  have hk := h _ Installation.rivalled ∅ ⟨.changed, "a:b"⟩ .condition "a:b:c" q run_alone hq
    (by rw [hn]; decide)
  have ha : ((((empty.loadAll Installation.alone.directory ∅).apply
      Installation.rivalled.directory ∅ ⟨.changed, "a:b"⟩).1.working.get .condition).get?
        "a:b:c").map Plugin.packageName = some "a:b" := by decide +kernel
  rw [hk, Option.map_some, hn] at ha
  exact absurd ha (by decide)

end Catalogue

end PluginRegistry
