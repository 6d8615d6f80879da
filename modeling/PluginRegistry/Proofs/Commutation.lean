import PluginRegistry.Proofs.Adoption
import PluginRegistry.Proofs.Announcements

/-!
# Changes of different packages

Where no package name has a colon, following a change of a package reads and writes the entries of
that package only. Changes of different packages can therefore be followed in any order
(`changes_commute`): the maps, what is published and what is reported about each change are the
same, and only the stamps of the snapshots tell the orders apart.
-/

namespace PluginRegistry

namespace PluginMap

variable {current current' scanned : PluginMap} {package : String}

theorem isRemoved_congr (hf : current.Filed) (hf' : current'.Filed)
    (h : ∀ key, packageOf key = package → current.get? key = current'.get? key) :
    isRemoved current scanned package = isRemoved current' scanned package := by
  rw [Bool.eq_iff_iff, isRemoved_iff, isRemoved_iff]
  constructor
  · rintro ⟨key, p, hp, hn, hs⟩
    exact ⟨key, p, (h key ((hf key p hp).symm.trans hn)).symm.trans hp, hn, hs⟩
  · rintro ⟨key, p, hp, hn, hs⟩
    exact ⟨key, p, (h key ((hf' key p hp).symm.trans hn)).trans hp, hn, hs⟩

end PluginMap

def Package.clock : Package := (bare "clock" 1).withPlugin .condition "Dial" "Tick"

def Installation.timed (i : Installation) : Installation := i.install .clock

theorem Installation.plain_timed {i : Installation} (h : i.Plain) : i.timed.Plain := by
  apply h.install
  change ':' ∉ "clock".toList
  decide

namespace Catalogue

variable {d : Directory} {t : Characteristics} {i : Installation} {x y : PackageChange}
  {k k' : Catalogue} {c : Category} {package : String}

/-- The working maps and the published maps, whatever the stamps of the snapshots. -/
def contents (k : Catalogue) : ByCategory PluginMap × ByCategory (Option PluginMap) :=
  (k.working, k.published.latest.map (Option.map Snapshot.plugins))

theorem contents_eq_iff :
    k.contents = k'.contents ↔
      ∀ c, k.working.get c = k'.working.get c ∧
        k.published.plugins? c = k'.published.plugins? c := by
  have hp (k : Catalogue) (c : Category) :
      (k.published.latest.map (Option.map Snapshot.plugins)).get c = k.published.plugins? c :=
    ByCategory.get_map ..
  rw [contents, contents, Prod.mk.injEq]
  constructor
  · rintro ⟨hw, hl⟩ c
    rw [hw, ← hp, ← hp, hl]
    exact ⟨rfl, rfl⟩
  · intro h
    refine ⟨ByCategory.ext_get fun c => (h c).1, ByCategory.ext_get fun c => ?_⟩
    rw [hp, hp, (h c).2]

theorem plugins?_apply :
    (k.apply d t x).1.published.plugins? c =
      if (k.apply d t x).2.get c then some ((k.apply d t x).1.working.get c)
      else k.published.plugins? c := by
  have hp := publishes_apply k d t x
  split
  · next hm =>
    obtain ⟨s, hs, hpl, -⟩ := hp.fresh c hm
    rw [Published.plugins?, hs, Option.map_some, hpl]
  · next hm =>
    have hs : (k.apply d t x).1.published.snapshot? c = k.published.snapshot? c :=
      hp.kept c (by simpa using hm)
    rw [Published.plugins?, hs, Published.plugins?]

/-- What following a change does can be told from what the catalogue shows. -/
theorem apply_congr (h : k.contents = k'.contents) :
    (k.apply d t x).1.contents = (k'.apply d t x).1.contents ∧
      (k.apply d t x).2 = (k'.apply d t x).2 := by
  have hk := contents_eq_iff.1 h
  have hf (c : Category) : k.followed d t x c = k'.followed d t x c := by
    rw [followed, followed, consulted, consulted, (hk c).1, (hk c).2]
  have hm (c : Category) : (k.apply d t x).2.get c = (k'.apply d t x).2.get c := by
    rw [marks_apply, marks_apply, hf]
  refine ⟨contents_eq_iff.2 fun c => ?_, ByCategory.ext_get hm⟩
  rw [plugins?_apply, plugins?_apply, working_apply, working_apply, hm, hf, (hk c).2]
  exact ⟨rfl, rfl⟩

/-- Surroundings whose directory lists an installation without colons in package names. -/
def PlainlyInstalled (d : Directory) (_ : Characteristics) : Prop :=
  ∃ i : Installation, i.Plain ∧ d = i.directory

def Filed (k : Catalogue) : Prop := ∀ c, (k.working.get c).Filed

theorem filed_empty : Filed empty := by
  intro c key p hp
  cases c <;> cases hp

theorem filed_loadAll (hi : i.Plain) (k : Catalogue) (t : Characteristics) :
    (k.loadAll i.directory t).Filed := by
  intro c
  rw [working_loadAll]
  exact filed_loadPlugins hi

theorem filed_apply (hi : i.Plain) (h : k.Filed) (t : Characteristics) (x : PackageChange) :
    (k.apply i.directory t x).1.Filed := by
  intro c
  rw [working_apply]
  exact filed_followed hi (h c)

theorem filed_run (h : k.Filed) (run : RunIn PlainlyInstalled k k') : k'.Filed := by
  induction run with
  | refl => exact h
  | perform o _ inside ih =>
    obtain ⟨i, hi, rfl⟩ := inside
    cases o with
    | loadAll => exact filed_loadAll hi _ _
    | reset =>
      intro c key p hp
      cases c <;> cases hp
    | follow x => exact filed_apply hi ih _ x

structure Orderly (k : Catalogue) : Prop where
  settled : k.Settled
  filed : k.Filed

theorem Orderly.apply (h : k.Orderly) (hi : i.Plain) (t : Characteristics) (x : PackageChange) :
    (k.apply i.directory t x).1.Orderly :=
  ⟨settled_perform h.settled _ t (.follow x), filed_apply hi h.filed t x⟩

theorem orderly_run (h : k.Orderly) (run : RunIn PlainlyInstalled k k') : k'.Orderly :=
  ⟨settled_run h.settled run.run, filed_run h.filed run⟩

/-- Two catalogues have the same working entries under the keys of a package. -/
def Agrees (package : String) (k k' : Catalogue) : Prop :=
  ∀ c key, packageOf key = package → (k.working.get c).get? key = (k'.working.get c).get? key

theorem Agrees.symm (h : Agrees package k k') : Agrees package k' k :=
  fun c key hk => (h c key hk).symm

theorem Agrees.trans {k'' : Catalogue} (h : Agrees package k k') (h' : Agrees package k' k'') :
    Agrees package k k'' := fun c key hk => (h c key hk).trans (h' c key hk)

/-- A change of another package leaves the entries of a package alone. -/
theorem agrees_of_other (hi : i.Plain) (hk : k.Orderly) (hx : x.package ≠ package) :
    Agrees package (k.apply i.directory t x).1 k := by
  rintro c key rfl
  rw [working_apply]
  exact get?_followed_of_other hi (hk.filed c) hx

/-- Whether a scan is taken over depends on the entries of its package only. -/
theorem adopts_congr (hi : i.Plain) (h : Agrees x.package k k') :
    k.adopts i.directory t x c = k'.adopts i.directory t x c := by
  have hs (key : String) (p : Plugin)
      (hp : (loadPlugins i.directory t c (some x.package)).get? key = some p) :
      (k.working.get c).get? key = (k'.working.get c).get? key :=
    h c key (packageOf_of_get?_loadPlugins hi hp)
  rw [adopts, adopts]
  cases x.kind <;> cases c <;>
    simp [PluginMap.rewrites, Category.relaunchesOnUpgrade, PluginMap.isAdded_congr hs,
      PluginMap.isVersionChanged_congr hs]

/-- Catalogues that agree on a package still do when both have followed the same change. -/
theorem Agrees.apply (h : Agrees package k k') (hi : i.Plain) (hk : k.Orderly) (hk' : k'.Orderly)
    (t : Characteristics) (x : PackageChange) :
    Agrees package (k.apply i.directory t x).1 (k'.apply i.directory t x).1 := by
  by_cases hx : x.package = package
  · subst hx
    intro c key hkey
    rw [get?_apply hk.settled, get?_apply hk'.settled, adopts_congr hi h, h c key hkey]
  · exact (agrees_of_other hi hk hx).trans (h.trans (agrees_of_other hi hk' hx).symm)

theorem Agrees.marks (h : Agrees x.package k k') (hi : i.Plain) (hk : k.Orderly)
    (hk' : k'.Orderly) : (k.apply i.directory t x).2 = (k'.apply i.directory t x).2 := by
  refine ByCategory.ext_get fun c => ?_
  rw [marks_apply_eq hk.settled, marks_apply_eq hk'.settled, adopts_congr hi h,
    PluginMap.isRemoved_congr (hk.filed c) (hk'.filed c) (h c)]

/-- Of a package with which `y` has nothing to do, either order leaves what `x` alone leaves. -/
theorem agrees_swap (hi : i.Plain) (hk : k.Orderly) (hy : y.package ≠ package) :
    Agrees package ((k.apply i.directory t x).1.apply i.directory t y).1
      ((k.apply i.directory t y).1.apply i.directory t x).1 := by
  have hafter : Agrees package ((k.apply i.directory t x).1.apply i.directory t y).1
      (k.apply i.directory t x).1 := agrees_of_other hi (hk.apply hi t x) hy
  have hbefore : Agrees package (k.apply i.directory t y).1 k := agrees_of_other hi hk hy
  exact hafter.trans (hbefore.apply hi (hk.apply hi t y) hk t x).symm

theorem working_swap (hi : i.Plain) (hk : k.Orderly) (hxy : x.package ≠ y.package) (c : Category) :
    ((k.apply i.directory t x).1.apply i.directory t y).1.working.get c =
      ((k.apply i.directory t y).1.apply i.directory t x).1.working.get c := by
  apply KeyMap.ext_get?
  intro key
  by_cases hy : y.package = packageOf key
  · exact (agrees_swap hi hk (fun hx => hxy (hx.trans hy.symm)) c key rfl).symm
  · exact agrees_swap hi hk hy c key rfl

theorem marks_swap (hi : i.Plain) (hk : k.Orderly) (hxy : x.package ≠ y.package) :
    ((k.apply i.directory t y).1.apply i.directory t x).2 = (k.apply i.directory t x).2 :=
  (agrees_of_other hi hk hxy.symm).marks hi (hk.apply hi t y) hk

/-- What is published after two changes is the final map, unless neither change marked it. -/
theorem plugins?_apply_apply :
    ((k.apply d t x).1.apply d t y).1.published.plugins? c =
      if (k.apply d t x).2.get c || ((k.apply d t x).1.apply d t y).2.get c then
        some (((k.apply d t x).1.apply d t y).1.working.get c)
      else k.published.plugins? c := by
  rw [plugins?_apply (x := y), plugins?_apply (x := x)]
  cases hy : ((k.apply d t x).1.apply d t y).2.get c with
  | true => rw [Bool.or_true, if_pos rfl, if_pos rfl]
  | false =>
    have hw : ((k.apply d t x).1.apply d t y).1.working.get c =
        (k.apply d t x).1.working.get c := working_of_not_marked (o := .follow y) hy
    rw [Bool.or_false, hw]
    rfl

theorem contents_swap (hi : i.Plain) (hk : k.Orderly) (hxy : x.package ≠ y.package) :
    ((k.apply i.directory t x).1.apply i.directory t y).1.contents =
      ((k.apply i.directory t y).1.apply i.directory t x).1.contents := by
  refine contents_eq_iff.2 fun c => ⟨working_swap hi hk hxy c, ?_⟩
  rw [plugins?_apply_apply, plugins?_apply_apply, marks_swap hi hk hxy, marks_swap hi hk hxy.symm,
    working_swap hi hk hxy, Bool.or_comm]

def applyAll (d : Directory) (t : Characteristics) (k : Catalogue) (xs : List PackageChange) :
    Catalogue := xs.foldl (fun k x => (k.apply d t x).1) k

theorem contents_applyAll_congr (h : k.contents = k'.contents) (xs : List PackageChange) :
    (k.applyAll d t xs).contents = (k'.applyAll d t xs).contents := by
  induction xs generalizing k k' with
  | nil => exact h
  | cons x xs ih => exact ih (apply_congr h).1

theorem contents_applyAll_perm (hi : i.Plain) (hk : k.Orderly) {xs ys : List PackageChange}
    (perm : xs.Perm ys) (distinct : xs.Pairwise fun x y => x.package ≠ y.package) :
    (k.applyAll i.directory t xs).contents = (k.applyAll i.directory t ys).contents := by
  induction perm generalizing k with
  | nil => rfl
  | cons x _ ih => exact ih (hk.apply hi t x) (List.pairwise_cons.1 distinct).2
  | swap x y l =>
    -- The states after the two changes differ in their stamps, which no later change looks at.
    have hxy := (List.pairwise_cons.1 distinct).1 x List.mem_cons_self
    exact contents_applyAll_congr (contents_swap hi hk hxy) l
  | trans perm _ ih ih' =>
    exact (ih hk distinct).trans (ih' hk ((perm.pairwise_iff Ne.symm).1 distinct))

/-- Changes of different packages lead to the same maps and to the same reports in either order,
and the packages on a storage may be followed in any order. -/
theorem changes_commute (run : RunIn PlainlyInstalled empty k) (hi : i.Plain)
    (t : Characteristics) :
    (∀ x y : PackageChange, x.package ≠ y.package →
      let first := k.apply i.directory t x
      let first' := k.apply i.directory t y
      let second := first.1.apply i.directory t y
      let second' := first'.1.apply i.directory t x
      second.1.contents = second'.1.contents ∧ first.2 = second'.2 ∧ second.2 = first'.2) ∧
    ∀ (packages packages' : List String) (available : Bool), packages.Nodup →
      packages.Perm packages' →
      (k.applyAll i.directory t (PackageEvent.storage packages available).changes).contents =
        (k.applyAll i.directory t (PackageEvent.storage packages' available).changes).contents := by
  have hk : k.Orderly := orderly_run ⟨settled_empty, filed_empty⟩ run
  refine ⟨fun x y hxy => ⟨?_, ?_, ?_⟩, fun packages packages' available distinct perm => ?_⟩
  · exact contents_swap hi hk hxy
  · exact (marks_swap hi hk hxy).symm
  · exact marks_swap hi hk hxy.symm
  · exact contents_applyAll_perm hi hk (perm.map _) (List.pairwise_map.2 distinct)

/-- A clock arrives while another package is upgraded. -/
theorem changes_commute_timed :
    let k := empty.loadAll (Installation.metered 1).directory ∅
    let d := (Installation.metered 2).timed.directory
    ((k.apply d ∅ ⟨.changed, "meter"⟩).1.apply d ∅ ⟨.added, "clock"⟩).1.contents =
        ((k.apply d ∅ ⟨.added, "clock"⟩).1.apply d ∅ ⟨.changed, "meter"⟩).1.contents ∧
      ((k.apply d ∅ ⟨.added, "clock"⟩).1.apply d ∅ ⟨.changed, "meter"⟩).2 = ⟨true, false⟩ ∧
      (k.applyAll d ∅ (PackageEvent.storage ["meter", "clock"] true).changes).contents =
        (k.applyAll d ∅ (PackageEvent.storage ["clock", "meter"] true).changes).contents := by
  intro k d
  have hk : RunIn PlainlyInstalled empty k :=
    .perform .loadAll .refl ⟨_, Installation.plain_metered 1, rfl⟩
  obtain ⟨pairs, storage⟩ :=
    changes_commute hk (Installation.plain_timed (Installation.plain_metered 2)) ∅
  obtain ⟨hc, hm, -⟩ := pairs ⟨.changed, "meter"⟩ ⟨.added, "clock"⟩ (by decide)
  refine ⟨hc, hm.symm.trans (by decide +kernel), ?_⟩
  exact storage ["meter", "clock"] ["clock", "meter"] true (by decide) (by decide)

end Catalogue

end PluginRegistry
