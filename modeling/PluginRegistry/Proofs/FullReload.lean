import PluginRegistry.Proofs.VersionConvergence

/-!
# Following at once and loading anew

A catalogue that follows every change of an installation before the next one happens publishes the
conditions of a full scan, provided that a package that is replaced is replaced by another version
(`published_reloads`). A package is up to date once a change of it was followed (`upToDate_handle`),
and stays so until it changes again.
-/

namespace PluginRegistry

/-- A package that is there before and after in the same version is the same package. -/
def Installation.Renews (i j : Installation) : Prop :=
  ∀ name p q, i.package? name = some p → j.package? name = some q → p.version = q.version → p = q

theorem Installation.renews_install {i : Installation} {p : Package}
    (h : ∀ b, i.package? p.name = some b → b.version ≠ p.version) : i.Renews (i.install p) := by
  intro name a b ha hb hv
  rw [package?_install] at hb
  split at hb
  · next hn =>
    cases hb
    exact absurd hv (h a (hn ▸ ha))
  · exact Option.some.inj (ha.symm.trans hb)

theorem Installation.renews_uninstall (i : Installation) (name : String) :
    i.Renews (i.uninstall name) := by
  intro n a b ha hb _
  rw [package?_uninstall] at hb
  split at hb
  · cases hb
  · exact Option.some.inj (ha.symm.trans hb)

namespace Catalogue

variable {d : Directory} {t : Characteristics} {k : Catalogue} {c : Category}

theorem snapshot?_perform (o : Operation) (h : k.published.snapshot? c ≠ none) :
    (o.perform d t k).1.published.snapshot? c ≠ none := by
  have hp := publishes_perform k d t o
  cases hm : (o.perform d t k).2.get c with
  | true =>
    obtain ⟨s, hs, -⟩ := hp.fresh c hm
    rw [hs]
    exact Option.some_ne_none s
  | false =>
    have hk : (o.perform d t k).1.published.snapshot? c = k.published.snapshot? c := hp.kept c hm
    rwa [hk]

theorem snapshot?_loadAll (k : Catalogue) (d : Directory) (t : Characteristics) (c : Category) :
    (k.loadAll d t).published.snapshot? c ≠ none := by
  have hm : Changes.all.get c = true := by cases c <;> rfl
  obtain ⟨s, hs, -⟩ := (publishes_perform k d t .loadAll).fresh c hm
  have hs : (k.loadAll d t).published.snapshot? c = some s := hs
  rw [hs]
  exact Option.some_ne_none s

theorem Settled.plugins?_eq (h : k.Settled) (hs : k.published.snapshot? c ≠ none) :
    k.published.plugins? c = some (k.working.get c) :=
  (h.published c).resolve_right fun hn => hs hn.1

end Catalogue

namespace Tracking

variable {t : Characteristics} {i j : Installation} {k : Catalogue} {s s' : Tracking}
  {es fs : List PackageEvent} {x : PackageChange} {q : List PackageChange} {package : String}

theorem snapshot?_run (hr : Run t (loaded t i k) es s) (c : Category) :
    s.catalogue.published.snapshot? c ≠ none := by
  induction hr with
  | refl => exact Catalogue.snapshot?_loadAll k i.directory t c
  | shift _ _ ih => exact ih
  | handle _ _ ih => exact Catalogue.snapshot?_perform (.follow _) ih

def followAll (t : Characteristics) (s : Tracking) : Tracking :=
  { s with
    queue := []
    catalogue := s.queue.foldl (fun k x => (k.apply s.installation.directory t x).1) s.catalogue }

theorem followAll_cons (hq : s.queue = x :: q) : s.followAll t = (s.handle t x q).followAll t := by
  rw [followAll, hq]
  rfl

theorem run_followAll (hr : Run t s es s') : Run t s es (s'.followAll t) := by
  obtain ⟨i, q, k⟩ := s'
  induction q generalizing k with
  | nil => exact hr
  | cons x q ih => exact ih _ (hr.handle rfl)

/-- Every shift of the installation is followed before the next one. -/
inductive Attended (t : Characteristics) (s : Tracking) : Tracking → Prop
  | refl : Attended t s s
  | shift {es : List PackageEvent} {s' : Tracking} {j : Installation} (run : Attended t s s')
      (shifts : s'.installation.Shift es j) (renews : s'.installation.Renews j) :
      Attended t s ((s'.shift j es).followAll t)

theorem run_attended (h : Attended t (loaded t i k) s) :
    s.queue = [] ∧ ∃ es, Run t (loaded t i k) es s := by
  induction h with
  | refl => exact ⟨rfl, [], .refl⟩
  | shift _ hs _ ih =>
    obtain ⟨-, es, hr⟩ := ih
    exact ⟨rfl, _, run_followAll (hr.shift hs)⟩

def UpToDate (t : Characteristics) (s : Tracking) (package : String) : Prop :=
  ∀ key, packageOf key = package → s.conditions.get? key = (s.offered t package).get? key

/-- What makes following a change of this kind bring a package up to date: none of its conditions
is there yet, the package is gone, or its conditions in the map are told apart by their versions. -/
def Apt (t : Characteristics) (s : Tracking) (package : String) : ChangeKind → Prop
  | .added => ∀ key, packageOf key = package → s.conditions.get? key = none
  | .removed => s.installation.package? package = none
  | .changed => ∀ key p q, s.conditions.get? key = some p →
      (s.offered t package).get? key = some q → p.version = q.version → p = q

theorem get?_conditions_handle_of_other (ha : s.Aligned t) {key : String}
    (hx : x.package ≠ packageOf key) :
    (s.handle t x q).conditions.get? key = s.conditions.get? key := by
  rw [conditions, working_handle, Catalogue.get?_followed_of_other ha.plain (ha.filed _) hx]
  rfl

theorem get?_conditions_handle_of_unoffered (ha : s.Aligned t) {key : String}
    (hk : packageOf key = x.package) (hn : (s.offered t x.package).get? key = none) :
    (s.handle t x q).conditions.get? key =
      if x.kind.prunes then none else s.conditions.get? key := by
  have hs : (loadPlugins s.installation.directory t .condition (some x.package)).get? key = none :=
    hn
  rw [conditions, working_handle, Catalogue.followed, PluginMap.get?_follow, hs]
  dsimp only
  split
  · cases hp : (s.catalogue.working.get .condition).get? key with
    | none => rfl
    | some p =>
      have hpn := (ha.filed _ key p hp).trans hk
      simp [hpn]
  · rfl

theorem upToDate_handle (ha : s.Aligned t) (hk : s.catalogue.Settled) (hx : x.package = package)
    (h : s.Apt t package x.kind) : (s.handle t x q).UpToDate t package := by
  obtain ⟨kind, package⟩ := x
  subst hx
  intro key hkey
  change _ = (s.offered t package).get? key
  cases ho : (s.offered t package).get? key with
  | none =>
    rw [get?_conditions_handle_of_unoffered ha hkey ho]
    cases kind with
    | added => exact h key hkey
    | removed => rfl
    | changed => rfl
  | some r =>
    rw [get?_conditions_handle ha ho]
    split
    · rfl
    · next ht =>
      have hr : PluginMap.rewrites kind s.conditions (s.offered t package)
          (s.catalogue.consulted .condition) = false := by
        simpa [takesOver] using ht
      cases kind with
      | added =>
        have hn : s.conditions.contains key = false := by simp [KeyMap.contains, h key hkey]
        exact absurd (PluginMap.isAdded_iff.2 ⟨key, r, ho, hn⟩) (Bool.eq_false_iff.1 hr)
      | removed =>
        have he : s.offered t package = ∅ := loadPlugins_of_absent h
        rw [he] at ho
        cases ho
      | changed =>
        -- The scan was not taken over, so the versions agree, and with them the plugins.
        obtain ⟨p, hp, hv⟩ := Catalogue.version_of_not_rewrites hk hr ho
        have hp : s.conditions.get? key = some p := hp
        rw [hp, h key p r hp ho hv]

theorem UpToDate.handle (ha : s.Aligned t) (h : s.UpToDate t package) :
    (s.handle t x q).UpToDate t package := by
  intro key hkey
  change _ = (s.offered t package).get? key
  by_cases hx : x.package = package
  · subst hx
    cases ho : (s.offered t x.package).get? key with
    | none =>
      rw [get?_conditions_handle_of_unoffered ha hkey ho, h key hkey, ho]
      split <;> rfl
    | some r =>
      rw [get?_conditions_handle ha ho, h key hkey, ho]
      split <;> rfl
  · rw [get?_conditions_handle_of_other ha (hkey.symm ▸ hx)]
    exact h key hkey

theorem Apt.handle (ha : s.Aligned t) (hx : x.package ≠ package) {kind : ChangeKind}
    (h : s.Apt t package kind) : (s.handle t x q).Apt t package kind := by
  have hc (key : String) (hkey : packageOf key = package) :
      (s.handle t x q).conditions.get? key = s.conditions.get? key :=
    get?_conditions_handle_of_other ha (hkey.symm ▸ hx)
  cases kind with
  | added => exact fun key hkey => (hc key hkey).trans (h key hkey)
  | removed => exact h
  | changed =>
    intro key p r hp hr
    have hr : (s.offered t package).get? key = some r := hr
    rw [hc key (packageOf_of_get?_loadPlugins ha.plain hr)] at hp
    exact h key p r hp hr

/-- A queue that says something apt about a package and nothing else brings it up to date. -/
theorem upToDate_followAll (ha : s.Aligned t) (hk : s.catalogue.Settled)
    (h : s.UpToDate t package ∨ (∃ x ∈ s.queue, x.package = package) ∧
      ∀ x ∈ s.queue, x.package = package → s.Apt t package x.kind) :
    (s.followAll t).UpToDate t package := by
  generalize hq : s.queue = queue at h
  induction queue generalizing s with
  | nil =>
    have hu : s.UpToDate t package := h.resolve_right fun ⟨⟨x, hx, _⟩, _⟩ => List.not_mem_nil hx
    have he : s.followAll t = { s with queue := [] } := by
      rw [followAll, hq]
      rfl
    rw [he]
    exact hu
  | cons x queue ih =>
    rw [followAll_cons hq]
    have hk' : (s.handle t x queue).catalogue.Settled :=
      Catalogue.settled_perform hk _ t (.follow x)
    apply ih (aligned_handle ha hq) hk' rfl
    -- Changes of other packages leave what is apt as it is; the first of this package settles it.
    rcases h with hu | ⟨⟨y, hy, hyp⟩, hall⟩
    · exact Or.inl (hu.handle ha)
    · by_cases hx : x.package = package
      · exact Or.inl (upToDate_handle ha hk hx (hall x List.mem_cons_self hx))
      · right
        refine ⟨⟨y, (List.mem_cons.1 hy).resolve_left ?_, hyp⟩, fun z hz hzp => ?_⟩
        · rintro rfl
          exact hx hyp
        · exact (hall z (List.mem_cons_of_mem x hz) hzp).handle ha hx

/-- A package that is up to date stays so in a shift, or the events say aptly what became of it. -/
theorem upToDate_shift_or (ha : s.Aligned t) (hq : s.queue = []) (h : s.UpToDate t package)
    (hs : s.installation.Shift fs j) (hr : s.installation.Renews j) :
    (s.shift j fs).UpToDate t package ∨ (∃ x ∈ (s.shift j fs).queue, x.package = package) ∧
      ∀ x ∈ (s.shift j fs).queue, x.package = package → (s.shift j fs).Apt t package x.kind := by
  have hqueue : (s.shift j fs).queue = changesOf fs := by
    rw [shift, hq]
    rfl
  rw [hqueue]
  rcases hs.about package with ⟨hp, -⟩ | ⟨p, hn, hp, -, rfl, rfl⟩ | ⟨hp, he⟩ | ⟨hx, hm⟩
  · left
    intro key hkey
    have ho : (s.shift j fs).offered t package = s.offered t package := hs.loadPlugins_eq hp
    rw [ho]
    exact h key hkey
  · right
    refine ⟨⟨⟨.added, p.name⟩, List.mem_singleton.2 rfl, hn⟩, fun x hx _ => ?_⟩
    cases List.mem_singleton.1 hx
    intro key hkey
    have ho : s.offered t package = ∅ := loadPlugins_of_absent (hn ▸ hp)
    refine (h key hkey).trans ?_
    rw [ho]
    rfl
  · right
    rw [he]
    refine ⟨⟨_, List.mem_singleton.2 rfl, rfl⟩, fun x hx _ => ?_⟩
    cases List.mem_singleton.1 hx
    exact hp
  · right
    refine ⟨⟨_, hm, rfl⟩, fun x hxm _ => ?_⟩
    rw [hx x hxm]
    intro key p q hp hq hv
    have hq : (loadPlugins j.directory t .condition (some package)).get? key = some q := hq
    have hkey := packageOf_of_get?_loadPlugins (hs.plain ha.plain) hq
    have hp : (s.offered t package).get? key = some p := (h key hkey).symm.trans hp
    obtain ⟨-, a, hia, hpa, hfp⟩ := packageName_of_loadPlugins hp
    obtain ⟨-, b, hjb, hqb, hfq⟩ := packageName_of_loadPlugins hq
    have hpn : package = p.packageName := of_decide_eq_true hfp
    have hqn : package = q.packageName := of_decide_eq_true hfq
    rw [← hpn] at hia
    rw [← hqn] at hjb
    -- Entries of one version belong to packages of one version, and so to the same package.
    have hab : a = b := hr package a b hia hjb (by rw [← hpa, hv, hqb])
    have ho : loadPlugins j.directory t .condition (some package) = s.offered t package :=
      hs.loadPlugins_eq (by rw [hia, hjb, hab])
    rw [ho, hp] at hq
    exact Option.some.inj hq

theorem upToDate_attended (hi : i.Plain) (h : Attended t (loaded t i k) s) (package : String) :
    s.UpToDate t package := by
  induction h with
  | refl =>
    rintro key rfl
    rw [conditions, loaded, Catalogue.working_loadAll]
    exact (get?_loadPlugins_packageOf hi key).symm
  | shift h hs hr ih =>
    obtain ⟨hq, es, hrun⟩ := run_attended h
    have ha := aligned_run (aligned_loaded hi) hrun
    have hk := settled_run (Catalogue.settled_loadAll ..) hrun
    exact upToDate_followAll (aligned_shift ha hs) hk (upToDate_shift_or ha hq ih hs hr)

/-- Following every shift before the next one publishes the conditions of a full scan and settings
under the keys of a full scan. -/
theorem published_reloads (hi : i.Plain) (h : Attended t (loaded t i k) s) :
    s.catalogue.published.plugins? .condition =
        some (loadPlugins s.installation.directory t .condition none) ∧
      ∃ m, s.catalogue.published.plugins? .setting = some m ∧
        m.keys = (loadPlugins s.installation.directory t .setting none).keys := by
  obtain ⟨hq, es, hr⟩ := run_attended h
  have ha := aligned_run (aligned_loaded hi) hr
  have hk := settled_run (Catalogue.settled_loadAll ..) hr
  have hp (c : Category) := hk.plugins?_eq (snapshot?_run hr c)
  refine ⟨?_, s.catalogue.working.get .setting, hp .setting, ?_⟩
  · rw [hp]
    congr 1
    -- Every key is looked up in the scan of the package that it names.
    apply KeyMap.ext_get?
    intro key
    rw [← get?_loadPlugins_packageOf ha.plain]
    exact upToDate_attended hi h (packageOf key) key rfl
  · rw [KeyMap.keys_eq_iff]
    intro key
    have hh := ha.heard .setting key
    rw [hq] at hh
    exact hh.trans (Installation.offers_eq ha.plain)

def attended : Tracking :=
  let gone := ((loaded ∅ (.metered 1) .empty).shift ((Installation.metered 1).uninstall "meter")
    [.removed "meter" false]).followAll ∅
  let back := (gone.shift (gone.installation.install (.meter 2)) [.added "meter" false]).followAll ∅
  (back.shift (back.installation.install (.meter 3)) [.changed "meter"]).followAll ∅

theorem attended_attended : Attended ∅ (loaded ∅ (.metered 1) .empty) attended := by
  have hu := Attended.refl.shift (t := ∅) (s := loaded ∅ (.metered 1) .empty)
    (.uninstalls "meter" (by decide +kernel)) (Installation.renews_uninstall _ "meter")
  have hn : ((Installation.metered 1).uninstall "meter").package? "meter" = none := by
    decide +kernel
  have hi := hu.shift (.installs (.meter 2) hn (Package.plainName_meter 2))
    (Installation.renews_install fun b hb => absurd (hn.symm.trans hb) (Option.some_ne_none b).symm)
  apply hi.shift (.replaces (.meter 3) (by decide +kernel))
  apply Installation.renews_install
  intro b hb
  have hb : (((Installation.metered 1).uninstall "meter").install (.meter 2)).package? "meter" =
      some b := hb
  have hm : (Package.meter 2).name = "meter" := rfl
  rw [Installation.package?_install, if_pos hm] at hb
  cases hb
  decide

theorem published_reloads_attended :
    attended.catalogue.published.plugins? .condition =
        some (loadPlugins attended.installation.directory ∅ .condition none) ∧
      ((loadPlugins attended.installation.directory ∅ .condition none).get?
        "meter:Edit").map Plugin.version = some 3 :=
  ⟨(published_reloads (Installation.plain_metered 1) attended_attended).1, by decide +kernel⟩

end Tracking

end PluginRegistry
