import PluginRegistry.Proofs.KeyConvergence

/-!
# Convergence of condition versions

Versions are compared only when a package is reported as changed. An arrival that brings no new key
is followed without a look at the versions, so a package that comes back before its removal was
followed leaves its former versions in the map. That is the only way to miss a version.
-/

namespace PluginRegistry

/-- A package reported as changed that has nothing to take over has all its versions in the map. -/
theorem Catalogue.version_of_not_rewrites {k : Catalogue} (h : k.Settled) {scanned : PluginMap}
    (hr : PluginMap.rewrites .changed (k.working.get .condition) scanned
      (k.consulted .condition) = false)
    {key : String} {p : Plugin} (hp : scanned.get? key = some p) :
    ∃ q, (k.working.get .condition).get? key = some q ∧ q.version = p.version := by
  obtain ⟨⟨q, hq⟩, hv⟩ := PluginMap.known_of_not_rewrites hr hp
  refine ⟨q, hq, ?_⟩
  rcases h.published .condition with hs | ⟨-, hw⟩
  · exact hv _ hs q hq
  · rw [hw] at hq
    cases hq

namespace Tracking

variable {t : Characteristics} {i j : Installation} {k : Catalogue} {s s₁ s' : Tracking}
  {es fs : List PackageEvent} {x : PackageChange} {q : List PackageChange} {p : Package}
  {package : String}

def conditions (s : Tracking) : PluginMap := s.catalogue.working.get .condition

def offered (t : Characteristics) (s : Tracking) (package : String) : PluginMap :=
  loadPlugins s.installation.directory t .condition (some package)

def arrive (s : Tracking) (p : Package) : Tracking :=
  s.shift (s.installation.install p) [.added p.name false]

theorem settled_run (h : s.catalogue.Settled) (hr : Run t s es s') : s'.catalogue.Settled := by
  induction hr with
  | refl => exact h
  | shift _ _ ih => exact ih
  | handle _ _ ih => exact Catalogue.settled_perform ih _ t (.follow _)

def Current (t : Characteristics) (s : Tracking) (package : String) : Prop :=
  ∀ key p, (s.offered t package).get? key = some p →
    ∃ q, s.conditions.get? key = some q ∧ q.version = p.version

/-- Whether following a change takes over all conditions of a package. -/
def takesOver (t : Characteristics) (s : Tracking) (x : PackageChange) (package : String) : Bool :=
  x.package = package && PluginMap.rewrites x.kind s.conditions (s.offered t package)
    (s.catalogue.consulted .condition)

theorem get?_conditions_handle (h : s.Aligned t) {key : String} {r : Plugin}
    (hr : (s.offered t package).get? key = some r) :
    (s.handle t x q).conditions.get? key =
      if s.takesOver t x package then some r else s.conditions.get? key := by
  rw [conditions, working_handle, takesOver]
  by_cases hx : x.package = package
  · subst hx
    rw [decide_eq_true rfl, Bool.true_and]
    refine (PluginMap.get?_follow x.kind key).trans ?_
    have hr : (loadPlugins s.installation.directory t .condition (some x.package)).get? key =
        some r := hr
    rw [hr]
    rfl
  · have hk := packageOf_of_get?_loadPlugins h.plain hr
    rw [decide_eq_false hx, Bool.false_and,
      Catalogue.get?_followed_of_other h.plain (h.filed _) (fun he => hx (he.trans hk))]
    rfl

/-- The map lacks a condition of a package, whose arrival is still queued. -/
structure Awaited (t : Characteristics) (s : Tracking) (package : String) : Prop where
  missing : ∃ key p, (s.offered t package).get? key = some p ∧ s.conditions.get? key = none
  queued : ⟨.added, package⟩ ∈ s.queue

def Prompt (t : Characteristics) (s : Tracking) (package : String) : Prop :=
  ⟨.changed, package⟩ ∈ s.queue ∨ s.Current t package ∨ s.Awaited t package

theorem prompt_handle (ha : s.Aligned t) (hk : s.catalogue.Settled) (hq : s.queue = x :: q)
    (h : s.Prompt t package) : (s.handle t x q).Prompt t package := by
  cases ht : s.takesOver t x package with
  | true =>
    right; left
    intro key p hp
    exact ⟨p, by rw [get?_conditions_handle ha hp, ht]; rfl, rfl⟩
  | false =>
    have hkeep (key : String) (p : Plugin) (hp : (s.offered t package).get? key = some p) :
        (s.handle t x q).conditions.get? key = s.conditions.get? key := by
      rw [get?_conditions_handle ha hp, ht]
      rfl
    have hrew : x.package = package → PluginMap.rewrites x.kind s.conditions
        (s.offered t package) (s.catalogue.consulted .condition) = false := by
      simpa only [takesOver, Bool.and_eq_false_imp, decide_eq_true_eq] using ht
    rcases h with hm | hc | ⟨⟨key, p, hp, hn⟩, hm⟩
    · rw [hq] at hm
      rcases List.mem_cons.1 hm with rfl | hm
      · right; left
        intro key p hp
        obtain ⟨r, hr, hv⟩ := Catalogue.version_of_not_rewrites hk (hrew rfl) hp
        exact ⟨r, (hkeep key p hp).trans hr, hv⟩
      · exact Or.inl hm
    · right; left
      intro key p hp
      obtain ⟨r, hr, hv⟩ := hc key p hp
      exact ⟨r, (hkeep key p hp).trans hr, hv⟩
    · rw [hq] at hm
      rcases List.mem_cons.1 hm with rfl | hm
      · have hadd : PluginMap.isAdded s.conditions (s.offered t package) = true :=
          PluginMap.isAdded_iff.2 ⟨key, p, hp, by simp [KeyMap.contains, hn]⟩
        exact absurd ((hrew rfl).symm.trans hadd) Bool.false_ne_true
      · exact Or.inr (Or.inr ⟨⟨key, p, hp, (hkeep key p hp).trans hn⟩, hm⟩)

theorem prompt_shift (hs : s.installation.Shift fs j)
    (hp : j.package? package = s.installation.package? package) (h : s.Prompt t package) :
    (s.shift j fs).Prompt t package := by
  have ho : (s.shift j fs).offered t package = s.offered t package := hs.loadPlugins_eq hp
  rcases h with hm | hc | ⟨hn, hm⟩
  · exact Or.inl (List.mem_append_left _ hm)
  · right; left
    intro key p hp
    rw [ho] at hp
    exact hc key p hp
  · right; right
    exact ⟨by rw [ho]; exact hn, List.mem_append_left _ hm⟩

/-- The arrival of a package would be overlooked: the map has all keys that it brings, and no queued
report about the package makes up for it. -/
structure Overlooks (t : Characteristics) (s : Tracking) (p : Package) : Prop where
  absent : s.installation.package? p.name = none
  plain : PlainName p.name
  unreported : ⟨.changed, p.name⟩ ∉ s.queue
  known : ∀ key, ((s.arrive p).offered t p.name).contains key = true →
    s.conditions.contains key = true

/-- An arrival is overlooked or followed in time. -/
theorem prompt_arrive_or (absent : s.installation.package? p.name = none)
    (plain : PlainName p.name) : (s.arrive p).Prompt t p.name ∨ s.Overlooks t p := by
  by_cases hm : ⟨.changed, p.name⟩ ∈ s.queue
  · exact Or.inl (Or.inl (List.mem_append_left _ hm))
  · by_cases hk : ∀ key, ((s.arrive p).offered t p.name).contains key = true →
        s.conditions.contains key = true
    · exact Or.inr ⟨absent, plain, hm, hk⟩
    · left; right; right
      push Not at hk
      obtain ⟨key, ho, hn⟩ := hk
      obtain ⟨r, hr⟩ := Option.isSome_iff_exists.1 ho
      refine ⟨⟨key, r, hr, Option.not_isSome_iff_eq_none.1 hn⟩, ?_⟩
      exact List.mem_append_right _ (List.mem_singleton.2 rfl)

/-- The last event about a package was an overlooked arrival, of `p` in the state `s₁`. -/
structure Missed (t : Characteristics) (s₀ : Tracking) (es : List PackageEvent) (s : Tracking)
    (e₁ e₂ : List PackageEvent) (s₁ : Tracking) (p : Package) : Prop where
  events : es = e₁ ++ .added p.name false :: e₂
  earlier : Run t s₀ e₁ s₁
  overlooked : s₁.Overlooks t p
  later : Run t (s₁.arrive p) e₂ s
  silent : ∀ x ∈ changesOf e₂, x.package ≠ p.name

theorem prompt_or_missed (hi : i.Plain) (hr : Run t (loaded t i k) es s) (package : String) :
    s.Prompt t package ∨
      ∃ e₁ e₂ s₁ p, Missed t (loaded t i k) es s e₁ e₂ s₁ p ∧ p.name = package := by
  induction hr with
  | refl =>
    left; right; left
    intro key p hp
    obtain ⟨hp, -⟩ := Option.filter_eq_some_iff.1
      ((get?_loadPlugins_package hi package key).symm.trans hp)
    refine ⟨p, ?_, rfl⟩
    rw [conditions, loaded, Catalogue.working_loadAll]
    exact hp
  | @shift es fs s j hr hs ih =>
    by_cases hx : ∀ x ∈ changesOf fs, x.package ≠ package
    · rcases ih with h | ⟨e₁, e₂, s₁, p, h, hp⟩
      · exact Or.inl (prompt_shift hs (hs.package?_eq hx) h)
      · right
        refine ⟨e₁, e₂ ++ fs, s₁, p, ⟨?_, h.earlier, h.overlooked, h.later.shift hs, ?_⟩, hp⟩
        · rw [h.events, List.append_assoc, List.cons_append]
        · intro x hxm
          rw [changesOf_append] at hxm
          rcases List.mem_append.1 hxm with hxm | hxm
          · exact h.silent x hxm
          · exact hp ▸ hx x hxm
    · rcases hs.about package with ⟨-, hp⟩ | ⟨p, rfl, ha, hp, rfl, rfl⟩ | ⟨ha, -⟩ | ⟨-, hm⟩
      · exact absurd hp hx
      · rcases prompt_arrive_or ha hp with h | h
        · exact Or.inl h
        · right
          exact ⟨es, [], s, p, ⟨rfl, hr, h, .refl, fun x hx => absurd hx List.not_mem_nil⟩, rfl⟩
      · left; right; left
        intro key p hp
        have ho : (s.shift j fs).offered t package = ∅ := loadPlugins_of_absent ha
        rw [ho] at hp
        cases hp
      · exact Or.inl (Or.inl (List.mem_append_right _ hm))
  | @handle es s x q hr hq ih =>
    rcases ih with h | ⟨e₁, e₂, s₁, p, h, hp⟩
    · left
      exact prompt_handle (aligned_run (aligned_loaded hi) hr)
        (settled_run (Catalogue.settled_loadAll ..) hr) hq h
    · right
      exact ⟨e₁, e₂, s₁, p, ⟨h.events, h.earlier, h.overlooked, h.later.handle hq, h.silent⟩, hp⟩

structure Stuck (t : Characteristics) (s₁ : Tracking) (p : Package) (s : Tracking) : Prop where
  installed : s.installation.package? p.name = some p
  unreported : ⟨.changed, p.name⟩ ∉ s.queue
  offered : s.offered t p.name = (s₁.arrive p).offered t p.name
  kept : ∀ key, (s.offered t p.name).contains key = true →
    s.conditions.get? key = s₁.conditions.get? key

theorem stuck_arrive (h : s.Overlooks t p) : Stuck t s p (s.arrive p) where
  installed := (Installation.package?_install ..).trans (if_pos rfl)
  unreported hm := by
    rcases List.mem_append.1 hm with hm | hm
    · exact h.unreported hm
    · cases List.mem_singleton.1 hm
  offered := rfl
  kept _ _ := rfl

theorem stuck_shift (h : Stuck t s₁ p s) (hs : s.installation.Shift fs j)
    (hx : ∀ x ∈ changesOf fs, x.package ≠ p.name) : Stuck t s₁ p (s.shift j fs) := by
  have hp := hs.package?_eq hx
  have ho : (s.shift j fs).offered t p.name = s.offered t p.name := hs.loadPlugins_eq hp
  refine ⟨hp.trans h.installed, fun hm => ?_, ho.trans h.offered, fun key hk => ?_⟩
  · rcases List.mem_append.1 hm with hm | hm
    · exact h.unreported hm
    · exact hx _ hm rfl
  · rw [ho] at hk
    exact h.kept key hk

theorem stuck_handle (ho : s₁.Overlooks t p) (ha : s.Aligned t) (hq : s.queue = x :: q)
    (h : Stuck t s₁ p s) : Stuck t s₁ p (s.handle t x q) := by
  have hc : PluginMap.isAdded s.conditions (s.offered t p.name) = false := by
    by_contra hadd
    obtain ⟨key, r, hr, hn⟩ := PluginMap.isAdded_iff.1 (by simpa using hadd)
    have hk : (s.offered t p.name).contains key = true := by simp [KeyMap.contains, hr]
    have hs := ho.known key (by rw [← h.offered]; exact hk)
    rw [KeyMap.contains, h.kept key hk, ← KeyMap.contains, hs] at hn
    cases hn
  have ht : s.takesOver t x p.name = false := by
    obtain ⟨kind, name⟩ := x
    rw [takesOver, Bool.and_eq_false_imp]
    intro hn
    cases kind with
    | added => exact hc
    | removed => rfl
    | changed =>
      have hn : name = p.name := of_decide_eq_true hn
      apply absurd _ h.unreported
      rw [hq, hn]
      exact List.mem_cons_self
  refine ⟨h.installed, fun hm => h.unreported (by rw [hq]; exact List.mem_cons_of_mem _ hm),
    h.offered, fun key hk => ?_⟩
  obtain ⟨r, hr⟩ := Option.isSome_iff_exists.1 hk
  rw [get?_conditions_handle ha hr, ht]
  exact h.kept key hk

theorem stuck_run (ho : s₁.Overlooks t p) (ha : s₁.Aligned t) (hr : Run t (s₁.arrive p) es s)
    (hx : ∀ x ∈ changesOf es, x.package ≠ p.name) : Stuck t s₁ p s := by
  have ha : (s₁.arrive p).Aligned t := aligned_shift ha (.installs p ho.absent ho.plain)
  induction hr with
  | refl => exact stuck_arrive ho
  | shift _ hs ih =>
    rw [changesOf_append] at hx
    exact stuck_shift (ih fun x hm => hx x (List.mem_append_left _ hm)) hs
      fun x hm => hx x (List.mem_append_right _ hm)
  | handle hr hq ih => exact stuck_handle ho (aligned_run ha hr) hq (ih hx)

theorem Prompt.current (h : s.Prompt t package) (hq : s.queue = []) : s.Current t package := by
  rcases h with hm | hc | ⟨-, hm⟩
  · rw [hq] at hm
    cases hm
  · exact hc
  · rw [hq] at hm
    cases hm

/-- With nothing queued, every entry is of an installed package that offers it. -/
theorem offered_of_quiet (h : s.Aligned t) (hq : s.queue = []) {key : String} {old : Plugin}
    (hold : s.conditions.get? key = some old) :
    ∃ b r, s.installation.package? old.packageName = some b ∧
      (s.offered t old.packageName).get? key = some r ∧ r.version = b.version := by
  obtain ⟨r, hr⟩ : ∃ r, (s.offered t old.packageName).get? key = some r := by
    have hh := h.heard .condition key
    rw [hq] at hh
    rw [h.filed .condition key old hold]
    apply Option.isSome_iff_exists.1 (hh.symm.trans _)
    change (s.conditions.get? key).isSome = true
    rw [hold]
    rfl
  obtain ⟨-, b, hb, hv, hf⟩ := packageName_of_loadPlugins hr
  have hn : old.packageName = r.packageName := of_decide_eq_true hf
  exact ⟨b, r, hn ▸ hb, hr, hv⟩

/-- With nothing queued, an entry has another version than the one installed just when its package
came last, in that other version, while all its keys were in the map and no change of it was
queued. -/
theorem outdated_iff (hi : i.Plain) (hr : Run t (loaded t i k) es s) (hq : s.queue = [])
    (key : String) (old : Plugin) :
    s.conditions.get? key = some old ∧
        s.installation.installedVersion old.packageName ≠ some old.version ↔
      ∃ e₁ e₂ s₁ p, Missed t (loaded t i k) es s e₁ e₂ s₁ p ∧ s₁.conditions.get? key = some old ∧
        ((s₁.arrive p).offered t p.name).contains key = true ∧ old.version ≠ p.version := by
  have ha := aligned_run (aligned_loaded hi) hr
  constructor
  · rintro ⟨hold, hne⟩
    obtain ⟨b, r, hb, hkey, hv⟩ := offered_of_quiet ha hq hold
    rw [Installation.installedVersion, hb, Option.map_some] at hne
    rcases prompt_or_missed hi hr old.packageName with h | ⟨e₁, e₂, s₁, p, h, hp⟩
    · obtain ⟨c, hc, hcv⟩ := h.current hq key r hkey
      rw [hold] at hc
      cases hc
      exact absurd (congrArg some (hcv.trans hv).symm) hne
    · have hs := stuck_run h.overlooked (aligned_run (aligned_loaded hi) h.earlier) h.later h.silent
      have hk : (s.offered t p.name).contains key = true := by
        rw [hp, KeyMap.contains, hkey]
        rfl
      have hpb : some p = some b := by rw [← hs.installed, hp, hb]
      cases hpb
      refine ⟨e₁, e₂, s₁, b, h, (hs.kept key hk).symm.trans hold, hs.offered ▸ hk, ?_⟩
      exact fun he => hne (congrArg some he.symm)
  · rintro ⟨e₁, e₂, s₁, p, h, hold, hk, hne⟩
    have hs := stuck_run h.overlooked (aligned_run (aligned_loaded hi) h.earlier) h.later h.silent
    rw [← hs.offered] at hk
    have hg := (hs.kept key hk).trans hold
    obtain ⟨r, hr'⟩ := Option.isSome_iff_exists.1 hk
    have hn : old.packageName = p.name :=
      (ha.filed .condition key old hg).trans (packageOf_of_get?_loadPlugins ha.plain hr')
    refine ⟨hg, fun he => hne ?_⟩
    rw [hn, Installation.installedVersion, hs.installed] at he
    exact (Option.some.inj he).symm

theorem condition_reinstalled :
    ∃ p, reinstalled.conditions.get? "meter:Edit" = some p ∧
      reinstalled.installation.installedVersion p.packageName ≠ some p.version := by
  have h : (reinstalled.conditions.get? "meter:Edit").any (fun p =>
      reinstalled.installation.installedVersion p.packageName ≠ some p.version) = true := by
    decide +kernel
  obtain ⟨p, hp, hne⟩ := (Option.any_eq_true ..).1 h
  exact ⟨p, hp, of_decide_eq_true hne⟩

theorem outdated_iff_reinstalled :
    ∃ e₁ e₂ s₁ p, Missed ∅ (loaded ∅ (.metered 1) .empty)
      [.removed "meter" false, .added "meter" false] reinstalled e₁ e₂ s₁ p ∧ p.version ≠ 1 := by
  obtain ⟨old, hold⟩ := condition_reinstalled
  obtain ⟨e₁, e₂, s₁, p, h, -, -, hne⟩ :=
    (outdated_iff (Installation.plain_metered 1) run_reinstalled rfl "meter:Edit" old).1 hold
  have hv : (reinstalled.conditions.get? "meter:Edit").map Plugin.version = some 1 := by
    decide +kernel
  rw [hold.1] at hv
  exact ⟨e₁, e₂, s₁, p, h, fun he => hne ((Option.some.inj hv).trans he.symm)⟩

theorem version_missed :
    ¬∀ (t : Characteristics) (i : Installation) (k : Catalogue) (es : List PackageEvent)
      (s : Tracking), i.Plain → Run t (loaded t i k) es s → s.queue = [] →
        ∀ key p, s.conditions.get? key = some p →
          s.installation.installedVersion p.packageName = some p.version := by
  intro h
  obtain ⟨p, hp, hne⟩ := condition_reinstalled
  exact hne (h _ _ _ _ _ (Installation.plain_metered 1) run_reinstalled rfl "meter:Edit" p hp)

end Tracking

end PluginRegistry
