import PluginRegistry.Live.Event
import PluginRegistry.Proofs.Publication

/-!
# Announced changes of an installation

An installation changes together with the events that report it. Whether a key is in a working map
after some queued changes were followed can be told from three bits: whether it was there, whether
the installation offers it, and what kinds of changes of its package were queued (`heard`). However
late a change is followed, the last report about a package leads to what the installation offers,
but for a mere arrival, which only adds (`heard_shift`).
-/

namespace PluginRegistry

inductive Alteration
  | install (p : Package)
  | uninstall (name : String)

namespace Alteration

def package : Alteration → String
  | install p => p.name
  | uninstall name => name

def Plain : Alteration → Prop
  | install p => PlainName p.name
  | uninstall _ => True

end Alteration

def changesOf (events : List PackageEvent) : List PackageChange :=
  events.flatMap PackageEvent.changes

theorem changesOf_append (es fs : List PackageEvent) :
    changesOf (es ++ fs) = changesOf es ++ changesOf fs := List.flatMap_append

/-- Whether a package was replaced or uninstalled. -/
def renewed (package : String) (xs : List PackageChange) : Bool :=
  xs.any fun x => x.package = package && x.kind.prunes

theorem renewed_append (package : String) (xs ys : List PackageChange) :
    renewed package (xs ++ ys) = (renewed package xs || renewed package ys) := List.any_append

namespace Installation

def alter (i : Installation) : Alteration → Installation
  | .install p => i.install p
  | .uninstall name => i.uninstall name

/-- An installation becomes another one, which some events report. What changes together is
reported by one event about the storage. -/
inductive Shift (i : Installation) : List PackageEvent → Installation → Prop
  | installs (p : Package) (absent : i.package? p.name = none) (plain : PlainName p.name) :
      Shift i [.added p.name false] (i.install p)
  | uninstalls (name : String) (present : i.package? name ≠ none) :
      Shift i [.removed name false] (i.uninstall name)
  | replaces (p : Package) (present : i.package? p.name ≠ none) :
      Shift i [.changed p.name] (i.install p)
  | upgrades (p : Package) (present : i.package? p.name ≠ none) :
      Shift i [.removed p.name true, .added p.name true, .replaced p.name] (i.install p)
  | together (as : List Alteration) (packages : List String) (available : Bool)
      (plain : ∀ a ∈ as, a.Plain) (listed : ∀ a ∈ as, a.package ∈ packages) :
      Shift i [.storage packages available] (as.foldl alter i)

variable {i j : Installation} {es : List PackageEvent}

theorem package?_alter {a : Alteration} {name : String} (h : a.package ≠ name) :
    (i.alter a).package? name = i.package? name := by
  cases a with
  | install p => exact (package?_install ..).trans (if_neg h)
  | uninstall n => exact (package?_uninstall ..).trans (if_neg h)

theorem package?_alterAll {as : List Alteration} {name : String}
    (h : ∀ a ∈ as, a.package ≠ name) : (as.foldl alter i).package? name = i.package? name := by
  induction as generalizing i with
  | nil => rfl
  | cons a as ih =>
    rw [List.foldl_cons, ih fun b hb => h b (by simp [hb]), package?_alter (h a (by simp))]

theorem Plain.alterAll (h : i.Plain) {as : List Alteration} (ha : ∀ a ∈ as, a.Plain) :
    (as.foldl alter i).Plain := by
  induction as generalizing i with
  | nil => exact h
  | cons a as ih =>
    apply ih _ fun b hb => ha b (by simp [hb])
    cases a with
    | install p => exact h.install (ha (.install p) (by simp))
    | uninstall name => exact h.uninstall name

theorem hostVersion_alterAll (i : Installation) (as : List Alteration) :
    (as.foldl alter i).hostVersion = i.hostVersion ∧
      (as.foldl alter i).permissions = i.permissions := by
  induction as generalizing i with
  | nil => exact ⟨rfl, rfl⟩
  | cons a as ih =>
    rw [List.foldl_cons, (ih _).1, (ih _).2]
    cases a <;> exact ⟨rfl, rfl⟩

theorem Shift.plain (h : i.Shift es j) (hi : i.Plain) : j.Plain := by
  cases h with
  | installs p _ hp => exact hi.install hp
  | uninstalls name => exact hi.uninstall name
  | replaces p hp | upgrades p hp =>
    obtain ⟨q, hq⟩ := Option.ne_none_iff_exists'.1 hp
    exact hi.install (hi _ q hq)
  | together as _ _ hp => exact hi.alterAll hp

theorem Shift.hostVersion (h : i.Shift es j) :
    i.hostVersion = j.hostVersion ∧ i.permissions = j.permissions := by
  cases h with
  | installs | uninstalls | replaces | upgrades => exact ⟨rfl, rfl⟩
  | together as =>
    rw [(hostVersion_alterAll i as).1, (hostVersion_alterAll i as).2]
    exact ⟨rfl, rfl⟩

/-- What may happen to one package: nothing; it arrives; it goes; or it is reported as changed. -/
theorem Shift.about (h : i.Shift es j) (package : String) :
    (j.package? package = i.package? package ∧ ∀ x ∈ changesOf es, x.package ≠ package) ∨
    (∃ p, p.name = package ∧ i.package? p.name = none ∧ PlainName p.name ∧ j = i.install p ∧
      es = [.added p.name false]) ∨
    (j.package? package = none ∧ changesOf es = [⟨.removed, package⟩]) ∨
    ((∀ x ∈ changesOf es, x.kind = .changed) ∧ ⟨.changed, package⟩ ∈ changesOf es) := by
  cases h with
  | installs p absent plain =>
    by_cases he : p.name = package
    · exact Or.inr (Or.inl ⟨p, he, absent, plain, rfl, rfl⟩)
    · left
      exact ⟨by rw [package?_install, if_neg he], by simpa [changesOf, PackageEvent.changes]⟩
  | uninstalls name =>
    by_cases he : name = package
    · subst he
      exact Or.inr (Or.inr (Or.inl ⟨by rw [package?_uninstall, if_pos rfl], rfl⟩))
    · left
      exact ⟨by rw [package?_uninstall, if_neg he], by simpa [changesOf, PackageEvent.changes]⟩
  | replaces p | upgrades p =>
    by_cases he : p.name = package
    · subst he
      exact Or.inr (Or.inr (Or.inr (by simp [changesOf, PackageEvent.changes])))
    · left
      exact ⟨by rw [package?_install, if_neg he], by simpa [changesOf, PackageEvent.changes]⟩
  | together as packages _ _ listed =>
    by_cases hm : package ∈ packages
    · exact Or.inr (Or.inr (Or.inr (by simpa [changesOf, PackageEvent.changes] using hm)))
    · left
      have hne (name : String) (hn : name ∈ packages) : name ≠ package := fun e => hm (e ▸ hn)
      refine ⟨package?_alterAll fun a ha => hne _ (listed a ha), ?_⟩
      simpa [changesOf, PackageEvent.changes] using hne

/-- A package that no event is about is as it was. -/
theorem Shift.package?_eq (h : i.Shift es j) {package : String}
    (hx : ∀ x ∈ changesOf es, x.package ≠ package) : j.package? package = i.package? package := by
  rcases h.about package with ⟨hp, -⟩ | ⟨p, hn, -, -, -, he⟩ | ⟨-, he⟩ | ⟨-, hm⟩
  · exact hp
  · exact absurd hn (hx ⟨.added, p.name⟩ (by simp [he, changesOf, PackageEvent.changes]))
  · exact absurd rfl (hx ⟨.removed, package⟩ (by simp [he]))
  · exact absurd rfl (hx _ hm)

def offers (i : Installation) (t : Characteristics) (c : Category) (key : String) : Bool :=
  (loadPlugins i.directory t c (some (packageOf key))).contains key

variable {t : Characteristics} {c : Category} {key : String}

theorem offers_eq (h : i.Plain) :
    i.offers t c key = (loadPlugins i.directory t c none).contains key := by
  rw [offers, KeyMap.contains, get?_loadPlugins_packageOf h, KeyMap.contains]

theorem offers_of_absent (h : i.package? (packageOf key) = none) : i.offers t c key = false := by
  rw [offers, loadPlugins_of_absent h]
  rfl

theorem Shift.loadPlugins_eq (h : i.Shift es j) {package : String}
    (hp : j.package? package = i.package? package) :
    loadPlugins j.directory t c (some package) = loadPlugins i.directory t c (some package) :=
  loadPlugins_congr hp h.hostVersion.1.symm h.hostVersion.2.symm

end Installation

def PackageChange.hear (key : String) (offered present : Bool) (x : PackageChange) : Bool :=
  if x.package = packageOf key then x.kind.hear offered present else present

/-- Whether a key is in a map after several changes were followed. -/
def heard (key : String) (offered : Bool) (xs : List PackageChange) (present : Bool) : Bool :=
  xs.foldl (PackageChange.hear key offered) present

section

variable {key : String} {offered present : Bool} {xs ys : List PackageChange}

theorem heard_append :
    heard key offered (xs ++ ys) present = heard key offered ys (heard key offered xs present) :=
  List.foldl_append

theorem heard_of_others (h : ∀ x ∈ xs, x.package ≠ packageOf key) :
    heard key offered xs present = present := by
  induction xs generalizing present with
  | nil => rfl
  | cons x xs ih =>
    rw [heard, List.foldl_cons, PackageChange.hear, if_neg (h x (by simp))]
    exact ih fun y hy => h y (by simp [hy])

theorem heard_of_changed (h : ∀ x ∈ xs, x.kind = .changed) (hp : present = offered) :
    heard key offered xs present = offered := by
  induction xs generalizing present with
  | nil => exact hp
  | cons x xs ih =>
    apply ih fun y hy => h y (by simp [hy])
    change (if x.package = packageOf key then x.kind.hear offered present else present) = offered
    rw [h x (by simp)]
    split
    · rfl
    · exact hp

theorem heard_of_mem_changed (h : ∀ x ∈ xs, x.kind = .changed)
    (hm : ⟨.changed, packageOf key⟩ ∈ xs) : heard key offered xs present = offered := by
  obtain ⟨us, vs, rfl⟩ := List.append_of_mem hm
  rw [heard_append]
  change heard key offered vs _ = offered
  exact heard_of_changed (fun x hx => h x (by simp [hx])) (if_pos rfl)

end

/-- What a shift does to a key on which the queued changes are still to be followed: nothing; it
comes out as offered; or its package arrives, so that it was not offered before and is added. -/
theorem heard_shift {i j : Installation} {es : List PackageEvent} (h : i.Shift es j)
    (t : Characteristics) (c : Category) (key : String) (queue : List PackageChange)
    (present : Bool) :
    (renewed (packageOf key) (changesOf es) = false ∧ j.offers t c key = i.offers t c key ∧
      heard key (j.offers t c key) (queue ++ changesOf es) present =
        heard key (i.offers t c key) queue present) ∨
    (renewed (packageOf key) (changesOf es) = true ∧
      heard key (j.offers t c key) (queue ++ changesOf es) present = j.offers t c key) ∨
    (renewed (packageOf key) (changesOf es) = false ∧ i.offers t c key = false ∧
      heard key (j.offers t c key) (queue ++ changesOf es) present =
        (heard key (i.offers t c key) queue present || j.offers t c key)) := by
  rw [heard_append]
  rcases h.about (packageOf key) with ⟨hp, hx⟩ | ⟨p, hn, hp, -, -, he⟩ | ⟨hp, hx⟩ | ⟨hx, hm⟩
  · left
    have ho : j.offers t c key = i.offers t c key := by
      rw [Installation.offers, Installation.offers, h.loadPlugins_eq hp]
    refine ⟨?_, ho, ?_⟩
    · rw [renewed, List.any_eq_false]
      intro x hxm
      simp [hx x hxm]
    · rw [heard_of_others hx, ho]
  · right; right
    have ho : i.offers t c key = false := Installation.offers_of_absent (hn ▸ hp)
    have hx : changesOf es = [⟨.added, packageOf key⟩] := by
      rw [he, hn]
      rfl
    rw [hx, ho]
    refine ⟨by simp [renewed, ChangeKind.prunes], rfl, ?_⟩
    -- What was not offered and is not offered now is heard of as before.
    cases hj : j.offers t c key <;> simp [heard, PackageChange.hear, ChangeKind.hear]
  · right; left
    have ho : j.offers t c key = false := Installation.offers_of_absent hp
    rw [hx, ho]
    exact ⟨by simp [renewed, ChangeKind.prunes],
      by simp [heard, PackageChange.hear, ChangeKind.hear]⟩
  · right; left
    refine ⟨?_, heard_of_mem_changed hx hm⟩
    rw [renewed, List.any_eq_true]
    exact ⟨_, hm, by simp [ChangeKind.prunes]⟩

namespace Catalogue

variable {i : Installation} {t : Characteristics} {c : Category} {x : PackageChange}
  {k : Catalogue}

theorem get?_followed_of_other (hi : i.Plain) (hf : (k.working.get c).Filed) {key : String}
    (hx : x.package ≠ packageOf key) :
    (k.followed i.directory t x c).1.get? key = (k.working.get c).get? key := by
  apply PluginMap.get?_follow_of_other
  · cases hs : (loadPlugins i.directory t c (some x.package)).get? key with
    | none => rfl
    | some p => exact absurd (packageOf_of_get?_loadPlugins hi hs).symm hx
  · intro p hp he
    exact hx (he ▸ hf key p hp)

theorem contains_followed (hi : i.Plain) (hf : (k.working.get c).Filed) (key : String) :
    (k.followed i.directory t x c).1.contains key =
      x.hear key (i.offers t c key) ((k.working.get c).contains key) := by
  rw [PackageChange.hear]
  split
  · next hx =>
    rw [Installation.offers, ← hx]
    exact PluginMap.contains_follow x.kind fun p hp => (hf key p hp).trans hx.symm
  · next hx =>
    rw [KeyMap.contains, get?_followed_of_other hi hf hx, KeyMap.contains]

theorem filed_followed (hi : i.Plain) (hf : (k.working.get c).Filed) :
    (k.followed i.directory t x c).1.Filed := by
  intro key p hp
  rw [followed, PluginMap.get?_follow] at hp
  cases hs : (loadPlugins i.directory t c (some x.package)).get? key with
  | some q =>
    rw [hs] at hp
    dsimp only at hp
    split at hp
    · cases hp
      exact filed_loadPlugins hi key _ hs
    · exact hf key p hp
  | none =>
    rw [hs] at hp
    dsimp only at hp
    split at hp
    · exact hf key p (Option.filter_eq_some_iff.1 hp).1
    · exact hf key p hp

end Catalogue

end PluginRegistry
