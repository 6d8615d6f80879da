import PluginRegistry.Proofs.Announcements

/-!
# Convergence of keys

A catalogue is loaded and then follows the queued changes of an installation, each by a scan of the
installation as it is when the change is followed. Whenever nothing is queued, the working maps have
the keys of a full scan.
-/

namespace PluginRegistry

structure Tracking where
  installation : Installation
  queue : List PackageChange
  catalogue : Catalogue

namespace Tracking

variable {t : Characteristics} {i j : Installation} {k : Catalogue} {s s' : Tracking}
  {es fs : List PackageEvent} {x : PackageChange} {q : List PackageChange}

def loaded (t : Characteristics) (i : Installation) (k : Catalogue) : Tracking :=
  ⟨i, [], k.loadAll i.directory t⟩

def shift (s : Tracking) (j : Installation) (es : List PackageEvent) : Tracking :=
  { s with installation := j, queue := s.queue ++ changesOf es }

def handle (t : Characteristics) (s : Tracking) (x : PackageChange) (q : List PackageChange) :
    Tracking :=
  { s with
    queue := q
    catalogue := (s.catalogue.apply s.installation.directory t x).1 }

/-- The installation shifts and the changes at the head of the queue are followed, in any order. -/
inductive Run (t : Characteristics) (s : Tracking) : List PackageEvent → Tracking → Prop
  | refl : Run t s [] s
  | shift {es fs : List PackageEvent} {s' : Tracking} {j : Installation} (run : Run t s es s')
      (shifts : s'.installation.Shift fs j) : Run t s (es ++ fs) (s'.shift j fs)
  | handle {es : List PackageEvent} {s' : Tracking} {x : PackageChange} {q : List PackageChange}
      (run : Run t s es s') (head : s'.queue = x :: q) : Run t s es (s'.handle t x q)

theorem working_handle (c : Category) :
    (s.handle t x q).catalogue.working.get c =
      (s.catalogue.followed s.installation.directory t x c).1 := Catalogue.working_apply

/-- Following all queued changes at once would lead to the keys that are offered. -/
structure Aligned (t : Characteristics) (s : Tracking) : Prop where
  plain : s.installation.Plain
  filed : ∀ c, (s.catalogue.working.get c).Filed
  heard : ∀ c key, heard key (s.installation.offers t c key) s.queue
    ((s.catalogue.working.get c).contains key) = s.installation.offers t c key

theorem aligned_loaded (h : i.Plain) : (loaded t i k).Aligned t := by
  have hw (c : Category) :
      (loaded t i k).catalogue.working.get c = loadPlugins i.directory t c none :=
    Catalogue.working_loadAll
  refine ⟨h, fun c => ?_, fun c key => ?_⟩
  · rw [hw]
    exact filed_loadPlugins h
  · rw [hw, ← Installation.offers_eq h]
    rfl

theorem aligned_shift (h : s.Aligned t) (hs : s.installation.Shift fs j) :
    (s.shift j fs).Aligned t := by
  refine ⟨hs.plain h.plain, h.filed, fun c key => ?_⟩
  have hh := h.heard c key
  change PluginRegistry.heard key (j.offers t c key) (s.queue ++ changesOf fs)
    ((s.catalogue.working.get c).contains key) = j.offers t c key
  rcases heard_shift hs t c key s.queue ((s.catalogue.working.get c).contains key) with
    ⟨-, ho, he⟩ | ⟨-, he⟩ | ⟨-, ho, he⟩
  · rw [he, hh, ho]
  · exact he
  · rw [he, hh, ho, Bool.false_or]

theorem aligned_handle (h : s.Aligned t) (hq : s.queue = x :: q) : (s.handle t x q).Aligned t := by
  refine ⟨h.plain, fun c => ?_, fun c key => ?_⟩
  · rw [working_handle]
    exact Catalogue.filed_followed h.plain (h.filed c)
  · have hh := h.heard c key
    rw [hq] at hh
    rw [working_handle, Catalogue.contains_followed h.plain (h.filed c)]
    exact hh

theorem aligned_run (h : s.Aligned t) (hr : Run t s es s') : s'.Aligned t := by
  induction hr with
  | refl => exact h
  | shift _ hs ih => exact aligned_shift ih hs
  | handle _ hq ih => exact aligned_handle ih hq

/-- Whatever happens to the installation and however late it is followed, with nothing queued the
working maps have the keys of a full scan. -/
theorem keys_converge (hi : i.Plain) (hr : Run t (loaded t i k) es s) (hq : s.queue = [])
    (c : Category) :
    (s.catalogue.working.get c).keys =
      (loadPlugins s.installation.directory t c none).keys := by
  have h := aligned_run (aligned_loaded hi) hr
  rw [KeyMap.keys_eq_iff]
  intro key
  have hh := h.heard c key
  rw [hq] at hh
  exact hh.trans (Installation.offers_eq h.plain)

/-- A package comes back with another version before its removal is followed. -/
def reinstalled : Tracking :=
  ((((loaded ∅ (.metered 1) .empty).shift ((Installation.metered 1).uninstall "meter")
      [.removed "meter" false]).shift
      (((Installation.metered 1).uninstall "meter").install (.meter 2))
      [.added "meter" false]).handle ∅ ⟨.removed, "meter"⟩ [⟨.added, "meter"⟩]).handle ∅
    ⟨.added, "meter"⟩ []

theorem run_reinstalled :
    Run ∅ (loaded ∅ (.metered 1) .empty) [.removed "meter" false, .added "meter" false]
      reinstalled := by
  have hu := Run.refl.shift (t := ∅) (s := loaded ∅ (.metered 1) .empty)
    (.uninstalls "meter" (by decide +kernel))
  have hi := hu.shift (.installs (.meter 2) (by decide +kernel) (Package.plainName_meter 2))
  exact (hi.handle rfl).handle rfl

theorem keys_converge_reinstalled :
    (reinstalled.catalogue.working.get .condition).keys =
        (loadPlugins reinstalled.installation.directory ∅ .condition none).keys ∧
      (reinstalled.catalogue.working.get .condition).keys = ["meter:Edit"] :=
  ⟨keys_converge (Installation.plain_metered 1) run_reinstalled rfl .condition, by decide +kernel⟩

end Tracking

end PluginRegistry
