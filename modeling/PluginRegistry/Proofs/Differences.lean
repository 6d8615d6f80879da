import PluginRegistry.Catalogue.Difference
import Mathlib.Tactic.Common

/-!
# What following a change does to a map

One law says which entry stands under a key afterwards (`get?_follow`), one says what is reported
(`changed_follow`). Together they make the report exact: a change is reported just when the map is
another one than before.
-/

namespace PluginRegistry

/-- Whether following a change drops entries that the scan lacks. -/
def ChangeKind.prunes : ChangeKind → Bool
  | added => false
  | removed => true
  | changed => true

/-- Whether a key is in a map after a change of its package was followed: it was `present` or not,
and the package has `offered` it or not. -/
def ChangeKind.hear (offered present : Bool) : ChangeKind → Bool
  | added => present || offered
  | removed => present && offered
  | changed => offered

namespace PluginMap

variable {current scanned : PluginMap} {package : String} {published : Option PluginMap}

/-- Whether following a change takes over every scanned entry. -/
def rewrites (kind : ChangeKind) (current scanned : PluginMap) (published : Option PluginMap) :
    Bool :=
  match kind with
  | .added => isAdded current scanned
  | .removed => false
  | .changed => isAdded current scanned || published.any fun old => isVersionChanged old scanned

theorem isAdded_iff :
    isAdded current scanned = true ↔
      ∃ k p, scanned.get? k = some p ∧ current.contains k = false := by
  rw [isAdded, KeyMap.any_iff]
  simp

theorem isVersionChanged_iff :
    isVersionChanged current scanned = true ↔
      ∃ k p q, scanned.get? k = some p ∧ current.get? k = some q ∧ q.version ≠ p.version := by
  rw [isVersionChanged, KeyMap.any_iff]
  constructor
  · rintro ⟨k, p, hp, h⟩
    cases hq : current.get? k with
    | none => simp [hq] at h
    | some q => exact ⟨k, p, q, hp, hq, by simpa [hq] using h⟩
  · rintro ⟨k, p, q, hp, hq, h⟩
    exact ⟨k, p, hp, by simpa [hq] using h⟩

theorem isRemoved_iff :
    isRemoved current scanned package = true ↔
      ∃ k p, current.get? k = some p ∧ p.packageName = package ∧ scanned.contains k = false := by
  rw [isRemoved, KeyMap.any_iff]
  simp

theorem contains_of_not_isAdded (h : isAdded current scanned = false) {k : String}
    (hk : scanned.contains k = true) : current.contains k = true := by
  obtain ⟨p, hp⟩ := Option.isSome_iff_exists.1 hk
  by_contra hc
  have ha := isAdded_iff.2 ⟨k, p, hp, Bool.eq_false_iff.2 hc⟩
  rw [h] at ha
  cases ha

theorem isAdded_eq_false_iff :
    isAdded current scanned = false ↔
      ∀ key, scanned.contains key = true → current.contains key = true := by
  constructor
  · intro h key hs
    exact contains_of_not_isAdded h hs
  · intro h
    by_contra ha
    obtain ⟨key, p, hp, hc⟩ := isAdded_iff.1 (by simpa using ha)
    have hk := h key (by simp [KeyMap.contains, hp])
    exact Bool.false_ne_true (hc.symm.trans hk)

theorem isRemoved_eq_false_iff :
    isRemoved current scanned package = false ↔
      ∀ key p, current.get? key = some p → p.packageName = package →
        scanned.contains key = true := by
  rw [← Bool.not_eq_true, isRemoved_iff]
  simp

theorem isVersionChanged_eq_false_iff :
    isVersionChanged current scanned = false ↔
      ∀ key p, scanned.get? key = some p →
        ∀ q, current.get? key = some q → q.version = p.version := by
  rw [← Bool.not_eq_true, isVersionChanged_iff]
  simp

theorem isAdded_congr {current' : PluginMap}
    (h : ∀ key p, scanned.get? key = some p → current.get? key = current'.get? key) :
    isAdded current scanned = isAdded current' scanned := by
  rw [Bool.eq_iff_iff, isAdded_iff, isAdded_iff]
  refine exists_congr fun key => exists_congr fun p => and_congr_right fun hp => ?_
  rw [KeyMap.contains, KeyMap.contains, h key p hp]

theorem isVersionChanged_congr {current' : PluginMap}
    (h : ∀ key p, scanned.get? key = some p → current.get? key = current'.get? key) :
    isVersionChanged current scanned = isVersionChanged current' scanned := by
  rw [Bool.eq_iff_iff, isVersionChanged_iff, isVersionChanged_iff]
  refine exists_congr fun key => exists_congr fun p => exists_congr fun q =>
    and_congr_right fun hp => ?_
  rw [h key p hp]

/-- A change that takes nothing over brings no key and no version that is new. -/
theorem known_of_not_rewrites (h : rewrites .changed current scanned published = false)
    {k : String} {p : Plugin} (hp : scanned.get? k = some p) :
    (∃ q, current.get? k = some q) ∧
      ∀ old ∈ published, ∀ q, old.get? k = some q → q.version = p.version := by
  obtain ⟨ha, hv⟩ := Bool.or_eq_false_iff.1 h
  constructor
  · have hc := contains_of_not_isAdded ha (k := k) (by simp [KeyMap.contains, hp])
    exact Option.isSome_iff_exists.1 hc
  · intro old hold q hq
    by_contra hne
    have hn : isVersionChanged old scanned = true := isVersionChanged_iff.2 ⟨k, p, q, hp, hq, hne⟩
    have ht : published.any (isVersionChanged · scanned) = true :=
      (Option.any_eq_true ..).2 ⟨old, hold, hn⟩
    rw [ht] at hv
    cases hv

theorem get?_pruneRemoved (k : String) :
    (pruneRemoved current scanned package).1.get? k =
      if scanned.contains k then current.get? k
      else (current.get? k).filter fun p => p.packageName ≠ package := by
  have h : (pruneRemoved current scanned package).1.get? k =
      (current.get? k).filter fun p => p.packageName ≠ package || scanned.contains k :=
    KeyMap.get?_filter ..
  rw [h]
  cases hs : scanned.contains k <;> cases current.get? k <;> simp

/-- Entries are dropped just when the scan lacks an entry of the package. -/
theorem changed_pruneRemoved :
    (pruneRemoved current scanned package).2 = isRemoved current scanned package := by
  have h : (pruneRemoved current scanned package).2 = false ↔
      isRemoved current scanned package = false := by
    rw [pruneRemoved, ← Bool.not_eq_true, ← Bool.not_eq_true, isRemoved_iff]
    simp only [ne_eq, decide_not, Bool.not_eq_true', decide_eq_false_iff_not, not_not,
      KeyMap.size_filter_eq_iff, not_exists, not_and]
    constructor
    · intro h k p hp hn hs
      simpa [hn, hs] using h k p hp
    · intro h k p hp
      by_cases hn : p.packageName = package
      · simpa [hn] using h k p hp hn
      · simp [hn]
  cases hr : isRemoved current scanned package with
  | false => exact h.2 hr
  | true =>
    cases hp : (pruneRemoved current scanned package).2 with
    | false => exact absurd (h.1 hp) (by simp [hr])
    | true => rfl

/-- Entries that the scan holds are no obstacle to pruning: what is new stays new. -/
theorem isAdded_pruneRemoved :
    isAdded (pruneRemoved current scanned package).1 scanned = isAdded current scanned := by
  have hc {k : String} {p : Plugin} (hp : scanned.get? k = some p) :
      (pruneRemoved current scanned package).1.contains k = current.contains k := by
    have hs : scanned.contains k = true := by simp [KeyMap.contains, hp]
    rw [KeyMap.contains, get?_pruneRemoved, if_pos hs, KeyMap.contains]
  rw [Bool.eq_iff_iff, isAdded_iff, isAdded_iff]
  constructor
  · rintro ⟨k, p, hp, h⟩
    exact ⟨k, p, hp, by rw [← hc hp, h]⟩
  · rintro ⟨k, p, hp, h⟩
    exact ⟨k, p, hp, by rw [hc hp, h]⟩

theorem get?_mergeAdded (k : String) :
    (mergeAdded current scanned).1.get? k =
      if isAdded current scanned then (scanned.get? k).or (current.get? k)
      else current.get? k := by
  rw [mergeAdded]
  split
  · exact KeyMap.get?_merge ..
  · rfl

theorem changed_mergeAdded : (mergeAdded current scanned).2 = isAdded current scanned := by
  rw [mergeAdded]
  split
  · next h => exact h.symm
  · next h => exact (Bool.eq_false_iff.2 h).symm

/-- Under a scanned key stands the scanned entry if the entries are taken over and the former entry
otherwise; an entry of the package under any other key is dropped if the change prunes. -/
theorem get?_follow (kind : ChangeKind) (k : String) :
    (follow kind package current scanned published).1.get? k =
      match scanned.get? k with
      | some p => if rewrites kind current scanned published then some p else current.get? k
      | none =>
        if kind.prunes then (current.get? k).filter fun p => p.packageName ≠ package
        else current.get? k := by
  have hs : scanned.contains k = (scanned.get? k).isSome := rfl
  cases kind with
  | added =>
    change _ = match scanned.get? k with
      | some p => if isAdded current scanned then some p else current.get? k
      | none => current.get? k
    rw [follow, get?_mergeAdded]
    cases scanned.get? k <;> simp
  | removed =>
    change _ = match scanned.get? k with
      | some _ => current.get? k
      | none => (current.get? k).filter fun p => p.packageName ≠ package
    rw [follow, get?_pruneRemoved, hs]
    cases scanned.get? k <;> simp
  | changed =>
    change _ = match scanned.get? k with
      | some p =>
        if isAdded current scanned || published.any (isVersionChanged · scanned) then some p
        else current.get? k
      | none => (current.get? k).filter fun p => p.packageName ≠ package
    have hu : (follow .changed package current scanned published).1.get? k =
        if published.any (isVersionChanged · scanned) then
          (scanned.get? k).or
            ((mergeAdded (pruneRemoved current scanned package).1 scanned).1.get? k)
        else (mergeAdded (pruneRemoved current scanned package).1 scanned).1.get? k := by
      rw [follow]
      dsimp only
      split
      · exact KeyMap.get?_merge ..
      · rfl
    rw [hu, get?_mergeAdded, isAdded_pruneRemoved, get?_pruneRemoved, hs]
    cases scanned.get? k with
    | none => simp
    | some p =>
      cases isAdded current scanned <;>
        cases published.any (isVersionChanged · scanned) <;> simp

theorem changed_follow (kind : ChangeKind) :
    (follow kind package current scanned published).2 =
      (kind.prunes && isRemoved current scanned package ||
        rewrites kind current scanned published) := by
  cases kind with
  | added => simp [follow, changed_mergeAdded, rewrites, ChangeKind.prunes]
  | removed => simp [follow, changed_pruneRemoved, rewrites, ChangeKind.prunes]
  | changed =>
    simp [follow, changed_pruneRemoved, changed_mergeAdded, isAdded_pruneRemoved, rewrites,
      ChangeKind.prunes, Bool.or_assoc]

/-- Keys that the scan lacks and that hold no entry of the package are left alone. -/
theorem get?_follow_of_other (kind : ChangeKind) {k : String} (hs : scanned.get? k = none)
    (hc : ∀ p, current.get? k = some p → p.packageName ≠ package) :
    (follow kind package current scanned published).1.get? k = current.get? k := by
  rw [get?_follow, hs]
  dsimp only
  split
  · cases h : current.get? k with
    | none => rfl
    | some p => simp [hc p h]
  · rfl

theorem contains_follow (kind : ChangeKind) {k : String}
    (hc : ∀ p, current.get? k = some p → p.packageName = package) :
    (follow kind package current scanned published).1.contains k =
      kind.hear (scanned.contains k) (current.contains k) := by
  have hown : (current.get? k).filter (fun p => p.packageName ≠ package) = none := by
    cases hp : current.get? k with
    | none => rfl
    | some p => simp [hc p hp]
  rw [KeyMap.contains, get?_follow, hown, KeyMap.contains, KeyMap.contains]
  cases hs : scanned.get? k with
  | none => cases kind <;> simp [ChangeKind.hear, ChangeKind.prunes]
  | some p =>
    cases hk : current.get? k with
    | none =>
      have hadd : isAdded current scanned = true :=
        isAdded_iff.2 ⟨k, p, hs, by simp [KeyMap.contains, hk]⟩
      cases kind <;> simp [ChangeKind.hear, rewrites, hadd]
    | some q =>
      cases kind
      all_goals simp only [ChangeKind.hear, Option.isSome_some, Bool.or_true, Bool.and_true]
      all_goals split <;> rfl

/-- A change that is not reported leaves the map as it was. -/
theorem follow_of_not_changed (kind : ChangeKind)
    (h : (follow kind package current scanned published).2 = false) :
    (follow kind package current scanned published).1 = current := by
  rw [changed_follow, Bool.or_eq_false_iff] at h
  obtain ⟨hp, hr⟩ := h
  apply KeyMap.ext_get?
  intro k
  rw [get?_follow, hr]
  cases hs : scanned.get? k with
  | some p => simp
  | none =>
    dsimp only
    split
    · next hk =>
      have hn : ¬isRemoved current scanned package = true := by simpa [hk] using hp
      cases hc : current.get? k with
      | none => rfl
      | some p =>
        have hne : p.packageName ≠ package := fun e =>
          hn (isRemoved_iff.2 ⟨k, p, hc, e, by simp [KeyMap.contains, hs]⟩)
        simp [hne]
    · rfl

/-- A change is reported just when the map is another one than before, provided that the published
map, where one is looked at, is the map that is followed. -/
theorem changed_follow_iff (kind : ChangeKind) (hp : ∀ old ∈ published, old = current) :
    (follow kind package current scanned published).2 = true ↔
      (follow kind package current scanned published).1 ≠ current := by
  constructor
  · intro h he
    -- An unchanged map keeps what was to be dropped and lacks what was to be taken over.
    have hk (k : String) := congrArg (fun m => KeyMap.get? m k) he
    simp only [get?_follow] at hk
    rw [changed_follow, Bool.or_eq_true, Bool.and_eq_true] at h
    rcases h with ⟨hprune, hrem⟩ | hrew
    · obtain ⟨k, p, hc, hn, hs⟩ := isRemoved_iff.1 hrem
      have hs : scanned.get? k = none := by simpa [KeyMap.contains] using hs
      simpa [hs, hprune, hc, hn] using hk k
    · have htaken (k : String) (p : Plugin) (h : scanned.get? k = some p) :
          current.get? k = some p := by
        simpa [h, hrew] using (hk k).symm
      have hadd : isAdded current scanned = false := by
        by_contra ha
        obtain ⟨k, p, h, hc⟩ := isAdded_iff.1 (by simpa using ha)
        simp [KeyMap.contains, htaken k p h] at hc
      cases kind with
      | added => simp [rewrites, hadd] at hrew
      | removed => simp [rewrites] at hrew
      | changed =>
        obtain ⟨old, hold, hv⟩ : ∃ old ∈ published, isVersionChanged old scanned = true := by
          simpa [rewrites, hadd, Option.any_eq_true] using hrew
        rw [hp old hold] at hv
        obtain ⟨k, p, q, h, hq, hne⟩ := isVersionChanged_iff.1 hv
        rw [htaken k p h] at hq
        cases hq
        exact hne rfl
  · intro h
    by_contra hn
    exact h (follow_of_not_changed kind (Bool.eq_false_iff.2 hn))

end PluginMap

end PluginRegistry
