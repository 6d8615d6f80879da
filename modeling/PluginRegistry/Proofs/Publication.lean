import PluginRegistry.Catalogue.Basic
import PluginRegistry.Proofs.Differences
import PluginRegistry.Proofs.ScanLocality

/-!
# Publication

What the operations of a catalogue do to its working maps and to its snapshots. After every run of
operations a snapshot is its working map (`Settled`). That makes the report about a changed package
exact, although other versions are looked for in the snapshot and not in the working map.
-/

namespace PluginRegistry.Catalogue

variable {d : Directory} {t : Characteristics} {x : PackageChange} {k : Catalogue} {c : Category}

/-- The map in which a category looks for other versions. -/
def consulted (k : Catalogue) (c : Category) : Option PluginMap :=
  if c.relaunchesOnUpgrade then k.published.plugins? c else none

/-- What becomes of the working map of a category when a changed package is followed. -/
def followed (d : Directory) (t : Characteristics) (x : PackageChange) (k : Catalogue)
    (c : Category) : PluginMap × Bool :=
  PluginMap.follow x.kind x.package (k.working.get c) (loadPlugins d t c (some x.package))
    (k.consulted c)

theorem follow_eq (d : Directory) (t : Characteristics) (x : PackageChange) (k : Catalogue)
    (c : Category) :
    k.follow d t x c =
      ({ k with working := k.working.set c (k.followed d t x c).1 }, (k.followed d t x c).2) := rfl

/-- Publishing replaces the marked snapshots by new ones and leaves all else alone. -/
structure Publishes (marks : Changes) (k k' : Catalogue) : Prop where
  working : k'.working = k.working
  kept : ∀ c, marks.get c = false → k'.published.snapshot? c = k.published.snapshot? c
  fresh : ∀ c, marks.get c = true → ∃ s, k'.published.snapshot? c = some s ∧
    s.plugins = k.working.get c ∧ k.published.count < s.stamp ∧ s.stamp ≤ k'.published.count
  count : k.published.count ≤ k'.published.count

theorem Publishes.refl (k : Catalogue) : Publishes .none k k where
  working := rfl
  kept _ _ := rfl
  fresh c hc := by cases c <;> cases hc
  count := Nat.le_refl _

theorem publishes_publishOne (k : Catalogue) (c : Category) :
    Publishes (Changes.none.set c true) k (k.publishOne c) where
  working := rfl
  kept b hb := by
    have hne : c ≠ b := by
      rintro rfl
      rw [ByCategory.get_set_self] at hb
      cases hb
    exact (ByCategory.get_set ..).trans (if_neg hne)
  fresh b hb := by
    have he : c = b := by
      by_contra hne
      rw [ByCategory.get_set, if_neg hne] at hb
      cases b <;> cases hb
    subst he
    exact ⟨⟨k.published.count + 1, k.working.get c⟩, ByCategory.get_set_self .., rfl,
      Nat.lt_succ_self _, Nat.le_refl _⟩
  count := Nat.le_succ _

/-- Publishing twice marks what either publication marks. -/
theorem Publishes.trans {m m' m'' : Changes} {k k' k'' : Catalogue} (h : Publishes m k k')
    (h' : Publishes m' k' k'') (hm : ∀ c, m''.get c = (m.get c || m'.get c)) :
    Publishes m'' k k'' where
  working := h'.working.trans h.working
  kept c hc := by
    rw [hm, Bool.or_eq_false_iff] at hc
    exact (h'.kept c hc.2).trans (h.kept c hc.1)
  fresh c hc := by
    cases hc' : m'.get c with
    | true =>
      obtain ⟨s, hs, hp, hlt, hle⟩ := h'.fresh c hc'
      exact ⟨s, hs, by rw [hp, h.working], Nat.lt_of_le_of_lt h.count hlt, hle⟩
    | false =>
      have hc : m.get c = true := by simpa [hm, hc'] using hc
      obtain ⟨s, hs, hp, hlt, hle⟩ := h.fresh c hc
      exact ⟨s, (h'.kept c hc').trans hs, hp, hlt, Nat.le_trans hle h'.count⟩
  count := Nat.le_trans h.count h'.count

theorem publishes_publish (k : Catalogue) (marks : Changes) :
    Publishes marks k (k.publish marks) := by
  obtain ⟨condition, setting⟩ := marks
  cases condition <;> cases setting
  · exact .refl k
  · exact publishes_publishOne k .setting
  · exact publishes_publishOne k .condition
  · apply (publishes_publishOne k .condition).trans (publishes_publishOne _ .setting)
    intro c
    cases c <;> rfl

theorem working_loadAll : (k.loadAll d t).working.get c = loadPlugins d t c none := by
  cases c <;> rfl

theorem working_apply :
    (k.apply d t x).1.working.get c = (k.followed d t x c).1 := by
  have h := (publishes_publish ((k.follow d t x .condition).1.follow d t x .setting).1
    (k.apply d t x).2).working
  change ((((k.follow d t x .condition).1.follow d t x .setting).1.publish
    (k.apply d t x).2).working).get c = _
  rw [h]
  cases c <;> rfl

theorem marks_apply : (k.apply d t x).2.get c = (k.followed d t x c).2 := by cases c <;> rfl

theorem publishes_apply (k : Catalogue) (d : Directory) (t : Characteristics) (x : PackageChange) :
    Publishes (k.apply d t x).2
      { k with working := (k.apply d t x).1.working } (k.apply d t x).1 := by
  have h := publishes_publish ((k.follow d t x .condition).1.follow d t x .setting).1
    (k.apply d t x).2
  have hw : (k.apply d t x).1.working =
      ((k.follow d t x .condition).1.follow d t x .setting).1.working := h.working
  rw [hw]
  exact h

inductive Operation
  | loadAll
  | reset
  | follow (x : PackageChange)

def Operation.perform (d : Directory) (t : Characteristics) (k : Catalogue) :
    Operation → Catalogue × Changes
  | loadAll => (k.loadAll d t, .all)
  | reset => (k.reset, .all)
  | follow x => k.apply d t x

inductive Run (k : Catalogue) : Catalogue → Prop
  | refl : Run k k
  | perform {k' : Catalogue} (d : Directory) (t : Characteristics) (o : Operation)
      (h : Run k k') : Run k (o.perform d t k').1

/-- Every snapshot is its working map, and nothing is in a working map before its first
publication. -/
structure Settled (k : Catalogue) : Prop where
  published : ∀ c, k.published.plugins? c = some (k.working.get c) ∨
    k.published.snapshot? c = none ∧ k.working.get c = ∅
  stamped : ∀ c s, k.published.snapshot? c = some s → s.stamp ≤ k.published.count

theorem publishes_perform (k : Catalogue) (d : Directory) (t : Characteristics) (o : Operation) :
    Publishes (o.perform d t k).2
      { k with working := (o.perform d t k).1.working } (o.perform d t k).1 := by
  cases o with
  | loadAll => exact publishes_publish ((k.load d t .condition).load d t .setting) .all
  | reset => exact publishes_publish k.clear .all
  | follow x => exact publishes_apply k d t x

theorem consulted_eq (h : k.Settled) (c : Category) : ∀ m ∈ k.consulted c, m = k.working.get c := by
  intro m hm
  rw [consulted] at hm
  split at hm
  · rcases h.published c with he | ⟨he, -⟩
    · rw [he] at hm
      exact (Option.some.inj hm).symm
    · simp [Published.plugins?, he] at hm
  · cases hm

theorem working_of_not_marked {o : Operation} (h : (o.perform d t k).2.get c = false) :
    (o.perform d t k).1.working.get c = k.working.get c := by
  cases o with
  | loadAll => cases c <;> cases h
  | reset => cases c <;> cases h
  | follow x =>
    rw [Operation.perform, marks_apply] at h
    rw [Operation.perform, working_apply]
    exact PluginMap.follow_of_not_changed x.kind h

theorem settled_empty : Settled empty :=
  ⟨fun c => Or.inr (by cases c <;> exact ⟨rfl, rfl⟩), fun c s h => by cases c <;> cases h⟩

theorem settled_perform (h : k.Settled) (d : Directory) (t : Characteristics) (o : Operation) :
    (o.perform d t k).1.Settled := by
  have hp := publishes_perform k d t o
  constructor
  · intro c
    cases hm : (o.perform d t k).2.get c with
    | true =>
      obtain ⟨s, hs, hpl, -, -⟩ := hp.fresh c hm
      left
      rw [Published.plugins?, hs, Option.map_some, hpl]
    | false =>
      have hk : (o.perform d t k).1.published.snapshot? c = k.published.snapshot? c := hp.kept c hm
      rw [Published.plugins?, hk, working_of_not_marked hm]
      exact h.published c
  · intro c s hs
    cases hm : (o.perform d t k).2.get c with
    | true =>
      obtain ⟨s', hs', -, -, hle⟩ := hp.fresh c hm
      rw [hs] at hs'
      cases hs'
      exact hle
    | false =>
      rw [hp.kept c hm] at hs
      exact Nat.le_trans (h.stamped c s hs) hp.count

/-- After a full load it does not matter what was there before. -/
theorem settled_loadAll (k : Catalogue) (d : Directory) (t : Characteristics) :
    (k.loadAll d t).Settled := by
  have hp := publishes_perform k d t .loadAll
  have hm (c : Category) : Changes.all.get c = true := by cases c <;> rfl
  constructor
  · intro c
    obtain ⟨s, hs, hpl, -, -⟩ := hp.fresh c (hm c)
    left
    exact (congrArg _ hs).trans (congrArg some hpl)
  · intro c s hs
    obtain ⟨s', hs', -, -, hle⟩ := hp.fresh c (hm c)
    cases hs.symm.trans hs'
    exact hle

theorem settled_run {k' : Catalogue} (h : k.Settled) (hr : Run k k') : k'.Settled := by
  induction hr with
  | refl => exact h
  | perform d t o _ ih => exact settled_perform ih d t o

theorem count_run {k' : Catalogue} (hr : Run k k') : k.published.count ≤ k'.published.count := by
  induction hr with
  | refl => exact Nat.le_refl _
  | perform d t o _ ih => exact Nat.le_trans ih (publishes_perform _ d t o).count

/-- After every run a snapshot is its working map, or there is neither; a handler marks a category
just when it changed the working map; and every operation stores a new snapshot, younger than all
that were ever stored, for just the categories that it marks. -/
theorem publication_exact {earlier : Catalogue} (start : Run empty earlier)
    (later : Run earlier k) :
    (∀ c, k.published.plugins? c = some (k.working.get c) ∨
      k.published.snapshot? c = none ∧ k.working.get c = ∅) ∧
    (∀ d t x c, (k.apply d t x).2.get c = true ↔
      (k.apply d t x).1.working.get c ≠ k.working.get c) ∧
    ∀ d t (o : Operation) c,
      if (o.perform d t k).2.get c then
        ∃ s, (o.perform d t k).1.published.snapshot? c = some s ∧
          s.plugins = (o.perform d t k).1.working.get c ∧
          ∀ b s', earlier.published.snapshot? b = some s' → s'.stamp < s.stamp
      else (o.perform d t k).1.published.snapshot? c = k.published.snapshot? c := by
  have he := settled_run settled_empty start
  have hk := settled_run he later
  refine ⟨hk.published, fun d t x c => ?_, fun d t o c => ?_⟩
  · rw [marks_apply, working_apply]
    exact PluginMap.changed_follow_iff x.kind (consulted_eq hk c)
  · have hp := publishes_perform k d t o
    split
    · next hm =>
      obtain ⟨s, hs, hpl, hlt, -⟩ := hp.fresh c hm
      refine ⟨s, hs, hpl, fun b s' hs' => ?_⟩
      have hle := Nat.le_trans (he.stamped b s' hs') (count_run later)
      exact Nat.lt_of_le_of_lt hle hlt
    · next hm => exact hp.kept c (by simpa using hm)

theorem publication_exact_upgrade :
    let k := empty.loadAll (Installation.metered 1).directory ∅
    let k' := (k.apply (Installation.metered 2).directory ∅ ⟨.changed, "meter"⟩).1
    Run empty k ∧ k'.working.get .condition ≠ k.working.get .condition ∧
      k'.published.snapshot? .setting = k.published.snapshot? .setting := by
  intro k k'
  have hk : Run empty k := .perform _ ∅ .loadAll .refl
  obtain ⟨-, he, hs⟩ := publication_exact .refl hk
  have hc := he (Installation.metered 2).directory ∅ ⟨.changed, "meter"⟩ .condition
  have hn := hs (Installation.metered 2).directory ∅ (.follow ⟨.changed, "meter"⟩) .setting
  rw [if_neg (by decide +kernel)] at hn
  exact ⟨hk, hc.1 (by decide +kernel), hn⟩

end PluginRegistry.Catalogue
