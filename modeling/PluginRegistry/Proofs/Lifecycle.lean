import Mathlib.Data.List.Infix
import PluginRegistry.Proofs.WorldRuns

/-!
# The life of a registry

Every registry goes through the same stages: its initial load is the first message that it handles,
it then handles changes of packages, and it ends. The stage ties together what the worker is about,
what is queued and what readers may see; no turn leads out of the stages.
-/

namespace PluginRegistry.Live

open Actor

def Lifecycle.rank : Lifecycle → Nat
  | unstarted => 0
  | initializing => 1
  | ready => 2
  | destroyed => 3

namespace Task

/-- What may be left to do of the initial load, or of what is done instead when it fails. -/
def boots : List (List Task) := initial.tails ++ recovery.tails

variable {x : Task} {todo : List Task}

theorem mem_boots_iff : todo ∈ boots ↔ todo <:+ initial ∨ todo <:+ recovery := by
  rw [boots, List.mem_append, List.mem_tails, List.mem_tails]

theorem boots_tail (h : x :: todo ∈ boots) : todo ∈ boots := by
  rw [mem_boots_iff] at h ⊢
  exact h.imp (List.suffix_cons x todo).trans (List.suffix_cons x todo).trans

theorem not_mem_of_boots (h : x :: todo ∈ boots) : x ∉ todo := by
  have hn : ∀ l ∈ boots, l.Nodup := by decide
  exact (List.nodup_cons.1 (hn _ h)).1

theorem publish_mem (c : Category) : .publish c ∈ initial ∧ .publish c ∈ recovery := by
  cases c <;> decide

/-- A full scan comes before everything else that the initial load does. -/
theorem boots_scan (h : x :: todo ∈ boots) (hx : x = .clear ∨ ∃ c, x = .load c) :
    .subscribe ∈ todo ∧ .becomeReady ∈ todo ∧ .openGate ∈ todo ∧ ∀ c, .publish c ∈ todo := by
  have hall : ∀ l ∈ boots, ∀ y ∈ l.head?, (y = .clear ∨ y = .load .condition ∨ y = .load .setting) →
      .subscribe ∈ l.tail ∧ .becomeReady ∈ l.tail ∧ .openGate ∈ l.tail ∧
        .publish .condition ∈ l.tail ∧ .publish .setting ∈ l.tail := by
    decide
  have hy : x = .clear ∨ x = .load .condition ∨ x = .load .setting := by
    rcases hx with rfl | ⟨c, rfl⟩
    · exact Or.inl rfl
    · cases c <;> simp
  obtain ⟨hu, hr, hg, hc, hs⟩ := hall _ h x rfl hy
  exact ⟨hu, hr, hg, fun c => by cases c <;> assumption⟩

theorem boots_kind (h : x :: todo ∈ boots) :
    (∀ c y, x ≠ .follow c y) ∧ x ≠ .conclude := by
  have hall : ∀ l ∈ boots, ∀ y ∈ l, (y.followed? .condition).isNone = true ∧
      (y.followed? .setting).isNone = true ∧ y ≠ .conclude := by
    decide
  obtain ⟨hc, hs, hn⟩ := hall _ h x List.mem_cons_self
  refine ⟨?_, hn⟩
  rintro c y rfl
  cases c
  · simp [followed?] at hc
  · simp [followed?] at hs

def isBoot : Task → Bool
  | load _ => true
  | clear => true
  | subscribe => true
  | becomeReady => true
  | openGate => true
  | _ => false

theorem isBoot_of_duty {marks : Changes} (h : Duty .ready todo marks) (passed : .openGate ∉ todo) :
    ∀ y ∈ todo, y.isBoot = false := by
  cases h with
  | follow | second | conclude => simp [following, Category.all, isBoot]
  | announce cs rest _ hr =>
    intro y hy
    rcases List.mem_append.1 hy with hc | hm
    · obtain ⟨c, -, rfl⟩ := List.mem_map.1 hc
      rfl
    · have hs := hr y hm
      cases y <;> cases hs
      · rfl
      · rfl
      · exact absurd hy passed

end Task

namespace Registry

variable {a : Nat} {s s' : Shared} {r r' : Registry} {o : Outage} {c d : Category}
  {x : Task} {todo rest : List Task} {marks : Changes} {act : Act}

def Shown (r : Registry) : Prop := ∀ c, ∃ p, r.catalogue.published.snapshot? c = some p

theorem covered_iff (hw : r.worker = .busy todo marks) :
    r.Covered c ↔ r.catalogue.published.plugins? c = some (r.catalogue.working.get c) ∨
      .publish c ∈ todo ∨ .conclude ∈ todo ∧ marks.get c = true := by
  rw [Covered, Registry.todo, Registry.marks, hw]

theorem settled_of_covered (h : r.Covered c) (hw : r.worker = .busy todo marks)
    (hp : .publish c ∉ todo) (hc : .conclude ∉ todo) :
    r.catalogue.published.plugins? c = some (r.catalogue.working.get c) :=
  ((covered_iff hw).1 h).resolve_right fun h => h.elim hp fun h => hc h.1

theorem covered_publish (h : r.Covered c) (hw : r.worker = .busy (.publish d :: rest) marks) :
    Covered { r with catalogue := r.catalogue.publishOne d, worker := .busy rest marks } c := by
  rw [covered_iff hw] at h
  rw [covered_iff rfl]
  have hp := Published.plugins?_publish r.catalogue.published d c (r.catalogue.working.get d)
  change (r.catalogue.published.publish d (r.catalogue.working.get d)).plugins? c =
    some (r.catalogue.working.get c) ∨ _
  rw [hp]
  split
  · next he => exact Or.inl (by rw [he])
  · next hne =>
    rcases h with h | h | ⟨h, hm⟩
    · exact Or.inl h
    · exact Or.inr (Or.inl ((List.mem_cons.1 h).resolve_left fun he => hne (by cases he; rfl)))
    · exact Or.inr (Or.inr ⟨(List.mem_cons.1 h).resolve_left (by simp), hm⟩)

theorem covered_follow {y : PackageChange} (h : r.Covered c)
    (hw : r.worker = .busy (.follow d y :: rest) marks) (concludes : .conclude ∈ rest)
    (unmarked : marks.get d = false) (unpublished : .publish c ∉ rest) :
    Covered { r with
      catalogue := (r.catalogue.follow s.directory s.site.characteristics y d).1
      worker := .busy rest (marks.set d
        (r.catalogue.followed s.directory s.site.characteristics y d).2) } c := by
  rw [covered_iff hw] at h
  rw [covered_iff rfl]
  rcases h with h | h | ⟨-, h⟩
  · by_cases hc : d = c
    · subst hc
      rw [ByCategory.get_set_self]
      cases hf : (r.catalogue.followed s.directory s.site.characteristics y d).2 with
      | true => exact Or.inr (Or.inr ⟨concludes, rfl⟩)
      | false =>
        left
        rw [Catalogue.follow_eq, ByCategory.get_set_self]
        exact h.trans (congrArg some (PluginMap.follow_of_not_changed _ hf).symm)
    · left
      rw [Catalogue.follow_eq, ByCategory.get_set, if_neg hc]
      exact h
  · exact absurd ((List.mem_cons.1 h).resolve_left (by simp)) unpublished
  · have hc : d ≠ c := by
      rintro rfl
      rw [unmarked] at h
      cases h
    right; right
    rw [ByCategory.get_set, if_neg hc]
    exact ⟨concludes, h⟩

theorem shown_publish (h : r.Shown) (d : Category) :
    Shown { r with catalogue := r.catalogue.publishOne d } := by
  intro c
  have hp := Published.snapshot?_publish r.catalogue.published d c (r.catalogue.working.get d)
  change ∃ p, (r.catalogue.published.publish d (r.catalogue.working.get d)).snapshot? c = some p
  rw [hp]
  split
  · exact ⟨_, rfl⟩
  · exact h c

/-- How far a registry has come. -/
inductive Stage (r : Registry) : Prop
  | fresh (worker : r.worker = .idle) (lifecycle : r.lifecycle = .unstarted)
      (gate : r.gate = .shut) (queue : ∃ q, r.mailbox.queue = .init :: q ∧ .init ∉ q)
  | booting (todo : List Task) (worker : r.worker = .busy todo .none) (left : todo ∈ Task.boots)
      (lifecycle : r.lifecycle = if .becomeReady ∈ todo then .initializing else .ready)
      (gate : r.gate = if .openGate ∈ todo then .shut else ⟨true, true⟩)
      (queue : .init ∉ r.mailbox.queue) (covered : ∀ c, r.Covered c)
  | idle (worker : r.worker = .idle) (lifecycle : r.lifecycle = .ready)
      (gate : r.gate = ⟨true, true⟩) (queue : .init ∉ r.mailbox.queue)
      (settled : ∀ c, r.catalogue.published.plugins? c = some (r.catalogue.working.get c))
  | busy (todo : List Task) (marks : Changes) (worker : r.worker = .busy todo marks)
      (duty : Duty .ready todo marks) (passed : .openGate ∉ todo)
      (lifecycle : r.lifecycle = .ready) (gate : r.gate = ⟨true, true⟩)
      (queue : .init ∉ r.mailbox.queue) (covered : ∀ c, r.Covered c) (shown : r.Shown)
  | ending (exit : Exit)
      (worker : r.worker = .stopping exit ∧ (r.lifecycle = .ready ∨ r.lifecycle = .destroyed) ∨
        (r.worker = .leaving exit ∨ r.worker = .exited exit) ∧ r.lifecycle = .destroyed)
      (gate : r.gate = ⟨true, true⟩) (queue : .init ∉ r.mailbox.queue) (shown : r.Shown)

theorem stage_start (channel : Channel) : (start channel).Stage :=
  .fresh rfl rfl rfl ⟨[], rfl, List.not_mem_nil⟩

/-- What becomes of a registry that takes up a message, with `q` left in its mailbox. -/
inductive Accepts (s : Shared) (r : Registry) (q : List Message) :
    Message → Shared → Registry → Prop
  | init (lifecycle : r.lifecycle = .unstarted) : Accepts s r q .init s
      { r with
        mailbox := ⟨q, r.mailbox.closed⟩
        lifecycle := .initializing
        worker := .busy Task.initial .none }
  | package (x : PackageChange) (lifecycle : r.lifecycle = .ready) : Accepts s r q (.package x) s
      { r with mailbox := ⟨q, r.mailbox.closed⟩, worker := .busy (Task.following x) .none }
  | destroy (lifecycle : r.lifecycle = .ready) : Accepts s r q .destroy
      { s with stream := r.subscription.elim s.stream s.stream.unsubscribe }
      { r with
        mailbox := ⟨q, r.mailbox.closed⟩
        subscription := none
        lifecycle := .destroyed
        worker := .stopping .stopped }

theorem accepts_of_idle (hr : r.Stage) (hw : r.worker = .idle) {m : Message} {q : List Message}
    (hq : r.mailbox.queue = m :: q)
    (ha : { r with mailbox := ⟨q, r.mailbox.closed⟩ }.accept s m = (s', r')) :
    Accepts s r q m s' r' := by
  cases hr with
  | fresh _ hl _ hi =>
    obtain ⟨q', hi, -⟩ := hi
    cases hi.symm.trans hq
    rw [accept, if_pos hl] at ha
    cases ha
    exact .init hl
  | idle _ hl _ hi =>
    rw [hq] at hi
    cases m with
    | init => exact absurd List.mem_cons_self hi
    | package x =>
      rw [accept, if_pos hl] at ha
      cases ha
      exact .package x hl
    | destroy =>
      rw [accept, if_neg (by rw [hl]; simp)] at ha
      cases ha
      exact .destroy hl
  | booting _ hw' | busy _ _ hw' => cases hw.symm.trans hw'
  | ending _ hw' => simp [hw] at hw'

theorem stage_fresh (hw : r.worker = .idle) (hl : r.lifecycle = .unstarted) (hg : r.gate = .shut)
    (hq : ∃ q, r.mailbox.queue = .init :: q ∧ .init ∉ q) (h : r.Works o a s s' r') :
    r'.Stage := by
  obtain ⟨q, hq, hn⟩ := hq
  cases h with
  | take m q' _ hq' ha =>
    cases accepts_of_idle (.fresh hw hl hg ⟨q, hq, hn⟩) hw hq' ha with
    | init =>
      cases hq.symm.trans hq'
      exact .booting Task.initial rfl (Task.mem_boots_iff.2 (Or.inl (List.suffix_refl _))) rfl hg
        hn fun c => Or.inr (Or.inl (Task.publish_mem c).1)
    | package _ hl' | destroy hl' => cases hl.symm.trans hl'
  | finish _ he => cases hq.symm.trans he
  | rest _ hw' | perform _ _ _ hw' | stop _ hw' | leave _ hw' => cases hw.symm.trans hw'

/-- A task of the initial load leads on, or to what is done instead of a load that fails. -/
theorem stage_boot (hw : r.worker = .busy (x :: todo) .none) (left : x :: todo ∈ Task.boots)
    (hl : r.lifecycle = if .becomeReady ∈ x :: todo then .initializing else .ready)
    (hg : r.gate = if .openGate ∈ x :: todo then .shut else ⟨true, true⟩)
    (hq : .init ∉ r.mailbox.queue) (hc : ∀ c, r.Covered c)
    (hp : r.Carries o a s todo .none x s' r') : r'.Stage := by
  have left' := Task.boots_tail left
  have hx := Task.not_mem_of_boots left
  -- What neither scans nor publishes leaves the catalogue alone.
  have hkept (hx : ∀ c, x ≠ .publish c) (c : Category) :
      r.catalogue.published.plugins? c = some (r.catalogue.working.get c) ∨ .publish c ∈ todo ∨
        .conclude ∈ todo ∧ Changes.none.get c = true := by
    rcases (covered_iff hw).1 (hc c) with h | h | ⟨-, h⟩
    · exact Or.inl h
    · exact Or.inr (Or.inl ((List.mem_cons.1 h).resolve_left fun he => hx c he.symm))
    · cases c <;> cases h
  cases hp with
  | load c | clear =>
    obtain ⟨-, -, -, hpub⟩ := Task.boots_scan left (by simp)
    exact .booting todo rfl left' (by simpa using hl) (by simpa using hg) hq
      fun c => Or.inr (Or.inl (hpub c))
  | fails c =>
    obtain ⟨-, hr, ho, -⟩ := Task.boots_scan left (Or.inr ⟨c, rfl⟩)
    refine .booting Task.recovery rfl (Task.mem_boots_iff.2 (Or.inr (List.suffix_refl _)))
      ?_ ?_ hq fun c => Or.inr (Or.inl (Task.publish_mem c).2)
    · rw [hl, if_pos (List.mem_cons_of_mem _ hr), if_pos (by decide)]
    · rw [hg, if_pos (List.mem_cons_of_mem _ ho), if_pos (by decide)]
  | publish c =>
    exact .booting todo rfl left' (by simpa using hl) (by simpa using hg) hq
      fun c => covered_publish (hc c) hw
  | subscribe | signal | report =>
    exact .booting todo rfl left' (by simpa using hl) (by simpa using hg) hq
      (hkept (by simp))
  | becomeReady =>
    exact .booting todo rfl left' (if_neg hx).symm (by simpa using hg) hq (hkept (by simp))
  | openGate =>
    refine .booting todo rfl left' (by simpa using hl) ?_ hq (hkept (by simp))
    rw [if_neg hx]
    change r.gate.opened = _
    rw [hg, if_pos List.mem_cons_self]
    rfl
  | follow c y | breaks c y => exact absurd rfl ((Task.boots_kind left).1 c y)
  | conclude => exact absurd rfl (Task.boots_kind left).2

theorem stage_booting (hw : r.worker = .busy todo .none) (left : todo ∈ Task.boots)
    (hl : r.lifecycle = if .becomeReady ∈ todo then .initializing else .ready)
    (hg : r.gate = if .openGate ∈ todo then .shut else ⟨true, true⟩)
    (hq : .init ∉ r.mailbox.queue) (hc : ∀ c, r.Covered c) (h : r.Works o a s s' r') :
    r'.Stage := by
  cases h with
  | take _ _ hw' | finish hw' | stop _ hw' | leave _ hw' => cases hw.symm.trans hw'
  | rest marks hw' =>
    cases hw.symm.trans hw'
    have hset (c : Category) := settled_of_covered (hc c) hw List.not_mem_nil List.not_mem_nil
    exact .idle rfl hl hg hq hset
  | perform x todo' marks hw' hp =>
    cases hw.symm.trans hw'
    exact stage_boot hw left hl hg hq hc hp

theorem shown_of_settled
    (h : ∀ c, r.catalogue.published.plugins? c = some (r.catalogue.working.get c)) : r.Shown := by
  intro c
  obtain ⟨p, hp, -⟩ := Option.map_eq_some_iff.1 (h c)
  exact ⟨p, hp⟩

theorem stage_idle (hw : r.worker = .idle) (hl : r.lifecycle = .ready)
    (hg : r.gate = ⟨true, true⟩) (hq : .init ∉ r.mailbox.queue)
    (hc : ∀ c, r.catalogue.published.plugins? c = some (r.catalogue.working.get c))
    (h : r.Works o a s s' r') : r'.Stage := by
  have hs := shown_of_settled hc
  cases h with
  | take m q _ hqueue ha =>
    have hq' : .init ∉ q := fun hm => hq (hqueue ▸ List.mem_cons_of_mem _ hm)
    cases accepts_of_idle (.idle hw hl hg hq hc) hw hqueue ha with
    | init hl' => cases hl.symm.trans hl'
    | package y =>
      exact .busy (Task.following y) .none rfl (.follow y) (by simp [Task.following]) hl hg hq'
        (fun c => Or.inl (hc c)) hs
    | destroy => exact .ending .stopped (Or.inl ⟨rfl, Or.inr rfl⟩) hg hq' hs
  | finish => exact .ending .mailboxClosed (Or.inl ⟨rfl, Or.inl hl⟩) hg hq hs
  | rest _ hw' | perform _ _ _ hw' | stop _ hw' | leave _ hw' => cases hw.symm.trans hw'

theorem covered_conclude (h : r.Covered c) (hw : r.worker = .busy [.conclude] marks) :
    Covered { r with worker := .busy (Task.announce marks ++ []) marks } c := by
  obtain ⟨cs, rest, he, -, hcs⟩ := Task.announce_eq marks
  refine ((covered_iff hw).1 h).imp_right fun h => Or.inl ?_
  have hm := hcs c (h.resolve_left (by simp)).2
  change .publish c ∈ Task.announce marks ++ []
  rw [List.append_nil, he]
  exact List.mem_append_left _ (List.mem_map.2 ⟨c, hm, rfl⟩)

section
variable (hl : r.lifecycle = .ready) (hg : r.gate = ⟨true, true⟩) (hq : .init ∉ r.mailbox.queue)
  (hs : r.Shown)
include hl hg hq hs

theorem stage_fail (text : Option String) : (r.fail text).Stage :=
  .ending (.panicked text) (Or.inl ⟨rfl, Or.inl hl⟩) ((if_neg hq).trans hg) List.not_mem_nil hs

variable (hc : ∀ c, r.Covered c)
include hc

theorem stage_follow {y : PackageChange} (hw : r.worker = .busy (.follow d y :: rest) marks)
    (duty : ∀ b, Duty .ready rest (marks.set d b)) (concludes : .conclude ∈ rest)
    (unmarked : marks.get d = false) (unpublished : ∀ c, .publish c ∉ rest)
    (passed : .openGate ∉ rest) (hp : r.Carries o a s rest marks (.follow d y) s' r') :
    r'.Stage := by
  cases hp with
  | breaks => exact stage_fail hl hg hq hs _
  | follow =>
    exact .busy rest _ rfl (duty _) passed hl hg hq
      (fun c => covered_follow (hc c) hw concludes unmarked (unpublished c)) hs

theorem stage_conclude (hw : r.worker = .busy [.conclude] marks)
    (hp : r.Carries o a s [] marks .conclude s' r') : r'.Stage := by
  obtain ⟨cs, rest, he, hr, -⟩ := Task.announce_eq marks
  have passed : ∀ marks : Changes, .openGate ∉ Task.announce marks ++ [] := by
    rintro ⟨_ | _, _ | _⟩ <;> decide
  cases hp
  refine .busy _ marks rfl ?_ (passed marks) hl hg hq (fun c => covered_conclude (hc c) hw) hs
  rw [List.append_nil, he]
  exact .announce cs rest _ hr

theorem stage_announce {cs : List Category} (hw : r.worker = .busy (x :: todo) marks)
    (htodo : x :: todo = cs.map .publish ++ rest) (hr : ∀ y ∈ rest, y.silent = true)
    (passed : .openGate ∉ x :: todo) (hp : r.Carries o a s todo marks x s' r') : r'.Stage := by
  have passed' : .openGate ∉ todo := fun hm => passed (List.mem_cons_of_mem _ hm)
  cases cs with
  | cons d cs =>
    cases htodo
    cases hp
    exact .busy _ marks rfl (.announce cs rest _ hr) passed' hl hg hq
      (fun c => covered_publish (hc c) hw) (shown_publish hs d)
  | nil =>
    cases htodo
    have hset (c : Category) := settled_of_covered (hc c) hw
      (fun hm => by cases hr _ hm) (fun hm => by cases hr _ hm)
    have hd : Duty .ready todo marks :=
      .announce [] todo _ fun y hy => hr y (List.mem_cons_of_mem _ hy)
    have hx := hr x List.mem_cons_self
    cases x <;> cases hx <;> cases hp
    · exact .busy todo marks rfl hd passed' hl hg hq (fun c => Or.inl (hset c)) hs
    · exact .busy todo marks rfl hd passed' hl hg hq (fun c => Or.inl (hset c)) hs
    · exact absurd List.mem_cons_self passed

theorem stage_busy (hw : r.worker = .busy todo marks) (duty : Duty .ready todo marks)
    (passed : .openGate ∉ todo) (h : r.Works o a s s' r') : r'.Stage := by
  cases h with
  | take _ _ hw' | finish hw' | stop _ hw' | leave _ hw' => cases hw.symm.trans hw'
  | rest marks' hw' =>
    cases hw.symm.trans hw'
    have hset (c : Category) := settled_of_covered (hc c) hw List.not_mem_nil List.not_mem_nil
    exact .idle rfl hl hg hq hset
  | perform x rest marks' hw' hp =>
    cases hw.symm.trans hw'
    have passed' : .openGate ∉ rest := fun hm => passed (List.mem_cons_of_mem _ hm)
    generalize htodo : x :: rest = todo at duty
    cases duty with
    | follow y =>
      cases htodo
      exact stage_follow hl hg hq hs hc hw (fun b => .second y _ (by cases b <;> rfl)) (by simp) rfl
        (by simp) passed' hp
    | second y _ hm =>
      cases htodo
      exact stage_follow hl hg hq hs hc hw (fun b => .conclude _) (by simp) hm (by simp) passed' hp
    | conclude =>
      cases htodo
      exact stage_conclude hl hg hq hs hc hw hp
    | announce cs rest' _ hr => exact stage_announce hl hg hq hs hc hw htodo hr passed hp

end

theorem stage_ending {exit : Exit}
    (hw : r.worker = .stopping exit ∧ (r.lifecycle = .ready ∨ r.lifecycle = .destroyed) ∨
      (r.worker = .leaving exit ∨ r.worker = .exited exit) ∧ r.lifecycle = .destroyed)
    (hg : r.gate = ⟨true, true⟩) (hq : .init ∉ r.mailbox.queue) (hs : r.Shown)
    (h : r.Works o a s s' r') : r'.Stage := by
  cases h with
  | take _ _ hw' | finish hw' | rest _ hw' | perform _ _ _ hw' => simp [hw'] at hw
  | stop => exact .ending _ (Or.inr ⟨Or.inl rfl, rfl⟩) hg hq hs
  | leave _ hw' =>
    have hl : r.lifecycle = .destroyed := by simp_all
    exact .ending _ (Or.inr ⟨Or.inr rfl, hl⟩) ((if_neg hq).trans hg) List.not_mem_nil hs

theorem stage_works (hr : r.Stage) (h : r.Works o a s s' r') : r'.Stage := by
  cases hr with
  | fresh hw hl hg hq => exact stage_fresh hw hl hg hq h
  | booting todo hw left hl hg hq hc => exact stage_booting hw left hl hg hq hc h
  | idle hw hl hg hq hc => exact stage_idle hw hl hg hq hc h
  | busy todo marks hw duty passed hl hg hq hc hs =>
    exact stage_busy hl hg hq hs hc hw duty passed h
  | ending exit hw hg hq hs => exact stage_ending hw hg hq hs h

/-- A busy worker carries out an initial load, or a change of a package that it follows. -/
theorem busy_of_stage (hr : r.Stage) (hw : r.worker = .busy todo marks) :
    (todo ∈ Task.boots ∧ marks = .none ∧
        r.lifecycle = (if .becomeReady ∈ todo then .initializing else .ready) ∧
        r.gate = if .openGate ∈ todo then .shut else ⟨true, true⟩) ∨
      Duty .ready todo marks ∧ .openGate ∉ todo ∧ r.lifecycle = .ready ∧
        r.gate = ⟨true, true⟩ := by
  cases hr with
  | booting _ hw' left hl hg =>
    cases hw.symm.trans hw'
    exact Or.inl ⟨left, rfl, hl, hg⟩
  | busy _ _ hw' duty passed hl hg =>
    cases hw.symm.trans hw'
    exact Or.inr ⟨duty, passed, hl, hg⟩
  | fresh hw' | idle hw' => cases hw.symm.trans hw'
  | ending _ hw' => simp [hw] at hw'

/-- A worker that waits for messages has its initial load before it, or has everything published. -/
theorem idle_of_stage (hr : r.Stage) (hw : r.worker = .idle) :
    (r.lifecycle = .unstarted ∧ ∃ q, r.mailbox.queue = .init :: q) ∨
      r.lifecycle = .ready ∧ r.gate = ⟨true, true⟩ ∧
        ∀ c, r.catalogue.published.plugins? c = some (r.catalogue.working.get c) := by
  cases hr with
  | fresh _ hl _ hq => exact Or.inl ⟨hl, hq.imp fun _ => And.left⟩
  | idle _ hl hg _ hc => exact Or.inr ⟨hl, hg, hc⟩
  | booting _ hw' | busy _ _ hw' => cases hw.symm.trans hw'
  | ending _ hw' => simp [hw] at hw'

theorem fresh_of_unstarted (hr : r.Stage) (h : r.lifecycle = .unstarted) :
    r.worker = .idle ∧ ∃ q, r.mailbox.queue = .init :: q := by
  cases hr with
  | fresh hw _ _ hq => exact ⟨hw, hq.imp fun _ => And.left⟩
  | booting _ _ _ hl =>
    rw [h] at hl
    split at hl <;> cases hl
  | idle _ hl => cases h.symm.trans hl
  | busy _ _ _ _ _ hl => cases h.symm.trans hl
  | ending _ hw => simp [h] at hw

theorem covered_of_busy (hr : r.Stage) (hw : r.worker = .busy todo marks) (c : Category) :
    r.Covered c := by
  cases hr with
  | booting _ _ _ _ _ _ hc => exact hc c
  | busy _ _ _ _ _ _ _ _ hc => exact hc c
  | fresh hw' | idle hw' => cases hw.symm.trans hw'
  | ending _ hw' => simp [hw] at hw'

theorem boots_of_isBoot (hr : r.Stage) (hw : r.worker = .busy todo marks) (hm : x ∈ todo)
    (hx : x.isBoot = true) : todo ∈ Task.boots := by
  rcases busy_of_stage hr hw with ⟨left, -⟩ | ⟨duty, passed, -⟩
  · exact left
  · cases hx.symm.trans (Task.isBoot_of_duty duty passed x hm)

/-- Other messages than an initial load may arrive at any stage. -/
theorem stage_mailbox (hr : r.Stage) {m : Mailbox Message}
    (hm : ∃ q, m.queue = r.mailbox.queue ++ q ∧ .init ∉ q) (d e : Bool) :
    Stage { r with mailbox := m, destroyRequested := d, dropped := e } := by
  obtain ⟨q, hm, hq⟩ := hm
  have happ (h : .init ∉ r.mailbox.queue) : .init ∉ m.queue := by
    rw [hm, List.mem_append]
    exact fun hi => hi.elim h hq
  cases hr with
  | fresh hw hl hg hi =>
    obtain ⟨q', hi, hn⟩ := hi
    refine .fresh hw hl hg ⟨q' ++ q, hm.trans (congrArg (· ++ q) hi), ?_⟩
    rw [List.mem_append]
    exact fun hi => hi.elim hn hq
  | booting todo hw left hl hg hi hc => exact .booting todo hw left hl hg (happ hi) hc
  | idle hw hl hg hi hc => exact .idle hw hl hg (happ hi) hc
  | busy todo marks hw duty passed hl hg hi hc hs =>
    exact .busy todo marks hw duty passed hl hg (happ hi) hc hs
  | ending exit hw hg hi hs => exact .ending exit hw hg (happ hi) hs

theorem queue_deliver (m : Mailbox Message) (xs : List PackageChange) :
    ∃ q, (deliver m xs).queue = m.queue ++ q ∧ .init ∉ q := by
  cases hc : m.closed with
  | true => exact ⟨[], by simp [deliver_of_closed hc], List.not_mem_nil⟩
  | false => exact ⟨xs.map .package, by rw [deliver_of_open hc], by simp⟩

theorem queue_summoned (m : Mailbox Message) :
    ∃ q, (m.send .destroy).1.queue = m.queue ++ q ∧ .init ∉ q := by
  cases hc : m.closed with
  | true => exact ⟨[], by simp [Mailbox.send_of_closed hc], List.not_mem_nil⟩
  | false => exact ⟨[.destroy], by rw [Mailbox.send_of_open hc], by simp⟩

theorem gate_of_exited (hr : r.Stage) (h : r.exit?.isSome = true) : r.gate = ⟨true, true⟩ := by
  cases hr with
  | ending _ _ hg => exact hg
  | fresh hw | booting _ hw | idle hw | busy _ _ hw => simp [exit?, hw] at h

theorem stage_turn (hr : r.Stage) (h : r.Turn a s act r') : r'.Stage := by
  cases h with
  | stay => exact hr
  | work _ step => exact stage_works hr (works_of_step step)
  | told _ xs => exact stage_mailbox hr (queue_deliver r.mailbox xs) _ _
  | drop =>
    have hq : r.mailbox.close.queue = r.mailbox.queue ++ [] := (List.append_nil _).symm
    exact stage_mailbox hr ⟨[], hq, List.not_mem_nil⟩ _ _
  | summon => exact stage_mailbox hr (queue_summoned r.mailbox) _ _
  | release _ exited =>
    have hg := gate_of_exited hr exited
    have ho : r.gate.opened = r.gate := by rw [hg]; rfl
    rw [ho]
    exact hr

def Expects (r : Registry) : Message → Prop
  | .init => r.lifecycle = .unstarted
  | .package _ => r.lifecycle = .ready
  | .destroy => r.lifecycle ≠ .destroyed

/-- Just the messages that are not expected make the worker panic when it takes them up. -/
theorem accept_panics_iff {m : Message} :
    (∃ text, (r.accept s m).2.worker = .stopping (.panicked text)) ↔ ¬r.Expects m := by
  cases m with
  | init =>
    by_cases h : r.lifecycle = .unstarted <;> simp [accept, Expects, h, fail]
  | package x =>
    by_cases h : r.lifecycle = .ready <;> simp [accept, Expects, h, fail]
  | destroy =>
    by_cases h : r.lifecycle = .destroyed <;> simp [accept, Expects, h, fail]

theorem expects_of_accepts {m : Message} {q : List Message} (h : Accepts s r q m s' r') :
    r.Expects m := by
  cases h with
  | init hl | package _ hl => exact hl
  | destroy hl => exact fun hd => by cases hl.symm.trans hd

/-- Only a directory that panics while a package is followed makes a worker panic. -/
theorem panic_of_works (hr : r.Stage) (h : r.Works o a s s' r') {text : Option String}
    (hp : r'.worker = .stopping (.panicked text)) :
    ∃ c x todo marks p, r.worker = .busy (.follow c x :: todo) marks ∧
      o.first (Scan.queries s.directory c (some x.package)) = some p ∧ p.text = text := by
  cases h with
  | take m q hw hq ha => cases accepts_of_idle hr hw hq ha <;> cases hp
  | finish | rest | stop | leave => cases hp
  | perform x todo marks hw hx =>
    cases hx with
    | breaks c y p panics =>
      refine ⟨c, y, todo, marks, p, hw, panics, ?_⟩
      cases hp
      rfl
    | _ => cases hp

theorem lifecycle_carries (h : r.Carries o a s todo marks x s' r') (hx : x ≠ .becomeReady) :
    r'.lifecycle = r.lifecycle := by
  cases h with
  | becomeReady => exact absurd rfl hx
  | _ => rfl

/-- A step of a worker leaves the lifecycle of its registry or takes it one stage further. -/
theorem lifecycle_works (hr : r.Stage) (h : r.Works o a s s' r') :
    r'.lifecycle = r.lifecycle ∨ r'.lifecycle.rank = r.lifecycle.rank + 1 := by
  cases h with
  | take m q hw hq ha =>
    cases accepts_of_idle hr hw hq ha with
    | init hl => exact Or.inr (by rw [hl]; rfl)
    | package => exact Or.inl rfl
    | destroy hl => exact Or.inr (by rw [hl]; rfl)
  | finish | rest | leave => exact Or.inl rfl
  | perform x todo marks hw hx =>
    by_cases he : x = .becomeReady
    · subst he
      cases hx
      rcases busy_of_stage hr hw with ⟨-, -, hl, -⟩ | ⟨duty, passed, -⟩
      · rw [if_pos List.mem_cons_self] at hl
        exact Or.inr (by rw [hl]; rfl)
      · cases Task.isBoot_of_duty duty passed _ List.mem_cons_self
    · exact Or.inl (lifecycle_carries hx he)
  | stop exit hw =>
    cases hr with
    | ending _ hw' =>
      rcases hw' with ⟨-, hl | hl⟩ | ⟨hw' | hw', -⟩
      · exact Or.inr (by rw [hl]; rfl)
      · exact Or.inl hl.symm
      · cases hw.symm.trans hw'
      · cases hw.symm.trans hw'
    | fresh hw' | idle hw' | booting _ hw' | busy _ _ hw' => cases hw.symm.trans hw'

theorem lifecycle_turn (hr : r.Stage) (h : r.Turn a s act r') :
    r'.lifecycle = r.lifecycle ∨ r'.lifecycle.rank = r.lifecycle.rank + 1 := by
  cases h with
  | work _ step => exact lifecycle_works hr (works_of_step step)
  | stay | told | drop | summon | release => exact Or.inl rfl

end Registry

namespace World

variable {site : Site} {t t' : List Moment} {w v : World} {a : Nat} {r : Registry}

theorem stage_of_run (run : Run (ofSite site) t w) (hr : w.registry? a = some r) : r.Stage :=
  run.registry hr Registry.stage_start Registry.stage_turn

theorem rank_of_run (run : Run w t v) (hr : w.registry? a = some r) (hs : r.Stage) :
    ∃ r', v.registry? a = some r' ∧ r.lifecycle.rank ≤ r'.lifecycle.rank := by
  obtain ⟨r', hr', -, hle⟩ := run.relates
    (Q := fun r r' => r'.Stage ∧ r.lifecycle.rank ≤ r'.lifecycle.rank) hr ⟨hs, le_rfl⟩
    fun h ht => ⟨Registry.stage_turn h.1 ht, by
      rcases Registry.lifecycle_turn h.1 ht with he | he
      · rw [he]
        exact h.2
      · omega⟩
  exact ⟨r', hr', hle⟩

/-- No worker ever takes up a message at the wrong time: what comes next is expected, a worker
panics just because a directory does while a package is followed, and a lifecycle goes from stage to
stage and never back. -/
theorem no_breach (run : Run (ofSite site) t w) (hr : w.registry? a = some r) :
    (r.worker = .idle → ∀ m ∈ r.mailbox.queue.head?, r.Expects m) ∧
      (∀ o s' r' text, r.step o a w.shared = some (s', r') →
        r'.worker = .stopping (.panicked text) →
        ∃ c x todo marks p, r.worker = .busy (.follow c x :: todo) marks ∧
          o.first (Scan.queries w.shared.directory c (some x.package)) = some p ∧
          p.text = text) ∧
      (∀ x v, w.act x = some v → ∃ r', v.registry? a = some r' ∧
        (r'.lifecycle = r.lifecycle ∨ r'.lifecycle.rank = r.lifecycle.rank + 1)) ∧
      ∀ t' v, Run w t' v → ∃ r', v.registry? a = some r' ∧
        r.lifecycle.rank ≤ r'.lifecycle.rank := by
  have hs := stage_of_run run hr
  refine ⟨fun hw m hm => ?_, fun o s' r' text h hp => ?_, fun x v hx => ?_, fun t' v run' => ?_⟩
  · obtain ⟨q, hq⟩ := List.head?_eq_some_iff.1 hm
    exact Registry.expects_of_accepts (Registry.accepts_of_idle (s := w.shared) hs hw hq rfl)
  · exact Registry.panic_of_works hs (Registry.works_of_step h) hp
  · obtain ⟨r', hr', ht⟩ := turn_of_act hx hr
    exact ⟨r', hr', Registry.lifecycle_turn hs ht⟩
  · exact rank_of_run run' hr hs

def summonedActs : List Act :=
  .start (Settings.default.channel "1") :: List.replicate 11 (.work .none 0) ++
    [.emit (.changed "meter"), .requestDestroy 0]

theorem no_breach_summoned :
    ∃ t w r, Run (ofSite ⟨.bare 0, ∅⟩) t w ∧ w.registry? 0 = some r ∧ r.worker = .idle ∧
      r.mailbox.queue = [.package ⟨.changed, "meter"⟩, .destroy] ∧
      r.Expects (.package ⟨.changed, "meter"⟩) := by
  have h : ((ofSite ⟨.bare 0, ∅⟩).acts summonedActs).any (fun w => (w.registry? 0).any fun r =>
      r.worker = .idle && r.mailbox.queue = [.package ⟨.changed, "meter"⟩, .destroy]) = true := by
    decide +kernel
  obtain ⟨w, hw, h⟩ := (Option.any_eq_true ..).1 h
  obtain ⟨r, hr, h⟩ := (Option.any_eq_true ..).1 h
  simp only [Bool.and_eq_true, decide_eq_true_eq] at h
  obtain ⟨t, run⟩ := Run.of_acts hw
  refine ⟨t, w, r, run, hr, h.1, h.2, (no_breach run hr).1 h.1 _ ?_⟩
  rw [h.2]
  rfl

end World

end PluginRegistry.Live
