import PluginRegistry.Proofs.Performed
import PluginRegistry.Proofs.Signalling

/-!
# What others notice of a worker

The deeds of a worker are what others notice of it, and the verdicts that these come from. Each
message that a worker handles takes a course of its own: the worker takes it up, judges both
categories, publishes those that changed, signals once and reports them, all before it takes up the
next message. Its deeds make up such courses, one after another (`Progress`), and nothing else
replaces a snapshot, signals or reports. A snapshot that replaces another is the working map under a
stamp that is new in the run (`Stores`).
-/

namespace PluginRegistry.Live

open Actor

/-- What a worker does that matters to others. -/
inductive Deed
  | takes (m : Message)
  /-- It brings a working map in line with a changed package. -/
  | follows (c : Category) (x : PackageChange) (changed : Bool)
  | publishes (c : Category)
  | signals (channel : Channel)
  | reports (marks : Changes)
  deriving DecidableEq, Repr

namespace Deed

def taken? : Deed → Option Message
  | takes m => some m
  | _ => none

def reported? : Deed → Option Changes
  | reports marks => some marks
  | _ => none

def signalled? : Deed → Option Channel
  | signals channel => some channel
  | _ => none

def followed? (c : Category) : Deed → Option PackageChange
  | follows d x _ => if d = c then some x else none
  | _ => none

def published (k : Catalogue) : Option Deed → Published
  | some (publishes c) => k.published.publish c (k.working.get c)
  | _ => k.published

theorem snapshot?_published (k : Catalogue) (d : Option Deed) (c : Category) :
    (published k d).snapshot? c =
      if d = some (publishes c) then some ⟨k.published.count + 1, k.working.get c⟩
      else k.published.snapshot? c := by
  rcases d with _ | d
  · rfl
  · cases d with
    | publishes c' =>
      rw [published, Published.snapshot?_publish]
      by_cases h : c' = c <;> simp [h]
    | _ => simp [published]

theorem count_le_published (k : Catalogue) (d : Option Deed) :
    k.published.count ≤ (published k d).count := by
  unfold published
  split
  · exact Nat.le_succ _
  · exact le_rfl

variable {channel : Channel} {x : PackageChange} {marks : Changes}

def announcing (channel : Channel) (marks : Changes) : List Deed :=
  if marks.any then
    (Category.all.filter marks.get).map publishes ++ [signals channel, reports marks]
  else []

def judging (x : PackageChange) (marks : Changes) : List Deed :=
  [takes (.package x), follows .condition x marks.condition, follows .setting x marks.setting]

def following (channel : Channel) (x : PackageChange) (marks : Changes) : List Deed :=
  judging x marks ++ announcing channel marks

def loading (channel : Channel) : List Deed := takes .init :: announcing channel .all

/-- The courses of an initial load and of changes, each with the categories that changed. -/
def courses (channel : Channel) (fs : List (PackageChange × Changes)) : List Deed :=
  loading channel ++ fs.flatMap fun f => following channel f.1 f.2

theorem courses_snoc (channel : Channel) (fs : List (PackageChange × Changes)) (x : PackageChange)
    (marks : Changes) :
    courses channel (fs ++ [(x, marks)]) = courses channel fs ++ following channel x marks := by
  simp [courses]

/-- What a projection of the deeds gets of courses, course by course. -/
theorem filterMap_courses {β : Type} (f : Deed → Option β) (channel : Channel)
    (fs : List (PackageChange × Changes)) :
    (courses channel fs).filterMap f = (loading channel).filterMap f ++
      fs.flatMap fun g => (following channel g.1 g.2).filterMap f := by
  rw [courses, List.filterMap_append, List.filterMap_flatMap]

theorem reported_courses (channel : Channel) (fs : List (PackageChange × Changes)) :
    (courses channel fs).filterMap reported? = .all :: (fs.map Prod.snd).filter Changes.any := by
  have hf (g : PackageChange × Changes) :
      (following channel g.1 g.2).filterMap reported? = [g.2].filter Changes.any := by
    rcases g with ⟨x, _ | _, _ | _⟩ <;> rfl
  simp only [filterMap_courses, hf, List.map_eq_flatMap, List.filter_flatMap]
  rfl

theorem taken_courses (channel : Channel) (fs : List (PackageChange × Changes)) :
    (courses channel fs).filterMap taken? = .init :: fs.map fun f => .package f.1 := by
  have hf (g : PackageChange × Changes) :
      (following channel g.1 g.2).filterMap taken? = [.package g.1] := by
    rcases g with ⟨x, _ | _, _ | _⟩ <;> rfl
  simp only [filterMap_courses, hf, List.map_eq_flatMap]
  rfl

/-- Both categories are judged by every change. -/
theorem followed_courses (c : Category) (channel : Channel)
    (fs : List (PackageChange × Changes)) :
    (courses channel fs).filterMap (followed? c) = fs.map Prod.fst := by
  have hf (g : PackageChange × Changes) :
      (following channel g.1 g.2).filterMap (followed? c) = [g.1] := by
    rcases g with ⟨x, _ | _, _ | _⟩ <;> cases c <;> rfl
  simp only [filterMap_courses, hf, List.map_eq_flatMap]
  cases c <;> rfl

/-- Every report comes with a signal. -/
theorem signalled_courses (channel : Channel) (fs : List (PackageChange × Changes)) :
    (courses channel fs).filterMap signalled? =
      ((courses channel fs).filterMap reported?).map fun _ => channel := by
  have hf (g : PackageChange × Changes) :
      (following channel g.1 g.2).filterMap signalled? =
        ((following channel g.1 g.2).filterMap reported?).map fun _ => channel := by
    rcases g with ⟨x, _ | _, _ | _⟩ <;> rfl
  simp only [filterMap_courses, hf, List.map_append, List.map_flatMap]
  rfl

end Deed

namespace Task

def visible? (channel : Channel) : Task → Option Deed
  | publish c => some (.publishes c)
  | signal => some (.signals channel)
  | report marks => some (.reports marks)
  | _ => none

def depends : Task → Bool
  | follow _ _ => true
  | conclude => true
  | _ => false

variable {x : Task} {todo : List Task} {c : Category}

theorem visible_announce (channel : Channel) (marks : Changes) :
    (announce marks).filterMap (visible? channel) = Deed.announcing channel marks := by
  rcases marks with ⟨_ | _, _ | _⟩ <;> rfl

theorem not_depends_of_announce (marks : Changes) : ∀ x ∈ announce marks, x.depends = false := by
  rcases marks with ⟨_ | _, _ | _⟩ <;> decide

/-- A load that fails is announced as one that does not. -/
theorem visible_of_load (h : load c :: todo ∈ boots) (channel : Channel) :
    todo.filterMap (visible? channel) = recovery.filterMap (visible? channel) := by
  have hall : ∀ l ∈ boots, l.head? = some (load .condition) ∨ l.head? = some (load .setting) →
      l.tail = initial.tail ∨ l.tail = initial.tail.tail := by
    decide
  have hhead : some (load c) = some (load .condition) ∨ some (load c) = some (load .setting) := by
    cases c <;> simp
  have htail : todo = initial.tail ∨ todo = initial.tail.tail := hall _ h hhead
  rcases htail with rfl | rfl <;> rfl

/-- What others notice of a task. A scan that panics is no deed. -/
def deed? (o : Outage) (s : Shared) (r : Registry) : Task → Option Deed
  | follow c x =>
    match o.first (Scan.queries s.directory c (some x.package)) with
    | some _ => none
    | none =>
      some (.follows c x (r.catalogue.followed s.directory s.site.characteristics x c).2)
  | x => x.visible? r.channel

end Task

namespace Registry

/-- What others will notice of the next step of the worker. -/
def deed? (o : Outage) (s : Shared) (r : Registry) : Option Deed :=
  match r.worker with
  | .idle => r.mailbox.queue.head?.map .takes
  | _ => r.todo.head?.bind (·.deed? o s r)

def ending? (r : Registry) : Option Exit :=
  match r.worker with
  | .stopping e => some e
  | .leaving e => some e
  | .exited e => some e
  | _ => none

def hasFailed (r : Registry) : Bool := r.ending?.any Exit.isFailure

variable {a : Nat} {s s' : Shared} {r r' : Registry} {o : Outage} {x : Task} {todo : List Task}
  {marks : Changes} {act : Act} {e : Exit} {m : Message} {q : List Message}

theorem deed?_take (hw : r.worker = .idle) (hq : r.mailbox.queue = m :: q) :
    r.deed? o s = some (.takes m) := by
  rw [deed?, hw]
  simp [hq]

theorem deed?_busy (hw : r.worker = .busy (x :: todo) marks) : r.deed? o s = x.deed? o s r := by
  rw [deed?, hw, todo_of_busy hw]
  rfl

theorem deed?_visible (hw : r.worker = .busy (x :: todo) marks) (hx : x.depends = false) :
    r.deed? o s = x.visible? r.channel := by
  rw [deed?_busy hw]
  cases x <;> first | rfl | cases hx

theorem deed?_follow {c : Category} {y : PackageChange}
    (hw : r.worker = .busy (.follow c y :: todo) marks)
    (answers : o.first (Scan.queries s.directory c (some y.package)) = none) :
    r.deed? o s =
      some (.follows c y (r.catalogue.followed s.directory s.site.characteristics y c).2) := by
  rw [deed?_busy hw, Task.deed?, answers]

theorem deed?_panic {c : Category} {y : PackageChange} {p : Panic}
    (hw : r.worker = .busy (.follow c y :: todo) marks)
    (panics : o.first (Scan.queries s.directory c (some y.package)) = some p) :
    r.deed? o s = none := by
  rw [deed?_busy hw, Task.deed?, panics]

theorem todo_of_ending (h : r.ending? = some e) : r.todo = [] := by
  rw [ending?] at h
  rw [Registry.todo]
  split at h <;> simp_all

theorem deed?_ending (h : r.ending? = some e) : r.deed? o s = none := by
  rw [deed?, todo_of_ending h]
  rw [ending?] at h
  split
  · next hw =>
    rw [hw] at h
    cases h
  · rfl

/-- What a projection that passes over judgements gets of the next step. -/
theorem bind_deed {β : Type} (f : Deed → Option β) (judged : ∀ c x b, f (.follows c x b) = none)
    (took : r.worker = .idle → ∀ m, f (.takes m) = none) :
    (r.deed? o s).bind f = r.todo.head?.bind fun x => (x.visible? r.channel).bind f := by
  rw [deed?]
  split
  · next hw =>
    rw [Registry.todo, hw]
    cases r.mailbox.queue with
    | nil => rfl
    | cons m q => exact took hw m
  · cases r.todo.head? with
    | none => rfl
    | some x =>
      cases x with
      | follow c y =>
        rw [Option.bind_some, Task.deed?]
        split
        · rfl
        · exact judged _ _ _
      | _ => rfl

theorem reported_deed : (r.deed? o s).bind Deed.reported? = r.todo.head?.bind Task.reported? := by
  rw [bind_deed _ (fun _ _ _ => rfl) fun _ _ => rfl]
  congr 1
  funext x
  cases x <;> rfl

theorem signalled_deed : (r.deed? o s).bind Deed.signalled? =
    if r.todo.head? = some .signal then some r.channel else none := by
  rw [bind_deed _ (fun _ _ _ => rfl) fun _ _ => rfl]
  cases r.todo.head? with
  | none => rfl
  | some x => cases x <;> rfl

/-- Only a worker with nothing in hand takes a message up. -/
theorem taken_deed (h : r.worker ≠ .idle) : (r.deed? o s).bind Deed.taken? = none := by
  rw [bind_deed _ (fun _ _ _ => rfl) fun hw => absurd hw h, Option.bind_eq_none_iff]
  intro x _
  cases x <;> rfl

/-- Just the deeds that publish replace a snapshot. -/
theorem published_deed (h : r.Works o a s s' r') :
    r'.catalogue.published = Deed.published r.catalogue (r.deed? o s) := by
  cases h with
  | take m q hw hq ha =>
    rw [deed?_take hw hq, catalogue_accept ha]
    rfl
  | finish hw hq => rw [deed?, hw, hq]; rfl
  | rest _ hw => rw [deed?, Registry.todo, hw]; rfl
  | stop e hw | leave e hw =>
    rw [deed?_ending (e := e) (by rw [ending?, hw])]
    rfl
  | perform x todo marks hw hp =>
    cases hp with
    | follow c y answers => rw [deed?_follow hw answers]; rfl
    | breaks c y p panics => rw [deed?_panic hw panics]; rfl
    | conclude => rw [deed?_busy hw]; rfl
    | _ => rw [deed?_visible hw rfl]; rfl

theorem deed?_publish {c : Category} (h : r.todo.head? = some (.publish c)) :
    r.deed? o s = some (.publishes c) := by
  rw [deed?]
  split
  · next hw =>
    rw [Registry.todo, hw] at h
    cases h
  · rw [h]
    rfl

theorem gate_of_ending (hs : r.Stage) (h : r.ending? = some e) : r.gate = ⟨true, true⟩ := by
  cases hs with
  | ending _ _ hg => exact hg
  | fresh hw | booting _ hw | idle hw | busy _ _ hw =>
    rw [ending?, hw] at h
    cases h

/-- A worker that handles no more messages leaves the catalogue and the subscribers alone. -/
theorem ending_works (h : r.ending? = some e) (hw : r.Works o a s s' r') :
    r'.ending? = some e ∧ r'.channel = r.channel ∧ r'.catalogue = r.catalogue ∧
      r'.reloads = r.reloads := by
  cases hw with
  | take _ _ hw | finish hw | rest _ hw | perform _ _ _ hw =>
    rw [ending?, hw] at h
    cases h
  | stop _ hw | leave _ hw =>
    rw [ending?, hw] at h
    cases h
    exact ⟨rfl, rfl, rfl, rfl⟩

theorem ending_turn (h : r.ending? = some e) (ht : r.Turn a s act r') :
    r'.ending? = some e ∧ r'.catalogue = r.catalogue ∧ r'.reloads = r.reloads := by
  rcases ht.works_or_kept with ⟨o, s', -, step⟩ | ⟨-, hk⟩
  · obtain ⟨he, -, hc, hr⟩ := ending_works h (works_of_step step)
    exact ⟨he, hc, hr⟩
  · refine ⟨?_, hk.catalogue, hk.reloads⟩
    rw [ending?, hk.worker]
    exact h

end Registry

def Moment.deed? : Moment → Nat → Option Deed := Moment.step? fun o s r => r.deed? o s

def deeds (t : List Moment) (address : Nat) : List Deed := t.filterMap (·.deed? address)

def taken (t : List Moment) (address : Nat) : List Message :=
  (deeds t address).filterMap Deed.taken?

section
variable {t t' : List Moment} {u w : World} {a : Nat} {s s' : Shared} {r r' : Registry}
  {x : Act} {o : Outage}

theorem deeds_append (t t' : List Moment) (a : Nat) :
    deeds (t ++ t') a = deeds t a ++ deeds t' a :=
  List.filterMap_append

theorem deeds_singleton (e : Moment) (a : Nat) : deeds [e] a = (e.deed? a).toList :=
  filterMap_snoc _ [] e

theorem Moment.deed?_work (hu : u.registry? a = some r) :
    Moment.deed? ⟨u, .work o a⟩ a = r.deed? o u.shared :=
  Moment.step?_work hu o

theorem Moment.deed?_other {e : Moment} (h : ∀ o, e.act ≠ .work o a) : e.deed? a = none :=
  Moment.step?_other h

theorem deeds_of_others (h : ∀ e ∈ t, ∀ o, e.act ≠ .work o a) : deeds t a = [] :=
  List.filterMap_eq_nil_iff.2 fun e he => Moment.deed?_other (h e he)

/-- A turn either is a step of the worker, with its deed, or leaves alone what the worker owns. -/
theorem deeds_of_turn (hu : u.registry? a = some r) (h : r.Turn a u.shared x r') :
    (∃ o s', x = .work o a ∧ r.Works o a u.shared s' r' ∧
        deeds (t ++ [⟨u, x⟩]) a = deeds t a ++ (r.deed? o u.shared).toList) ∨
      (∀ o, x ≠ .work o a) ∧ r.Kept r' ∧ deeds (t ++ [⟨u, x⟩]) a = deeds t a := by
  rcases h.works_or_kept with ⟨o, s', rfl, step⟩ | ⟨other, hk⟩
  · refine Or.inl ⟨o, s', rfl, Registry.works_of_step step, ?_⟩
    rw [deeds_append, deeds_singleton, Moment.deed?_work hu]
  · refine Or.inr ⟨other, hk, ?_⟩
    rw [deeds_append, deeds_of_others (List.forall_mem_singleton.2 other), List.append_nil]

theorem published_of_turn (hu : u.registry? a = some r) (h : r.Turn a u.shared x r') :
    r'.catalogue.published = Deed.published r.catalogue (Moment.deed? ⟨u, x⟩ a) := by
  rcases h.works_or_kept with ⟨o, s', rfl, step⟩ | ⟨other, hk⟩
  · rw [Moment.deed?_work hu, Registry.published_deed (Registry.works_of_step step)]
  · rw [Moment.deed?_other other, hk.catalogue]
    rfl

theorem deed?_of_task {c : Category} (hu : u.registry? a = some r)
    (h : Moment.task? ⟨u, x⟩ a = some (.publish c)) :
    Moment.deed? ⟨u, x⟩ a = some (.publishes c) := by
  by_cases work : ∃ o, x = .work o a
  · obtain ⟨o, rfl⟩ := work
    rw [Moment.deed?_work hu]
    exact Registry.deed?_publish (by simpa [Moment.task?, hu] using h)
  · have none := World.task?_of_other (e := ⟨u, x⟩) fun o hx => work ⟨o, hx⟩
    cases none.symm.trans h

/-- What subscribers were told is what the worker did to tell them. -/
theorem reported_deeds (t : List Moment) (a : Nat) :
    (performed t a).filterMap Task.reported? = (deeds t a).filterMap Deed.reported? := by
  have he (e : Moment) :
      (e.task? a).bind Task.reported? = (e.deed? a).bind Deed.reported? := by
    obtain ⟨u, x⟩ := e
    cases x with
    | work o b =>
      by_cases hb : b = a
      · subst hb
        cases hu : u.registry? b with
        | none => simp [Moment.task?, Moment.deed?, Moment.step?, hu]
        | some r => simp [Moment.task?, Moment.deed?, Moment.step?, hu, Registry.reported_deed]
      · simp [Moment.task?, Moment.deed?, Moment.step?, hb]
    | _ => rfl
  rw [performed, deeds, List.filterMap_filterMap, List.filterMap_filterMap]
  exact congrArg (fun f => t.filterMap f) (funext he)

/-- The signals of a registry are what its worker did to signal. -/
theorem signalled_deeds (t : List Moment) (a : Nat) :
    (t.filterMap Moment.signal?).filter (fun e => e.1 = a) =
      ((deeds t a).filterMap Deed.signalled?).map fun channel => (a, channel) := by
  have he (e : Moment) : (e.signal?).filter (fun e => e.1 = a) =
      ((e.deed? a).bind Deed.signalled?).map fun channel => (a, channel) := by
    obtain ⟨u, x⟩ := e
    cases x with
    | work o b =>
      cases hu : u.registry? b with
      | none => simp [Moment.signal?, Moment.deed?, Moment.step?, hu]
      | some r =>
        by_cases hb : b = a
        · subst hb
          by_cases hh : r.todo.head? = some .signal <;>
            simp [Moment.signal?, Moment.deed?, Moment.step?, hu, Registry.signalled_deed, hh]
        · by_cases hh : r.todo.head? = some .signal <;>
            simp [Moment.signal?, Moment.deed?, Moment.step?, hu, hb, hh]
    | _ => rfl
  rw [deeds, List.filterMap_filterMap, List.map_filterMap, List.filter_filterMap]
  exact congrArg (fun f => t.filterMap f) (funext he)

end

/-- How far a worker is whose deeds are `ds`. All that it has handled took its course. What is left
of the course of the message in hand is known once both categories are judged. -/
inductive Progress (ds : List Deed) (r : Registry) : Prop
  | fresh (lifecycle : r.lifecycle = .unstarted) (unmoved : ds = [])
  | finishing (fs : List (PackageChange × Changes)) (todo : List Task) (marks : Changes)
      (worker : r.worker = .busy todo marks) (plain : ∀ x ∈ todo, x.depends = false)
      (course : ds ++ todo.filterMap (·.visible? r.channel) = Deed.courses r.channel fs)
  | following (fs : List (PackageChange × Changes)) (x : PackageChange)
      (worker : r.worker = .busy (Task.following x) .none)
      (course : ds = Deed.courses r.channel fs ++ [.takes (.package x)])
  | second (fs : List (PackageChange × Changes)) (x : PackageChange) (changed : Bool)
      (worker : r.worker = .busy [.follow .setting x, .conclude] ⟨changed, false⟩)
      (course : ds =
        Deed.courses r.channel fs ++ [.takes (.package x), .follows .condition x changed])
  | concluding (fs : List (PackageChange × Changes)) (x : PackageChange) (marks : Changes)
      (worker : r.worker = .busy [.conclude] marks)
      (course : ds = Deed.courses r.channel fs ++ Deed.judging x marks)
  | resting (fs : List (PackageChange × Changes)) (worker : r.worker = .idle)
      (lifecycle : r.lifecycle = .ready) (course : ds = Deed.courses r.channel fs)
  | ending (fs : List (PackageChange × Changes)) (rest last : List Deed) (e : Exit)
      (worker : r.ending? = some e) (done : e.isFailure = false → rest = [])
      (destroyed : last = [] ∨ last = [.takes .destroy])
      (course : ds ++ rest = Deed.courses r.channel fs ++ last)

section
variable {ds : List Deed} {fs : List (PackageChange × Changes)} {s s' : Shared}
  {r r' : Registry} {o : Outage} {a : Nat} {x : Task} {y : PackageChange} {todo : List Task}
  {marks : Changes} {b : Bool}

theorem Progress.congr (h : Progress ds r) (hk : r.Kept r') : Progress ds r' := by
  cases h with
  | fresh hl hd => exact .fresh (hk.lifecycle.trans hl) hd
  | finishing fs todo marks hw plain hd =>
    exact .finishing fs todo marks (hk.worker.trans hw) plain (hk.channel ▸ hd)
  | following fs x hw hd => exact .following fs x (hk.worker.trans hw) (hk.channel ▸ hd)
  | second fs x b hw hd => exact .second fs x b (hk.worker.trans hw) (hk.channel ▸ hd)
  | concluding fs x marks hw hd =>
    exact .concluding fs x marks (hk.worker.trans hw) (hk.channel ▸ hd)
  | resting fs hw hl hd =>
    exact .resting fs (hk.worker.trans hw) (hk.lifecycle.trans hl) (hk.channel ▸ hd)
  | ending fs rest last e hw done hlast hd =>
    refine .ending fs rest last e ?_ done hlast (hk.channel ▸ hd)
    rw [Registry.ending?, hk.worker]
    exact hw

theorem progress_fresh (hs : r.Stage) (hl : r.lifecycle = .unstarted) (h : r.Works o a s s' r') :
    Progress (r.deed? o s).toList r' := by
  obtain ⟨hi, q, hq⟩ := Registry.fresh_of_unstarted hs hl
  cases h with
  | take m q' hi hq' ha =>
    rw [Registry.deed?_take hi hq']
    cases Registry.accepts_of_idle hs hi hq' ha with
    | init => exact .finishing [] Task.initial .none rfl (by decide) rfl
    | package _ hl' | destroy hl' => cases hl.symm.trans hl'
  | finish _ hn => cases hq.symm.trans hn
  | rest _ hw | perform _ _ _ hw | stop _ hw | leave _ hw => cases hi.symm.trans hw

/-- A task whose outcome is known does its part of the course. -/
theorem progress_carries (hs : r.Stage) (hw : r.worker = .busy (x :: todo) marks)
    (plain : ∀ y ∈ x :: todo, y.depends = false)
    (course : ds ++ (x :: todo).filterMap (·.visible? r.channel) = Deed.courses r.channel fs)
    (hp : r.Carries o a s todo marks x s' r') : Progress (ds ++ (r.deed? o s).toList) r' := by
  have hx := plain x List.mem_cons_self
  have plain' : ∀ y ∈ todo, y.depends = false := fun y hy => plain y (List.mem_cons_of_mem _ hy)
  have course' : ds ++ (x.visible? r.channel).toList ++ todo.filterMap (·.visible? r.channel) =
      Deed.courses r.channel fs := by
    rw [← course, List.append_assoc]
    cases h : x.visible? r.channel <;> simp [h]
  rw [Registry.deed?_visible hw hx]
  cases hp with
  | follow | breaks | conclude => cases hx
  | fails c =>
    have left := Registry.boots_of_isBoot hs hw List.mem_cons_self rfl
    rw [Task.visible_of_load left] at course'
    exact .finishing fs Task.recovery marks rfl (by decide) course'
  | _ => exact .finishing fs todo marks rfl plain' course'

theorem progress_finishing (hs : r.Stage) (hw : r.worker = .busy todo marks)
    (plain : ∀ y ∈ todo, y.depends = false)
    (course : ds ++ todo.filterMap (·.visible? r.channel) = Deed.courses r.channel fs)
    (h : r.Works o a s s' r') : Progress (ds ++ (r.deed? o s).toList) r' := by
  cases h with
  | take _ _ hw' | finish hw' | stop _ hw' | leave _ hw' => cases hw.symm.trans hw'
  | perform x todo' marks' hw' hp =>
    cases hw.symm.trans hw'
    exact progress_carries hs hw plain course hp
  | rest marks' hw' =>
    cases hw.symm.trans hw'
    have hl : r.lifecycle = .ready := by
      rcases Registry.busy_of_stage hs hw with ⟨-, -, hl, -⟩ | ⟨-, -, hl, -⟩
      · exact hl
      · exact hl
    rw [Registry.deed?, Registry.todo_of_busy hw, hw]
    exact .resting fs rfl hl ((List.append_nil ds).trans ((List.append_nil ds).symm.trans course))

/-- A worker that judges a category judges the next one, or ends. -/
theorem progress_follow {c : Category} (hw : r.worker = .busy (.follow c y :: todo) marks)
    (h : r.Works o a s s' r')
    (judged : ∀ b, r'.worker = .busy todo (marks.set c b) → r'.channel = r.channel →
      Progress (ds ++ [.follows c y b]) r')
    (broken : ∀ e, r'.ending? = some e → e.isFailure = true → r'.channel = r.channel →
      Progress ds r') :
    Progress (ds ++ (r.deed? o s).toList) r' := by
  cases h with
  | take _ _ hw' | finish hw' | rest _ hw' | stop _ hw' | leave _ hw' => cases hw.symm.trans hw'
  | perform x todo' marks' hw' hp =>
    cases hw.symm.trans hw'
    cases hp with
    | follow _ _ answers =>
      rw [Registry.deed?_follow hw answers]
      exact judged _ rfl rfl
    | breaks _ _ p panics =>
      rw [Registry.deed?_panic hw panics, Option.toList_none, List.append_nil]
      exact broken (.panicked p.text) rfl rfl rfl

theorem progress_following (hw : r.worker = .busy (Task.following y) .none)
    (course : ds = Deed.courses r.channel fs ++ [.takes (.package y)])
    (h : r.Works o a s s' r') : Progress (ds ++ (r.deed? o s).toList) r' := by
  refine progress_follow hw h (fun b hw' hc => ?_) fun e he hf hc => ?_
  · refine .second fs y b hw' ?_
    rw [course, hc, List.append_assoc]
    rfl
  · have hrest : ds ++ [.follows .condition y false, .follows .setting y false] =
        Deed.courses r'.channel (fs ++ [(y, .none)]) ++ [] := by
      rw [course, hc, Deed.courses_snoc, List.append_assoc, List.append_nil]
      rfl
    exact .ending _ _ [] e he (fun hn => by cases hf.symm.trans hn) (Or.inl rfl) hrest

theorem progress_second (hw : r.worker = .busy [.follow .setting y, .conclude] ⟨b, false⟩)
    (course : ds =
      Deed.courses r.channel fs ++ [.takes (.package y), .follows .condition y b])
    (h : r.Works o a s s' r') : Progress (ds ++ (r.deed? o s).toList) r' := by
  refine progress_follow hw h (fun b' hw' hc => ?_) fun e he hf hc => ?_
  · refine .concluding fs y ⟨b, b'⟩ hw' ?_
    rw [course, hc, List.append_assoc]
    rfl
  · have hrest : ds ++ .follows .setting y false :: Deed.announcing r'.channel ⟨b, false⟩ =
        Deed.courses r'.channel (fs ++ [(y, ⟨b, false⟩)]) ++ [] := by
      rw [course, hc, Deed.courses_snoc, List.append_assoc, List.append_nil]
      rfl
    exact .ending _ _ [] e he (fun hn => by cases hf.symm.trans hn) (Or.inl rfl) hrest

theorem progress_concluding (hw : r.worker = .busy [.conclude] marks)
    (course : ds = Deed.courses r.channel fs ++ Deed.judging y marks)
    (h : r.Works o a s s' r') : Progress (ds ++ (r.deed? o s).toList) r' := by
  cases h with
  | take _ _ hw' | finish hw' | rest _ hw' | stop _ hw' | leave _ hw' => cases hw.symm.trans hw'
  | perform x todo' marks' hw' hp =>
    cases hw.symm.trans hw'
    cases hp with
    | conclude =>
      rw [Registry.deed?_busy hw]
      refine .finishing (fs ++ [(y, marks)]) (Task.announce marks ++ []) marks rfl ?_ ?_
      · rw [List.append_nil]
        exact Task.not_depends_of_announce marks
      · rw [List.append_nil, Task.visible_announce, course, Deed.courses_snoc, Deed.following,
          ← List.append_assoc]
        exact congrArg (· ++ _) (List.append_nil _)

theorem progress_resting (hs : r.Stage) (hw : r.worker = .idle) (hl : r.lifecycle = .ready)
    (course : ds = Deed.courses r.channel fs) (h : r.Works o a s s' r') :
    Progress (ds ++ (r.deed? o s).toList) r' := by
  cases h with
  | take m q _ hq ha =>
    rw [Registry.deed?_take hw hq, course]
    cases Registry.accepts_of_idle hs hw hq ha with
    | init hl' => cases hl.symm.trans hl'
    | package x => exact .following fs x rfl rfl
    | destroy =>
      exact .ending fs [] _ .stopped rfl (fun _ => rfl) (Or.inr rfl) (List.append_nil _)
  | finish _ hq =>
    rw [Registry.deed?, hw, hq]
    exact .ending fs [] [] .mailboxClosed rfl (fun _ => rfl) (Or.inl rfl) (by simp [course])
  | rest _ hw' | perform _ _ _ hw' | stop _ hw' | leave _ hw' => cases hw.symm.trans hw'

theorem progress_works (hs : r.Stage) (hp : Progress ds r) (h : r.Works o a s s' r') :
    Progress (ds ++ (r.deed? o s).toList) r' := by
  cases hp with
  | fresh hl hd =>
    rw [hd]
    exact progress_fresh hs hl h
  | finishing fs todo marks hw plain hd => exact progress_finishing hs hw plain hd h
  | following fs x hw hd => exact progress_following hw hd h
  | second fs x b hw hd => exact progress_second hw hd h
  | concluding fs x marks hw hd => exact progress_concluding hw hd h
  | resting fs hw hl hd => exact progress_resting hs hw hl hd h
  | ending fs rest last e hw done hlast hd =>
    rw [Registry.deed?_ending hw, Option.toList_none, List.append_nil]
    obtain ⟨he, hc, -⟩ := Registry.ending_works hw h
    exact .ending fs rest last e he done hlast (hc ▸ hd)

end

namespace World

variable {site : Site} {t : List Moment} {w : World} {a : Nat} {r : Registry}

/-- Nothing is noticed any more of a worker that handles no more messages. -/
theorem ending_of_run {t' : List Moment} {v : World} {e : Exit} (run : Run w t' v)
    (hr : w.registry? a = some r) (h : r.ending? = some e) :
    ∃ r', v.registry? a = some r' ∧ r'.ending? = some e ∧ r'.catalogue = r.catalogue ∧
      r'.reloads = r.reloads ∧ deeds t' a = [] := by
  let Q (t : List Moment) (r' : Registry) : Prop :=
    r'.ending? = some e ∧ r'.catalogue = r.catalogue ∧ r'.reloads = r.reloads ∧ deeds t a = []
  refine run.since (Q := Q) hr ⟨h, rfl, rfl, rfl⟩ fun {t u x r₁ r₂} _ hu ⟨he, hc, hr, hd⟩ ht => ?_
  obtain ⟨he', hc', hr'⟩ := Registry.ending_turn he ht
  refine ⟨he', hc'.trans hc, hr'.trans hr, ?_⟩
  rcases deeds_of_turn (t := t) hu ht with ⟨o, s', -, -, h⟩ | ⟨-, -, h⟩
  · rw [h, hd, Registry.deed?_ending he]
    rfl
  · rw [h, hd]

theorem progress_of_run (run : Run (ofSite site) t w) (hr : w.registry? a = some r) :
    Progress (deeds t a) r := by
  refine run.traced (P := fun t r => Progress (deeds t a) r) hr
    (fun _ others => .fresh rfl (deeds_of_others others)) fun {t u x r r'} run hu ih ht => ?_
  rcases deeds_of_turn (t := t) hu ht with ⟨o, s', -, hw, he⟩ | ⟨-, hk, he⟩
  · rw [he]
    exact progress_works (stage_of_run run hu) ih hw
  · rw [he]
    exact ih.congr hk

/-- All that a worker does takes the course of the messages that it handles: an initial load, the
changes `fs`, each with the categories that changed, and maybe `last` a request to end. Of the
message in hand `rest` is left to do. -/
structure Account (t : List Moment) (address : Nat) (r : Registry)
    (fs : List (PackageChange × Changes)) (rest last : List Deed) : Prop where
  course : deeds t address ++ rest = Deed.courses r.channel fs ++ last
  destroyed : last = [] ∨ last = [.takes .destroy]
  complete : r.lifecycle ≠ .unstarted → r.todo = [] → r.hasFailed = false → rest = []
  reported : r.reloads.sent ++ rest.filterMap Deed.reported? =
    .all :: (fs.map Prod.snd).filter Changes.any
  signalled : (t.filterMap Moment.signal?).filter (fun e => e.1 = address) ++
      (rest.filterMap Deed.signalled?).map (fun channel => (address, channel)) =
    (Changes.all :: (fs.map Prod.snd).filter Changes.any).map fun _ => (address, r.channel)

/-- What is left to do about the message in hand. -/
theorem course_of_progress {ds : List Deed} (h : Progress ds r) :
    ∃ fs rest last, ds ++ rest = Deed.courses r.channel fs ++ last ∧
      (last = [] ∨ last = [.takes .destroy]) ∧
      (r.lifecycle ≠ .unstarted → r.todo = [] → r.hasFailed = false → rest = []) := by
  have hbusy {x : Task} {todo : List Task} {marks : Changes} {rest : List Deed}
      (hw : r.worker = .busy (x :: todo) marks) :
      r.lifecycle ≠ .unstarted → r.todo = [] → r.hasFailed = false → rest = [] := by
    intro _ ht
    rw [Registry.todo_of_busy hw] at ht
    cases ht
  cases h with
  | fresh hl hd =>
    refine ⟨[], Deed.courses r.channel [], [], ?_, Or.inl rfl, absurd hl⟩
    rw [hd, List.append_nil]
    rfl
  | finishing fs todo marks hw plain hd =>
    refine ⟨fs, _, [], hd.trans (List.append_nil _).symm, Or.inl rfl, fun _ ht _ => ?_⟩
    rw [Registry.todo_of_busy hw] at ht
    rw [ht]
    rfl
  | following fs x hw hd =>
    refine ⟨fs ++ [(x, .none)], [.follows .condition x false, .follows .setting x false], [], ?_,
      Or.inl rfl, hbusy hw⟩
    rw [hd, Deed.courses_snoc, List.append_assoc, List.append_nil]
    rfl
  | second fs x b hw hd =>
    refine ⟨fs ++ [(x, ⟨b, false⟩)],
      .follows .setting x false :: Deed.announcing r.channel ⟨b, false⟩, [], ?_, Or.inl rfl,
      hbusy hw⟩
    rw [hd, Deed.courses_snoc, List.append_assoc, List.append_nil]
    rfl
  | concluding fs x marks hw hd =>
    refine ⟨fs ++ [(x, marks)], Deed.announcing r.channel marks, [], ?_, Or.inl rfl, hbusy hw⟩
    rw [hd, Deed.courses_snoc, List.append_assoc, List.append_nil]
    rfl
  | resting fs hw hl hd => exact ⟨fs, [], [], by rw [hd], Or.inl rfl, fun _ _ _ => rfl⟩
  | ending fs rest last e hw done hlast hd =>
    refine ⟨fs, rest, last, hd, hlast, fun _ _ hf => done ?_⟩
    rw [Registry.hasFailed, hw] at hf
    exact hf

theorem account_of_run (run : Run (ofSite site) t w) (hr : w.registry? a = some r) :
    ∃ fs rest last, Account t a r fs rest last := by
  obtain ⟨fs, rest, last, course, hlast, complete⟩ := course_of_progress (progress_of_run run hr)
  have hnone : last.filterMap Deed.reported? = [] ∧ last.filterMap Deed.signalled? = [] := by
    rcases hlast with rfl | rfl
    · exact ⟨rfl, rfl⟩
    · exact ⟨rfl, rfl⟩
  refine ⟨fs, rest, last, course, hlast, complete, ?_, ?_⟩
  · rw [reloads_of_run run hr, reported_deeds, ← List.filterMap_append, course,
      List.filterMap_append, hnone.1, List.append_nil, Deed.reported_courses]
  · rw [signalled_deeds, ← List.map_append, ← List.filterMap_append, course, List.filterMap_append,
      hnone.2, List.append_nil, Deed.signalled_courses, Deed.reported_courses, List.map_map]
    rfl

/-- The stamps of what was published are behind the registry. -/
theorem stamp_le_of_publishes (run : Run (ofSite site) t w) (hr : w.registry? a = some r) :
    ∀ e ∈ t, ∀ c p, e.Publishes a c p → p.stamp ≤ r.catalogue.published.count := by
  let P (t : List Moment) (r : Registry) : Prop :=
    ∀ e ∈ t, ∀ c p, e.Publishes a c p → p.stamp ≤ r.catalogue.published.count
  refine run.traced (P := P) hr (fun _ others e he c p hp => ?_)
    fun {t u x r r'} _ hu ih ht e he c p hp => ?_
  · cases (task?_of_other (others e he)).symm.trans hp.1
  · -- A publication counts itself, so its stamp is not ahead of the registry that it leaves.
    rw [published_of_turn hu ht]
    rcases List.mem_append.1 he with he | he
    · exact (ih e he c p hp).trans (Deed.count_le_published _ _)
    · cases List.mem_singleton.1 he
      obtain ⟨task, r₀, hr₀, rfl⟩ := hp
      cases hu.symm.trans hr₀
      rw [deed?_of_task hu task]
      exact le_rfl

/-- A deed that publishes a category replaces its snapshot by one with the working map, whose stamp
is new in the run. Snapshots of other categories stay, and so do all at other deeds. -/
structure Stores (t : List Moment) (address : Nat) (d : Option Deed) (r r' : Registry) : Prop where
  renewed : ∀ c, d = some (.publishes c) → ∃ p, r'.catalogue.published.snapshot? c = some p ∧
    p.plugins = r.catalogue.working.get c ∧ ∀ e ∈ t, ∀ c' q, e.Publishes address c' q →
      q.stamp < p.stamp
  kept : ∀ c, d ≠ some (.publishes c) →
    r'.catalogue.published.snapshot? c = r.catalogue.published.snapshot? c

theorem stores_of_published {d : Option Deed} {r' : Registry}
    (run : Run (ofSite site) t w) (hr : w.registry? a = some r)
    (h : r'.catalogue.published = Deed.published r.catalogue d) : Stores t a d r r' where
  renewed c hd := by
    refine ⟨⟨r.catalogue.published.count + 1, r.catalogue.working.get c⟩, ?_, rfl, ?_⟩
    · rw [h, Deed.snapshot?_published, if_pos hd]
    · exact fun e he c' q hq => Nat.lt_succ_of_le (stamp_le_of_publishes run hr e he c' q hq)
  kept c hd := by rw [h, Deed.snapshot?_published, if_neg hd]

/-- Registries announce what they publish, and nothing else. Every message that is handled takes its
course: the categories that changed are published, signalled once on the channel of the registry and
reported once, before the next message is taken up; a message that changes nothing is passed over.
Nothing else replaces a snapshot, and what replaces one is new. -/
theorem announcements_match (run : Run (ofSite site) t w) (hr : w.registry? a = some r) :
    (∃ fs rest last, Account t a r fs rest last) ∧
      r.reloads.sent = (deeds t a).filterMap Deed.reported? ∧
      w.shared.signals.sent = (t.filterMap Moment.signal?).map Prod.snd ∧
      (t.filterMap Moment.signal?).filter (fun e => e.1 = a) =
        ((deeds t a).filterMap Deed.signalled?).map (fun channel => (a, channel)) ∧
      ∀ x v, w.act x = some v → ∃ r', v.registry? a = some r' ∧
        r'.catalogue.published = Deed.published r.catalogue (Moment.deed? ⟨w, x⟩ a) ∧
        Stores t a (Moment.deed? ⟨w, x⟩ a) r r' := by
  refine ⟨account_of_run run hr, (reloads_of_run run hr).trans (reported_deeds t a),
    signals_of_run run, signalled_deeds t a, fun x v hx => ?_⟩
  obtain ⟨r', hr', ht⟩ := turn_of_act hx hr
  have published := published_of_turn hr ht
  exact ⟨r', hr', published, stores_of_published run hr published⟩

/-- A registry loads, a package is upgraded, and the worker takes some steps to handle that. -/
def upgradedActs (steps : Nat) : List Act :=
  .start (Settings.default.channel "1") :: List.replicate 11 (.work .none 0) ++
    [.furnish ⟨.metered 2, ∅⟩, .emit (.changed "meter")] ++ List.replicate steps (.work .none 0)

theorem announcements_match_upgraded :
    (∃ t w r fs last, Run (ofSite ⟨.metered 1, ∅⟩) t w ∧ w.registry? 0 = some r ∧
      Account t 0 r fs [] last ∧ r.reloads.sent = [.all, ⟨true, false⟩] ∧
      (deeds t 0).filterMap Deed.reported? = [.all, ⟨true, false⟩]) ∧
      ∃ t w v r r', Run (ofSite ⟨.metered 1, ∅⟩) t w ∧ w.registry? 0 = some r ∧
        w.act (.work .none 0) = some v ∧ v.registry? 0 = some r' ∧
        Stores t 0 (some (.publishes .condition)) r r' ∧
        (r.catalogue.published.snapshot? .condition).map Snapshot.stamp = some 1 ∧
        (r'.catalogue.published.snapshot? .condition).map Snapshot.stamp = some 3 := by
  refine ⟨?handled, ?publishing⟩
  case handled =>
    have h : ((ofSite ⟨.metered 1, ∅⟩).acts (upgradedActs 8)).any (fun w =>
        (w.registry? 0).any fun r =>
          r.worker = .idle && r.lifecycle = .ready && r.reloads.sent = [.all, ⟨true, false⟩]) =
          true := by
      decide +kernel
    obtain ⟨w, hw, h⟩ := (Option.any_eq_true ..).1 h
    obtain ⟨r, hr, h⟩ := (Option.any_eq_true ..).1 h
    simp only [Bool.and_eq_true, decide_eq_true_eq] at h
    obtain ⟨⟨hidle, hready⟩, hsent⟩ := h
    obtain ⟨t, run⟩ := Run.of_acts hw
    obtain ⟨⟨fs, rest, last, hacc⟩, hrep, -⟩ := announcements_match run hr
    have hrest : rest = [] := by
      refine hacc.complete (by rw [hready]; simp) ?_ ?_
      · rw [Registry.todo, hidle]
      · rw [Registry.hasFailed, Registry.ending?, hidle]
        rfl
    subst hrest
    exact ⟨t, w, r, fs, last, run, hr, hacc, hsent, hrep.symm.trans hsent⟩
  case publishing =>
    have h : ((ofSite ⟨.metered 1, ∅⟩).acts (upgradedActs 4)).any (fun w =>
        (w.registry? 0).any fun r => (w.act (.work .none 0)).any fun v =>
          (v.registry? 0).any fun r' =>
            r.deed? .none w.shared = some (.publishes .condition) &&
            (r.catalogue.published.snapshot? .condition).map Snapshot.stamp = some 1 &&
            (r'.catalogue.published.snapshot? .condition).map Snapshot.stamp = some 3) = true := by
      decide +kernel
    obtain ⟨w, hw, h⟩ := (Option.any_eq_true ..).1 h
    obtain ⟨r, hr, h⟩ := (Option.any_eq_true ..).1 h
    obtain ⟨v, hv, h⟩ := (Option.any_eq_true ..).1 h
    obtain ⟨r', hr', h⟩ := (Option.any_eq_true ..).1 h
    simp only [Bool.and_eq_true, decide_eq_true_eq] at h
    obtain ⟨⟨hdeed, hold⟩, hnew⟩ := h
    obtain ⟨t, run⟩ := Run.of_acts hw
    obtain ⟨-, -, -, -, each⟩ := announcements_match run hr
    obtain ⟨r'', hr'', -, stores⟩ := each _ v hv
    cases hr'.symm.trans hr''
    rw [Moment.deed?_work hr, hdeed] at stores
    exact ⟨t, w, v, r, r', run, hr, hv, hr', stores, hold, hnew⟩

end World

end PluginRegistry.Live
