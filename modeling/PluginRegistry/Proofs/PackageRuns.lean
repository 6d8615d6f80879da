import PluginRegistry.Live.World
import PluginRegistry.Proofs.Announcements

/-!
# Runs of one registry

One registry works while packages change, and every change is reported at once to whoever has
subscribed. Until it subscribes the registry is `Booting`, from then on it is `Serving`. A step of
the worker is of interest for what it does to a category: it leaves the map and the changes that
are still to be followed alone, or it follows the first of them.
-/

namespace PluginRegistry.Live

open Actor

def Task.silent : Task → Bool
  | signal => true
  | report _ => true
  | openGate => true
  | _ => false

def Task.followed? (c : Category) : Task → Option PackageChange
  | follow d x => if d = c then some x else none
  | _ => none

def Message.change? : Message → Option PackageChange
  | package x => some x
  | _ => none

def Task.loading : List Task := Category.all.map load ++ publishAll

theorem Outage.first_none (qs : List Query) : Outage.none.first qs = .none := by
  have h (n : Nat) : Outage.none.firstFrom n qs = .none := by
    induction qs generalizing n with
    | nil => rfl
    | cons q qs ih => exact ih (n + 1)
  exact h 0

namespace Registry

def todo (r : Registry) : List Task :=
  match r.worker with
  | .busy todo _ => todo
  | _ => []

def marks (r : Registry) : Changes :=
  match r.worker with
  | .busy _ marks => marks
  | _ => .none

def pending (r : Registry) (c : Category) : List PackageChange :=
  r.todo.filterMap (Task.followed? c) ++ r.mailbox.queue.filterMap Message.change?

structure AtRest (r : Registry) : Prop where
  ready : r.lifecycle = .ready
  queue : r.mailbox.queue = []
  silent : ∀ x ∈ r.todo, x.silent = true

def told (r : Registry) (xs : List PackageChange) : Registry :=
  { r with mailbox := deliver r.mailbox xs }

theorem told_nil (r : Registry) : r.told [] = r := rfl

theorem closed_told {r : Registry} (h : r.mailbox.closed = false) (xs : List PackageChange) :
    (r.told xs).mailbox.closed = false := by
  rw [told, deliver_of_open h]

theorem queue_told {r : Registry} (h : r.mailbox.closed = false) (xs : List PackageChange) :
    (r.told xs).mailbox.queue = r.mailbox.queue ++ xs.map .package := by
  rw [told, deliver_of_open h]

theorem told_told {r : Registry} (h : r.mailbox.closed = false) (xs ys : List PackageChange) :
    (r.told xs).told ys = r.told (xs ++ ys) := by
  simp [told, deliver_of_open h, deliver_of_open (m := ⟨_, false⟩) rfl]

/-- The snapshot of a category is its working map or is about to be published anew. -/
def Covered (r : Registry) (c : Category) : Prop :=
  r.catalogue.published.plugins? c = some (r.catalogue.working.get c) ∨ .publish c ∈ r.todo ∨
    .conclude ∈ r.todo ∧ r.marks.get c = true

end Registry

namespace World

variable {w w' : World} {r : Registry} {j : Installation} {es fs : List PackageEvent}
  {todo rest : List Task} {marks : Changes} {x : Task}

/-- The installation becomes another one, and everybody who subscribed is told the events. -/
def shift (w : World) (j : Installation) (es : List PackageEvent) : World :=
  es.foldl emit (w.withInstallation j)

/-- The worker of the first registry works and packages change, in any order. -/
inductive PackageRun (w : World) : List PackageEvent → World → Prop
  | refl : PackageRun w [] w
  | work {es : List PackageEvent} {w' w'' : World} (run : PackageRun w es w')
      (step : w'.step .none 0 = some w'') : PackageRun w es w''
  | shift {es fs : List PackageEvent} {w' : World} {j : Installation} (run : PackageRun w es w')
      (shifts : w'.shared.site.installation.Shift fs j) : PackageRun w (es ++ fs) (w'.shift j fs)

theorem PackageRun.trans {w'' : World} (h : PackageRun w es w') (h' : PackageRun w' fs w'') :
    PackageRun w (es ++ fs) w'' := by
  induction h' with
  | refl => rwa [List.append_nil]
  | work _ hs ih => exact ih.work hs
  | shift _ hs ih =>
    rw [← List.append_assoc]
    exact ih.shift hs

/-- What changes of packages do not end is ended by a step of the worker. -/
theorem PackageRun.exists_leave {P : World → Prop} (hr : PackageRun w es w')
    (hs : ∀ v j fs, P v → v.shared.site.installation.Shift fs j → P (v.shift j fs)) (hw : P w)
    (hn : ¬P w') :
    ∃ e₁ e₂ v v', es = e₁ ++ e₂ ∧ PackageRun w e₁ v ∧ P v ∧ v.step .none 0 = some v' ∧ ¬P v' ∧
      PackageRun v' e₂ w' := by
  induction hr with
  | refl => exact absurd hw hn
  | @work es v v' hr hstep ih =>
    by_cases hv : P v
    · exact ⟨es, [], v, v', (List.append_nil _).symm, hr, hv, hstep, hn, .refl⟩
    · obtain ⟨e₁, e₂, u, u', he, h₁, hu, hu', hnu, h₂⟩ := ih hv
      exact ⟨e₁, e₂, u, u', he, h₁, hu, hu', hnu, h₂.work hstep⟩
  | @shift es fs v j hr hj ih =>
    obtain ⟨e₁, e₂, u, u', he, h₁, hu, hu', hnu, h₂⟩ := ih fun hv => hn (hs v j fs hv hj)
    exact ⟨e₁, e₂ ++ fs, u, u', by rw [he, List.append_assoc], h₁, hu, hu', hnu, h₂.shift hj⟩

theorem PackageRun.runOne (hr : PackageRun w es w') (n : Nat) :
    PackageRun w es (runOne .none 0 n w') := by
  induction n generalizing w' with
  | zero => exact hr
  | succ n ih =>
    rw [World.runOne]
    split
    · next v hv => exact ih (hr.work hv)
    · exact hr

def Performs (x : Task) (w w' : World) : Prop :=
  w.step .none 0 = some w' ∧ ∃ r, w.registry? 0 = some r ∧ r.todo.head? = some x

theorem step_eq (h : w.registries = [r]) :
    w.step .none 0 =
      (r.step .none 0 w.shared).map fun e => { w with shared := e.1, registries := [e.2] } := by
  rw [step, registry?, h]
  cases hs : r.step .none 0 w.shared <;> simp [hs]

theorem shift_of_unsubscribed (h : w.shared.stream.sinks = []) :
    w.shift j es = w.withInstallation j := by
  have he (v : World) (hv : v.shared.stream.sinks = []) : es.foldl emit v = v := by
    induction es with
    | nil => rfl
    | cons e es ih =>
      have : v.emit e = v := by rw [emit, Stream.addresses, hv]; rfl
      rw [List.foldl_cons, this, ih]
  exact he _ h

theorem shift_of_subscribed (hw : w.registries = [r]) (ha : w.shared.stream.addresses = [0])
    (ho : r.mailbox.closed = false) :
    w.shift j es = { w.withInstallation j with registries := [r.told (changesOf es)] } := by
  have he (v : World) (r : Registry) (hv : v.registries = [r])
      (ha : v.shared.stream.addresses = [0]) (ho : r.mailbox.closed = false) :
      es.foldl emit v = { v with registries := [r.told (changesOf es)] } := by
    induction es generalizing v r with
    | nil =>
      rw [List.foldl_nil, changesOf, List.flatMap_nil, Registry.told_nil, ← hv]
    | cons e es ih =>
      have hemit : v.emit e = { v with registries := [r.told e.changes] } := by
        rw [emit, ha, List.foldl_cons, List.foldl_nil, deliverTo, modify, hv]
        rfl
      rw [List.foldl_cons, hemit, ih { v with registries := [r.told e.changes] } _ rfl ha
        (Registry.closed_told ho _), Registry.told_told ho]
      rfl
  exact he _ r hw ha ho

/-- A busy worker takes its next task, and what it leaves behind is the only registry. -/
theorem step_busy (hw : w.registries = [r]) (hb : r.worker = .busy (x :: todo) marks)
    (hs : w.step .none 0 = some w') :
    ∃ s' r', r.perform .none 0 w.shared todo marks x = some (s', r') ∧
      w' = { w with shared := s', registries := [r'] } := by
  rw [step_eq hw, Registry.step, hb] at hs
  obtain ⟨⟨s', r'⟩, hp, rfl⟩ := Option.map_eq_some_iff.1 hs
  exact ⟨s', r', hp, rfl⟩

end World

/-- The registry has not yet subscribed; `todo` is what the initial load does before that. -/
structure Booting (w : World) (r : Registry) (todo : List Task) : Prop where
  registries : w.registries = [r]
  sinks : w.shared.stream.sinks = []
  worker : r.worker = .idle ∧ r.mailbox = ⟨[.init], false⟩ ∧ r.lifecycle = .unstarted ∧
      todo = Task.loading ∨
    r.worker = .busy (todo ++ Task.afterLoad) .none ∧ r.mailbox = ⟨[], false⟩ ∧
      r.lifecycle = .initializing
  suffix : todo <:+ Task.loading
  covered : ∀ c, r.catalogue.published.plugins? c = some (r.catalogue.working.get c) ∨
    .publish c ∈ todo

def Task.carryOut (s : Shared) (k : Catalogue) : Task → Catalogue
  | load c => k.load s.directory s.site.characteristics c
  | publish c => k.publishOne c
  | _ => k

theorem Task.suffix_loading {todo : List Task} (h : todo <:+ loading) :
    todo = [.load .condition, .load .setting, .publish .condition, .publish .setting] ∨
    todo = [.load .setting, .publish .condition, .publish .setting] ∨
    todo = [.publish .condition, .publish .setting] ∨ todo = [.publish .setting] ∨ todo = [] := by
  simpa [loading, publishAll, Category.all, List.suffix_cons_iff] using h

variable {w w' : World} {r : Registry} {j : Installation} {es fs : List PackageEvent}
  {todo rest : List Task} {marks : Changes} {x : Task} {c : Category}

theorem booting_start (site : Site) (channel : Channel) :
    Booting ((World.ofSite site).start channel) (.start channel) Task.loading where
  registries := rfl
  sinks := rfl
  worker := Or.inl ⟨rfl, rfl, rfl, rfl⟩
  suffix := List.suffix_refl _
  covered c := by cases c <;> simp [Task.loading, Task.publishAll, Category.all]

theorem booting_shift (h : Booting w r todo) (j : Installation) (fs : List PackageEvent) :
    Booting (w.shift j fs) r todo := by
  rw [World.shift_of_unsubscribed h.sinks]
  exact ⟨h.registries, h.sinks, h.worker, h.suffix, h.covered⟩

theorem perform_load {s s' : Shared} {r' : Registry} {a : Nat}
    (h : r.perform .none a s todo marks (.load c) = some (s', r')) :
    s' = s ∧ r' = { r with
      catalogue := r.catalogue.load s.directory s.site.characteristics c
      worker := .busy todo marks } := by
  rw [Registry.perform] at h
  split at h
  · cases h
  · rw [Outage.first_none] at h
    cases h
    exact ⟨rfl, rfl⟩

theorem booting_accept (h : Booting w r todo) (hi : r.worker = .idle)
    (hs : w.step .none 0 = some w') :
    ∃ r', Booting w' r' todo ∧ w'.shared = w.shared ∧ r'.catalogue = r.catalogue := by
  rcases h.worker with ⟨-, hm, hl, ht⟩ | ⟨hb, -⟩
  · rw [World.step_eq h.registries, Registry.step, hi] at hs
    simp only [hm, Mailbox.receive, Mailbox.tryReceive, Registry.accept, hl, ↓reduceIte,
      Option.map_some, Option.some.injEq] at hs
    subst hs
    exact ⟨_, ⟨rfl, h.sinks, Or.inr ⟨by rw [ht]; rfl, rfl, rfl⟩, h.suffix, h.covered⟩, rfl, rfl⟩
  · rw [hi] at hb
    cases hb

theorem booting_task (h : Booting w r (x :: rest)) (hi : r.worker ≠ .idle)
    (hs : w.step .none 0 = some w') :
    ∃ r', Booting w' r' rest ∧ w'.shared = w.shared ∧
      r'.catalogue = x.carryOut w.shared r.catalogue := by
  obtain ⟨hb, hm, hl⟩ := h.worker.resolve_left fun he => hi he.1
  obtain ⟨s', r', hp, rfl⟩ := World.step_busy h.registries hb hs
  have hsuf : rest <:+ Task.loading := (List.suffix_cons x rest).trans h.suffix
  have hx : (∃ d, x = .load d ∧ ∀ c, .publish c ∈ rest) ∨ ∃ d, x = .publish d := by
    rcases Task.suffix_loading h.suffix with he | he | he | he | he <;> cases he
    · exact Or.inl ⟨.condition, rfl, fun c => by cases c <;> simp⟩
    · exact Or.inl ⟨.setting, rfl, fun c => by cases c <;> simp⟩
    · exact Or.inr ⟨.condition, rfl⟩
    · exact Or.inr ⟨.setting, rfl⟩
  rcases hx with ⟨d, rfl, hpub⟩ | ⟨d, rfl⟩
  · obtain ⟨rfl, rfl⟩ := perform_load hp
    exact ⟨_, ⟨rfl, h.sinks, Or.inr ⟨rfl, hm, hl⟩, hsuf, fun c => Or.inr (hpub c)⟩, rfl, rfl⟩
  · cases hp
    refine ⟨_, ⟨rfl, h.sinks, Or.inr ⟨rfl, hm, hl⟩, hsuf, fun c => ?_⟩, rfl, rfl⟩
    have hg := Published.plugins?_publish r.catalogue.published d c (r.catalogue.working.get d)
    change (r.catalogue.published.publish d (r.catalogue.working.get d)).plugins? c =
      some (r.catalogue.working.get c) ∨ _
    rw [hg]
    split
    · next he =>
      left
      rw [he]
    · next hne =>
      refine (h.covered c).imp_right fun hc => ?_
      exact (List.mem_cons.1 hc).resolve_left fun he => hne (by cases he; rfl)

/-- What a busy worker may be about once the registry has subscribed. -/
inductive Duty : Lifecycle → List Task → Changes → Prop
  | start (marks : Changes) : Duty .initializing Task.afterLoad.tail marks
  | follow (x : PackageChange) : Duty .ready (Task.following x) .none
  | second (x : PackageChange) (marks : Changes) (unmarked : marks.setting = false) :
      Duty .ready [.follow .setting x, .conclude] marks
  | conclude (marks : Changes) : Duty .ready [.conclude] marks
  | announce (cs : List Category) (rest : List Task) (marks : Changes)
      (silent : ∀ x ∈ rest, x.silent = true) : Duty .ready (cs.map .publish ++ rest) marks

/-- The registry has subscribed and is told of every change. -/
structure Serving (w : World) (r : Registry) : Prop where
  registries : w.registries = [r]
  addresses : w.shared.stream.addresses = [0]
  opened : r.mailbox.closed = false
  packages : ∃ q : List PackageChange, r.mailbox.queue = q.map .package
  worker : r.worker = .idle ∧ r.lifecycle = .ready ∨
    ∃ todo marks, r.worker = .busy todo marks ∧ Duty r.lifecycle todo marks
  covered : ∀ c, r.Covered c

theorem booting_subscribe (h : Booting w r []) (hs : w.step .none 0 = some w') :
    ∃ r', Serving w' r' ∧ w'.shared.site = w.shared.site ∧ r'.catalogue = r.catalogue ∧
      ∀ c, r'.pending c = [] := by
  have hb : r.worker = .busy Task.afterLoad .none ∧ r.mailbox = ⟨[], false⟩ ∧
      r.lifecycle = .initializing := by
    rcases h.worker with ⟨-, -, -, he⟩ | hb
    · cases he
    · exact hb
  obtain ⟨hb, hm, hl⟩ := hb
  obtain ⟨s', r', hp, rfl⟩ := World.step_busy h.registries hb hs
  cases hp
  refine ⟨_, ⟨rfl, ?_, ?_, ⟨[], ?_⟩, Or.inr ⟨_, _, rfl, ?_⟩, fun c => ?_⟩, rfl, rfl, fun c => ?_⟩
  · exact (Stream.addresses_subscribe _ 0).trans (by rw [Stream.addresses, h.sinks]; rfl)
  · rw [hm]
  · rw [hm]
    rfl
  · rw [hl]
    exact .start _
  · exact Or.inl ((h.covered c).resolve_right List.not_mem_nil)
  · rw [Registry.pending, hm]
    rfl

theorem serving_shift (h : Serving w r) (j : Installation) (fs : List PackageEvent) :
    Serving (w.shift j fs) (r.told (changesOf fs)) := by
  rw [World.shift_of_subscribed h.registries h.addresses h.opened]
  obtain ⟨q, hq⟩ := h.packages
  refine ⟨rfl, h.addresses, Registry.closed_told h.opened _, ⟨q ++ changesOf fs, ?_⟩, h.worker,
    h.covered⟩
  rw [Registry.queue_told h.opened, hq, List.map_append]

theorem pending_told (h : r.mailbox.closed = false) (xs : List PackageChange) (c : Category) :
    (r.told xs).pending c = r.pending c ++ xs := by
  have ht : (r.told xs).todo = r.todo := rfl
  have hx : (xs.map Message.package).filterMap Message.change? = xs := by
    rw [List.filterMap_map]
    exact List.filterMap_some
  rw [Registry.pending, ht, Registry.queue_told h, List.filterMap_append, hx, ← List.append_assoc]
  rfl

/-- What a step of the worker does to a category: nothing that matters, or it follows the first
pending change. -/
def Advances (w : World) (r r' : Registry) (c : Category) : Prop :=
  r'.pending c = r.pending c ∧ r'.catalogue.working.get c = r.catalogue.working.get c ∨
  ∃ x, r.pending c = x :: r'.pending c ∧ r'.catalogue.working.get c =
    (r.catalogue.followed w.shared.directory w.shared.site.characteristics x c).1

def ServesOn (w : World) (r : Registry) (w' : World) : Prop :=
  ∃ r', Serving w' r' ∧ w'.shared.site = w.shared.site ∧ ∀ c, Advances w r r' c

theorem Serving.covered_of_busy (h : Serving w r) (hb : r.worker = .busy todo marks)
    (c : Category) :
    r.catalogue.published.plugins? c = some (r.catalogue.working.get c) ∨ .publish c ∈ todo ∨
      .conclude ∈ todo ∧ marks.get c = true := by
  have hold := h.covered c
  rwa [Registry.Covered, Registry.todo, Registry.marks, hb] at hold

theorem perform_follow {s s' : Shared} {r' : Registry} {a : Nat} {y : PackageChange}
    (h : r.perform .none a s todo marks (.follow c y) = some (s', r')) :
    s' = s ∧ r' = { r with
      catalogue := (r.catalogue.follow s.directory s.site.characteristics y c).1
      worker := .busy todo (marks.set c
        (r.catalogue.followed s.directory s.site.characteristics y c).2) } := by
  rw [Registry.perform] at h
  split at h
  · cases h
  · rw [Outage.first_none] at h
    cases h
    exact ⟨rfl, rfl⟩

theorem serving_follow {y : PackageChange} {d : Category} (h : Serving w r)
    (hb : r.worker = .busy (.follow d y :: rest) marks)
    (duty : ∀ b, Duty r.lifecycle rest (marks.set d b)) (concludes : .conclude ∈ rest)
    (unmarked : marks.get d = false) (unpublished : ∀ c, .publish c ∉ rest)
    (hs : w.step .none 0 = some w') :
    ServesOn w r w' := by
  obtain ⟨s', r', hp, rfl⟩ := World.step_busy h.registries hb hs
  obtain ⟨rfl, rfl⟩ := perform_follow hp
  refine ⟨_, ⟨rfl, h.addresses, h.opened, h.packages, Or.inr ⟨_, _, rfl, duty _⟩, fun c => ?_⟩,
    rfl, fun c => ?_⟩
  · change _ ∨ .publish c ∈ rest ∨ .conclude ∈ rest ∧ (marks.set d _).get c = true
    rcases h.covered_of_busy hb c with hold | hold | ⟨-, hold⟩
    · by_cases hc : d = c
      · subst hc
        rw [ByCategory.get_set_self]
        cases hf : (r.catalogue.followed w.shared.directory w.shared.site.characteristics
            y d).2 with
        | true => exact Or.inr (Or.inr ⟨concludes, rfl⟩)
        | false =>
          left
          have hw : (r.catalogue.followed w.shared.directory w.shared.site.characteristics y d).1 =
              r.catalogue.working.get d := PluginMap.follow_of_not_changed _ hf
          rw [Catalogue.follow_eq, ByCategory.get_set_self, hw]
          exact hold
      · left
        rw [Catalogue.follow_eq, ByCategory.get_set, if_neg hc]
        exact hold
    · exact absurd ((List.mem_cons.1 hold).resolve_left (by simp)) (unpublished c)
    · have hc : d ≠ c := by
        rintro rfl
        rw [unmarked] at hold
        cases hold
      right; right
      rw [ByCategory.get_set, if_neg hc]
      exact ⟨concludes, hold⟩
  · by_cases hc : d = c
    · subst hc
      right
      refine ⟨y, ?_, ByCategory.get_set_self ..⟩
      rw [Registry.pending, Registry.todo, hb]
      simp [Task.followed?, Registry.pending, Registry.todo]
    · left
      refine ⟨?_, (ByCategory.get_set ..).trans (if_neg hc)⟩
      rw [Registry.pending, Registry.pending, Registry.todo, Registry.todo, hb]
      simp [Task.followed?, hc]

/-- A task that follows nothing and leaves the working maps alone. -/
theorem serving_other {r' : Registry} {s' : Shared} (h : Serving w r)
    (hb : r.worker = .busy (x :: rest) marks) (hx : ∀ c, x.followed? c = none)
    (hw : r'.catalogue.working = r.catalogue.working) (hm : r'.mailbox = r.mailbox)
    (hs : s'.site = w.shared.site) (ha : s'.stream = w.shared.stream)
    (hb' : r'.worker = .busy todo marks) (ht : ∀ c, todo.filterMap (Task.followed? c) =
      rest.filterMap (Task.followed? c)) (hd : Duty r'.lifecycle todo marks)
    (hc : ∀ c, r'.Covered c) :
    Serving { w with shared := s', registries := [r'] } r' ∧ s'.site = w.shared.site ∧
      ∀ c, Advances w r r' c := by
  refine ⟨⟨rfl, ?_, hm ▸ h.opened, hm ▸ h.packages, Or.inr ⟨_, _, hb', hd⟩, hc⟩, hs, fun c => ?_⟩
  · rw [← h.addresses, ← ha]
  · left
    refine ⟨?_, by rw [hw]⟩
    rw [Registry.pending, Registry.pending, Registry.todo, Registry.todo, hb, hb', hm]
    simp [hx c, ht c]

theorem serving_idle (h : Serving w r) (hi : r.worker = .idle) (hl : r.lifecycle = .ready)
    (hs : w.step .none 0 = some w') :
    ServesOn w r w' := by
  obtain ⟨q, hq⟩ := h.packages
  rw [World.step_eq h.registries, Registry.step, hi] at hs
  cases q with
  | nil => simp [Mailbox.receive, Mailbox.tryReceive, hq, h.opened] at hs
  | cons y q =>
    simp only [Mailbox.receive, Mailbox.tryReceive, hq, List.map_cons, Registry.accept, hl,
      ↓reduceIte, Option.map_some, Option.some.injEq] at hs
    subst hs
    refine ⟨_, ⟨rfl, h.addresses, h.opened, ⟨q, rfl⟩, Or.inr ⟨_, _, rfl, ?_⟩, fun c => ?_⟩, rfl,
      fun c => ?_⟩
    · exact .follow y
    · have hold := h.covered c
      rw [Registry.Covered, Registry.todo, hi] at hold
      exact Or.inl (hold.resolve_right (by simp))
    · left
      refine ⟨?_, rfl⟩
      rw [Registry.pending, Registry.pending, Registry.todo, Registry.todo, hi, hq]
      cases c <;> simp [Task.following, Category.all, Task.followed?, Message.change?]

theorem Task.followed?_of_silent (h : x.silent = true) (c : Category) : x.followed? c = none := by
  cases x <;> first | rfl | cases h

theorem Task.filterMap_announced {cs : List Category} (h : ∀ x ∈ rest, x.silent = true)
    (c : Category) : (cs.map Task.publish ++ rest).filterMap (followed? c) = [] := by
  rw [List.filterMap_eq_nil_iff]
  intro x hx
  rcases List.mem_append.1 hx with hx | hx
  · obtain ⟨d, -, rfl⟩ := List.mem_map.1 hx
    rfl
  · exact followed?_of_silent (h x hx) c

theorem Task.announce_eq (marks : Changes) :
    ∃ (cs : List Category) (rest : List Task), announce marks = cs.map publish ++ rest ∧
      (∀ x ∈ rest, x.silent = true) ∧ ∀ c, marks.get c = true → c ∈ cs := by
  cases hm : marks.any with
  | true =>
    refine ⟨Category.all.filter marks.get, [signal, report marks], ?_, by simp [silent], ?_⟩
    · rw [announce, hm]
      rfl
    · intro c hc
      exact List.mem_filter.2 ⟨Category.mem_all c, hc⟩
  | false =>
    refine ⟨[], [], by rw [announce, hm]; rfl, by simp, fun c hc => ?_⟩
    obtain ⟨condition, setting⟩ := marks
    cases condition <;> cases setting <;> cases hm
    cases c <;> cases hc

theorem serving_conclude (h : Serving w r) (hb : r.worker = .busy [.conclude] marks)
    (hl : r.lifecycle = .ready) (hs : w.step .none 0 = some w') :
    ServesOn w r w' := by
  obtain ⟨s', r', hp, rfl⟩ := World.step_busy h.registries hb hs
  cases hp
  obtain ⟨cs, rest, he, hr, hcs⟩ := Task.announce_eq marks
  refine ⟨_, serving_other h hb (fun c => rfl) rfl rfl rfl rfl rfl (fun c => ?_) ?_ fun c => ?_⟩
  · rw [List.append_nil, he]
    exact Task.filterMap_announced hr c
  · change Duty r.lifecycle _ _
    rw [List.append_nil, he, hl]
    exact .announce cs rest _ hr
  · refine (h.covered_of_busy hb c).imp_right fun ho => Or.inl ?_
    change .publish c ∈ Task.announce marks ++ []
    have hc := hcs c (ho.resolve_left (by simp)).2
    rw [List.append_nil, he]
    exact List.mem_append_left _ (List.mem_map.2 ⟨c, hc, rfl⟩)

theorem serving_publish {d : Category} {cs : List Category} (h : Serving w r)
    (hb : r.worker = .busy (.publish d :: (cs.map .publish ++ rest)) marks)
    (hl : r.lifecycle = .ready) (hr : ∀ x ∈ rest, x.silent = true)
    (hs : w.step .none 0 = some w') :
    ServesOn w r w' := by
  obtain ⟨s', r', hp, rfl⟩ := World.step_busy h.registries hb hs
  cases hp
  refine ⟨_, serving_other h hb (fun c => rfl) rfl rfl rfl rfl rfl (fun c => rfl)
    (hl ▸ .announce cs rest _ hr) fun c => ?_⟩
  have hg := Published.plugins?_publish r.catalogue.published d c (r.catalogue.working.get d)
  change (r.catalogue.published.publish d (r.catalogue.working.get d)).plugins? c =
    some (r.catalogue.working.get c) ∨ .publish c ∈ cs.map .publish ++ rest ∨
      .conclude ∈ cs.map .publish ++ rest ∧ marks.get c = true
  rw [hg]
  split
  · next he =>
    left
    rw [he]
  · next hne =>
    refine (h.covered_of_busy hb c).imp_right (Or.imp (fun ho => ?_) (And.imp_left fun ho => ?_))
    · exact (List.mem_cons.1 ho).resolve_left fun he => hne (by cases he; rfl)
    · exact (List.mem_cons.1 ho).resolve_left (by simp)

/-- A step that neither publishes nor follows is taken only while every snapshot is its map. -/
theorem serving_silent (h : Serving w r) (hb : r.worker = .busy (x :: rest) marks)
    (hl : r.lifecycle = .ready) (hr : ∀ y ∈ x :: rest, y.silent = true)
    (hs : w.step .none 0 = some w') :
    ServesOn w r w' := by
  obtain ⟨s', r', hp, rfl⟩ := World.step_busy h.registries hb hs
  have hx := hr x List.mem_cons_self
  have hcov (c : Category) :
      r.catalogue.published.plugins? c = some (r.catalogue.working.get c) := by
    apply (h.covered_of_busy hb c).resolve_right
    rintro (ho | ⟨ho, -⟩) <;> cases hr _ ho
  have hd : Duty r.lifecycle rest marks :=
    hl ▸ .announce [] rest _ fun y hy => hr y (List.mem_cons_of_mem _ hy)
  cases x <;> cases hx <;> cases hp <;>
    exact ⟨_, serving_other h hb (fun c => rfl) rfl rfl rfl rfl rfl (fun c => rfl) hd
      fun c => Or.inl (hcov c)⟩

theorem serving_done (h : Serving w r) (hb : r.worker = .busy [] marks)
    (hl : r.lifecycle = .ready) (hs : w.step .none 0 = some w') :
    ServesOn w r w' := by
  rw [World.step_eq h.registries, Registry.step, hb] at hs
  cases hs
  refine ⟨_, ⟨rfl, h.addresses, h.opened, h.packages, Or.inl ⟨rfl, hl⟩, fun c => ?_⟩, rfl,
    fun c => ?_⟩
  · exact Or.inl ((h.covered_of_busy hb c).resolve_right (by simp))
  · left
    refine ⟨?_, rfl⟩
    rw [Registry.pending, Registry.pending, Registry.todo, Registry.todo, hb]

theorem serving_start (h : Serving w r) (hb : r.worker = .busy Task.afterLoad.tail marks)
    (hs : w.step .none 0 = some w') :
    ServesOn w r w' := by
  obtain ⟨s', r', hp, rfl⟩ := World.step_busy h.registries hb hs
  cases hp
  refine ⟨_, serving_other h hb (fun c => rfl) rfl rfl rfl rfl rfl (fun c => rfl)
    (.announce [] _ _ (by simp [Task.silent])) fun c => ?_⟩
  exact Or.inl ((h.covered_of_busy hb c).resolve_right (by simp [Task.afterLoad]))

theorem serving_step (h : Serving w r) (hs : w.step .none 0 = some w') :
    ServesOn w r w' := by
  rcases h.worker with ⟨hi, hl⟩ | ⟨todo, marks, hb, hd⟩
  · exact serving_idle h hi hl hs
  · generalize hl : r.lifecycle = lifecycle at hd
    cases hd with
    | start => exact serving_start h hb hs
    | follow y =>
      apply serving_follow h hb _ _ rfl _ hs
      · rw [hl]
        exact fun b => .second y _ (by cases b <;> rfl)
      · simp
      · simp
    | second y _ hm =>
      apply serving_follow h hb _ _ hm _ hs
      · rw [hl]
        exact fun b => .conclude _
      · simp
      · simp
    | conclude => exact serving_conclude h hb hl hs
    | announce cs rest _ hr =>
      cases cs with
      | cons d cs => exact serving_publish h hb hl hr hs
      | nil =>
        cases rest with
        | nil => exact serving_done h hb hl hs
        | cons x rest => exact serving_silent h hb hl hr hs

end PluginRegistry.Live
