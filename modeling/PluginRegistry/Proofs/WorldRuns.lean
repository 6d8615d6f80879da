import PluginRegistry.Proofs.PackageRuns

/-!
# Runs of worlds

A world with any number of registries goes on by single acts: a worker takes a step, or the
surroundings do something in between. A run records every act together with the world in which it
happened. What an act can do to one registry is its `Turn`, so what every turn keeps holds of every
registry throughout a run (`Run.registry`), and what every turn relates is related between any two
points of it (`Run.relates`).
-/

namespace PluginRegistry.Live

open Actor

/-- What may happen in a world. Whatever call to a directory panics, all that shows is that the scan
panics and with what text; each step of a worker comes with the panics of the queries it makes. -/
inductive Act
  | work (o : Outage) (address : Nat)
  | start (channel : Channel)
  | furnish (site : Site)
  | hold (held : Bool)
  | emit (e : PackageEvent)
  /-- A change that was on its way to a subscriber arrives, maybe after the subscription ended. -/
  | arrive (address : Nat) (x : PackageChange)
  | await (address : Nat) (c : Category)
  | wake
  | drop (address : Nat)
  | requestDestroy (address : Nat)
  /-- Whoever asked for a registry to be destroyed goes on, since its worker has exited. -/
  | finishDestroy (address : Nat)

structure Moment where
  world : World
  act : Act

def Moment.task? (e : Moment) (address : Nat) : Option Task :=
  match e.act with
  | .work _ a => if a = address then (e.world.registry? a).bind (·.todo.head?) else none
  | _ => none

namespace World

def act (w : World) : Act → Option World
  | .work o a => w.step o a
  | .start channel => some (w.start channel)
  | .furnish site => some { w with shared := { w.shared with site } }
  | .hold held => some (w.withHeld held)
  | .emit e => some (w.emit e)
  | .arrive a x =>
    if (w.registry? a).any fun r => r.sink.isSome then some (w.modify a (·.told [x])) else none
  | .await a c => some (w.addWaiting a c)
  | .wake => some w.wake
  | .drop a => some (w.drop a)
  | .requestDestroy a => (w.registry? a).bind fun r => (w.requestDestroy a r).toOption
  | .finishDestroy a =>
    if (w.registry? a).any fun r => r.destroyRequested && r.exit?.isSome then
      some (w.finishDestroy a)
    else none

/-- Acts one after another, each recorded with the world in which it happens. -/
inductive Run (w : World) : List Moment → World → Prop
  | refl : Run w [] w
  | act {t : List Moment} {u v : World} {x : Act} (run : Run w t u) (act : u.act x = some v) :
      Run w (t ++ [⟨u, x⟩]) v

def acts (w : World) (xs : List Act) : Option World := xs.foldlM act w

end World

namespace Registry

variable {a : Nat} {s s' : Shared} {r r' : Registry} {o : Outage}

theorem todo_of_busy {todo : List Task} {marks : Changes} (h : r.worker = .busy todo marks) :
    r.todo = todo := by
  rw [Registry.todo, h]

theorem busy_of_todo {x : Task} {todo : List Task} (h : r.todo = x :: todo) :
    ∃ marks, r.worker = .busy (x :: todo) marks := by
  rw [Registry.todo] at h
  split at h
  · next todo marks hw => exact ⟨marks, by rw [hw, h]⟩
  · cases h

/-- What may become of a registry when something happens in its world. Only its worker does more
than to fill the mailbox or to open the gate. -/
inductive Turn (a : Nat) (s : Shared) (x : Act) (r : Registry) : Registry → Prop
  | work {o : Outage} {s' : Shared} {r' : Registry} (act : x = .work o a)
      (step : r.step o a s = some (s', r')) : Turn a s x r r'
  | stay (other : ∀ o, x ≠ .work o a) : Turn a s x r r
  | told (other : ∀ o, x ≠ .work o a) (xs : List PackageChange) : Turn a s x r (r.told xs)
  | drop (other : ∀ o, x ≠ .work o a) :
      Turn a s x r { r with dropped := true, mailbox := r.mailbox.close }
  | summon (other : ∀ o, x ≠ .work o a) (first : r.destroyRequested = false) :
      Turn a s x r { r with destroyRequested := true, mailbox := (r.mailbox.send .destroy).1 }
  | release (other : ∀ o, x ≠ .work o a) (exited : r.exit?.isSome = true) :
      Turn a s x r { r with gate := r.gate.opened }

/-- What carrying out a task may be; `todo` and `marks` are what the worker goes on with. -/
inductive Carries (r : Registry) (o : Outage) (a : Nat) (s : Shared) (todo : List Task)
    (marks : Changes) : Task → Shared → Registry → Prop
  | load (c : Category) (answers : o.first (Scan.queries s.directory c none) = none) :
      Carries r o a s todo marks (.load c) s
        { r with
          catalogue := r.catalogue.load s.directory s.site.characteristics c
          worker := .busy todo marks }
  | fails (c : Category) (p : Panic)
      (panics : o.first (Scan.queries s.directory c none) = some p) :
      Carries r o a s todo marks (.load c) s { r with worker := .busy Task.recovery marks }
  | clear : Carries r o a s todo marks .clear s
      { r with catalogue := r.catalogue.clear, worker := .busy todo marks }
  | publish (c : Category) : Carries r o a s todo marks (.publish c) s
      { r with catalogue := r.catalogue.publishOne c, worker := .busy todo marks }
  | subscribe : Carries r o a s todo marks .subscribe
      { s with stream := (s.stream.subscribe a).1 }
      { r with
        subscription := some s.stream.nextId
        sink := some s.stream.nextId
        worker := .busy todo marks }
  | becomeReady : Carries r o a s todo marks .becomeReady s
      { r with lifecycle := .ready, worker := .busy todo marks }
  | signal : Carries r o a s todo marks .signal { s with signals := s.signals.send r.channel }
      { r with worker := .busy todo marks }
  | report (m : Changes) : Carries r o a s todo marks (.report m) s
      { r with reloads := r.reloads.send m, worker := .busy todo marks }
  | openGate : Carries r o a s todo marks .openGate s
      { r with gate := r.gate.opened, worker := .busy todo marks }
  | follow (c : Category) (x : PackageChange)
      (answers : o.first (Scan.queries s.directory c (some x.package)) = none) :
      Carries r o a s todo marks (.follow c x) s
        { r with
          catalogue := (r.catalogue.follow s.directory s.site.characteristics x c).1
          worker := .busy todo
            (marks.set c (r.catalogue.follow s.directory s.site.characteristics x c).2) }
  | breaks (c : Category) (x : PackageChange) (p : Panic)
      (panics : o.first (Scan.queries s.directory c (some x.package)) = some p) :
      Carries r o a s todo marks (.follow c x) s (r.fail p.text)
  | conclude : Carries r o a s todo marks .conclude s
      { r with worker := .busy (Task.announce marks ++ todo) marks }

theorem carries_of_perform {x : Task} {todo : List Task} {marks : Changes}
    (h : r.perform o a s todo marks x = some (s', r')) : Carries r o a s todo marks x s' r' := by
  cases x with
  | load c =>
    rw [perform] at h
    split at h
    · cases h
    · split at h
      · next p hp =>
        cases h
        exact .fails c p hp
      · next hn =>
        cases h
        exact .load c hn
  | follow c y =>
    rw [perform] at h
    split at h
    · cases h
    · split at h
      · next p hp =>
        cases h
        exact .breaks c y p hp
      · next hn =>
        cases h
        exact .follow c y hn
  | clear => cases h; exact .clear
  | publish c => cases h; exact .publish c
  | subscribe => cases h; exact .subscribe
  | becomeReady => cases h; exact .becomeReady
  | signal => cases h; exact .signal
  | report m => cases h; exact .report m
  | openGate => cases h; exact .openGate
  | conclude => cases h; exact .conclude

inductive Works (o : Outage) (a : Nat) (s : Shared) (r : Registry) : Shared → Registry → Prop
  | take (m : Message) (q : List Message) (worker : r.worker = .idle)
      (queue : r.mailbox.queue = m :: q) {s' : Shared} {r' : Registry}
      (accept : { r with mailbox := ⟨q, r.mailbox.closed⟩ }.accept s m = (s', r')) :
      Works o a s r s' r'
  | finish (worker : r.worker = .idle) (queue : r.mailbox.queue = [])
      (closed : r.mailbox.closed = true) :
      Works o a s r s { r with worker := .stopping .mailboxClosed }
  | rest (marks : Changes) (worker : r.worker = .busy [] marks) :
      Works o a s r s { r with worker := .idle }
  | perform (x : Task) (todo : List Task) (marks : Changes)
      (worker : r.worker = .busy (x :: todo) marks) {s' : Shared} {r' : Registry}
      (carries : r.Carries o a s todo marks x s' r') : Works o a s r s' r'
  | stop (exit : Exit) (worker : r.worker = .stopping exit) :
      Works o a s r { s with stream := r.subscription.elim s.stream s.stream.unsubscribe }
        { r with subscription := none, lifecycle := .destroyed, worker := .leaving exit }
  | leave (exit : Exit) (worker : r.worker = .leaving exit) :
      Works o a s r s { r.discard with worker := .exited exit }

theorem works_of_step (h : r.step o a s = some (s', r')) : Works o a s r s' r' := by
  rw [step] at h
  split at h
  · next hi =>
    split at h
    · next box m hm =>
      obtain ⟨hq, hc⟩ := Mailbox.receive_eq_message_iff.1 hm
      refine .take m box.queue hi hq ?_
      rw [hc]
      exact Option.some.inj h
    · next hm =>
      cases h
      have hf := Mailbox.receive_eq_finished_iff.1 (congrArg Prod.snd hm)
      exact .finish hi hf.1 hf.2
    · cases h
  · next marks hb =>
    cases h
    exact .rest marks hb
  · next x todo marks hb => exact .perform x todo marks hb (carries_of_perform h)
  · next exit hw =>
    cases h
    exact .stop exit hw
  · next exit hw =>
    cases h
    exact .leave exit hw
  · cases h

/-- What nobody but the worker of a registry changes. -/
structure Kept (r r' : Registry) : Prop where
  channel : r'.channel = r.channel
  worker : r'.worker = r.worker
  lifecycle : r'.lifecycle = r.lifecycle
  subscription : r'.subscription = r.subscription
  catalogue : r'.catalogue = r.catalogue
  reloads : r'.reloads = r.reloads

theorem Turn.works_or_kept {x : Act} (h : r.Turn a s x r') :
    (∃ o s', x = .work o a ∧ r.step o a s = some (s', r')) ∨
      (∀ o, x ≠ .work o a) ∧ r.Kept r' := by
  cases h with
  | work act step => exact Or.inl ⟨_, _, act, step⟩
  | stay other | told other | drop other | summon other | release other =>
    exact Or.inr ⟨other, rfl, rfl, rfl, rfl, rfl, rfl⟩

theorem told_told_of_any (r : Registry) (xs ys : List PackageChange) :
    (r.told xs).told ys = r.told (xs ++ ys) := by
  cases ho : r.mailbox.closed with
  | false => exact told_told ho xs ys
  | true => simp [told, deliver_of_closed ho]

end Registry

theorem Moment.task?_work {u : World} {o : Outage} {a : Nat} {r : Registry}
    (hr : u.registry? a = some r) {x : Task} {todo : List Task} {marks : Changes}
    (hw : r.worker = .busy (x :: todo) marks) : Moment.task? ⟨u, .work o a⟩ a = some x := by
  simp [Moment.task?, hr, Registry.todo_of_busy hw]

namespace World

variable {w w' : World} {a b : Nat} {r r' : Registry} {x : Act} {o : Outage}

theorem registry?_modify (w : World) (a b : Nat) (f : Registry → Registry) :
    World.registry? (w.modify a f) b = (w.registry? b).map fun r => if a = b then f r else r := by
  rw [World.registry?, modify, List.getElem?_modify]
  by_cases h : a = b <;> simp [h, registry?]

theorem registry?_emit (w : World) (e : PackageEvent) (b : Nat) :
    ∃ xs, World.registry? (w.emit e) b = (w.registry? b).map (·.told xs) := by
  rw [emit]
  induction w.shared.stream.addresses generalizing w with
  | nil => exact ⟨[], by simp [Registry.told_nil]⟩
  | cons a as ih =>
    obtain ⟨xs, hxs⟩ := ih (deliverTo e w a)
    have ha : World.registry? (deliverTo e w a) b =
        (w.registry? b).map fun r => if a = b then r.told e.changes else r :=
      registry?_modify w a b _
    rw [List.foldl_cons, hxs, ha, Option.map_map]
    by_cases h : a = b
    · refine ⟨e.changes ++ xs, congrArg (fun f => (w.registry? b).map f) (funext fun r => ?_)⟩
      simp [h, Registry.told_told_of_any]
    · exact ⟨xs, congrArg (fun f => (w.registry? b).map f) (funext fun r => by simp [h])⟩

/-- An event reaches mailboxes and nothing else. -/
theorem emit_eq (w : World) (e : PackageEvent) :
    (w.emit e).shared = w.shared ∧ (w.emit e).waiting = w.waiting := by
  rw [emit]
  induction w.shared.stream.addresses generalizing w with
  | nil => exact ⟨rfl, rfl⟩
  | cons a as ih => exact ih (deliverTo e w a)

theorem registry?_start (w : World) (channel : Channel) (b : Nat) :
    World.registry? (w.start channel) b =
      (w.registry? b).or (if b = w.registries.length then some (.start channel) else none) := by
  rw [World.registry?, start, registry?, List.getElem?_append]
  split
  · next h => simp [h]
  · next h =>
    rw [List.getElem?_eq_none (Nat.le_of_not_lt h), Option.none_or]
    split
    · next h => simp [h]
    · next h' => exact List.getElem?_eq_none (by simp; omega)

theorem step_eq_some (h : w.step o a = some w') :
    ∃ r s' r', w.registry? a = some r ∧ r.step o a w.shared = some (s', r') ∧
      w' = { w with shared := s', registries := w.registries.set a r' } := by
  obtain ⟨r, hr, h⟩ := Option.bind_eq_some_iff.1 h
  obtain ⟨⟨s', r'⟩, hs, h⟩ := Option.bind_eq_some_iff.1 h
  cases h
  exact ⟨r, s', r', hr, hs, rfl⟩

inductive Happens (w : World) : Act → World → Prop
  | work (o : Outage) (a : Nat) (r : Registry) (registry : w.registry? a = some r) {s' : Shared}
      {r' : Registry} (step : r.step o a w.shared = some (s', r')) :
      Happens w (.work o a) { w with shared := s', registries := w.registries.set a r' }
  | start (channel : Channel) : Happens w (.start channel) (w.start channel)
  | furnish (site : Site) : Happens w (.furnish site) { w with shared := { w.shared with site } }
  | hold (held : Bool) : Happens w (.hold held) (w.withHeld held)
  | emit (e : PackageEvent) : Happens w (.emit e) (w.emit e)
  | arrive (a : Nat) (x : PackageChange) (r : Registry) (registry : w.registry? a = some r)
      (sink : r.sink.isSome = true) : Happens w (.arrive a x) (w.modify a (·.told [x]))
  | await (a : Nat) (c : Category) : Happens w (.await a c) (w.addWaiting a c)
  | wake : Happens w .wake w.wake
  | drop (a : Nat) : Happens w (.drop a) (w.drop a)
  | requestDestroy (a : Nat) (r : Registry) (registry : w.registry? a = some r)
      (first : r.destroyRequested = false) :
      Happens w (.requestDestroy a) (w.modify a fun r =>
        { r with destroyRequested := true, mailbox := (r.mailbox.send .destroy).1 })
  | finishDestroy (a : Nat) (r : Registry) (registry : w.registry? a = some r)
      (requested : r.destroyRequested = true) (exited : r.exit?.isSome = true) :
      Happens w (.finishDestroy a) (w.finishDestroy a)

theorem happens_of_act (h : w.act x = some w') : w.Happens x w' := by
  cases x with
  | work o a =>
    obtain ⟨r, s', r', hr, hs, rfl⟩ := step_eq_some h
    exact .work o a r hr hs
  | arrive a y =>
    simp only [act, Option.ite_none_right_eq_some, Option.some.injEq] at h
    obtain ⟨hr, rfl⟩ := h
    obtain ⟨r, hr, hs⟩ := (Option.any_eq_true ..).1 hr
    exact .arrive a y r hr hs
  | requestDestroy a =>
    obtain ⟨r, hr, h⟩ := Option.bind_eq_some_iff.1 h
    rw [World.requestDestroy] at h
    split at h
    · cases h
    · next hn =>
      cases h
      exact .requestDestroy a r hr (Bool.eq_false_iff.2 hn)
  | finishDestroy a =>
    simp only [act, Option.ite_none_right_eq_some, Option.some.injEq] at h
    obtain ⟨hr, rfl⟩ := h
    obtain ⟨r, hr, hf⟩ := (Option.any_eq_true ..).1 hr
    obtain ⟨hd, he⟩ := Bool.and_eq_true_iff.1 hf
    exact .finishDestroy a r hr hd he
  | start channel => cases h; exact .start channel
  | furnish site => cases h; exact .furnish site
  | hold held => cases h; exact .hold held
  | emit e => cases h; exact .emit e
  | await a c => cases h; exact .await a c
  | wake => cases h; exact .wake
  | drop a => cases h; exact .drop a

theorem turn_of_act (h : w.act x = some w') (hr : w.registry? b = some r) :
    ∃ r', w'.registry? b = some r' ∧ r.Turn b w.shared x r' := by
  -- What becomes of the registry at `b` when `f` is done to the one at `a`.
  have hmod (a : Nat) (f : Registry → Registry) : World.registry? (w.modify a f) b =
      some (if a = b then f r else r) := by
    rw [World.registry?_modify, hr]
    rfl
  cases happens_of_act h with
  | work o a r₁ hr₁ hs =>
    by_cases hab : a = b
    · subst hab
      cases hr₁.symm.trans hr
      exact ⟨_, List.getElem?_set_self (List.getElem?_eq_some_iff.1 hr).1, .work rfl hs⟩
    · exact ⟨r, (List.getElem?_set_ne hab).trans hr, .stay fun _ h => hab (by cases h; rfl)⟩
  | start channel => exact ⟨r, by rw [World.registry?_start, hr, Option.some_or], .stay nofun⟩
  | furnish | hold | await | wake => exact ⟨r, hr, .stay nofun⟩
  | emit e =>
    obtain ⟨xs, hxs⟩ := registry?_emit w e b
    exact ⟨r.told xs, by rw [hxs, hr]; rfl, .told (fun _ h => by cases h) xs⟩
  | arrive a y =>
    refine ⟨_, hmod a _, ?_⟩
    split
    · exact .told (fun _ h => by cases h) [y]
    · exact .stay nofun
  | drop a =>
    refine ⟨_, hmod a _, ?_⟩
    split
    · exact .drop nofun
    · exact .stay nofun
  | requestDestroy a r₁ hr₁ first =>
    refine ⟨_, hmod a _, ?_⟩
    split
    · next he =>
      subst he
      cases hr₁.symm.trans hr
      exact .summon nofun first
    · exact .stay nofun
  | finishDestroy a r₁ hr₁ _ exited =>
    refine ⟨_, hmod a _, ?_⟩
    split
    · next he =>
      subst he
      cases hr₁.symm.trans hr
      exact .release nofun exited
    · exact .stay nofun

theorem started_of_act (h : w.act x = some w') (hb : w.registry? b = none)
    (hr : w'.registry? b = some r) : ∃ channel, r = .start channel := by
  have hmod {a : Nat} {f : Registry → Registry} (hm : World.registry? (w.modify a f) b = some r) :
      False := by
    rw [World.registry?_modify, hb] at hm
    cases hm
  cases happens_of_act h with
  | work =>
    have hle : w.registries.length ≤ b := List.getElem?_eq_none_iff.1 hb
    rw [World.registry?, List.getElem?_eq_none (by simpa using hle)] at hr
    cases hr
  | start channel =>
    rw [World.registry?_start, hb, Option.none_or] at hr
    split at hr
    · exact ⟨channel, (Option.some.inj hr).symm⟩
    · cases hr
  | furnish | hold | await | wake => cases hb.symm.trans hr
  | emit e =>
    obtain ⟨xs, hxs⟩ := registry?_emit w e b
    rw [hxs, hb] at hr
    cases hr
  | arrive | drop | requestDestroy | finishDestroy => exact absurd hr hmod

/-- The surroundings touch neither the event stream nor the signals. -/
theorem shared_of_act (h : w.act x = some w') (other : ∀ o a, x ≠ .work o a) :
    w'.shared.stream = w.shared.stream ∧ w'.shared.signals = w.shared.signals := by
  cases happens_of_act h with
  | work o a => exact absurd rfl (other o a)
  | emit e =>
    rw [(emit_eq w e).1]
    exact ⟨rfl, rfl⟩
  | _ => exact ⟨rfl, rfl⟩

namespace Run

variable {site : Site} {t t' : List Moment}

theorem trans {w'' : World} (h : Run w t w') (h' : Run w' t' w'') : Run w (t ++ t') w'' := by
  induction h' with
  | refl => rwa [List.append_nil]
  | act _ ha ih =>
    rw [← List.append_assoc]
    exact ih.act ha

theorem of_acts {xs : List Act} (h : w.acts xs = some w') : ∃ t, Run w t w' := by
  induction xs generalizing w with
  | nil =>
    cases h
    exact ⟨[], .refl⟩
  | cons x xs ih =>
    obtain ⟨v, hv, h⟩ := Option.bind_eq_some_iff.1 h
    obtain ⟨t, ht⟩ := ih h
    exact ⟨_, (Run.refl.act hv).trans ht⟩

/-- No worker works at an address before there is a registry. -/
theorem not_work_of_absent (run : Run (ofSite site) t w) (hb : w.registry? b = none) :
    ∀ e ∈ t, ∀ o, e.act ≠ .work o b := by
  induction run with
  | refl => nofun
  | @act t u v x _ hx ih =>
    cases hu : u.registry? b with
    | some r =>
      obtain ⟨r', hr', -⟩ := turn_of_act hx hu
      cases hb.symm.trans hr'
    | none =>
      refine List.forall_mem_append.2 ⟨ih hu, List.forall_mem_singleton.2 fun o => ?_⟩
      rintro rfl
      obtain ⟨r, s', r', hr, -⟩ := step_eq_some hx
      cases hu.symm.trans hr

/-- What a new registry has and every turn keeps, every registry has; it may speak of what has
happened so far. -/
theorem traced {P : List Moment → Registry → Prop} (run : Run (ofSite site) t w)
    (hr : w.registry? b = some r)
    (starts : ∀ {t : List Moment} (channel : Channel), (∀ e ∈ t, ∀ o, e.act ≠ .work o b) →
      P t (.start channel))
    (turns : ∀ {t : List Moment} {u : World} {x : Act} {r r' : Registry}, Run (ofSite site) t u →
      u.registry? b = some r → P t r → r.Turn b u.shared x r' → P (t ++ [⟨u, x⟩]) r') : P t r := by
  induction run generalizing r with
  | refl => cases hr
  | @act t u v x run hx ih =>
    cases hu : u.registry? b with
    | none =>
      obtain ⟨channel, rfl⟩ := started_of_act hx hu hr
      refine starts channel (List.forall_mem_append.2
        ⟨not_work_of_absent run hu, List.forall_mem_singleton.2 fun o => ?_⟩)
      rintro rfl
      obtain ⟨r₁, s', r', hr₁, -⟩ := step_eq_some hx
      cases hu.symm.trans hr₁
    | some r₁ =>
      obtain ⟨r₂, hr₂, ht⟩ := turn_of_act hx hu
      cases hr₂.symm.trans hr
      exact turns run hu (ih hu) ht

theorem registry {P : Registry → Prop} (run : Run (ofSite site) t w) (hr : w.registry? b = some r)
    (starts : ∀ channel, P (.start channel))
    (turns : ∀ {s : Shared} {x : Act} {r r' : Registry}, P r → r.Turn b s x r' → P r') : P r :=
  run.traced (P := fun _ r => P r) hr (fun channel _ => starts channel) fun _ _ hp ht => turns hp ht

/-- A registry stays, and what every turn keeps holds of it from then on; it may speak of what has
happened since. -/
theorem since {Q : List Moment → Registry → Prop} (run : Run w t w') (hr : w.registry? b = some r)
    (refl : Q [] r)
    (turns : ∀ {t : List Moment} {u : World} {x : Act} {r₁ r₂ : Registry}, Run w t u →
      u.registry? b = some r₁ → Q t r₁ → r₁.Turn b u.shared x r₂ → Q (t ++ [⟨u, x⟩]) r₂) :
    ∃ r', w'.registry? b = some r' ∧ Q t r' := by
  induction run with
  | refl => exact ⟨r, hr, refl⟩
  | act run hx ih =>
    obtain ⟨r₁, hr₁, hq⟩ := ih
    obtain ⟨r₂, hr₂, ht⟩ := turn_of_act hx hr₁
    exact ⟨r₂, hr₂, turns run hr₁ hq ht⟩

/-- What every turn relates is related from then on. -/
theorem relates {Q : Registry → Registry → Prop} (run : Run w t w') (hr : w.registry? b = some r)
    (refl : Q r r)
    (turns : ∀ {s : Shared} {x : Act} {r₁ r₂ : Registry}, Q r r₁ → r₁.Turn b s x r₂ → Q r r₂) :
    ∃ r', w'.registry? b = some r' ∧ Q r r' :=
  run.since (Q := fun _ => Q r) hr refl fun _ _ hq ht => turns hq ht

end Run

end World

end PluginRegistry.Live
