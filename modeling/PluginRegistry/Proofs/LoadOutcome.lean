import PluginRegistry.Proofs.Performed
import PluginRegistry.Proofs.Reading
import PluginRegistry.Proofs.Subscriptions

/-!
# How an initial load ends

The initial load is done after at most eleven steps of the worker. Either no scan panicked, and both
categories are what their scans found, or one did, and both are empty; a worker that fails after its
first scan forgets what that found. Everything else that the load does it does in both cases, and
once.
-/

namespace PluginRegistry.Live

open Actor

/-- The worker of a registry scans a category at a moment, no query panics, and the scan finds the
plugins `m`. -/
def Moment.Scans (e : Moment) (address : Nat) (c : Category) (m : PluginMap) : Prop :=
  ∃ o, e.act = .work o address ∧ e.task? address = some (.load c) ∧
    o.first (Scan.queries e.world.shared.directory c none) = none ∧
    m = loadPlugins e.world.shared.directory e.world.shared.site.characteristics c none

/-- The worker of a registry scans a category at a moment, and a query panics. -/
def Moment.Breaks (e : Moment) (address : Nat) : Prop :=
  ∃ o c p, e.act = .work o address ∧ e.task? address = some (.load c) ∧
    o.first (Scan.queries e.world.shared.directory c none) = some p

def Moment.isStep (address : Nat) (e : Moment) : Bool :=
  match e.act with
  | .work _ a => a = address
  | _ => false

def steps (t : List Moment) (address : Nat) : Nat := t.countP (Moment.isStep address)

namespace Task

variable {x : Task} {ks todo : List Task} {c : Category}

/-- The scans of an initial load up to one that panics. -/
def attempts : List (List Task) := [[load .condition], [load .condition, load .setting]]

theorem attempt_of_initial (h : ks ++ load c :: todo = initial) : ks ++ [load c] ∈ attempts := by
  rcases ks with _ | ⟨x, _ | ⟨y, ks⟩⟩
  · cases h
    decide
  · cases h
    decide
  · have hm : load c ∈ initial.drop 2 := by
      rw [← h]
      simp
    exact absurd hm (by cases c <;> decide)

def isPlain : Task → Bool
  | load _ => false
  | clear => false
  | follow _ _ => false
  | conclude => false
  | _ => true

theorem load_or_plain (h : x ∈ initial) : (∃ c, x = load c) ∨ x.isPlain = true := by
  have hall : ∀ y ∈ initial, y = load .condition ∨ y = load .setting ∨ y.isPlain = true := by decide
  rcases hall x h with rfl | rfl | hx
  · exact Or.inl ⟨_, rfl⟩
  · exact Or.inl ⟨_, rfl⟩
  · exact Or.inr hx

theorem eq_of_openGate (h : openGate :: todo ∈ boots) : todo = [] := by
  have hall : ∀ l ∈ boots, l.head? = some openGate → l.tail = [] := by decide
  exact hall _ h rfl

theorem clear_or_plain (h : x ∈ recovery) : x = clear ∨ x.isPlain = true := by
  have hall : ∀ y ∈ recovery, y = clear ∨ y.isPlain = true := by decide
  exact hall x h

end Task

section
variable {t : List Moment} {u : World} {a : Nat} {s s' : Shared} {r r' : Registry} {o : Outage}
  {c : Category} {x : Task} {todo : List Task} {marks : Changes} {act : Act}

structure Sound (t : List Moment) (address : Nat) (r : Registry) : Prop where
  plan : performed t address ++ r.todo = Task.initial
  whole : ∀ e ∈ t, ¬e.Breaks address
  scans : ∀ c, .load c ∉ r.todo → ∃ e ∈ t, e.Scans address c (r.catalogue.working.get c)

structure Broken (t : List Moment) (address : Nat) (r : Registry) : Prop where
  plan : ∃ ks ∈ Task.attempts, performed t address ++ r.todo = ks ++ Task.recovery
  suffix : r.todo <:+ Task.recovery
  breaks : ∃ e ∈ t, e.Breaks address
  cleared : .clear ∉ r.todo → ∀ c, r.catalogue.working.get c = ∅

/-- How far a registry is with its initial load. -/
inductive Loading (t : List Moment) (address : Nat) (r : Registry) : Prop
  | waiting (lifecycle : r.lifecycle = .unstarted)
      (others : ∀ e ∈ t, ∀ o, e.act ≠ .work o address)
  | loading (left : .openGate ∈ r.todo)
      (steps : steps t address = (performed t address).length + 1)
      (subscribed : .subscribe ∉ r.todo → r.subscription.isSome = true)
      (outcome : Sound t address r ∨ Broken t address r)
  | loaded (done : .openGate ∈ performed t address) (opened : r.isLoaded = true)

theorem steps_append (t t' : List Moment) (a : Nat) :
    steps (t ++ t') a = steps t a + steps t' a := List.countP_append

theorem steps_work (u : World) (o : Outage) (a : Nat) : steps [⟨u, .work o a⟩] a = 1 := by
  simp [steps, Moment.isStep]

theorem steps_of_others (h : ∀ e ∈ t, ∀ o, e.act ≠ .work o a) : steps t a = 0 := by
  rw [steps, List.countP_eq_zero]
  rintro ⟨u, x⟩ he hs
  cases x with
  | work o b =>
    cases of_decide_eq_true hs
    exact h _ he o rfl
  | _ => cases hs

theorem not_breaks_of_task (h : ∀ c, Moment.task? ⟨u, act⟩ a ≠ some (.load c)) :
    ¬Moment.Breaks ⟨u, act⟩ a := by
  rintro ⟨o, c, p, -, ht, -⟩
  exact h c ht

namespace Registry

theorem plain_carries (h : r.Carries o a s todo marks x s' r') (hx : x.isPlain = true) :
    r'.todo = todo ∧ r'.catalogue.working = r.catalogue.working := by
  cases h <;> cases hx <;> exact ⟨rfl, rfl⟩

theorem perform_isSome (h : s.held = false) :
    (r.perform o a s todo marks x).isSome = true := by
  cases x with
  | load c | follow c y =>
    rw [perform, if_neg (by simp [h])]
    split <;> rfl
  | _ => rfl

end Registry

theorem Sound.plan_cons (h : Sound t a r) (hw : r.worker = .busy (x :: todo) marks) :
    performed t a ++ x :: todo = Task.initial :=
  Registry.todo_of_busy hw ▸ h.plan

theorem Sound.plan_work (h : Sound t a r) (hu : u.registry? a = some r)
    (hw : r.worker = .busy (x :: todo) marks) :
    performed (t ++ [⟨u, .work o a⟩]) a ++ todo = Task.initial := by
  rw [performed_work hu hw, List.append_assoc]
  exact h.plan_cons hw

/-- What a category was found to hold stays found. -/
theorem Sound.scans_snoc (h : Sound t a r) (hw : r.worker = .busy (x :: todo) marks)
    (hx : x ≠ .load c) (hc : .load c ∉ todo) (e : Moment) :
    ∃ e' ∈ t ++ [e], e'.Scans a c (r.catalogue.working.get c) := by
  have hm : .load c ∉ r.todo := by
    rw [Registry.todo_of_busy hw]
    exact fun hm => (List.mem_cons.1 hm).elim hx.symm hc
  exact (h.scans c hm).imp fun _ => And.imp_left (List.mem_append_left _)

theorem Sound.load (h : Sound t a r) (hu : u.registry? a = some r)
    (hw : r.worker = .busy (.load c :: todo) marks)
    (hn : o.first (Scan.queries u.shared.directory c none) = none) :
    Sound (t ++ [⟨u, .work o a⟩]) a { r with
      catalogue := r.catalogue.load u.shared.directory u.shared.site.characteristics c
      worker := .busy todo marks } := by
  have htask := Moment.task?_work (o := o) hu hw
  refine ⟨h.plan_work hu hw, ?_, fun d hd => ?_⟩
  · refine List.forall_mem_append.2 ⟨h.whole, List.forall_mem_singleton.2 ?_⟩
    rintro ⟨o', c', p, ha, hc, hf⟩
    cases ha
    cases htask.symm.trans hc
    cases hn.symm.trans hf
  · by_cases hdc : c = d
    · subst hdc
      refine ⟨⟨u, .work o a⟩, List.mem_append_right _ List.mem_cons_self, o, rfl, htask, hn, ?_⟩
      exact ByCategory.get_set_self ..
    · obtain ⟨e, he, hs⟩ := h.scans_snoc hw (fun he => hdc (by cases he; rfl)) hd ⟨u, .work o a⟩
      refine ⟨e, he, ?_⟩
      change e.Scans a d ((r.catalogue.working.set c _).get d)
      rw [ByCategory.get_set, if_neg hdc]
      exact hs

theorem Sound.fails (h : Sound t a r) (hu : u.registry? a = some r)
    (hw : r.worker = .busy (.load c :: todo) marks) {p : Panic}
    (hf : o.first (Scan.queries u.shared.directory c none) = some p) :
    Broken (t ++ [⟨u, .work o a⟩]) a { r with worker := .busy Task.recovery marks } where
  plan := ⟨_, Task.attempt_of_initial (h.plan_cons hw), by rw [performed_work hu hw]; rfl⟩
  suffix := List.suffix_refl _
  breaks := ⟨⟨u, .work o a⟩, List.mem_append_right _ List.mem_cons_self, o, c, p, rfl,
    Moment.task?_work hu hw, hf⟩
  cleared hn := by
    have hclear : .clear ∈ Task.recovery := by decide
    exact absurd hclear hn

theorem Sound.plain (h : Sound t a r) (hu : u.registry? a = some r)
    (hw : r.worker = .busy (x :: todo) marks) (hx : x.isPlain = true) (htodo : r'.todo = todo)
    (hwork : r'.catalogue.working = r.catalogue.working) :
    Sound (t ++ [⟨u, .work o a⟩]) a r' := by
  have hne (c : Category) : x ≠ .load c := by
    rintro rfl
    cases hx
  refine ⟨?_, ?_, fun d hd => ?_⟩
  · rw [htodo]
    exact h.plan_work hu hw
  · refine List.forall_mem_append.2 ⟨h.whole, List.forall_mem_singleton.2 ?_⟩
    refine not_breaks_of_task fun c hc => ?_
    cases (Moment.task?_work hu hw).symm.trans hc
    exact hne c rfl
  · rw [htodo] at hd
    rw [hwork]
    exact h.scans_snoc hw (hne d) hd _

/-- A task of a load that has not failed either leads on or fails. -/
theorem sound_carries (h : Sound t a r) (hu : u.registry? a = some r)
    (hw : r.worker = .busy (x :: todo) marks)
    (hp : r.Carries o a u.shared todo marks x s' r') :
    Sound (t ++ [⟨u, .work o a⟩]) a r' ∧ r'.todo = todo ∨
      Broken (t ++ [⟨u, .work o a⟩]) a r' ∧ r'.todo = Task.recovery := by
  have hx : x ∈ Task.initial := by
    rw [← h.plan_cons hw]
    simp
  rcases Task.load_or_plain hx with ⟨c, rfl⟩ | hx
  · cases hp with
    | load c hn => exact Or.inl ⟨h.load hu hw hn, rfl⟩
    | fails c p hf => exact Or.inr ⟨h.fails hu hw hf, rfl⟩
  · obtain ⟨htodo, hwork⟩ := Registry.plain_carries hp hx
    exact Or.inl ⟨h.plain hu hw hx htodo hwork, htodo⟩

/-- A task of a load that has failed leads on. -/
theorem broken_carries (h : Broken t a r) (hu : u.registry? a = some r)
    (hw : r.worker = .busy (x :: todo) marks)
    (hp : r.Carries o a u.shared todo marks x s' r') :
    Broken (t ++ [⟨u, .work o a⟩]) a r' ∧ r'.todo = todo := by
  have htodo := Registry.todo_of_busy hw
  obtain ⟨ks, hks, hplan⟩ := h.plan
  have hsuf := h.suffix
  rw [htodo] at hplan hsuf
  have hplan' : performed (t ++ [⟨u, .work o a⟩]) a ++ todo = ks ++ Task.recovery := by
    rw [performed_work hu hw, List.append_assoc]
    exact hplan
  have hbreaks : ∃ e ∈ t ++ [Moment.mk u (.work o a)], e.Breaks a :=
    h.breaks.imp fun _ => And.imp_left (List.mem_append_left _)
  have hsuf' := (List.suffix_cons x todo).trans hsuf
  rcases Task.clear_or_plain (hsuf.subset List.mem_cons_self) with rfl | hx
  · cases hp
    refine ⟨⟨⟨ks, hks, hplan'⟩, hsuf', hbreaks, fun _ c => ?_⟩, rfl⟩
    exact ByCategory.get_both ..
  · obtain ⟨htodo', hwork⟩ := Registry.plain_carries hp hx
    refine ⟨⟨⟨ks, hks, ?_⟩, ?_, hbreaks, fun hn c => ?_⟩, htodo'⟩
    · rw [htodo']
      exact hplan'
    · rw [htodo']
      exact hsuf'
    · rw [htodo'] at hn
      rw [hwork]
      refine h.cleared ?_ c
      rw [htodo]
      refine fun hm => (List.mem_cons.1 hm).elim (fun he => ?_) hn
      rw [← he] at hx
      cases hx

theorem Sound.congr (h : Sound t a r) (hk : r.Kept r') {e : Moment}
    (he : ∀ o, e.act ≠ .work o a) (hp : performed (t ++ [e]) a = performed t a) :
    Sound (t ++ [e]) a r' := by
  have htodo : r'.todo = r.todo := by rw [Registry.todo, hk.worker, Registry.todo]
  refine ⟨?_, ?_, fun c hc => ?_⟩
  · rw [hp, htodo]
    exact h.plan
  · refine List.forall_mem_append.2 ⟨h.whole, List.forall_mem_singleton.2 ?_⟩
    rintro ⟨o, -, -, ha, -⟩
    exact he o ha
  · rw [htodo] at hc
    rw [hk.catalogue]
    exact (h.scans c hc).imp fun _ => And.imp_left (List.mem_append_left _)

theorem Broken.congr (h : Broken t a r) (hk : r.Kept r') {e : Moment}
    (hp : performed (t ++ [e]) a = performed t a) : Broken (t ++ [e]) a r' := by
  have htodo : r'.todo = r.todo := by rw [Registry.todo, hk.worker, Registry.todo]
  refine ⟨?_, ?_, h.breaks.imp fun _ => And.imp_left (List.mem_append_left _), ?_⟩
  · rw [hp, htodo]
    exact h.plan
  · rw [htodo]
    exact h.suffix
  · rw [htodo, hk.catalogue]
    exact h.cleared

theorem loading_kept (h : Loading t a r) (hk : r.Kept r') (other : ∀ o, act ≠ .work o a)
    (hl : r.isLoaded = true → r'.isLoaded = true)
    (hp : performed (t ++ [⟨u, act⟩]) a = performed t a) :
    Loading (t ++ [⟨u, act⟩]) a r' := by
  have htodo : r'.todo = r.todo := by rw [Registry.todo, hk.worker, Registry.todo]
  cases h with
  | waiting hl others =>
    exact .waiting (hk.lifecycle.trans hl)
      (List.forall_mem_append.2 ⟨others, List.forall_mem_singleton.2 other⟩)
  | loading left hsteps hsub hout =>
    refine .loading (htodo ▸ left) ?_ ?_ (hout.imp (·.congr hk other hp) (·.congr hk hp))
    · rw [steps_append, steps_of_others (List.forall_mem_singleton.2 other), hp]
      exact hsteps
    · rw [htodo, hk.subscription]
      exact hsub
  | loaded done opened => exact .loaded (hp ▸ done) (hl opened)

theorem loading_take {m : Message} {q : List Message} (hl : r.lifecycle = .unstarted)
    (others : ∀ e ∈ t, ∀ o, e.act ≠ .work o a) (hu : u.registry? a = some r)
    (hw : r.worker = .idle) (ha : r.Accepts s q m s' r') :
    Loading (t ++ [⟨u, .work o a⟩]) a r' := by
  cases ha with
  | package _ hl' | destroy hl' => cases hl.symm.trans hl'
  | init =>
    have htask : Moment.task? ⟨u, .work o a⟩ a = none := by
      simp [Moment.task?, hu, Registry.todo, hw]
    have hperf : performed (t ++ [⟨u, .work o a⟩]) a = [] := by
      rw [performed_snoc, htask, World.performed_of_others others]
      rfl
    have hall : ∀ c, .load c ∈ Task.initial := by
      intro c
      cases c <;> decide
    have hleft : .openGate ∈ Task.initial := by decide
    have hsub : .subscribe ∈ Task.initial := by decide
    refine .loading hleft ?_ (absurd hsub) (Or.inl ⟨?_, ?_, fun c hc => absurd (hall c) hc⟩)
    · rw [steps_append, steps_of_others others, steps_work, hperf]
      rfl
    · rw [hperf]
      rfl
    · refine List.forall_mem_append.2 ⟨fun e he => ?_, List.forall_mem_singleton.2 ?_⟩
      · rintro ⟨o', -, -, ha, -⟩
        exact others e he o' ha
      · exact not_breaks_of_task fun c hc => by cases htask.symm.trans hc

theorem loading_carries (hs : r.Stage) (hu : u.registry? a = some r)
    (hw : r.worker = .busy (x :: todo) marks)
    (left : .openGate ∈ x :: todo) (hsteps : steps t a = (performed t a).length + 1)
    (hsub : .subscribe ∉ x :: todo → r.subscription.isSome = true)
    (hout : Sound t a r ∨ Broken t a r)
    (hp : r.Carries o a u.shared todo marks x s' r') :
    Loading (t ++ [⟨u, .work o a⟩]) a r' := by
  have hperf := performed_work hu hw t o
  by_cases hx : x = .openGate
  · subst hx
    cases hp
    refine .loaded ?_ (Registry.isOpen_opened hs)
    rw [hperf]
    simp
  have hsteps' : steps (t ++ [⟨u, .work o a⟩]) a =
      (performed (t ++ [⟨u, .work o a⟩]) a).length + 1 := by
    rw [steps_append, steps_work, hperf, hsteps, List.length_append]
    rfl
  have hleft : .openGate ∈ todo := (List.mem_cons.1 left).resolve_left fun he => hx he.symm
  have hsub' (hn : .subscribe ∉ todo) : r'.subscription.isSome = true := by
    by_cases hs : x = .subscribe
    · subst hs
      cases hp
      rfl
    · rw [(Registry.subscription_carries hp hs).1]
      exact hsub fun hm => (List.mem_cons.1 hm).elim (fun he => hs he.symm) hn
  rcases hout with hout | hout
  · rcases sound_carries hout hu hw hp with ⟨hout', htodo⟩ | ⟨hout', htodo⟩
    · exact .loading (htodo ▸ hleft) hsteps' (htodo ▸ hsub') (Or.inl hout')
    · refine .loading (by rw [htodo]; decide) hsteps' (fun hn => ?_) (Or.inr hout')
      rw [htodo] at hn
      exact absurd (by decide) hn
  · obtain ⟨hout', htodo⟩ := broken_carries hout hu hw hp
    exact .loading (htodo ▸ hleft) hsteps' (htodo ▸ hsub') (Or.inr hout')

end

namespace World

variable {site : Site} {t : List Moment} {u w v : World} {a : Nat} {r r' : Registry} {x : Act}

theorem loading_turn (run : Run (ofSite site) t u) (hu : u.registry? a = some r)
    (h : Loading t a r) (ht : r.Turn a u.shared x r') : Loading (t ++ [⟨u, x⟩]) a r' := by
  have hs := stage_of_run run hu
  rcases performed_of_turn (t := t) hu ht with ⟨o, s', rfl, hw, hperf⟩ | ⟨other, hk, hperf⟩
  · cases h with
    | waiting hl others =>
      obtain ⟨hi, q, hq⟩ := Registry.fresh_of_unstarted hs hl
      cases hw with
      | take m q' hi hq' ha =>
        exact loading_take hl others hu hi (Registry.accepts_of_idle hs hi hq' ha)
      | finish _ hn => cases hq.symm.trans hn
      | rest _ hw | perform _ _ _ hw | stop _ hw | leave _ hw => cases hi.symm.trans hw
    | loading left hsteps hsub hout =>
      cases hw with
      | take _ _ hw | finish hw | rest _ hw | stop _ hw | leave _ hw =>
        rw [Registry.todo, hw] at left
        cases left
      | perform y todo marks hw hp =>
        rw [Registry.todo_of_busy hw] at left hsub
        exact loading_carries hs hu hw left hsteps hsub hout hp
    | loaded done opened =>
      refine .loaded ?_ (Registry.isLoaded_turn hs opened ht)
      rw [hperf]
      exact List.mem_append_left _ done
  · exact loading_kept h hk other (fun h => Registry.isLoaded_turn hs h ht) hperf

theorem loading_of_run (run : Run (ofSite site) t w) (hr : w.registry? a = some r) :
    Loading t a r :=
  run.traced (P := fun t r => Loading t a r) hr (fun _ others => .waiting rfl others) loading_turn

/-- A registry when its initial load is done: everything is as a successful load leaves it, or both
categories are empty. -/
structure Loaded (t : List Moment) (address : Nat) (w : World) (r : Registry) : Prop where
  ready : r.lifecycle = .ready
  opened : r.isLoaded = true
  subscribed : ∃ id, r.subscription = some id ∧
    w.shared.stream.sinks.filter (fun e => e.2 = address) = [(id, address)]
  broadcast : w.shared.signals.sent = (t.filterMap Moment.signal?).map Prod.snd
  signalled : (t.filterMap Moment.signal?).filter (fun e => e.1 = address) = [(address, r.channel)]
  reported : r.reloads.sent = [.all]
  outcome :
    ((∀ e ∈ t, ¬e.Breaks address) ∧ ∀ c, ∃ m, (∃ e ∈ t, e.Scans address c m) ∧
        r.catalogue.working.get c = m ∧ r.catalogue.published.plugins? c = some m) ∨
      (∃ e ∈ t, e.Breaks address) ∧
        ∀ c, r.catalogue.working.get c = ∅ ∧ r.catalogue.published.plugins? c = some ∅

theorem step_isSome {o : Outage} (hr : w.registry? a = some r)
    (h : (r.step o a w.shared).isSome = true) : (w.step o a).isSome = true := by
  obtain ⟨⟨s', r'⟩, hs⟩ := Option.isSome_iff_exists.1 h
  rw [step, hr]
  change ((r.step o a w.shared).bind fun e => _).isSome = true
  rw [hs]
  rfl

theorem length_of_outcome (h : Sound t a r ∨ Broken t a r) :
    (performed t a).length + r.todo.length ≤ 10 := by
  rcases h with h | h
  · rw [← List.length_append, h.plan]
    decide
  · obtain ⟨ks, hks, hplan⟩ := h.plan
    rw [← List.length_append, hplan]
    have hall : ∀ ks ∈ Task.attempts, (ks ++ Task.recovery).length ≤ 10 := by decide
    exact hall ks hks

/-- An initial load is done after eleven steps, and none of these waits for anything but the
directory. -/
theorem load_progress (run : Run (ofSite site) t w) (hr : w.registry? a = some r) :
    .openGate ∈ performed t a ∨
      steps t a ≤ 10 ∧ (w.shared.held = false → ∀ o, (w.step o a).isSome = true) := by
  have hs := stage_of_run run hr
  cases loading_of_run run hr with
  | loaded done => exact Or.inl done
  | waiting hl others =>
    obtain ⟨hi, q, hq⟩ := Registry.fresh_of_unstarted hs hl
    refine Or.inr ⟨by rw [steps_of_others others]; omega, fun _ o => step_isSome hr ?_⟩
    rw [Registry.step, hi]
    simp [Mailbox.receive, Mailbox.tryReceive, hq]
  | loading left hsteps _ hout =>
    have hpos := List.length_pos_of_mem left
    have hlen := length_of_outcome hout
    refine Or.inr ⟨by omega, fun hh o => step_isSome hr ?_⟩
    obtain ⟨x, todo, ht⟩ := List.exists_cons_of_length_pos hpos
    obtain ⟨marks, hw⟩ := Registry.busy_of_todo ht
    rw [Registry.step, hw]
    exact Registry.perform_isSome hh

/-- What a load has done in all, however it went. -/
theorem plan_of_outcome {l : List Task} (h : Sound t a r ∨ Broken t a r)
    (hl : performed t a ++ r.todo = l) :
    l.count .signal = 1 ∧ l.filterMap Task.reported? = [.all] := by
  rcases h with h | h
  · rw [← hl, h.plan]
    decide
  · obtain ⟨ks, hks, hplan⟩ := h.plan
    rw [← hl, hplan]
    have hall : ∀ ks ∈ Task.attempts, (ks ++ Task.recovery).count .signal = 1 ∧
        (ks ++ Task.recovery).filterMap Task.reported? = [.all] := by
      decide
    exact hall ks hks

theorem outcome_of_run (run : Run (ofSite site) t w) (hr : w.registry? a = some r)
    (ht : r.todo = [.openGate]) :
    (r.subscription.isSome = true) ∧ (Sound t a r ∨ Broken t a r) := by
  have hm : .openGate ∈ r.todo := ht ▸ List.mem_cons_self
  cases loading_of_run run hr with
  | waiting hl others =>
    have hi := (Registry.fresh_of_unstarted (stage_of_run run hr) hl).1
    rw [Registry.todo, hi] at hm
    cases hm
  | loading _ _ hsub hout =>
    refine ⟨hsub ?_, hout⟩
    rw [ht]
    decide
  | loaded _ opened =>
    obtain ⟨marks, hw⟩ := Registry.busy_of_todo ht
    rcases Registry.busy_of_stage (stage_of_run run hr) hw with ⟨-, -, -, hg⟩ | ⟨-, hn, -⟩
    · rw [Registry.isLoaded, hg, if_pos List.mem_cons_self] at opened
      cases opened
    · exact absurd List.mem_cons_self hn

theorem registry?_of_openGate {o : Outage} {marks : Changes} (hr : w.registry? a = some r)
    (hw : r.worker = .busy [.openGate] marks) (hv : w.act (.work o a) = some v) :
    v.registry? a = some { r with gate := r.gate.opened, worker := .busy [] marks } := by
  obtain ⟨r₁, s', r', hr₁, hs, rfl⟩ := step_eq_some hv
  cases hr₁.symm.trans hr
  rw [Registry.step, hw] at hs
  cases hs
  exact List.getElem?_set_self (List.getElem?_eq_some_iff.1 hr).1

theorem loaded_of_openGate {o : Outage} {marks : Changes} (run : Run (ofSite site) t w)
    (hr : w.registry? a = some r) (hw : r.worker = .busy [.openGate] marks)
    (hv : w.act (.work o a) = some v) :
    Loaded (t ++ [⟨w, .work o a⟩]) a v
      { r with gate := r.gate.opened, worker := .busy [] marks } := by
  have hs := stage_of_run run hr
  have ht := Registry.todo_of_busy hw
  have hr' := registry?_of_openGate hr hw hv
  have run' := run.act hv
  have htask := Moment.task?_work (o := o) hr hw
  have hperf : performed (t ++ [⟨w, .work o a⟩]) a = performed t a ++ r.todo := by
    rw [performed_work hr hw, ht]
  obtain ⟨hsub, hout⟩ := outcome_of_run run hr ht
  obtain ⟨hsignal, hreport⟩ := plan_of_outcome hout hperf.symm
  refine ⟨?ready, Registry.isOpen_opened hs, ?subscribed, signals_of_run run', ?signalled,
    ?reported, ?outcome⟩
  case ready =>
    rcases Registry.busy_of_stage hs hw with ⟨-, -, hl, -⟩ | ⟨-, -, hl, -⟩
    · exact hl
    · exact hl
  case subscribed =>
    obtain ⟨id, hid⟩ := Option.isSome_iff_exists.1 hsub
    have hid' : v.subscription? a = some id := by
      rw [subscription?, hr']
      exact hid
    exact ⟨id, hid, (subscribed_of_run run').filter_eq hid'⟩
  case signalled =>
    rw [signals_of_registry run' hr', hsignal]
    rfl
  case reported =>
    rw [reloads_of_run run' hr', hreport]
  case outcome =>
    have hset (c : Category) := Registry.settled_of_covered (Registry.covered_of_busy hs hw c) hw
      (by simp) (by simp)
    rcases hout with hout | hout
    · have hnot : ¬Moment.Breaks ⟨w, .work o a⟩ a :=
        not_breaks_of_task fun c hc => by cases htask.symm.trans hc
      refine Or.inl ⟨List.forall_mem_append.2 ⟨hout.whole, List.forall_mem_singleton.2 hnot⟩,
        fun c => ⟨_, ?_, rfl, hset c⟩⟩
      exact (hout.scans c (by rw [ht]; simp)).imp fun _ => And.imp_left (List.mem_append_left _)
    · have hclear (c : Category) := hout.cleared (by rw [ht]; simp) c
      refine Or.inr ⟨hout.breaks.imp fun _ => And.imp_left (List.mem_append_left _), fun c => ?_⟩
      exact ⟨hclear c, (hset c).trans (congrArg some (hclear c))⟩

/-- The initial load of a registry always completes: it is done after eleven steps, and none of
these waits for anything but the directory. Then the registry is loaded and ready, it has subscribed
once, signalled once and reported both categories once, and both categories are what their scans
found, or a query panicked and both are empty. -/
theorem load_completes (run : Run (ofSite site) t w) (hr : w.registry? a = some r) :
    (.openGate ∈ performed t a ∨
        steps t a ≤ 10 ∧ (w.shared.held = false → ∀ o, (w.step o a).isSome = true)) ∧
      (r.todo.head? = some .openGate → ∀ o v, w.act (.work o a) = some v →
        ∃ r', v.registry? a = some r' ∧ Loaded (t ++ [⟨w, .work o a⟩]) a v r') := by
  refine ⟨load_progress run hr, fun hh o v hv => ?_⟩
  obtain ⟨todo, ht⟩ := List.head?_eq_some_iff.1 hh
  obtain ⟨marks, hw⟩ := Registry.busy_of_todo ht
  have left := Registry.boots_of_isBoot (stage_of_run run hr) hw List.mem_cons_self rfl
  cases Task.eq_of_openGate left
  exact ⟨_, registry?_of_openGate hr hw hv, loaded_of_openGate run hr hw hv⟩

def brokenActs : List Act :=
  .start (Settings.default.channel "1") :: List.replicate 2 (.work .none 0) ++
    .work (fun _ _ => some ⟨none⟩) 0 :: List.replicate 7 (.work .none 0)

theorem load_completes_broken :
    ∃ t w r v r', Run (ofSite ⟨.metered 1, ∅⟩) t w ∧ w.registry? 0 = some r ∧
      r.todo.head? = some .openGate ∧ w.act (.work .none 0) = some v ∧
      v.registry? 0 = some r' ∧ Loaded (t ++ [⟨w, .work .none 0⟩]) 0 v r' ∧
      (loadPlugins w.shared.directory w.shared.site.characteristics .condition none).contains
        "meter:Edit" = true ∧ r'.peek .condition = some ∅ := by
  have h : ((ofSite ⟨.metered 1, ∅⟩).acts brokenActs).any (fun w =>
      ((w.registry? 0).any fun r => r.todo.head? = some .openGate) &&
        (loadPlugins w.shared.directory w.shared.site.characteristics .condition none).contains
          "meter:Edit" &&
        (w.act (.work .none 0)).any fun v =>
          (v.registry? 0).any fun r => r.peek .condition = some ∅) = true := by
    decide +kernel
  obtain ⟨w, hw, h⟩ := (Option.any_eq_true ..).1 h
  obtain ⟨h, hv⟩ := Bool.and_eq_true_iff.1 h
  obtain ⟨hr, hf⟩ := Bool.and_eq_true_iff.1 h
  obtain ⟨r, hr, hh⟩ := (Option.any_eq_true ..).1 hr
  obtain ⟨v, hv, h⟩ := (Option.any_eq_true ..).1 hv
  obtain ⟨r', hr', hp⟩ := (Option.any_eq_true ..).1 h
  obtain ⟨t, run⟩ := Run.of_acts hw
  obtain ⟨r'', hr'', hl⟩ := (load_completes run hr).2 (of_decide_eq_true hh) .none v hv
  cases hr'.symm.trans hr''
  exact ⟨t, w, r, v, r', run, hr, of_decide_eq_true hh, hv, hr', hl, hf, of_decide_eq_true hp⟩

end World

end PluginRegistry.Live
