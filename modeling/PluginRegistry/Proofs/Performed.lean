import PluginRegistry.Proofs.Lifecycle

/-!
# What the workers did

The record of a run tells which tasks each worker carried out, in their order. What subscribers were
told and what was broadcast in the course of the run can be read off it.
-/

namespace PluginRegistry.Live

open Actor

def Task.reported? : Task → Option Changes
  | report m => some m
  | _ => none

def performed (t : List Moment) (address : Nat) : List Task := t.filterMap (·.task? address)

/-- The registry that sends a signal at a moment, by its address, and the channel that it uses. -/
def Moment.signal? (e : Moment) : Option (Nat × Channel) :=
  match e.act with
  | .work _ a =>
    (e.world.registry? a).bind fun r =>
      if r.todo.head? = some .signal then some (a, r.channel) else none
  | _ => none

/-- What `f` tells of the next step of the worker of a registry, if that is what happens at a
moment. -/
def Moment.step? {β : Type} (f : Outage → Shared → Registry → Option β) (e : Moment)
    (address : Nat) : Option β :=
  match e.act with
  | .work o a => if a = address then (e.world.registry? a).bind (f o e.world.shared) else none
  | _ => none

section
variable {β : Type} {f : Outage → Shared → Registry → Option β} {e : Moment} {a : Nat}

theorem Moment.step?_work {u : World} {r : Registry} (hu : u.registry? a = some r) (o : Outage) :
    Moment.step? f ⟨u, .work o a⟩ a = f o u.shared r := by
  simp [Moment.step?, hu]

theorem Moment.step?_other (h : ∀ o, e.act ≠ .work o a) : e.step? f a = none := by
  obtain ⟨u, x⟩ := e
  cases x with
  | work o b =>
    have hb : b ≠ a := by
      rintro rfl
      exact h o rfl
    simp [Moment.step?, hb]
  | _ => rfl

end

theorem filterMap_snoc {ε β : Type} (f : ε → Option β) (t : List ε) (e : ε) :
    (t ++ [e]).filterMap f = t.filterMap f ++ (f e).toList := by
  rw [List.filterMap_append]
  cases h : f e <;> simp [h]

theorem performed_snoc (t : List Moment) (e : Moment) (a : Nat) :
    performed (t ++ [e]) a = performed t a ++ (e.task? a).toList :=
  filterMap_snoc _ t e

theorem performed_work {u : World} {a : Nat} {r : Registry} {x : Task} {todo : List Task}
    {marks : Changes} (hu : u.registry? a = some r) (hw : r.worker = .busy (x :: todo) marks)
    (t : List Moment) (o : Outage) :
    performed (t ++ [⟨u, .work o a⟩]) a = performed t a ++ [x] := by
  rw [performed_snoc, Moment.task?_work hu hw]
  rfl

namespace Registry

variable {a : Nat} {s s' : Shared} {r r' : Registry} {o : Outage} {x : Task} {todo : List Task}
  {marks : Changes} {act : Act}

theorem announcements_carries (h : r.Carries o a s todo marks x s' r') :
    r'.channel = r.channel ∧ r'.reloads.sent = r.reloads.sent ++ x.reported?.toList ∧
      s'.signals.sent = s.signals.sent ++ if x = .signal then [r.channel] else [] := by
  cases h with
  | breaks => simp [Task.reported?, fail, discard]
  | signal | report => simp [Task.reported?, Broadcast.send]
  | _ => simp [Task.reported?]

theorem announcements_accept {box : Mailbox Message} {m : Message}
    (h : { r with mailbox := box }.accept s m = (s', r')) :
    r'.channel = r.channel ∧ r'.reloads = r.reloads ∧ s'.signals = s.signals := by
  cases m <;> rw [accept] at h <;> split at h <;> cases h <;> exact ⟨rfl, rfl, rfl⟩

/-- Reports and signals come from the tasks that report and signal, one from each. -/
theorem announcements_works (h : r.Works o a s s' r') :
    r'.channel = r.channel ∧
      r'.reloads.sent = r.reloads.sent ++ (r.todo.head?.bind Task.reported?).toList ∧
      s'.signals.sent =
        s.signals.sent ++ if r.todo.head? = some .signal then [r.channel] else [] := by
  cases h with
  | take m q hw hq ha =>
    obtain ⟨hc, hr, hs⟩ := announcements_accept ha
    rw [hr, hs, Registry.todo, hw]
    exact ⟨hc, by simp⟩
  | finish hw | stop _ hw | leave _ hw =>
    rw [Registry.todo, hw]
    exact ⟨rfl, by simp [discard]⟩
  | rest _ hw =>
    rw [Registry.todo, hw]
    exact ⟨rfl, by simp⟩
  | perform x todo marks hw hp =>
    rw [Registry.todo, hw]
    simpa using announcements_carries hp

end Registry

namespace World

variable {site : Site} {t : List Moment} {u w : World} {a : Nat} {r r' : Registry} {x : Act}

theorem task?_of_other {e : Moment} (h : ∀ o, e.act ≠ .work o a) : e.task? a = none := by
  obtain ⟨u, x⟩ := e
  cases x with
  | work o b =>
    have hb : b ≠ a := by
      rintro rfl
      exact h o rfl
    simp [Moment.task?, hb]
  | _ => rfl

theorem performed_of_others (h : ∀ e ∈ t, ∀ o, e.act ≠ .work o a) : performed t a = [] :=
  List.filterMap_eq_nil_iff.2 fun e he => task?_of_other (h e he)

/-- A turn either is a step of the worker, or leaves alone what it did and what it owns. -/
theorem performed_of_turn (hu : u.registry? a = some r) (h : r.Turn a u.shared x r') :
    (∃ o s', x = .work o a ∧ r.Works o a u.shared s' r' ∧
        performed (t ++ [⟨u, x⟩]) a = performed t a ++ r.todo.head?.toList) ∨
      (∀ o, x ≠ .work o a) ∧ r.Kept r' ∧ performed (t ++ [⟨u, x⟩]) a = performed t a := by
  rcases h.works_or_kept with ⟨o, s', rfl, step⟩ | ⟨other, hk⟩
  · refine Or.inl ⟨o, s', rfl, Registry.works_of_step step, ?_⟩
    rw [performed_snoc]
    simp [Moment.task?, hu]
  · refine Or.inr ⟨other, hk, ?_⟩
    rw [performed_snoc, task?_of_other other]
    exact List.append_nil _

/-- Subscribers were told what the worker reported. -/
theorem reloads_of_run (run : Run (ofSite site) t w) (hr : w.registry? a = some r) :
    r.reloads.sent = (performed t a).filterMap Task.reported? := by
  let P (t : List Moment) (r : Registry) : Prop :=
    r.reloads.sent = (performed t a).filterMap Task.reported?
  refine run.traced (P := P) hr (fun {t} channel h => ?_) fun {t u x r r'} _ hu ih ht => ?_
  · change _ = (performed t a).filterMap Task.reported?
    rw [performed_of_others h]
    rfl
  · change _ = (performed (t ++ [⟨u, x⟩]) a).filterMap Task.reported?
    rcases performed_of_turn (t := t) hu ht with ⟨o, s', -, hw, he⟩ | ⟨-, hk, he⟩
    · rw [he, List.filterMap_append, ← ih, (Registry.announcements_works hw).2.1]
      cases r.todo.head? with
      | none => rfl
      | some y => cases y.reported? <;> rfl
    · rw [he, hk.reloads]
      exact ih

/-- What was broadcast is what the workers signalled. -/
theorem signals_of_run (run : Run (ofSite site) t w) :
    w.shared.signals.sent = (t.filterMap Moment.signal?).map Prod.snd := by
  induction run with
  | refl => rfl
  | @act t u v x run hx ih =>
    rw [List.filterMap_append, List.map_append, ← ih]
    by_cases hw : ∃ o a, x = .work o a
    · obtain ⟨o, a, rfl⟩ := hw
      obtain ⟨r, s', r', hr, hs, rfl⟩ := step_eq_some hx
      rw [(Registry.announcements_works (Registry.works_of_step hs)).2.2]
      by_cases hh : r.todo.head? = some .signal <;> simp [Moment.signal?, hr, hh]
    · have hother : ∀ o a, x ≠ .work o a := fun o a he => hw ⟨o, a, he⟩
      rw [(shared_of_act hx hother).2]
      cases x with
      | work o a => exact absurd rfl (hother o a)
      | _ => exact (List.append_nil _).symm

theorem signals_of_others (h : ∀ e ∈ t, ∀ o, e.act ≠ .work o a) :
    (t.filterMap Moment.signal?).filter (fun e => e.1 = a) = [] := by
  rw [List.filter_eq_nil_iff]
  intro p hp ha
  obtain ⟨⟨u, x⟩, he, hs⟩ := List.mem_filterMap.1 hp
  cases x with
  | work o b =>
    obtain ⟨r, -, hs⟩ := Option.bind_eq_some_iff.1 hs
    split at hs
    · cases hs
      cases of_decide_eq_true ha
      exact h _ he o rfl
    · cases hs
  | _ => cases hs

/-- Every signal of a registry uses its channel, and each comes from one of its tasks. -/
theorem signals_of_registry (run : Run (ofSite site) t w) (hr : w.registry? a = some r) :
    (t.filterMap Moment.signal?).filter (fun e => e.1 = a) =
      List.replicate ((performed t a).count .signal) (a, r.channel) := by
  let P (t : List Moment) (r : Registry) : Prop :=
    (t.filterMap Moment.signal?).filter (fun e => e.1 = a) =
      List.replicate ((performed t a).count .signal) (a, r.channel)
  refine run.traced (P := P) hr (fun {t} channel h => ?_) fun {t u x r r'} _ hu ih ht => ?_
  · change List.filter _ (t.filterMap Moment.signal?) = _
    rw [signals_of_others h, performed_of_others h]
    rfl
  · have ih : List.filter _ (t.filterMap Moment.signal?) = _ := ih
    change List.filter _ (List.filterMap Moment.signal? (t ++ [⟨u, x⟩])) =
      List.replicate ((performed (t ++ [⟨u, x⟩]) a).count .signal) (a, r'.channel)
    rw [List.filterMap_append, List.filter_append, ih]
    rcases performed_of_turn (t := t) hu ht with ⟨o, s', rfl, hw, he⟩ | ⟨other, hk, he⟩
    · rw [he, List.count_append, (Registry.announcements_works hw).1]
      by_cases hh : r.todo.head? = some .signal
      · simp [Moment.signal?, hu, hh, List.replicate_succ']
      · have hc : r.todo.head?.toList.count .signal = 0 := by
          rw [List.count_eq_zero]
          intro hm
          exact hh (Option.mem_toList.1 hm)
        simp [Moment.signal?, hu, hh, hc]
    · have hn : ∀ e ∈ [Moment.mk u x], ∀ o, e.act ≠ .work o a := List.forall_mem_singleton.2 other
      rw [he, hk.channel, signals_of_others hn, List.append_nil]

end World

end PluginRegistry.Live
