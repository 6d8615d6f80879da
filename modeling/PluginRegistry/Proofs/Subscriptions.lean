import Mathlib.Data.List.Nodup
import PluginRegistry.Proofs.Lifecycle

/-!
# Who is subscribed to the event stream

The subscribers of an event stream are just the registries that hold a subscription, each with the
number that it holds and no two with the same one. A registry subscribes when it holds none, and
takes nobody else from the stream when it ends.
-/

namespace PluginRegistry.Live

open Actor

namespace Registry

variable {a : Nat} {s s' : Shared} {r r' : Registry} {o : Outage} {x : Task} {todo : List Task}
  {marks : Changes} {act : Act}

def Unsubscribed (r : Registry) : Prop :=
  r.lifecycle = .unstarted ∨ .subscribe ∈ r.todo → r.subscription = none

theorem subscription_carries (h : r.Carries o a s todo marks x s' r') (hx : x ≠ .subscribe) :
    r'.subscription = r.subscription ∧ s'.stream = s.stream := by
  cases h with
  | subscribe => exact absurd rfl hx
  | _ => exact ⟨rfl, rfl⟩

/-- A step of a worker leaves the stream alone, subscribes, or gives up the subscription. -/
theorem stream_works (hr : r.Stage) (h : r.Works o a s s' r') :
    (r'.subscription = r.subscription ∧ s'.stream = s.stream) ∨
      (∃ todo marks, r.worker = .busy (.subscribe :: todo) marks ∧
        r'.subscription = some s.stream.nextId ∧ s'.stream = (s.stream.subscribe a).1) ∨
      r'.subscription = none ∧
        s'.stream = r.subscription.elim s.stream s.stream.unsubscribe := by
  cases h with
  | take m q hw hq ha =>
    cases accepts_of_idle hr hw hq ha with
    | init | package => exact Or.inl ⟨rfl, rfl⟩
    | destroy => exact Or.inr (Or.inr ⟨rfl, rfl⟩)
  | finish | rest | leave => exact Or.inl ⟨rfl, rfl⟩
  | stop => exact Or.inr (Or.inr ⟨rfl, rfl⟩)
  | perform x todo marks hw hp =>
    by_cases hx : x = .subscribe
    · subst hx
      cases hp
      exact Or.inr (Or.inl ⟨todo, marks, hw, rfl, rfl⟩)
    · exact Or.inl (subscription_carries hp hx)

theorem started_of_busy (hr : r.Stage) (hw : r.worker = .busy todo marks) :
    r.lifecycle ≠ .unstarted := by
  rcases busy_of_stage hr hw with ⟨-, -, hl, -⟩ | ⟨-, -, hl, -⟩
  · rw [hl]
    split <;> simp
  · rw [hl]
    simp

theorem unsubscribed_carries (hs : r.Stage) (hr : r.Unsubscribed)
    (hw : r.worker = .busy (x :: todo) marks)
    (hp : r.Carries o a s todo marks x s' r') (hm : .subscribe ∈ r'.todo) :
    r'.subscription = none := by
  have hnone (h : .subscribe ∈ x :: todo) : r.subscription = none :=
    hr (Or.inr (by rw [Registry.todo, hw]; exact h))
  cases hp with
  | subscribe =>
    have left := boots_of_isBoot hs hw List.mem_cons_self rfl
    exact absurd hm (Task.not_mem_of_boots left)
  | fails c =>
    have left := boots_of_isBoot hs hw List.mem_cons_self rfl
    exact hnone (List.mem_cons_of_mem _ (Task.boots_scan left (Or.inr ⟨c, rfl⟩)).1)
  | breaks => cases hm
  | conclude =>
    have hnot : ∀ marks, .subscribe ∉ Task.announce marks := by
      rintro ⟨_ | _, _ | _⟩ <;> decide
    exact hnone (List.mem_cons_of_mem _ ((List.mem_append.1 hm).resolve_left (hnot marks)))
  | _ => exact hnone (List.mem_cons_of_mem _ hm)

theorem unsubscribed_turn (hs : r.Stage) (hr : r.Unsubscribed) (h : r.Turn a s act r') :
    r'.Unsubscribed := by
  intro hm
  rcases h.works_or_kept with ⟨o, s', -, step⟩ | ⟨-, hk⟩
  · cases works_of_step step with
    | take m q hw hq ha =>
      cases accepts_of_idle hs hw hq ha with
      | init hl => exact hr (Or.inl hl)
      | package y hl =>
        rcases hm with hm | hm
        · cases hl.symm.trans hm
        · simp [Registry.todo, Task.following, Category.all] at hm
      | destroy => rfl
    | finish | rest | leave => exact hr (Or.inl (hm.resolve_right List.not_mem_nil))
    | stop => rfl
    | perform x todo marks hw hp =>
      refine unsubscribed_carries hs hr hw hp (hm.resolve_left fun hl => ?_)
      have hstart := started_of_busy hs hw
      rcases lifecycle_works hs (works_of_step step) with he | he
      · exact hstart (he.symm.trans hl)
      · rw [hl] at he
        cases he
  · rw [hk.subscription]
    rw [hk.lifecycle, Registry.todo, hk.worker] at hm
    exact hr hm

end Registry

namespace World

variable {site : Site} {t : List Moment} {w w' : World} {a b : Nat} {r : Registry} {x : Act}

def subscription? (w : World) (address : Nat) : Option Nat :=
  (w.registry? address).bind Registry.subscription

/-- The subscribers of the stream are the registries that hold a subscription. -/
structure Subscribed (w : World) : Prop where
  numbered : ∀ e ∈ w.shared.stream.sinks, e.1 < w.shared.stream.nextId
  distinct : (w.shared.stream.sinks.map Prod.fst).Nodup
  holders : ∀ id b, (id, b) ∈ w.shared.stream.sinks ↔ w.subscription? b = some id

theorem unsubscribed_of_run (run : Run (ofSite site) t w) (hr : w.registry? a = some r) :
    r.Unsubscribed := by
  let P (_ : List Moment) (r : Registry) : Prop := r.Unsubscribed
  exact run.traced (P := P) hr (fun channel _ _ => rfl)
    fun run hu hr ht => Registry.unsubscribed_turn (stage_of_run run hu) hr ht

theorem Subscribed.congr (h : w.Subscribed) (hs : w'.shared.stream = w.shared.stream)
    (hb : ∀ b, w'.subscription? b = w.subscription? b) : w'.Subscribed where
  numbered := hs ▸ h.numbered
  distinct := hs ▸ h.distinct
  holders id b := by
    rw [hs, hb]
    exact h.holders id b

theorem Subscribed.subscribe (h : w.Subscribed) (ha : w.subscription? a = none)
    (hs : w'.shared.stream = (w.shared.stream.subscribe a).1)
    (hb : ∀ b, w'.subscription? b =
      if b = a then some w.shared.stream.nextId else w.subscription? b) : w'.Subscribed where
  numbered e he := by
    rw [hs] at he ⊢
    rcases List.mem_append.1 he with he | he
    · exact Nat.lt_succ_of_lt (h.numbered e he)
    · cases List.mem_singleton.1 he
      exact Nat.lt_succ_self _
  distinct := by
    have hn : w.shared.stream.nextId ∉ w.shared.stream.sinks.map Prod.fst := by
      rw [List.mem_map]
      rintro ⟨e, he, hid⟩
      exact absurd (h.numbered e he) (by rw [hid]; exact Nat.lt_irrefl _)
    rw [hs, Stream.subscribe, List.map_append, List.nodup_append]
    refine ⟨h.distinct, List.nodup_singleton _, fun i hi j hj => ?_⟩
    cases List.mem_singleton.1 hj
    rintro rfl
    exact hn hi
  holders id b := by
    have hm : (id, b) ∈ (w.shared.stream.subscribe a).1.sinks ↔
        (id, b) ∈ w.shared.stream.sinks ∨ id = w.shared.stream.nextId ∧ b = a := by
      simp [Stream.subscribe]
    rw [hs, hm, h.holders, hb]
    by_cases hba : b = a
    · rw [if_pos hba, hba, ha]
      simp [eq_comm]
    · simp [hba]

theorem Subscribed.unsubscribe (h : w.Subscribed)
    (hs : w'.shared.stream =
      (w.subscription? a).elim w.shared.stream w.shared.stream.unsubscribe)
    (hb : ∀ b, w'.subscription? b = if b = a then none else w.subscription? b) :
    w'.Subscribed := by
  cases ha : w.subscription? a with
  | none =>
    rw [ha] at hs
    refine h.congr hs fun b => ?_
    rw [hb]
    split
    · next he => rw [he, ha]
    · rfl
  | some i =>
    rw [ha] at hs
    have hm (id b : Nat) : (id, b) ∈ w'.shared.stream.sinks ↔
        (id, b) ∈ w.shared.stream.sinks ∧ id ≠ i := by
      rw [hs]
      exact Stream.mem_sinks_unsubscribe
    refine ⟨fun e he => ?_, ?_, fun id b => ?_⟩
    · have hlt := h.numbered e ((hm e.1 e.2).1 he).1
      rw [hs]
      exact hlt
    · rw [hs]
      exact h.distinct.sublist (List.filter_sublist.map _)
    · rw [hm, h.holders, hb]
      have hi : (i, a) ∈ w.shared.stream.sinks := (h.holders i a).2 ha
      by_cases hba : b = a
      · rw [if_pos hba, hba, ha]
        simp [eq_comm]
      · rw [if_neg hba]
        refine ⟨And.left, fun hid => ⟨hid, ?_⟩⟩
        rintro rfl
        have hid' := (h.holders id b).2 hid
        have he := List.inj_on_of_nodup_map h.distinct hid' hi rfl
        exact hba (congrArg Prod.snd he)

/-- Only its own worker changes the subscription of a registry. -/
theorem subscription?_of_act (h : w.act x = some w') (other : ∀ o, x ≠ .work o b) :
    w'.subscription? b = w.subscription? b := by
  rw [subscription?, subscription?]
  cases hr : w.registry? b with
  | none =>
    cases hr' : w'.registry? b with
    | none => rfl
    | some r' =>
      obtain ⟨channel, rfl⟩ := started_of_act h hr hr'
      rfl
  | some r =>
    obtain ⟨r', hr', ht⟩ := turn_of_act h hr
    rw [hr']
    rcases ht.works_or_kept with ⟨o, s', he, -⟩ | ⟨-, hk⟩
    · exact absurd he (other o)
    · exact hk.subscription

theorem subscribed_act (h : w.Subscribed)
    (hr : ∀ a r, w.registry? a = some r → r.Stage ∧ r.Unsubscribed) (hx : w.act x = some w') :
    w'.Subscribed := by
  by_cases hw : ∃ o a, x = .work o a
  · obtain ⟨o, a, rfl⟩ := hw
    obtain ⟨r, s', r', ha, hs, rfl⟩ := step_eq_some hx
    have hself : w.subscription? a = r.subscription := by rw [subscription?, ha]; rfl
    -- The other registries keep what they have.
    have hb (b : Nat) : subscription? { w with
          shared := s'
          registries := w.registries.set a r' } b =
        if b = a then r'.subscription else w.subscription? b := by
      split
      · next he =>
        rw [he, subscription?, World.registry?, List.getElem?_set_self
          (List.getElem?_eq_some_iff.1 ha).1]
        rfl
      · next he =>
        exact subscription?_of_act hx fun o' he' => he (by cases he'; rfl)
    obtain ⟨hstage, hun⟩ := hr a r ha
    rcases Registry.stream_works hstage (Registry.works_of_step hs) with
      ⟨hsub, hst⟩ | ⟨todo, marks, hbusy, hsub, hst⟩ | ⟨hsub, hst⟩
    · refine h.congr hst fun b => (hb b).trans ?_
      split
      · next he => rw [hsub, he, hself]
      · rfl
    · have hnone : r.subscription = none :=
        hun (Or.inr (by rw [Registry.todo, hbusy]; exact List.mem_cons_self))
      exact h.subscribe (hself.trans hnone) hst fun b => by rw [hb, hsub]
    · rw [← hself] at hst
      exact h.unsubscribe hst fun b => by rw [hb, hsub]
  · have hother : ∀ o a, x ≠ .work o a := fun o a he => hw ⟨o, a, he⟩
    exact h.congr (shared_of_act hx hother).1 fun b => subscription?_of_act hx fun o => hother o b

theorem subscribed_of_run (run : Run (ofSite site) t w) : w.Subscribed := by
  induction run with
  | refl => exact ⟨nofun, List.nodup_nil, fun id b => by simp [ofSite, Shared.ofSite, Stream.empty,
      subscription?, registry?]⟩
  | act run hx ih =>
    exact subscribed_act ih (fun a r hr => ⟨stage_of_run run hr, unsubscribed_of_run run hr⟩) hx

/-- Who holds no subscription is not in the stream. -/
theorem Subscribed.filter_eq_nil (h : w.Subscribed) (ha : w.subscription? a = none) :
    w.shared.stream.sinks.filter (fun e => e.2 = a) = [] := by
  rw [List.filter_eq_nil_iff]
  rintro ⟨id, b⟩ he hb
  have hb : b = a := of_decide_eq_true hb
  rw [hb] at he
  cases ((h.holders id a).1 he).symm.trans ha

/-- Who holds a subscription is in the stream once. -/
theorem Subscribed.filter_eq (h : w.Subscribed) {id : Nat} (ha : w.subscription? a = some id) :
    w.shared.stream.sinks.filter (fun e => e.2 = a) = [(id, a)] := by
  have hm : (id, a) ∈ w.shared.stream.sinks.filter (fun e => e.2 = a) :=
    List.mem_filter.2 ⟨(h.holders id a).2 ha, decide_eq_true rfl⟩
  have hall : ∀ e ∈ w.shared.stream.sinks.filter (fun e => e.2 = a), e = (id, a) := by
    rintro ⟨i, b⟩ he
    obtain ⟨he, hb⟩ := List.mem_filter.1 he
    have hb : b = a := of_decide_eq_true hb
    rw [hb] at he ⊢
    cases ((h.holders i a).1 he).symm.trans ha
    rfl
  have hnodup := (h.distinct.of_map Prod.fst).filter fun e => decide (e.2 = a)
  obtain ⟨n, hn⟩ : ∃ n, w.shared.stream.sinks.filter (fun e => e.2 = a) =
      List.replicate n (id, a) := ⟨_, List.eq_replicate_of_mem hall⟩
  rw [hn] at hm hnodup ⊢
  have hpos : n ≠ 0 := (List.mem_replicate.1 hm).1
  have hle : n ≤ 1 := List.nodup_replicate.1 hnodup
  have hone : n = 1 := by omega
  rw [hone]
  rfl

end World

end PluginRegistry.Live
