import PluginRegistry.Proofs.Performed
import PluginRegistry.Proofs.Subscriptions

/-!
# How long a registry is in the event stream

A registry enters the event stream in the course of its initial load and leaves it in one of two
places: where its worker takes up a request to end, or where the worker stops for any other reason.
A worker that comes by both places leaves only once. In between the registry has one entry in the
stream, whatever other registries do.
-/

namespace PluginRegistry.Live

namespace Registry

/-- The worker took up a request to end, or has done what it does when it stops. -/
def hasLeft (r : Registry) : Bool :=
  match r.worker with
  | .stopping .stopped => true
  | .leaving _ => true
  | .exited _ => true
  | _ => false

/-- The number whose entry the next step of the worker takes from the stream. -/
def revokes? (r : Registry) : Option Nat :=
  match r.worker with
  | .idle =>
    if r.mailbox.queue.head? = some .destroy ∧ r.lifecycle ≠ .destroyed then r.subscription
    else none
  | .stopping _ => r.subscription
  | _ => none

def enters (r : Registry) : Prop := r.todo.head? = some .subscribe

instance (r : Registry) : Decidable r.enters := inferInstanceAs (Decidable (_ = _))

variable {a : Nat} {s s' : Shared} {r r' : Registry} {o : Outage} {x : Task} {todo : List Task}
  {marks : Changes} {m : Message} {q : List Message}

theorem revokes?_busy (hw : r.worker = .busy todo marks) : r.revokes? = none := by
  rw [revokes?, hw]

theorem revokes?_take (hw : r.worker = .idle) (hq : r.mailbox.queue = m :: q)
    (hm : m ≠ .destroy) : r.revokes? = none := by
  rw [revokes?, hw]
  simp [hq, hm]

theorem revokes?_destroy (hw : r.worker = .idle) (hq : r.mailbox.queue = .destroy :: q)
    (hl : r.lifecycle = .ready) : r.revokes? = r.subscription := by
  rw [revokes?, hw]
  simp [hq, hl]

theorem not_enters (h : r.todo = []) : ¬r.enters := by
  rw [enters, h]
  nofun

theorem sinks_elim (s : Stream) (id : Option Nat) :
    (id.elim s s.unsubscribe).sinks = s.sinks.filter (fun e => id ≠ some e.1) := by
  cases id with
  | none => simp
  | some id => simp [Stream.unsubscribe, eq_comm]

/-- A step of a worker takes an entry from the stream, or adds one, or leaves the stream alone. -/
theorem sinks_works (hr : r.Stage) (h : r.Works o a s s' r') :
    s'.stream.sinks = s.stream.sinks.filter (fun e => r.revokes? ≠ some e.1) ++
      if r.enters then [(s.stream.nextId, a)] else [] := by
  have hsame (hn : r.revokes? = none) (he : ¬r.enters) : s.stream.sinks =
      s.stream.sinks.filter (fun e => r.revokes? ≠ some e.1) ++
        if r.enters then [(s.stream.nextId, a)] else [] := by
    simp [hn, he]
  cases h with
  | take m q hw hq ha =>
    have he : ¬r.enters := not_enters (by rw [Registry.todo, hw])
    cases accepts_of_idle hr hw hq ha with
    | init => exact hsame (revokes?_take hw hq (by simp)) he
    | package x => exact hsame (revokes?_take hw hq (by simp)) he
    | destroy hl =>
      rw [revokes?_destroy hw hq hl, if_neg he, List.append_nil]
      exact sinks_elim s.stream r.subscription
  | finish hw hq =>
    refine hsame ?_ (not_enters (by rw [Registry.todo, hw]))
    rw [revokes?, hw]
    simp [hq]
  | rest _ hw => exact hsame (revokes?_busy hw) (not_enters (by rw [Registry.todo, hw]))
  | stop e hw =>
    have hn : r.revokes? = r.subscription := by rw [revokes?, hw]
    rw [hn, if_neg (not_enters (by rw [Registry.todo, hw])), List.append_nil]
    exact sinks_elim s.stream r.subscription
  | leave e hw =>
    refine hsame ?_ (not_enters (by rw [Registry.todo, hw]))
    rw [revokes?, hw]
  | perform x todo marks hw hp =>
    have hn := revokes?_busy hw
    by_cases hx : x = .subscribe
    · subst hx
      have he : r.enters := by rw [enters, todo_of_busy hw]; rfl
      cases hp
      simp [hn, he, Stream.subscribe]
    · have he : ¬r.enters := by
        rw [enters, todo_of_busy hw]
        exact fun h => hx (Option.some.inj h)
      rw [(subscription_carries hp hx).2]
      exact hsame hn he

end Registry

def Moment.entered? (e : Moment) (address : Nat) : Option Nat :=
  if e.task? address = some .subscribe then some e.world.shared.stream.nextId else none

def Moment.revoked? : Moment → Nat → Option Nat := Moment.step? fun _ _ r => r.revokes?

def entered (t : List Moment) (address : Nat) : List Nat := t.filterMap (·.entered? address)

def revoked (t : List Moment) (address : Nat) : List Nat := t.filterMap (·.revoked? address)

section
variable {t : List Moment} {u : World} {a : Nat} {s s' : Shared} {r r' : Registry} {o : Outage}
  {x : Task} {todo : List Task} {marks : Changes} {es rs : List Nat} {e : Moment}

theorem Moment.entered?_work (hu : u.registry? a = some r) :
    Moment.entered? ⟨u, .work o a⟩ a = if r.enters then some u.shared.stream.nextId else none := by
  have ht : Moment.task? ⟨u, .work o a⟩ a = r.todo.head? := by simp [Moment.task?, hu]
  rw [Moment.entered?, ht]
  exact if_congr Iff.rfl rfl rfl

theorem Moment.revoked?_work (hu : u.registry? a = some r) :
    Moment.revoked? ⟨u, .work o a⟩ a = r.revokes? :=
  Moment.step?_work hu o

theorem Moment.entered?_other (h : ∀ o, e.act ≠ .work o a) : e.entered? a = none := by
  rw [Moment.entered?, World.task?_of_other h]
  rfl

theorem Moment.revoked?_other (h : ∀ o, e.act ≠ .work o a) : e.revoked? a = none :=
  Moment.step?_other h

theorem entered_snoc (t : List Moment) (e : Moment) (a : Nat) :
    entered (t ++ [e]) a = entered t a ++ (e.entered? a).toList :=
  filterMap_snoc _ t e

theorem revoked_snoc (t : List Moment) (e : Moment) (a : Nat) :
    revoked (t ++ [e]) a = revoked t a ++ (e.revoked? a).toList :=
  filterMap_snoc _ t e

/-- Where a registry is with its entry in the stream. -/
inductive Enrolled (es rs : List Nat) (r : Registry) : Prop
  | before (unentered : es = []) (unrevoked : rs = []) (alone : r.subscription = none)
      (stays : r.hasLeft = false) (early : r.lifecycle = .unstarted ∨ .subscribe ∈ r.todo)
  | during (id : Nat) (entered : es = [id]) (unrevoked : rs = [])
      (holds : r.subscription = some id) (stays : r.hasLeft = false)
  | after (id : Nat) (entered : es = [id]) (revoked : rs = [id]) (alone : r.subscription = none)
      (left : r.hasLeft = true)

theorem enrolled_unstarted (hs : r.Stage) (hl : r.lifecycle = .unstarted)
    (alone : r.subscription = none) (h : r.Works o a s s' r') :
    Enrolled (if r.enters then [s.stream.nextId] else []) r.revokes?.toList r' := by
  obtain ⟨hi, q, hq⟩ := Registry.fresh_of_unstarted hs hl
  cases h with
  | take m q' hi hq' ha =>
    cases Registry.accepts_of_idle hs hi hq' ha with
    | init =>
      rw [if_neg (Registry.not_enters (by rw [Registry.todo, hi])),
        Registry.revokes?_take hi hq' (by simp)]
      exact .before rfl rfl alone rfl (Or.inr (by decide : Task.subscribe ∈ Task.initial))
    | package _ hl' | destroy hl' => cases hl.symm.trans hl'
  | finish _ hn => cases hq.symm.trans hn
  | rest _ hw | perform _ _ _ hw | stop _ hw | leave _ hw => cases hi.symm.trans hw

/-- The tasks of an initial load up to the one that enters the stream. -/
theorem enrolled_booting (hs : r.Stage) (hw : r.worker = .busy (x :: todo) marks)
    (hm : .subscribe ∈ x :: todo) (alone : r.subscription = none)
    (hp : r.Carries o a s todo marks x s' r') :
    Enrolled (if r.enters then [s.stream.nextId] else []) r.revokes?.toList r' := by
  have left := Registry.boots_of_isBoot hs hw hm rfl
  rw [Registry.revokes?_busy hw]
  by_cases hx : x = .subscribe
  · subst hx
    have he : r.enters := by rw [Registry.enters, Registry.todo_of_busy hw]; rfl
    rw [if_pos he]
    cases hp
    exact .during _ rfl rfl rfl rfl
  · have he : ¬r.enters := by
      rw [Registry.enters, Registry.todo_of_busy hw]
      exact fun h => hx (Option.some.inj h)
    have hm' : .subscribe ∈ todo := (List.mem_cons.1 hm).resolve_left fun h => hx h.symm
    rw [if_neg he]
    cases hp with
    | subscribe => exact absurd rfl hx
    | fails => exact .before rfl rfl alone rfl (Or.inr (by decide : Task.subscribe ∈ Task.recovery))
    | follow c y | breaks c y => exact absurd rfl ((Task.boots_kind left).1 c y)
    | conclude => exact absurd rfl (Task.boots_kind left).2
    | _ => exact .before rfl rfl alone rfl (Or.inr hm')

theorem enrolled_during {id : Nat} (hs : r.Stage) (hun : r.Unsubscribed)
    (holds : r.subscription = some id) (stays : r.hasLeft = false) (h : r.Works o a s s' r') :
    Enrolled (id :: if r.enters then [s.stream.nextId] else []) r.revokes?.toList r' := by
  have late : ¬(r.lifecycle = .unstarted ∨ .subscribe ∈ r.todo) := by
    intro h
    cases holds.symm.trans (hun h)
  have he : ¬r.enters := by
    rw [Registry.enters]
    exact fun h => late (Or.inr (List.mem_of_mem_head? h))
  rw [if_neg he]
  cases h with
  | take m q hw hq ha =>
    cases Registry.accepts_of_idle hs hw hq ha with
    | init hl => exact absurd (Or.inl hl) late
    | package y =>
      rw [Registry.revokes?_take hw hq (by simp)]
      exact .during id rfl rfl holds rfl
    | destroy hl =>
      rw [Registry.revokes?_destroy hw hq hl, holds]
      exact .after id rfl rfl rfl rfl
  | finish hw hq =>
    rw [Registry.revokes?, hw]
    simp only [hq, List.head?_nil, reduceCtorEq, false_and, if_false]
    exact .during id rfl rfl holds rfl
  | rest _ hw =>
    rw [Registry.revokes?_busy hw]
    exact .during id rfl rfl holds rfl
  | perform x todo marks hw hp =>
    rw [Registry.revokes?_busy hw]
    cases hp with
    | subscribe =>
      exact absurd (Or.inr (by rw [Registry.todo_of_busy hw]; exact List.mem_cons_self)) late
    | _ => exact .during id rfl rfl holds rfl
  | stop e hw =>
    rw [Registry.revokes?, hw, holds]
    exact .after id rfl rfl rfl rfl
  | leave e hw =>
    rw [Registry.hasLeft, hw] at stays
    cases stays

theorem enrolled_after {id : Nat} (alone : r.subscription = none) (left : r.hasLeft = true)
    (h : r.Works o a s s' r') :
    Enrolled (id :: if r.enters then [s.stream.nextId] else []) (id :: r.revokes?.toList) r' := by
  rw [Registry.hasLeft] at left
  cases h with
  | take _ _ hw | finish hw | rest _ hw | perform _ _ _ hw =>
    rw [hw] at left
    cases left
  | stop e hw =>
    rw [if_neg (Registry.not_enters (by rw [Registry.todo, hw])), Registry.revokes?, hw, alone]
    exact .after id rfl rfl rfl rfl
  | leave e hw =>
    rw [if_neg (Registry.not_enters (by rw [Registry.todo, hw])), Registry.revokes?, hw]
    exact .after id rfl rfl alone rfl

theorem enrolled_works (hs : r.Stage) (hun : r.Unsubscribed) (hr : Enrolled es rs r)
    (h : r.Works o a s s' r') :
    Enrolled (es ++ if r.enters then [s.stream.nextId] else []) (rs ++ r.revokes?.toList) r' := by
  cases hr with
  | before hes hrs alone stays early =>
    rw [hes, hrs, List.nil_append, List.nil_append]
    rcases early with hl | hm
    · exact enrolled_unstarted hs hl alone h
    · cases h with
      | take _ _ hw | finish hw | rest _ hw | stop _ hw | leave _ hw =>
        rw [Registry.todo, hw] at hm
        cases hm
      | perform x todo marks hw hp =>
        rw [Registry.todo_of_busy hw] at hm
        exact enrolled_booting hs hw hm alone hp
  | during id hes hrs holds stays =>
    rw [hes, hrs]
    exact enrolled_during hs hun holds stays h
  | after id hes hrs alone left =>
    rw [hes, hrs]
    exact enrolled_after alone left h

theorem Enrolled.alone_of_left (h : Enrolled es rs r) (left : r.hasLeft = true) :
    r.subscription = none := by
  cases h with
  | before _ _ alone | after _ _ _ alone => exact alone
  | during _ _ _ _ stays => cases left.symm.trans stays

theorem Enrolled.congr (h : Enrolled es rs r) (hk : r.Kept r') : Enrolled es rs r' := by
  have hleft : r'.hasLeft = r.hasLeft := by rw [Registry.hasLeft, hk.worker, Registry.hasLeft]
  cases h with
  | before hes hrs alone stays early =>
    refine .before hes hrs (hk.subscription.trans alone) (hleft.trans stays) ?_
    rw [hk.lifecycle, Registry.todo, hk.worker]
    exact early
  | during id hes hrs holds stays =>
    exact .during id hes hrs (hk.subscription.trans holds) (hleft.trans stays)
  | after id hes hrs alone left =>
    exact .after id hes hrs (hk.subscription.trans alone) (hleft.trans left)

end

namespace World

variable {site : Site} {t : List Moment} {w v : World} {a : Nat} {r : Registry} {x : Act}

theorem enrolled_of_run (run : Run (ofSite site) t w) (hr : w.registry? a = some r) :
    Enrolled (entered t a) (revoked t a) r := by
  refine run.traced (P := fun t r => Enrolled (entered t a) (revoked t a) r) hr
    (fun channel others => ?_) fun {t u x r r'} run hu ih ht => ?_
  · refine .before ?_ ?_ rfl rfl (Or.inl rfl)
    · exact List.filterMap_eq_nil_iff.2 fun e he => Moment.entered?_other (others e he)
    · exact List.filterMap_eq_nil_iff.2 fun e he => Moment.revoked?_other (others e he)
  · rw [entered_snoc, revoked_snoc]
    rcases ht.works_or_kept with ⟨o, s', rfl, step⟩ | ⟨other, hk⟩
    · have h := enrolled_works (stage_of_run run hu) (unsubscribed_of_run run hu) ih
        (Registry.works_of_step step)
      rw [Moment.entered?_work hu, Moment.revoked?_work hu]
      split
      · next he => rwa [if_pos he] at h
      · next he => rwa [if_neg he] at h
    · rw [Moment.entered?_other other, Moment.revoked?_other other]
      simpa using ih.congr hk

/-- The entries of a registry change by its own steps only. -/
theorem sinks_of_others (run : Run (ofSite site) t w) (hx : w.act x = some v)
    (other : ∀ o, x ≠ .work o a) :
    v.shared.stream.sinks.filter (fun e => e.2 = a) =
      w.shared.stream.sinks.filter (fun e => e.2 = a) := by
  have hsub := subscription?_of_act hx other
  have hw := subscribed_of_run run
  have hv := subscribed_of_run (run.act hx)
  cases h : w.subscription? a with
  | none => rw [hw.filter_eq_nil h, hv.filter_eq_nil (hsub.trans h)]
  | some id => rw [hw.filter_eq h, hv.filter_eq (hsub.trans h)]

theorem sinks_of_step {o : Outage} (run : Run (ofSite site) t w)
    (hx : w.act (.work o a) = some v) :
    v.shared.stream.sinks =
      w.shared.stream.sinks.filter (fun e => Moment.revoked? ⟨w, .work o a⟩ a ≠ some e.1) ++
        (Moment.entered? ⟨w, .work o a⟩ a).toList.map fun id => (id, a) := by
  obtain ⟨r, s', r', hr, hs, rfl⟩ := step_eq_some hx
  rw [Moment.revoked?_work hr, Moment.entered?_work hr]
  refine (Registry.sinks_works (stage_of_run run hr) (Registry.works_of_step hs)).trans ?_
  split <;> rfl

theorem isSome_of_sinks (run : Run (ofSite site) t w) {e : Nat × Nat}
    (he : e ∈ w.shared.stream.sinks) : (w.registry? e.2).isSome = true := by
  have hid := ((subscribed_of_run run).holders e.1 e.2).1 he
  obtain ⟨r, hr, -⟩ := Option.bind_eq_some_iff.1 hid
  rw [hr]
  rfl

/-- What a registry has in the stream, how it got there, and how it was taken from there. -/
structure Enrolment (t : List Moment) (address : Nat) (w : World) (r : Registry) : Prop where
  /-- It enters the stream once, when it subscribes. -/
  once : entered t address = [] ∧ .subscribe ∉ performed t address ∨
    ∃ id, entered t address = [id] ∧ .subscribe ∈ performed t address
  /-- It is there from then until it leaves. -/
  present : w.shared.stream.sinks.filter (fun e => e.2 = address) =
    (if r.hasLeft then [] else entered t address).map fun id => (id, address)
  /-- It is taken from there once, when it leaves, and it does not leave before it was there. -/
  leaves : revoked t address = if r.hasLeft then entered t address else []
  late : r.hasLeft = true → entered t address ≠ []

theorem mem_performed_iff : .subscribe ∈ performed t a ↔ entered t a ≠ [] := by
  rw [performed, entered, List.mem_filterMap, Ne, List.filterMap_eq_nil_iff]
  simp [Moment.entered?]

theorem enrolment_of_run (run : Run (ofSite site) t w) (hr : w.registry? a = some r) :
    Enrolment t a w r := by
  have hsub : w.subscription? a = r.subscription := by rw [subscription?, hr]; rfl
  have hw := subscribed_of_run run
  have hmem := mem_performed_iff (t := t) (a := a)
  cases enrolled_of_run run hr with
  | before hes hrs alone stays _ =>
    refine ⟨Or.inl ⟨hes, fun h => hmem.1 h hes⟩, ?_, ?_, fun h => by cases stays.symm.trans h⟩
    · rw [hw.filter_eq_nil (hsub.trans alone), stays, hes]
      rfl
    · rw [hrs, stays]
      rfl
  | during id hes hrs holds stays =>
    refine ⟨Or.inr ⟨id, hes, hmem.2 (by rw [hes]; simp)⟩, ?_, ?_, fun _ => by rw [hes]; simp⟩
    · rw [hw.filter_eq (hsub.trans holds), stays, hes]
      rfl
    · rw [hrs, stays]
      rfl
  | after id hes hrs alone left =>
    refine ⟨Or.inr ⟨id, hes, hmem.2 (by rw [hes]; simp)⟩, ?_, ?_, fun _ => by rw [hes]; simp⟩
    · rw [hw.filter_eq_nil (hsub.trans alone), left]
      rfl
    · rw [hrs, left, hes]
      rfl

/-- Only registries are in the stream, each with one entry from the moment in which it subscribes
until it leaves. A step of a worker adds the entry of its registry or takes it from the stream, and
nothing else changes what a registry has there. Numbers are told apart as those of a counter of 64
bits are for up to 2^64 subscriptions. -/
theorem enrolled_until_left (run : Run (ofSite site) t w) :
    (∀ e ∈ w.shared.stream.sinks, (w.registry? e.2).isSome = true) ∧
      ∀ a r, w.registry? a = some r → Enrolment t a w r ∧
        (∀ o v, w.act (.work o a) = some v → v.shared.stream.sinks =
          w.shared.stream.sinks.filter (fun e => Moment.revoked? ⟨w, .work o a⟩ a ≠ some e.1) ++
            (Moment.entered? ⟨w, .work o a⟩ a).toList.map fun id => (id, a)) ∧
        ∀ x v, w.act x = some v → (∀ o, x ≠ .work o a) →
          v.shared.stream.sinks.filter (fun e => e.2 = a) =
            w.shared.stream.sinks.filter (fun e => e.2 = a) :=
  ⟨fun _ he => isSome_of_sinks run he, fun _ _ hr => ⟨enrolment_of_run run hr,
    fun _ _ hx => sinks_of_step run hx, fun _ _ hx => sinks_of_others run hx⟩⟩

/-- Two registries load, and the worker of the first takes up a request to end. -/
def partingActs : List Act :=
  [.start (Settings.default.channel "1"), .start (Settings.default.channel "2")] ++
    List.replicate 11 (.work .none 0) ++ List.replicate 11 (.work .none 1) ++
    [.requestDestroy 0, .work .none 0]

theorem enrolled_until_left_parting :
    ∃ t w, Run (ofSite ⟨.bare 0, ∅⟩) t w ∧
      w.shared.stream.sinks.filter (fun e => e.2 = 0) = [] ∧ revoked t 0 = entered t 0 ∧
      w.shared.stream.sinks.filter (fun e => e.2 = 1) = (entered t 1).map (fun id => (id, 1)) ∧
      revoked t 1 = [] ∧ w.shared.stream.sinks = [(1, 1)] := by
  have h : ((ofSite ⟨.bare 0, ∅⟩).acts partingActs).any (fun w =>
      ((w.registry? 0).any fun r => r.hasLeft) && ((w.registry? 1).any fun r => !r.hasLeft) &&
        w.shared.stream.sinks = [(1, 1)]) = true := by
    decide +kernel
  obtain ⟨w, hw, h⟩ := (Option.any_eq_true ..).1 h
  simp only [Bool.and_eq_true, decide_eq_true_eq] at h
  obtain ⟨⟨h₀, h₁⟩, hsinks⟩ := h
  obtain ⟨r₀, hr₀, hleft⟩ := (Option.any_eq_true ..).1 h₀
  obtain ⟨r₁, hr₁, hstays⟩ := (Option.any_eq_true ..).1 h₁
  obtain ⟨t, run⟩ := Run.of_acts hw
  obtain ⟨-, hall⟩ := enrolled_until_left run
  obtain ⟨he₀, -⟩ := hall 0 r₀ hr₀
  obtain ⟨he₁, -⟩ := hall 1 r₁ hr₁
  have hstays : r₁.hasLeft = false := by simpa using hstays
  refine ⟨t, w, run, ?_, ?_, ?_, ?_, hsinks⟩
  · rw [he₀.present, if_pos hleft]
    rfl
  · rw [he₀.leaves, if_pos hleft]
  · rw [he₁.present, hstays]
    rfl
  · rw [he₁.leaves, hstays]
    rfl

end World

end PluginRegistry.Live
