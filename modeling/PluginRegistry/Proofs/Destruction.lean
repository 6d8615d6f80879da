import Mathlib.Data.List.Basic
import PluginRegistry.Proofs.Enrolment
import PluginRegistry.Proofs.WorkingMaps

/-!
# The destruction of a registry

A request to destroy a registry goes through its mailbox like any other message. The worker handles
what was queued before, takes up the request and handles nothing that came later, whatever arrives
until it has exited (`Draining`). A mailbox that was closed before rejects the request, but is
drained all the same. Afterwards nothing about the registry changes for anybody.
-/

namespace PluginRegistry.Live

open Actor

namespace Registry

variable {a : Nat} {s s' : Shared} {r r' : Registry} {o : Outage} {x : Act} {e : Exit}

theorem mailbox_told (r : Registry) (xs : List PackageChange) :
    ∃ ys : List PackageChange,
      (r.told xs).mailbox = ⟨r.mailbox.queue ++ ys.map .package, r.mailbox.closed⟩ ∧
        (r.mailbox.closed = true → ys = []) := by
  rw [told]
  cases h : r.mailbox.closed with
  | true =>
    refine ⟨[], ?_, fun _ => rfl⟩
    rw [deliver_of_closed h, List.map_nil, List.append_nil, ← h]
  | false => exact ⟨xs, deliver_of_open h xs, fun hc => by cases hc⟩

theorem requested_works (h : r.Works o a s s' r') : r'.destroyRequested = r.destroyRequested := by
  cases h with
  | take m q hw hq ha => cases m <;> rw [accept] at ha <;> split at ha <;> cases ha <;> rfl
  | finish | rest | stop | leave => rfl
  | perform x todo marks hw hp => cases hp <;> rfl

theorem requested_turn (hr : r.destroyRequested = true) (h : r.Turn a s x r') :
    r'.destroyRequested = true := by
  cases h with
  | work _ step => exact (requested_works (works_of_step step)).trans hr
  | summon => rfl
  | stay | told | drop | release => exact hr

/-- Unless somebody asked for the registry to be destroyed, no request is queued, and a worker that
ends has nothing left to handle. -/
def Unasked (r : Registry) : Prop :=
  r.destroyRequested = false → .destroy ∉ r.mailbox.queue ∧
    ∀ e, r.ending? = some e → e.isFailure = false → r.mailbox = ⟨[], true⟩

theorem unasked_of_handling (hq : .destroy ∉ r.mailbox.queue) (handles : r.ending? = none) :
    r.Unasked :=
  fun _ => ⟨hq, fun e he => by cases handles.symm.trans he⟩

theorem unasked_works (hs : r.Stage) (hr : r.Unasked) (h : r.Works o a s s' r') : r'.Unasked := by
  intro hd
  obtain ⟨hq, he⟩ := hr ((requested_works h).symm.trans hd)
  cases h with
  | take m q hw hqueue ha =>
    rw [hqueue] at hq
    have hq' : .destroy ∉ q := fun h => hq (List.mem_cons_of_mem _ h)
    cases accepts_of_idle hs hw hqueue ha with
    | init | package => exact unasked_of_handling hq' rfl hd
    | destroy => exact absurd List.mem_cons_self hq
  | finish hw hqueue hc =>
    have hm : r.mailbox = ⟨[], true⟩ := by rw [← hqueue, ← hc]
    exact ⟨hq, fun _ _ _ => hm⟩
  | rest => exact unasked_of_handling hq rfl hd
  | stop e hw =>
    refine ⟨hq, fun e' he' hf => he e' ?_ hf⟩
    rw [ending?, hw]
    exact he'
  | leave => exact ⟨List.not_mem_nil, fun _ _ _ => rfl⟩
  | perform y todo marks hw hp =>
    cases hp with
    | breaks => exact ⟨List.not_mem_nil, fun _ _ _ => rfl⟩
    | _ => exact unasked_of_handling hq rfl hd

theorem unasked_turn (hs : r.Stage) (hr : r.Unasked) (h : r.Turn a s x r') : r'.Unasked := by
  cases h with
  | work _ step => exact unasked_works hs hr (works_of_step step)
  | stay => exact hr
  | release => exact hr
  | summon => exact nofun
  | drop =>
    intro hd
    obtain ⟨hq, he⟩ := hr hd
    refine ⟨hq, fun e hw hf => ?_⟩
    change r.mailbox.close = _
    rw [he e hw hf]
    rfl
  | told _ xs =>
    intro hd
    obtain ⟨hq, he⟩ := hr hd
    obtain ⟨ys, hm, hclosed⟩ := mailbox_told r xs
    refine ⟨?_, fun e hw hf => ?_⟩
    · rw [hm]
      simpa using hq
    · have hbox := he e hw hf
      rw [hm, hclosed (by rw [hbox]), hbox]
      rfl

/-- The worker is on its way through the queue `q` that ended with a request to destroy the
registry, if the mailbox still accepted that; it has taken up `ts` since. -/
inductive Draining (q ts : List Message) (r : Registry) : Prop
  | asked (ahead later : List Message) (whole : q = ahead ++ [.destroy])
      (once : .destroy ∉ ahead ∧ .destroy ∉ later ∧ .destroy ∉ ts)
      (queue : ahead ++ .destroy :: later = ts ++ r.mailbox.queue) (handles : r.ending? = none)
  | closed (unasked : .destroy ∉ q) (queue : q = ts ++ r.mailbox.queue)
      (closed : r.mailbox.closed = true) (handles : r.ending? = none)
  | ended (e : Exit) (ends : r.ending? = some e) (drained : e.isFailure = false → ts = q)

theorem draining_requested (hr : r.Unasked) (hd : r.destroyRequested = false) (d : Bool) :
    Draining (r.mailbox.send .destroy).1.queue []
      { r with destroyRequested := d, mailbox := (r.mailbox.send .destroy).1 } := by
  obtain ⟨hq, he⟩ := hr hd
  cases h : r.ending? with
  | some e =>
    refine .ended e h fun hf => ?_
    rw [he e h hf]
    rfl
  | none =>
    cases hc : r.mailbox.closed with
    | true =>
      have hm := Mailbox.send_of_closed hc Message.destroy
      refine .closed (by rw [hm]; exact hq) rfl ?_ h
      change (r.mailbox.send .destroy).1.closed = true
      rw [hm, hc]
    | false =>
      have hm := Mailbox.send_of_open hc Message.destroy
      refine .asked r.mailbox.queue [] (by rw [hm]) ⟨hq, List.not_mem_nil, List.not_mem_nil⟩ ?_ h
      change _ = [] ++ (r.mailbox.send .destroy).1.queue
      rw [hm]
      rfl

/-- A worker that has ended without a panic has gone through the whole queue. -/
theorem Draining.whole {q ts : List Message} (h : Draining q ts r) (he : r.ending? = some e)
    (hf : e.isFailure = false) : ts = q := by
  cases h with
  | asked _ _ _ _ _ handles | closed _ _ _ handles => cases he.symm.trans handles
  | ended e' ends drained =>
    cases he.symm.trans ends
    exact drained hf

theorem draining_take {q ts : List Message} {m : Message} {rest : List Message}
    (h : Draining q ts r) (hw : r.worker = .idle) (hqueue : r.mailbox.queue = m :: rest)
    (ha : Accepts s r rest m s' r') : Draining q (ts ++ [m]) r' := by
  cases h with
  | asked ahead later whole once queue handles =>
    obtain ⟨hahead, hlater, hts⟩ := once
    rw [hqueue] at queue
    cases ha with
    | destroy =>
      obtain ⟨rfl, -, -⟩ := (List.append_cons_inj_of_notMem hahead hlater).1 queue
      exact .ended .stopped rfl fun _ => whole.symm
    | init | package =>
      refine .asked ahead later whole ⟨hahead, hlater, ?_⟩ ?_ rfl
      · simpa using hts
      · rw [queue, List.append_assoc]
        rfl
  | closed unasked queue closed handles =>
    rw [hqueue] at queue
    have queue' : q = ts ++ [m] ++ rest := by rw [queue, List.append_assoc]; rfl
    cases ha with
    | destroy => exact absurd (by rw [queue]; simp) unasked
    | init | package => exact .closed unasked queue' closed rfl
  | ended e ends =>
    rw [ending?, hw] at ends
    cases ends

/-- What neither takes a message nor ends the worker. The mailbox may get changes, or be closed. -/
theorem Draining.kept {q ts : List Message} (h : Draining q ts r) (he : r'.ending? = r.ending?)
    (hm : ∃ ys : List PackageChange, r'.mailbox.queue = r.mailbox.queue ++ ys.map .package ∧
      (r.mailbox.closed = true → ys = [] ∧ r'.mailbox.closed = true)) : Draining q ts r' := by
  obtain ⟨ys, hq, hc⟩ := hm
  cases h with
  | asked ahead later whole once queue handles =>
    obtain ⟨hahead, hlater, hts⟩ := once
    refine .asked ahead (later ++ ys.map .package) whole ⟨hahead, ?_, hts⟩ ?_ (he.trans handles)
    · simpa using hlater
    · rw [hq, ← List.append_assoc, ← queue, List.append_assoc]
      rfl
  | closed unasked queue closed handles =>
    obtain ⟨rfl, hc'⟩ := hc closed
    exact .closed unasked (by rw [hq, queue]; simp) hc' (he.trans handles)
  | ended e ends drained => exact .ended e (he.trans ends) drained

theorem draining_works {q ts : List Message} (hs : r.Stage) (h : Draining q ts r)
    (hw : r.Works o a s s' r') :
    Draining q (ts ++ ((r.deed? o s).bind Deed.taken?).toList) r' := by
  cases hre : r.ending? with
  | some e =>
    rw [deed?_ending hre, Option.bind_none, Option.toList_none, List.append_nil]
    cases h with
    | asked _ _ _ _ _ handles | closed _ _ _ handles => cases hre.symm.trans handles
    | ended e₀ ends drained => exact .ended e₀ (ending_works ends hw).1 drained
  | none =>
    have hsame (hb : r.worker ≠ .idle) (he : r'.ending? = none) (hm : r'.mailbox = r.mailbox) :
        Draining q (ts ++ ((r.deed? o s).bind Deed.taken?).toList) r' := by
      rw [taken_deed hb, Option.toList_none, List.append_nil]
      exact h.kept (he.trans hre.symm) ⟨[], by rw [hm]; simp, fun hc => ⟨rfl, by rw [hm, hc]⟩⟩
    cases hw with
    | take m rest hw hqueue ha =>
      rw [deed?_take hw hqueue]
      exact draining_take h hw hqueue (accepts_of_idle hs hw hqueue ha)
    | finish hw hqueue hc =>
      have hd : r.deed? o s = none := by rw [deed?, hw, hqueue]; rfl
      rw [hd, Option.bind_none, Option.toList_none, List.append_nil]
      cases h with
      | asked ahead later whole once queue handles =>
        rw [hqueue, List.append_nil] at queue
        exact absurd (by rw [← queue]; simp) once.2.2
      | closed unasked queue closed handles =>
        rw [hqueue, List.append_nil] at queue
        exact .ended .mailboxClosed rfl fun _ => queue.symm
      | ended e ends => cases hre.symm.trans ends
    | rest marks hw => exact hsame (by simp [hw]) rfl rfl
    | stop e hw | leave e hw =>
      rw [ending?, hw] at hre
      cases hre
    | perform x todo marks hw hp =>
      have hb : r.worker ≠ .idle := by simp [hw]
      cases hp with
      | breaks c y p =>
        rw [taken_deed hb]
        exact .ended (.panicked p.text) rfl fun hf => by cases hf
      | _ => exact hsame hb rfl rfl

theorem draining_turn {q ts : List Message} (hs : r.Stage) (hd : r.destroyRequested = true)
    (h : Draining q ts r) (ht : r.Turn a s x r') :
    (∃ o, x = .work o a ∧ Draining q (ts ++ ((r.deed? o s).bind Deed.taken?).toList) r') ∨
      (∀ o, x ≠ .work o a) ∧ Draining q ts r' := by
  cases ht with
  | work hact step => exact Or.inl ⟨_, hact, draining_works hs h (works_of_step step)⟩
  | stay other => exact Or.inr ⟨other, h⟩
  | release other =>
    exact Or.inr ⟨other, h.kept rfl ⟨[], (List.append_nil _).symm, fun hc => ⟨rfl, hc⟩⟩⟩
  | drop other =>
    exact Or.inr ⟨other, h.kept rfl ⟨[], (List.append_nil _).symm, fun _ => ⟨rfl, rfl⟩⟩⟩
  | summon _ first => cases hd.symm.trans first
  | told other xs =>
    obtain ⟨ys, hm, hclosed⟩ := mailbox_told r xs
    refine Or.inr ⟨other, h.kept rfl ⟨ys, by rw [hm], fun hc => ⟨hclosed hc, ?_⟩⟩⟩
    rw [hm]
    exact hc

def Concluded (r : Registry) : Prop :=
  ∀ e, r.ending? = some e → e.isFailure = false →
    ∀ c, r.catalogue.published.plugins? c = some (r.catalogue.working.get c)

theorem concluded_works (hs : r.Stage) (hn : r.ending? = none) (h : r.Works o a s s' r') :
    r'.Concluded := by
  intro e he hf
  cases h with
  | take m q hw hq ha =>
    cases accepts_of_idle hs hw hq ha with
    | init | package => cases he
    | destroy hl =>
      rcases idle_of_stage hs hw with ⟨hl', -⟩ | ⟨-, -, hc⟩
      · cases hl.symm.trans hl'
      · exact hc
  | finish hw hq =>
    rcases idle_of_stage hs hw with ⟨-, q, hq'⟩ | ⟨-, -, hc⟩
    · cases hq.symm.trans hq'
    · exact hc
  | rest => cases he
  | stop e' hw | leave e' hw =>
    rw [ending?, hw] at hn
    cases hn
  | perform y todo marks hw hp =>
    cases hp with
    | breaks =>
      cases he
      cases hf
    | _ => cases he

theorem concluded_turn (hs : r.Stage) (hr : r.Concluded) (h : r.Turn a s x r') :
    r'.Concluded := by
  cases hre : r.ending? with
  | some e₀ =>
    intro e he hf
    obtain ⟨he', hc, -⟩ := ending_turn hre h
    cases he'.symm.trans he
    rw [hc]
    exact hr e₀ hre hf
  | none =>
    rcases h.works_or_kept with ⟨o, s', -, step⟩ | ⟨-, hk⟩
    · exact concluded_works hs hre (works_of_step step)
    · intro e he
      rw [ending?, hk.worker] at he
      cases hre.symm.trans he

end Registry

section
variable {t t' : List Moment} {u : World} {a : Nat} {r : Registry} {o : Outage} {e : Moment}

theorem taken_append (t t' : List Moment) (a : Nat) :
    taken (t ++ t') a = taken t a ++ taken t' a := by
  rw [taken, deeds_append, List.filterMap_append]
  rfl

theorem taken_work (hu : u.registry? a = some r) :
    taken [⟨u, .work o a⟩] a = ((r.deed? o u.shared).bind Deed.taken?).toList := by
  rw [taken, deeds_singleton, Moment.deed?_work hu]
  cases r.deed? o u.shared with
  | none => rfl
  | some d => cases h : d.taken? <;> simp [h]

theorem taken_other (h : ∀ o, e.act ≠ .work o a) : taken [e] a = [] := by
  rw [taken, deeds_of_others (List.forall_mem_singleton.2 h)]
  rfl

end

namespace World

variable {site : Site} {t t' : List Moment} {u u' w v : World} {a : Nat} {r r' : Registry}

theorem unasked_of_run (run : Run (ofSite site) t w) (hr : w.registry? a = some r) :
    r.Unasked := by
  have hstart : ∀ channel, (Registry.start channel).Unasked := fun _ =>
    Registry.unasked_of_handling (by simp [Registry.start, Mailbox.empty, Mailbox.send]) rfl
  exact run.traced (P := fun _ r => r.Unasked) hr (fun channel _ => hstart channel)
    fun run hu ih ht => Registry.unasked_turn (stage_of_run run hu) ih ht

theorem concluded_of_run (run : Run (ofSite site) t w) (hr : w.registry? a = some r) :
    r.Concluded :=
  run.traced (P := fun _ r => r.Concluded) hr (fun _ _ => nofun)
    fun run hu ih ht => Registry.concluded_turn (stage_of_run run hu) ih ht

/-- Once a registry is to be destroyed, its worker goes through what is queued, and no further. -/
theorem draining_of_run {q : List Message} (run : Run (ofSite site) t u)
    (hu : u.registry? a = some r) (hd : r.destroyRequested = true)
    (h : r.Draining q []) (run' : Run u t' w) :
    ∃ r', w.registry? a = some r' ∧ r'.Draining q (taken t' a) := by
  let Q (t : List Moment) (r : Registry) : Prop :=
    r.destroyRequested = true ∧ r.Draining q (taken t a)
  obtain ⟨r', hr', -, hq⟩ := run'.since (Q := Q) hu ⟨hd, h⟩
    fun {t₂ u₂ x r₁ r₂} run₂ hu₂ ⟨hd, hq⟩ ht => by
      refine ⟨Registry.requested_turn hd ht, ?_⟩
      have hs := stage_of_run (run.trans run₂) hu₂
      rw [taken_append]
      rcases Registry.draining_turn hs hd hq ht with ⟨o, rfl, h⟩ | ⟨other, h⟩
      · rw [taken_work hu₂]
        exact h
      · rw [taken_other other, List.append_nil]
        exact h
  exact ⟨r', hr', hq⟩

theorem registry?_of_request (hx : u.act (.requestDestroy a) = some u')
    (hr : u.registry? a = some r) :
    r.destroyRequested = false ∧ u'.registry? a =
      some { r with destroyRequested := true, mailbox := (r.mailbox.send .destroy).1 } := by
  cases happens_of_act hx with
  | requestDestroy _ r₁ hr₁ first =>
    cases hr₁.symm.trans hr
    refine ⟨first, ?_⟩
    rw [registry?_modify, hr]
    simp

theorem registry?_of_finish (hx : w.act (.finishDestroy a) = some v)
    (hr : w.registry? a = some r) (hs : r.Stage) :
    v.registry? a = some r ∧ ∃ e, r.worker = .exited e := by
  cases happens_of_act hx with
  | finishDestroy _ r₁ hr₁ _ exited =>
    cases hr₁.symm.trans hr
    have hg : r.gate.opened = r.gate := by
      rw [Registry.gate_of_exited hs exited]
      rfl
    refine ⟨?_, ?_⟩
    · rw [finishDestroy, registry?_modify, hr]
      simp [hg]
    · rw [Registry.exit?] at exited
      split at exited
      · next e he => exact ⟨e, he⟩
      · cases exited

/-- The changes by which both categories of a registry were judged are those that its worker took
up, unless a panic ended that. -/
theorem judged_of_ended {e : Exit} (run : Run (ofSite site) t w) (hr : w.registry? a = some r)
    (he : r.ending? = some e) (calm : r.hasFailed = false) (hl : r.lifecycle ≠ .unstarted)
    (c : Category) :
    (judged t a c).map Prod.snd = (taken t a).filterMap Message.change? := by
  obtain ⟨fs, rest, last, h⟩ := account_of_run run hr
  have course := h.course
  rw [h.complete hl (Registry.todo_of_ending he) calm, List.append_nil] at course
  have hlast : last.filterMap (Deed.followed? c) = [] ∧
      (last.filterMap Deed.taken?).filterMap Message.change? = [] := by
    rcases h.destroyed with rfl | rfl
    · exact ⟨rfl, rfl⟩
    · exact ⟨rfl, rfl⟩
  have hchange : (fs.map fun f => Message.package f.1).filterMap Message.change? =
      fs.map Prod.fst := by
    rw [List.filterMap_map]
    exact congrFun List.filterMap_eq_map fs
  rw [map_judged, taken, course, List.filterMap_append, List.filterMap_append,
    List.filterMap_append, hlast.1, hlast.2, Deed.followed_courses, Deed.taken_courses,
    List.filterMap_cons, hchange]
  rfl

/-- What a registry is once it is destroyed. Its owner asked for that when `q` was queued, the
request included; `t` is the whole record up to then and `t'` that since the request. -/
structure Destroyed (t t' : List Moment) (address : Nat) (q : List Message) (w : World)
    (r : Registry) : Prop where
  handled : taken t' address = q
  followed : ∀ c, (judged t address c).map Prod.snd = (taken t address).filterMap Message.change?
  reflected : ∀ c, ∃ m, (∃ e ∈ t, e.Opens address c m) ∧ r.catalogue.published.plugins? c =
    some ((judged t address c).foldl (PluginMap.followedAt c) m)
  opened : r.isLoaded = true
  unsubscribed : r.subscription = none ∧
    w.shared.stream.sinks.filter (fun e => e.2 = address) = []
  frozen : ∀ t'' w', Run w t'' w' → ∃ r', w'.registry? address = some r' ∧
    (∀ c, r'.seen c = r.seen c ∧ r'.peek c = r.peek c ∧ r'.get? c = r.get? c ∧
      (r'.peek c).isSome = true) ∧
    r'.reloads = r.reloads ∧ deeds t'' address = [] ∧
    (t''.filterMap Moment.signal?).filter (fun e => e.1 = address) = []

theorem frozen_of_ended {e : Exit} {t₀ : List Moment} (run : Run (ofSite site) t₀ w)
    (hr : w.registry? a = some r) (he : r.ending? = some e) (run' : Run w t' v) :
    ∃ r', v.registry? a = some r' ∧
      (∀ c, r'.seen c = r.seen c ∧ r'.peek c = r.peek c ∧ r'.get? c = r.get? c ∧
        (r'.peek c).isSome = true) ∧
      r'.reloads = r.reloads ∧ deeds t' a = [] ∧
      (t'.filterMap Moment.signal?).filter (fun e => e.1 = a) = [] := by
  obtain ⟨r', hr', he', hcat, hrel, hdeeds⟩ := ending_of_run run' hr he
  have hg := Registry.gate_of_ending (stage_of_run run hr) he
  have hg' := Registry.gate_of_ending (stage_of_run (run.trans run') hr') he'
  refine ⟨r', hr', Registry.reads_of_published hg hg' (by rw [hcat]), hrel, hdeeds, ?_⟩
  rw [signalled_deeds, hdeeds]
  rfl

/-- Whoever has a registry destroyed finds it done with all that was queued before, in that order
and with nothing that came later, unless a panic ended it. Both snapshots are what was published
when the gate was opened, brought in line with every change that the worker ever took up. The
registry is no longer in the event stream and its gate is open. From then on its readers get what
they got, and nothing is signalled or reported, whatever happens. -/
theorem destroy_drains (run : Run (ofSite site) t u) (hu : u.registry? a = some r)
    (hx : u.act (.requestDestroy a) = some u') (run' : Run u' t' w)
    (hw : w.registry? a = some r') (calm : r'.hasFailed = false)
    (hv : w.act (.finishDestroy a) = some v) :
    v.registry? a = some r' ∧ Destroyed (t ++ ⟨u, .requestDestroy a⟩ :: t') t' a
      (r.mailbox.send .destroy).1.queue v r' := by
  have runw : Run (ofSite site) (t ++ ⟨u, .requestDestroy a⟩ :: t') w := by
    rw [List.append_cons]
    exact (run.act hx).trans run'
  have hs := stage_of_run runw hw
  obtain ⟨hr', e, hexit⟩ := registry?_of_finish hv hw hs
  have he : r'.ending? = some e := by rw [Registry.ending?, hexit]
  have hf : e.isFailure = false := by
    rw [Registry.hasFailed, he] at calm
    exact calm
  have hg := Registry.gate_of_ending hs he
  have hleft : r'.hasLeft = true := by rw [Registry.hasLeft, hexit]
  have hsub := (enrolled_of_run runw hw).alone_of_left hleft
  have hl : r'.lifecycle ≠ .unstarted := by
    intro hl
    cases hexit.symm.trans (Registry.fresh_of_unstarted hs hl).1
  refine ⟨hr', ?handled, judged_of_ended runw hw he calm hl, fun c => ?reflected, ?opened,
    ⟨hsub, ?unsubscribed⟩, fun t'' w' run'' => frozen_of_ended (runw.act hv) hr' he run''⟩
  case handled =>
    obtain ⟨hd, hu'⟩ := registry?_of_request hx hu
    have hq := Registry.draining_requested (unasked_of_run run hu) hd true
    obtain ⟨r₂, hr₂, hq⟩ := draining_of_run (run.act hx) hu' rfl hq run'
    cases hr₂.symm.trans hw
    exact hq.whole he hf
  case reflected =>
    cases tracked_of_run runw hw c with
    | shut gate => cases gate.symm.trans hg
    | opened m _ base map =>
      refine ⟨m, base, ?_⟩
      rw [concluded_of_run runw hw e he hf c, map]
  case opened =>
    rw [Registry.isLoaded, hg]
    rfl
  case unsubscribed =>
    refine (subscribed_of_run (runw.act hv)).filter_eq_nil ?_
    rw [subscription?, hr']
    exact hsub

def queuedActs : List Act :=
  .start (Settings.default.channel "1") :: List.replicate 11 (.work .none 0) ++
    [.furnish ⟨.metered 2, ∅⟩, .emit (.changed "meter")]

def drainingActs : List Act := .emit (.changed "meter") :: List.replicate 11 (.work .none 0)

theorem destroy_drains_queued :
    ∃ t u r u' t' w v r', Run (ofSite ⟨.metered 1, ∅⟩) t u ∧ u.registry? 0 = some r ∧
      r.mailbox.queue = [.package ⟨.changed, "meter"⟩] ∧
      u.act (.requestDestroy 0) = some u' ∧ Run u' t' w ∧ w.act (.finishDestroy 0) = some v ∧
      v.registry? 0 = some r' ∧ taken t' 0 = [.package ⟨.changed, "meter"⟩, .destroy] ∧
      Destroyed (t ++ ⟨u, .requestDestroy 0⟩ :: t') t' 0
        (r.mailbox.send .destroy).1.queue v r' := by
  have h : ((ofSite ⟨.metered 1, ∅⟩).acts queuedActs).any (fun u =>
      ((u.registry? 0).any fun r => r.mailbox = ⟨[.package ⟨.changed, "meter"⟩], false⟩) &&
        (u.act (.requestDestroy 0)).any fun u' => (u'.acts drainingActs).any fun w =>
          ((w.registry? 0).any fun r => !r.hasFailed) &&
            (w.act (.finishDestroy 0)).isSome) = true := by
    decide +kernel
  obtain ⟨u, hu, h⟩ := (Option.any_eq_true ..).1 h
  obtain ⟨hr, h⟩ := Bool.and_eq_true_iff.1 h
  obtain ⟨r, hr, hq⟩ := (Option.any_eq_true ..).1 hr
  obtain ⟨u', hx, h⟩ := (Option.any_eq_true ..).1 h
  obtain ⟨w, hw, h⟩ := (Option.any_eq_true ..).1 h
  obtain ⟨hr', hv⟩ := Bool.and_eq_true_iff.1 h
  obtain ⟨r', hr', calm⟩ := (Option.any_eq_true ..).1 hr'
  obtain ⟨v, hv⟩ := Option.isSome_iff_exists.1 hv
  obtain ⟨t, run⟩ := Run.of_acts hu
  obtain ⟨t', run'⟩ := Run.of_acts hw
  have hq : r.mailbox = ⟨[.package ⟨.changed, "meter"⟩], false⟩ := of_decide_eq_true hq
  obtain ⟨hr'', hd⟩ := destroy_drains run hr hx run' hr' (by simpa using calm) hv
  refine ⟨t, u, r, u', t', w, v, r', run, hr, by rw [hq], hx, run', hv, hr'', ?_, hd⟩
  rw [hd.handled, hq]
  rfl

end World

end PluginRegistry.Live
