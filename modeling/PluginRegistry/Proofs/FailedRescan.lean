import PluginRegistry.Proofs.LoadOutcome
import PluginRegistry.Proofs.Notifications

/-!
# When a rescan panics

A worker that panics while it follows a change has published nothing of the change yet, although a
working map may have been brought in line with it. It handles no more messages: it drops what is
queued, and after two more steps, in which it gives up its subscription, it has exited. Whoever
reads gets what he got before the change.
-/

namespace PluginRegistry.Live

open Actor

section
variable {t t' : List Moment} {u : World} {a : Nat} {s s' : Shared} {r₀ r r' : Registry}
  {o : Outage} {x y : PackageChange} {c : Category} {todo : List Task} {marks : Changes} {e : Exit}
  {act : Act} {z : Task} {d : Moment}

/-- The worker of a registry took up a change when the registry was `r₀`, and in the course of `t'`
has at most judged one category by it. -/
structure TakenUp (t t' : List Moment) (address : Nat) (x : PackageChange) (r₀ r : Registry) :
    Prop where
  split : ∃ t₁ e, t = t₁ ++ e :: t' ∧ e.world.registry? address = some r₀ ∧
    e.deed? address = some (.takes (.package x))
  opened : r₀.gate = ⟨true, true⟩
  published : r.catalogue.published = r₀.catalogue.published
  reloads : r.reloads = r₀.reloads
  judged : ∀ d ∈ deeds t' address, ∃ c changed, d = .follows c x changed

theorem TakenUp.snoc (h : TakenUp t t' a x r₀ r)
    (hp : r'.catalogue.published = r.catalogue.published) (hr : r'.reloads = r.reloads)
    (hd : ∀ k ∈ d.deed? a, ∃ c changed, k = .follows c x changed) :
    TakenUp (t ++ [d]) (t' ++ [d]) a x r₀ r' where
  split := by
    obtain ⟨t₁, e, rfl, hr⟩ := h.split
    exact ⟨t₁, e, by simp, hr⟩
  opened := h.opened
  published := hp.trans h.published
  reloads := hr.trans h.reloads
  judged k hk := by
    rw [deeds_append, deeds_singleton, List.mem_append, Option.mem_toList] at hk
    exact hk.elim (h.judged k) (hd k)

/-- A worker that judges a category next after a task has just judged the other one. -/
theorem Task.eq_of_follow (hs : r.Stage)
    (hw : r.worker = .busy (z :: .follow c x :: todo) marks) : z = .follow .condition x := by
  rcases Registry.busy_of_stage hs hw with ⟨left, -⟩ | ⟨duty, -⟩
  · exact absurd rfl ((Task.boots_kind (Task.boots_tail left)).1 c x)
  · generalize htodo : z :: .follow c x :: todo = l at duty
    cases duty with
    | follow y =>
      cases htodo
      rfl
    | second | conclude => cases htodo
    | announce cs rest _ hsil =>
      have hm : .follow c x ∈ cs.map Task.publish ++ rest := by
        rw [← htodo]
        simp
      rcases List.mem_append.1 hm with hm | hm
      · simp at hm
      · cases hsil _ hm

theorem takenUp_take {m : Message} {q : List Message} (hs : r.Stage)
    (hu : u.registry? a = some r) (hw : r.worker = .idle) (hq : r.mailbox.queue = m :: q)
    (ha : r.Accepts s q m s' r') (ht : r'.todo = .follow c x :: todo) :
    TakenUp (t ++ [⟨u, .work o a⟩]) [] a x r r' := by
  cases ha with
  | init | destroy => cases ht
  | package y hl =>
    cases ht
    have hg : r.gate = ⟨true, true⟩ := by
      rcases Registry.idle_of_stage hs hw with ⟨hl', -⟩ | ⟨-, hg, -⟩
      · cases hl.symm.trans hl'
      · exact hg
    refine ⟨⟨t, _, rfl, hu, ?_⟩, hg, rfl, rfl, nofun⟩
    rw [Moment.deed?_work hu, Registry.deed?_take hw hq]

theorem takenUp_carries (hs : r.Stage) (hu : u.registry? a = some r)
    (hw : r.worker = .busy (z :: todo) marks)
    (ih : ∀ c x todo, r.todo = .follow c x :: todo → ∃ t' r₀, TakenUp t t' a x r₀ r)
    (hp : r.Carries o a u.shared todo marks z s' r') {rest : List Task}
    (ht : r'.todo = .follow c x :: rest) :
    ∃ t' r₀, TakenUp (t ++ [⟨u, .work o a⟩]) t' a x r₀ r' := by
  cases hp with
  | fails | breaks => cases ht
  | conclude =>
    cases Registry.conclude_of_stage hs hw
    have hnot : ∀ marks, ∀ l, Task.announce marks ++ [] ≠ .follow c x :: l := by
      rintro ⟨_ | _, _ | _⟩ l <;> exact fun h => by cases h
    exact absurd ht (hnot marks rest)
  | follow d y answers =>
    have ht : todo = .follow c x :: rest := ht
    subst ht
    cases Task.eq_of_follow hs hw
    obtain ⟨t', r₀, h⟩ := ih _ x _ (Registry.todo_of_busy hw)
    refine ⟨_, r₀, h.snoc rfl rfl fun k hk => ?_⟩
    rw [Moment.deed?_work hu, Registry.deed?_follow hw answers] at hk
    cases hk
    exact ⟨_, _, rfl⟩
  | _ =>
    have ht : todo = .follow c x :: rest := ht
    subst ht
    cases Task.eq_of_follow hs hw

inductive Closing (e : Exit) (n : Nat) (r : Registry) : Prop
  | stopping (worker : r.worker = .stopping e) (steps : n = 0)
  | leaving (worker : r.worker = .leaving e) (steps : n = 1) (alone : r.subscription = none)
  | exited (worker : r.worker = .exited e) (steps : n = 2) (alone : r.subscription = none)

theorem Closing.congr {n : Nat} (h : Closing e n r) (hk : r.Kept r') : Closing e n r' := by
  cases h with
  | stopping hw hn => exact .stopping (hk.worker.trans hw) hn
  | leaving hw hn hs => exact .leaving (hk.worker.trans hw) hn (hk.subscription.trans hs)
  | exited hw hn hs => exact .exited (hk.worker.trans hw) hn (hk.subscription.trans hs)

theorem closing_step {n : Nat} (h : Closing e n r) (hs : r.step o a s = some (s', r')) :
    Closing e (n + 1) r' := by
  rw [Registry.step] at hs
  cases h with
  | stopping hw hn =>
    rw [hw] at hs
    cases hs
    exact .leaving rfl (by rw [hn]) rfl
  | leaving hw hn hsub =>
    rw [hw] at hs
    cases hs
    exact .exited rfl (by rw [hn]) hsub
  | exited hw =>
    rw [hw] at hs
    cases hs

theorem Closing.alone {n : Nat} (h : Closing e n r) (hn : 0 < n) : r.subscription = none := by
  cases h with
  | stopping _ hz => omega
  | leaving _ _ alone | exited _ _ alone => exact alone

theorem Closing.proceeds {n : Nat} (h : Closing e n r) (hn : n < 2) :
    r.exit? = none ∧ ∀ o, (r.step o a s).isSome = true := by
  cases h with
  | stopping hw | leaving hw =>
    refine ⟨by rw [Registry.exit?, hw], fun o => ?_⟩
    rw [Registry.step, hw]
    rfl
  | exited _ hz => omega

theorem Closing.joined {n : Nat} (h : Closing e n r) (hn : 2 ≤ n) : r.exit? = some e := by
  cases h with
  | stopping _ hz | leaving _ hz => omega
  | exited hw => rw [Registry.exit?, hw]

/-- Nothing gets into a mailbox that was discarded, and nobody takes a message from it. -/
theorem discarded_turn (h : r.mailbox = ⟨[], true⟩) (hw : r.worker ≠ .idle)
    (ht : r.Turn a s act r') : r'.mailbox = ⟨[], true⟩ := by
  cases ht with
  | stay => exact h
  | told _ xs =>
    rw [Registry.told, h]
    exact deliver_of_closed rfl xs
  | drop => rw [h]; rfl
  | summon => rw [h]; rfl
  | release => exact h
  | work _ step =>
    cases Registry.works_of_step step with
    | take _ _ hi | finish hi => exact absurd hi hw
    | rest | stop => exact h
    | leave => rfl
    | perform x todo marks _ hp =>
      cases hp with
      | breaks => rfl
      | _ => exact h

end

namespace World

variable {site : Site} {t t' : List Moment} {w v u : World} {a : Nat} {r r' : Registry}
  {x : PackageChange} {c : Category} {todo : List Task} {o : Outage} {p : Panic} {e : Exit}

/-- A worker that is about to judge a category has published and told nothing since it took up its
message. -/
theorem takenUp_of_run (run : Run (ofSite site) t w) (hr : w.registry? a = some r)
    (ht : r.todo = .follow c x :: todo) : ∃ t' r₀, TakenUp t t' a x r₀ r := by
  let P (t : List Moment) (r : Registry) : Prop :=
    ∀ c x todo, r.todo = .follow c x :: todo → ∃ t' r₀, TakenUp t t' a x r₀ r
  refine run.traced (P := P) hr (fun channel _ c x todo ht => by cases ht)
    (fun {t u act r r'} run hu ih hturn c x todo ht => ?_) c x todo ht
  have hs := stage_of_run run hu
  rcases hturn.works_or_kept with ⟨o, s', rfl, step⟩ | ⟨other, hk⟩
  · cases Registry.works_of_step step with
    | take m q hw hq ha =>
      exact ⟨[], r, takenUp_take hs hu hw hq (Registry.accepts_of_idle hs hw hq ha) ht⟩
    | finish | rest | stop | leave => cases ht
    | perform z todo' marks hw hp => exact takenUp_carries hs hu hw ih hp ht
  · rw [Registry.todo, hk.worker] at ht
    obtain ⟨t', r₀, h⟩ := ih c x todo ht
    refine ⟨_, r₀, h.snoc (by rw [hk.catalogue]) hk.reloads fun k hk' => ?_⟩
    rw [Moment.deed?_other other] at hk'
    cases hk'

theorem closing_of_run (run : Run v t' w) (hr : v.registry? a = some r)
    (h : r.worker = .stopping e) (hm : r.mailbox = ⟨[], true⟩) :
    ∃ r', w.registry? a = some r' ∧ Closing e (steps t' a) r' ∧ r'.mailbox = ⟨[], true⟩ := by
  let Q (t : List Moment) (r : Registry) : Prop :=
    Closing e (steps t a) r ∧ r.mailbox = ⟨[], true⟩
  refine run.since (Q := Q) hr ⟨.stopping h rfl, hm⟩
    fun {t u x r₁ r₂} _ hu ⟨hc, hm⟩ ht => ⟨?_, discarded_turn hm ?_ ht⟩
  · rw [steps_append]
    rcases ht.works_or_kept with ⟨o, s', rfl, step⟩ | ⟨other, hk⟩
    · rw [steps_work]
      exact closing_step hc step
    · rw [steps_of_others (List.forall_mem_singleton.2 other)]
      exact hc.congr hk
  · cases hc with
    | stopping hw | leaving hw | exited hw =>
      rw [hw]
      nofun

/-- What has become of a registry whose worker panicked while it handled a message. The registry was
`r₀` before the message, `t` is the record since then up to the panic, and `t'` the one after it. -/
structure Abandoned (t t' : List Moment) (address : Nat) (p : Panic) (r₀ : Registry) (w : World)
    (r : Registry) : Prop where
  snapshots : r.catalogue.published = r₀.catalogue.published
  reports : r.reloads = r₀.reloads
  silent : ((t ++ t').filterMap Moment.signal?).filter (fun e => e.1 = address) = []
  unhandled : taken (t ++ t') address = []
  discarded : r.mailbox.queue = []
  rejects : ∀ m, r.mailbox.send m = (r.mailbox, .rejected m)
  reads : ∀ c, r.seen c = r₀.seen c ∧ r.peek c = r₀.peek c ∧ r.get? c = r₀.get? c ∧
    (r.peek c).isSome = true
  revoked : 0 < steps t' address → r.subscription = none ∧
    w.shared.stream.sinks.filter (fun e => e.2 = address) = []
  proceeds : steps t' address < 2 → r.exit? = none ∧ ∀ o, (w.step o address).isSome = true
  joined : 2 ≤ steps t' address → r.exit? = some (.panicked p.text)

theorem registry?_of_breaks {marks : Changes} (hr : w.registry? a = some r)
    (hw : r.worker = .busy (.follow c x :: todo) marks)
    (hp : o.first (Scan.queries w.shared.directory c (some x.package)) = some p)
    (hv : w.act (.work o a) = some v) : v.registry? a = some (r.fail p.text) := by
  obtain ⟨r₁, s', r', hr₁, hs, rfl⟩ := step_eq_some hv
  cases hr₁.symm.trans hr
  have hr' : r' = r.fail p.text := by
    cases Registry.works_of_step hs with
    | take _ _ hw' | finish hw' | rest _ hw' | stop _ hw' | leave _ hw' => cases hw.symm.trans hw'
    | perform _ _ _ hw' hc =>
      cases hw.symm.trans hw'
      cases hc with
      | breaks _ _ p' hp' =>
        cases hp.symm.trans hp'
        rfl
      | follow _ _ answers => cases hp.symm.trans answers
  rw [← hr']
  exact List.getElem?_set_self (List.getElem?_eq_some_iff.1 hr).1

theorem abandoned_of_run {t₂ : List Moment} {r₀ : Registry} {d : Moment}
    (run : Run (ofSite site) t v) (hr : v.registry? a = some r)
    (hw : r.worker = .stopping (.panicked p.text)) (hm : r.mailbox = ⟨[], true⟩)
    (h : TakenUp t (t₂ ++ [d]) a x r₀ r) (run' : Run v t' w) :
    ∃ r', w.registry? a = some r' ∧ Abandoned (t₂ ++ [d]) t' a p r₀ w r' := by
  have he : r.ending? = some (.panicked p.text) := by rw [Registry.ending?, hw]
  obtain ⟨r', hr', he', hcat, hrel, hdeeds⟩ := ending_of_run run' hr he
  obtain ⟨r'', hr'', hc, hbox⟩ := closing_of_run run' hr hw hm
  cases hr'.symm.trans hr''
  have hgate := Registry.gate_of_ending (stage_of_run (run.trans run') hr') he'
  have hpub : r'.catalogue.published = r₀.catalogue.published := by rw [hcat, h.published]
  have hjudged : ∀ k ∈ deeds (t₂ ++ [d] ++ t') a, ∃ c changed, k = .follows c x changed := by
    rw [deeds_append, hdeeds, List.append_nil]
    exact h.judged
  refine ⟨r', hr', hpub, hrel.trans h.reloads, ?silent, ?unhandled, by rw [hbox], fun m => ?rejects,
    Registry.reads_of_published h.opened hgate hpub, fun hn => ?revoked, fun hn => ?proceeds,
    hc.joined⟩
  case silent =>
    rw [signalled_deeds, List.map_eq_nil_iff, List.filterMap_eq_nil_iff]
    intro k hk
    obtain ⟨c, b, rfl⟩ := hjudged k hk
    rfl
  case unhandled =>
    refine List.filterMap_eq_nil_iff.2 fun k hk => ?_
    obtain ⟨c, b, rfl⟩ := hjudged k hk
    rfl
  case rejects =>
    rw [Mailbox.send_of_closed (by rw [hbox])]
  case revoked =>
    refine ⟨hc.alone hn, (subscribed_of_run (run.trans run')).filter_eq_nil ?_⟩
    rw [subscription?, hr']
    exact hc.alone hn
  case proceeds =>
    obtain ⟨hexit, hstep⟩ := hc.proceeds hn
    exact ⟨hexit, fun o => step_isSome hr' (hstep o)⟩

/-- A directory that panics while a changed package is scanned for either category leaves readers
what they had. From then on both snapshots are those from before the change, nothing is signalled or
reported for it, and what is queued or sent later is not handled. The worker gives up its
subscription with its next step, has exited with the one after that, and whoever joins it learns of
that panic. -/
theorem panic_keeps_snapshots (run : Run (ofSite site) t w) (hr : w.registry? a = some r)
    (ht : r.todo = .follow c x :: todo)
    (hp : o.first (Scan.queries w.shared.directory c (some x.package)) = some p)
    (hv : w.act (.work o a) = some v) :
    ∃ t₁ e t₂ r₀, t = t₁ ++ e :: t₂ ∧ e.world.registry? a = some r₀ ∧
      e.deed? a = some (.takes (.package x)) ∧
      ∀ t' v', Run v t' v' → ∃ r', v'.registry? a = some r' ∧
        Abandoned (t₂ ++ [⟨w, .work o a⟩]) t' a p r₀ v' r' := by
  obtain ⟨t₂, r₀, h⟩ := takenUp_of_run run hr ht
  obtain ⟨t₁, e, rfl, hr₀, htakes⟩ := h.split
  obtain ⟨marks, hw⟩ := Registry.busy_of_todo ht
  have hdeed : Moment.deed? ⟨w, .work o a⟩ a = none := by
    rw [Moment.deed?_work hr, Registry.deed?_panic hw hp]
  have h' : TakenUp (t₁ ++ e :: t₂ ++ [⟨w, .work o a⟩]) (t₂ ++ [⟨w, .work o a⟩]) a x r₀
      (r.fail p.text) :=
    h.snoc rfl rfl fun k hk => by rw [hdeed] at hk; cases hk
  exact ⟨t₁, e, t₂, r₀, rfl, hr₀, htakes, fun t' v' run' =>
    abandoned_of_run (run.act hv) (registry?_of_breaks hr hw hp hv) rfl rfl h' run'⟩

def judgingActs : List Act :=
  .start (Settings.default.channel "1") :: List.replicate 11 (.work .none 0) ++
    [.furnish ⟨.metered 2, ∅⟩, .emit (.changed "meter"), .emit (.changed "meter")] ++
    List.replicate 2 (.work .none 0)

theorem panic_keeps_snapshots_judging :
    ∃ t w r v, ∃ r₀ r' : Registry, Run (ofSite ⟨.metered 1, ∅⟩) t w ∧ w.registry? 0 = some r ∧
      r.todo = [.follow .setting ⟨.changed, "meter"⟩, .conclude] ∧
      r.mailbox.queue = [.package ⟨.changed, "meter"⟩] ∧
      r.catalogue.published.plugins? .condition ≠ some (r.catalogue.working.get .condition) ∧
      w.act (.work (fun _ _ => some ⟨some "gone"⟩) 0) = some v ∧ v.registry? 0 = some r' ∧
      r'.catalogue.published = r₀.catalogue.published ∧ r'.mailbox.queue = [] ∧
      r'.peek .condition = r₀.peek .condition := by
  have h : ((ofSite ⟨.metered 1, ∅⟩).acts judgingActs).any (fun w =>
      ((w.registry? 0).any fun r =>
        r.todo = [.follow .setting ⟨.changed, "meter"⟩, .conclude] &&
        r.mailbox.queue = [.package ⟨.changed, "meter"⟩] &&
        r.catalogue.published.plugins? .condition ≠ some (r.catalogue.working.get .condition)) &&
      (w.act (.work (fun _ _ => some ⟨some "gone"⟩) 0)).isSome &&
      Outage.first (fun _ _ => some ⟨some "gone"⟩)
        (Scan.queries w.shared.directory .setting (some "meter")) = some ⟨some "gone"⟩) = true := by
    decide +kernel
  obtain ⟨w, hw, h⟩ := (Option.any_eq_true ..).1 h
  simp only [Bool.and_eq_true, decide_eq_true_eq] at h
  obtain ⟨⟨hr, hv⟩, hp⟩ := h
  obtain ⟨r, hr, h⟩ := (Option.any_eq_true ..).1 hr
  simp only [Bool.and_eq_true, decide_eq_true_eq] at h
  obtain ⟨⟨ht, hq⟩, hne⟩ := h
  obtain ⟨v, hv⟩ := Option.isSome_iff_exists.1 hv
  obtain ⟨t, run⟩ := Run.of_acts hw
  obtain ⟨t₁, e, t₂, r₀, rfl, -, -, hall⟩ := panic_keeps_snapshots run hr ht hp hv
  obtain ⟨r', hr', hab⟩ := hall [] v .refl
  exact ⟨_, w, r, v, r₀, r', run, hr, ht, hq, hne, hv, hr', hab.snapshots, hab.discarded,
    (hab.reads .condition).2.1⟩

end World

end PluginRegistry.Live
