import PluginRegistry.Proofs.Reading

/-!
# Signals and what readers see then

What changed is published before it is announced, by a signal and to the subscribers of the
registry. Whoever reads the registry in consequence finds what was published for the change or
something later. The initial load announces itself before it opens the gate, so that a reader may
still find nothing then, for at most two more steps of the worker.
-/

namespace PluginRegistry.Live

open Actor

namespace Task

def closing : List Task := [signal, report .all, openGate]

/-- What is reported right after a signal, or next. -/
def announced : List Task → Option Changes
  | signal :: report m :: _ => some m
  | report m :: _ => some m
  | _ => none

theorem mem_of_announced {l : List Task} {m : Changes} (h : announced l = some m) :
    report m ∈ l := by
  unfold announced at h
  split at h
  · cases h
    exact List.mem_cons_of_mem _ List.mem_cons_self
  · cases h
    exact List.mem_cons_self
  · cases h

theorem announced_of_announce (marks : Changes) :
    ∀ k ∈ (announce marks).tails, k.head? = some signal → (announced k).isSome = true := by
  rcases marks with ⟨_ | _, _ | _⟩ <;> decide

theorem boots_closing {x : Task} {todo : List Task} (h : x :: todo ∈ boots)
    (hx : x.silent = true) : x :: todo <:+ closing := by
  have hall : ∀ l ∈ boots, ∀ y ∈ l.head?, y.silent = true → l <:+ closing := by decide
  exact hall _ h x rfl hx

theorem eq_of_closing {x : Task} {todo : List Task} (h : x :: todo <:+ closing) :
    todo ≠ [] ∧ (x = signal ∨ x = report .all) ∨ x = openGate := by
  rw [closing] at h
  simp only [List.suffix_cons_iff, List.suffix_nil, reduceCtorEq, List.cons.injEq] at h
  rcases h with ⟨rfl, rfl⟩ | ⟨rfl, rfl⟩ | ⟨rfl, rfl⟩ | h
  · exact Or.inl ⟨by simp, Or.inl rfl⟩
  · exact Or.inl ⟨by simp, Or.inr rfl⟩
  · exact Or.inr rfl
  · cases h

end Task

namespace Registry

variable {a : Nat} {s s' : Shared} {r r' : Registry} {o : Outage} {c : Category}
  {x : Task} {todo : List Task} {marks : Changes} {act : Act} {n : Nat}

def announces (r : Registry) : Option Changes := Task.announced r.todo

def Reports (r : Registry) : Prop :=
  ∀ l, .signal :: l <:+ r.todo → ∃ m, Task.announced (.signal :: l) = some m

theorem reports_of_tails (todo : List Task)
    (h : ∀ k ∈ todo.tails, k.head? = some .signal → (Task.announced k).isSome = true)
    (hr : r.todo = todo) : r.Reports := by
  intro l hl
  rw [hr] at hl
  exact Option.isSome_iff_exists.1 (h _ ((List.mem_tails _ _).2 hl) rfl)

theorem Reports.tail (h : r.Reports) (hr : r.todo = x :: todo) (hr' : r'.todo = todo) :
    r'.Reports := by
  intro l hl
  rw [hr'] at hl
  exact h l (hr ▸ hl.trans (List.suffix_cons x todo))

theorem reports_of_not_busy (h : r.todo = []) : r.Reports := by
  intro l hl
  rw [h] at hl
  cases List.suffix_nil.1 hl

theorem conclude_of_stage (hr : r.Stage) (hw : r.worker = .busy (.conclude :: todo) marks) :
    todo = [] := by
  rcases busy_of_stage hr hw with ⟨left, -⟩ | ⟨duty, -⟩
  · exact absurd rfl (Task.boots_kind left).2
  · generalize htodo : Task.conclude :: todo = l at duty
    cases duty with
    | follow | second => cases htodo
    | conclude => exact (List.cons.inj htodo).2
    | announce cs rest _ hs =>
      cases cs with
      | nil =>
        cases htodo
        cases hs _ List.mem_cons_self
      | cons c cs => cases htodo

theorem reports_works (hs : r.Stage) (hr : r.Reports) (h : r.Works o a s s' r') : r'.Reports := by
  cases h with
  | take m q hw hq ha =>
    cases accepts_of_idle hs hw hq ha with
    | init => exact reports_of_tails Task.initial (by decide) rfl
    | package y =>
      refine reports_of_tails (Task.following y) (fun k hk h => ?_) rfl
      have hk' := (List.mem_tails _ _).1 hk
      obtain ⟨l, rfl⟩ := List.head?_eq_some_iff.1 h
      exact absurd (hk'.subset List.mem_cons_self) (by simp [Task.following, Category.all])
    | destroy => exact reports_of_not_busy rfl
  | finish | rest | stop | leave => exact reports_of_not_busy rfl
  | perform x todo marks hw hp =>
    cases hp with
    | fails => exact reports_of_tails Task.recovery (by decide) rfl
    | breaks => exact reports_of_not_busy rfl
    | conclude =>
      cases conclude_of_stage hs hw
      exact reports_of_tails _ (Task.announced_of_announce marks) (List.append_nil _)
    | _ => exact hr.tail (todo_of_busy hw) rfl

theorem reports_turn (hs : r.Stage) (hr : r.Reports) (h : r.Turn a s act r') : r'.Reports := by
  cases h with
  | work _ step => exact reports_works hs hr (works_of_step step)
  | stay | told | drop | summon | release => exact hr

/-- What is still to be reported is about to be published, or was after `n` publications. -/
def Renews (n : Nat) (r : Registry) : Prop :=
  ∀ m c, .report m ∈ r.todo → m.get c = true →
    .publish c ∈ r.todo ∨ ∃ p, r.catalogue.published.snapshot? c = some p ∧ n < p.stamp

theorem renews_of_publishes (h : ∀ m c, .report m ∈ r.todo → m.get c = true →
    .publish c ∈ r.todo) : r.Renews n :=
  fun m c hm hc => Or.inl (h m c hm hc)

theorem renews_tail (hr : r.Renews n) (ht : r.todo = x :: todo) (ht' : r'.todo = todo)
    (hn : n ≤ r.catalogue.published.count)
    (hp : (∀ c, x ≠ .publish c) ∧ r'.catalogue.published = r.catalogue.published ∨
      ∃ c, x = .publish c ∧ r'.catalogue.published =
        r.catalogue.published.publish c (r.catalogue.working.get c)) : r'.Renews n := by
  intro m c hm hc
  rw [ht'] at hm ⊢
  have h := hr m c (ht ▸ List.mem_cons_of_mem _ hm) hc
  rw [ht] at h
  rcases hp with ⟨hx, he⟩ | ⟨d, rfl, he⟩
  · rw [he]
    exact h.imp_left fun h => (List.mem_cons.1 h).resolve_left (hx c).symm
  · rw [he, Published.snapshot?_publish]
    by_cases hd : d = c
    · rw [if_pos hd]
      exact Or.inr ⟨_, rfl, Nat.lt_succ_of_le hn⟩
    · rw [if_neg hd]
      refine h.imp_left fun h => (List.mem_cons.1 h).resolve_left fun he => ?_
      cases he
      exact hd rfl

theorem renews_announce (hr : r.todo = Task.announce marks) : r.Renews n := by
  refine renews_of_publishes fun m c hm hc => ?_
  rw [hr, Task.announce] at hm ⊢
  split at hm
  · next hany =>
    have he : m = marks := by simpa using hm
    rw [if_pos hany]
    have hf : c ∈ Category.all.filter marks.get :=
      List.mem_filter.2 ⟨Category.mem_all c, he ▸ hc⟩
    exact List.mem_append_left _ (List.mem_map.2 ⟨c, hf, rfl⟩)
  · cases hm

theorem renews_carries (hs : r.Stage) (hr : r.Renews n) (hn : n ≤ r.catalogue.published.count)
    (hw : r.worker = .busy (x :: todo) marks)
    (hp : r.Carries o a s todo marks x s' r') : r'.Renews n := by
  have hpub := published_carries hp
  cases hp with
  | fails => exact renews_of_publishes fun m c _ _ => (Task.publish_mem c).2
  | breaks => exact renews_of_publishes fun m c hm _ => absurd hm List.not_mem_nil
  | conclude =>
    cases conclude_of_stage hs hw
    exact renews_announce (List.append_nil _)
  | _ => exact renews_tail hr (todo_of_busy hw) rfl hn hpub

theorem silent_of_duty (h : Duty .ready (x :: todo) marks) (hx : x.silent = true) :
    ∀ y ∈ x :: todo, y.silent = true := by
  generalize htodo : x :: todo = l at h
  cases h with
  | follow | second | conclude =>
    cases htodo
    cases hx
  | announce cs rest _ hs =>
    cases cs with
    | nil => exact hs
    | cons c cs =>
      cases htodo
      cases hx

/-- A worker that gets to tasks that concern no map has none that do left. -/
theorem silent_of_stage (hr : r.Stage) (ht : r.todo = x :: todo) (hx : x.silent = true) :
    ∀ y ∈ r.todo, y.silent = true := by
  obtain ⟨marks, hw⟩ := busy_of_todo ht
  rw [ht]
  rcases busy_of_stage hr hw with ⟨left, -⟩ | ⟨duty, -⟩
  · have hs : ∀ y ∈ Task.closing, y.silent = true := by decide
    exact fun y hy => hs y ((Task.boots_closing left hx).subset hy)
  · exact silent_of_duty duty hx

theorem settled_of_silent (hr : r.Stage) (ht : r.todo = x :: todo) (hx : x.silent = true)
    (c : Category) : r.catalogue.published.plugins? c = some (r.catalogue.working.get c) := by
  obtain ⟨marks, hw⟩ := busy_of_todo ht
  have hs := silent_of_stage hr ht hx
  rw [ht] at hs
  exact settled_of_covered (covered_of_busy hr hw c) hw (fun h => by cases hs _ h)
    fun h => by cases hs _ h

/-- The gate is open, or it will be within the next steps of the worker. -/
def Opens (r : Registry) : Prop :=
  r.isLoaded = true ∨ r.todo ≠ [] ∧ r.todo <:+ Task.closing

theorem opens_of_silent (hr : r.Stage) (ht : r.todo = x :: todo) (hx : x.silent = true) :
    r.Opens := by
  obtain ⟨marks, hw⟩ := busy_of_todo ht
  rcases busy_of_stage hr hw with ⟨left, -⟩ | ⟨-, -, -, hg⟩
  · rw [Opens, ht]
    exact Or.inr ⟨List.cons_ne_nil _ _, Task.boots_closing left hx⟩
  · exact Or.inl (by rw [isLoaded, hg]; rfl)

theorem opens_turn (hr : r.Stage) (h : r.Opens) (ht : r.Turn a s act r') : r'.Opens := by
  rcases h with h | ⟨hne, hsuf⟩
  · exact Or.inl (isLoaded_turn hr h ht)
  cases ht with
  | stay | told | drop | summon | release => exact Or.inr ⟨hne, hsuf⟩
  | work _ step =>
    cases works_of_step step with
    | take _ _ hw | finish hw | rest _ hw | stop _ hw | leave _ hw =>
      exact absurd (by rw [Registry.todo, hw]) hne
    | perform x todo marks hw hp =>
      rw [todo_of_busy hw] at hsuf
      have hsuf' := (List.suffix_cons x todo).trans hsuf
      rcases Task.eq_of_closing hsuf with ⟨hne', rfl | rfl⟩ | rfl
      · cases hp
        exact Or.inr ⟨hne', hsuf'⟩
      · cases hp
        exact Or.inr ⟨hne', hsuf'⟩
      · cases hp
        left
        exact isOpen_opened hr

end Registry

/-- The registry as it was when its worker took up the message that it is handling: the worker was
idle then and never since. -/
def Taken (t : List Moment) (address : Nat) (r : Registry) : Prop :=
  ∃ t₁ e t₂, t = t₁ ++ e :: t₂ ∧ e.world.registry? address = some r ∧ r.worker = .idle ∧
    ∀ e' ∈ t₂, ∀ r', e'.world.registry? address = some r' → r'.worker ≠ .idle

theorem Taken.snoc {t : List Moment} {a : Nat} {r₀ r : Registry} {e : Moment}
    (h : Taken t a r₀) (hr : e.world.registry? a = some r) (hw : r.worker ≠ .idle) :
    Taken (t ++ [e]) a r₀ := by
  obtain ⟨t₁, e₀, t₂, rfl, hr₀, hi, hb⟩ := h
  refine ⟨t₁, e₀, t₂ ++ [e], by simp, hr₀, hi, fun e' he' r' hr' => ?_⟩
  rw [List.mem_append, List.mem_singleton] at he'
  rcases he' with he' | rfl
  · exact hb e' he' r' hr'
  · cases hr.symm.trans hr'
    exact hw

namespace World

variable {site : Site} {t : List Moment} {w v : World} {a : Nat} {r : Registry} {x : Task}
  {todo : List Task}

theorem reports_of_run (run : Run (ofSite site) t w) (hr : w.registry? a = some r) :
    r.Reports := by
  let P (_ : List Moment) (r : Registry) : Prop := r.Reports
  exact run.traced (P := P) hr (fun channel _ => Registry.reports_of_not_busy rfl)
    fun run hu hr ht => Registry.reports_turn (stage_of_run run hu) hr ht

/-- What a worker is about to report it publishes after it took up its message. -/
theorem renews_of_run (run : Run (ofSite site) t w) (hr : w.registry? a = some r)
    (hb : r.todo ≠ []) :
    ∃ r₀, Taken t a r₀ ∧ r₀.catalogue.published.count ≤ r.catalogue.published.count ∧
      r.Renews r₀.catalogue.published.count := by
  let P (t : List Moment) (r : Registry) : Prop := r.todo ≠ [] →
    ∃ r₀, Taken t a r₀ ∧ r₀.catalogue.published.count ≤ r.catalogue.published.count ∧
      r.Renews r₀.catalogue.published.count
  refine run.traced (P := P) hr (fun channel _ hb => absurd rfl hb)
    (fun {t u y r r'} run hu ih ht hb => ?_) hb
  have hs := stage_of_run run hu
  have hkept (hb : r.todo ≠ []) : ∃ r₀, Taken (t ++ [⟨u, y⟩]) a r₀ ∧
      r₀.catalogue.published.count ≤ r.catalogue.published.count ∧
      r.Renews r₀.catalogue.published.count := by
    obtain ⟨r₀, h₀, hn, hren⟩ := ih hb
    exact ⟨r₀, h₀.snoc hu fun hi => hb (by rw [Registry.todo, hi]), hn, hren⟩
  have hcount := (Registry.precedes_turn (.refl _) (dated_of_run run hu) ht).count
  cases ht with
  | stay | told | drop | summon | release => exact hkept hb
  | work _ step =>
    cases Registry.works_of_step step with
    | take m q hi hq ha =>
      have h₀ : Taken (t ++ [⟨u, y⟩]) a r := ⟨t, _, [], rfl, hu, hi, by simp⟩
      cases Registry.accepts_of_idle hs hi hq ha with
      | init =>
        exact ⟨r, h₀, le_rfl, Registry.renews_of_publishes fun m c _ _ => (Task.publish_mem c).1⟩
      | package z =>
        refine ⟨r, h₀, le_rfl, Registry.renews_of_publishes fun m c hm _ => ?_⟩
        exact absurd hm (by simp [Registry.todo, Task.following, Category.all])
      | destroy => exact absurd rfl hb
    | finish | rest | stop | leave => exact absurd rfl hb
    | perform z todo marks hw hp =>
      obtain ⟨r₀, h₀, hn, hren⟩ := hkept (by rw [Registry.todo_of_busy hw]; simp)
      exact ⟨r₀, h₀, hn.trans hcount, Registry.renews_carries hs hren hn hw hp⟩

theorem announces_of_run (run : Run (ofSite site) t w) (hr : w.registry? a = some r)
    (ht : r.todo = x :: todo) (hx : x = .signal ∨ ∃ m, x = .report m) :
    ∃ m, r.announces = some m := by
  rw [Registry.announces, ht]
  rcases hx with rfl | ⟨m, rfl⟩
  · exact reports_of_run run hr todo (ht ▸ List.suffix_refl _)
  · exact ⟨m, rfl⟩

theorem opens_of_run {t' : List Moment} (run : Run w t' v) (hr : w.registry? a = some r)
    (hs : r.Stage) (ho : r.Opens) : ∃ r', v.registry? a = some r' ∧ r'.Stage ∧ r'.Opens :=
  run.relates (Q := fun _ r' => r'.Stage ∧ r'.Opens) hr ⟨hs, ho⟩
    fun ⟨hs, ho⟩ ht => ⟨Registry.stage_turn hs ht, Registry.opens_turn hs ho ht⟩

/-- When a worker signals or reports changes, the snapshots are its working maps, and those of the
changed categories were published after it took up the message that it is handling. From then on
every reader who looks gets them or later ones, unless the announcement is that of the initial load
and the worker has not yet opened the gate. -/
theorem announced_published (run : Run (ofSite site) t w) (hr : w.registry? a = some r)
    (ht : r.todo = x :: todo) (hx : x = .signal ∨ ∃ m, x = .report m) :
    ∃ m, r.announces = some m ∧ ∀ c, ∃ p, r.catalogue.published.snapshot? c = some p ∧
      p.plugins = r.catalogue.working.get c ∧
      (m.get c = true → ∃ r₀, Taken t a r₀ ∧ r₀.catalogue.published.count < p.stamp) ∧
      ∀ t' v, Run w t' v → ∃ r' p', v.registry? a = some r' ∧
        r'.catalogue.published.snapshot? c = some p' ∧ (p' = p ∨ p.stamp < p'.stamp) ∧
        (r'.peek c = some p'.plugins ∨ r.isLoaded = false ∧ r'.peek c = none ∧
          r'.todo ≠ [] ∧ r'.todo <:+ Task.closing) := by
  have hs := stage_of_run run hr
  have hx' : x.silent = true := by
    rcases hx with rfl | ⟨m, rfl⟩
    · rfl
    · rfl
  obtain ⟨m, hm⟩ := announces_of_run run hr ht hx
  refine ⟨m, hm, fun c => ?_⟩
  obtain ⟨p, hp, hw⟩ := Option.map_eq_some_iff.1 (Registry.settled_of_silent hs ht hx' c)
  refine ⟨p, hp, hw, fun hc => ?_, fun t' v run' => ?_⟩
  · obtain ⟨r₀, h₀, -, hren⟩ := renews_of_run run hr (ht ▸ List.cons_ne_nil x todo)
    rcases hren m c (Task.mem_of_announced hm) hc with h | ⟨p', hp', hlt⟩
    · cases Registry.silent_of_stage hs ht hx' _ h
    · cases hp.symm.trans hp'
      exact ⟨r₀, h₀, hlt⟩
  · obtain ⟨r', hr', hl, hpre⟩ := seen_of_run run' hr hs (dated_of_run run hr)
    obtain ⟨r'', hr'', -, ho⟩ := opens_of_run run' hr hs (Registry.opens_of_silent hs ht hx')
    cases hr'.symm.trans hr''
    obtain ⟨p', hp', hle⟩ := hpre.renewed c p hp
    refine ⟨r', p', hr', hp', hle, ?_⟩
    have hcur : r'.current c = p'.plugins := by
      rw [Registry.current, Published.plugins?, hp']
      rfl
    rw [Registry.peek, hcur]
    cases h : r'.isLoaded with
    | true => exact Or.inl rfl
    | false =>
      refine Or.inr ⟨?_, rfl, ho.resolve_left (by simp [h])⟩
      exact Bool.eq_false_iff.2 fun hn => by cases h.symm.trans (hl hn)

def signallingActs : List Act :=
  .start (Settings.default.channel "1") :: List.replicate 7 (.work .none 0)

theorem exists_signalling :
    ∃ t w r v r', Run (ofSite ⟨.metered 1, ∅⟩) t w ∧ w.registry? 0 = some r ∧
      r.todo = Task.closing ∧ w.act (.work .none 0) = some v ∧ v.registry? 0 = some r' ∧
      r'.peek .condition = none := by
  have h : ((ofSite ⟨.metered 1, ∅⟩).acts signallingActs).any (fun w =>
      (w.registry? 0).any (fun r => r.todo = Task.closing) &&
        (w.act (.work .none 0)).any fun v =>
          (v.registry? 0).any fun r => r.peek .condition = none) = true := by
    decide +kernel
  obtain ⟨w, hw, h⟩ := (Option.any_eq_true ..).1 h
  obtain ⟨hr, hv⟩ := Bool.and_eq_true_iff.1 h
  obtain ⟨r, hr, ht⟩ := (Option.any_eq_true ..).1 hr
  obtain ⟨v, hv, h⟩ := (Option.any_eq_true ..).1 hv
  obtain ⟨r', hr', hp⟩ := (Option.any_eq_true ..).1 h
  obtain ⟨t, run⟩ := Run.of_acts hw
  exact ⟨t, w, r, v, r', run, hr, of_decide_eq_true ht, hv, hr', of_decide_eq_true hp⟩

theorem announced_published_signalling :
    ∃ t w r m, Run (ofSite ⟨.metered 1, ∅⟩) t w ∧ w.registry? 0 = some r ∧
      r.announces = some m ∧ m.get .condition = true ∧
      ∃ p r₀, r.catalogue.published.snapshot? .condition = some p ∧ Taken t 0 r₀ ∧
        r₀.catalogue.published.count < p.stamp := by
  obtain ⟨t, w, r, -, -, run, hr, ht, -⟩ := exists_signalling
  obtain ⟨m, hm, h⟩ := announced_published run hr ht (Or.inl rfl)
  have hall : m = .all := by
    rw [Registry.announces, ht] at hm
    exact (Option.some.inj hm).symm
  obtain ⟨p, hp, -, hfresh, -⟩ := h .condition
  have hc : m.get .condition = true := by
    rw [hall]
    rfl
  obtain ⟨r₀, h₀, hlt⟩ := hfresh hc
  exact ⟨t, w, r, m, run, hr, hm, hc, p, r₀, hp, h₀, hlt⟩

/-- A signal may come before readers get anything. -/
theorem signal_ahead :
    ¬∀ (site : Site) (t : List Moment) (w v : World) (a : Nat) (r r' : Registry) (o : Outage)
      (m : Changes), Run (ofSite site) t w → w.registry? a = some r → r.announces = some m →
      w.act (.work o a) = some v → v.registry? a = some r' →
      ∀ c, m.get c = true → (r'.peek c).isSome = true := by
  intro h
  obtain ⟨t, w, r, v, r', run, hr, ht, hv, hr', hp⟩ := exists_signalling
  have hm : r.announces = some .all := by
    rw [Registry.announces, ht]
    rfl
  have hsome := h _ t w v 0 r r' .none .all run hr hm hv hr' .condition rfl
  rw [hp] at hsome
  cases hsome

end World

end PluginRegistry.Live
