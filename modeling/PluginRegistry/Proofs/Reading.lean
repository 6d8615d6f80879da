import PluginRegistry.Proofs.Lifecycle

/-!
# What readers get

A reader gets nothing before the gate is open, and from then on a map that the worker has published,
never an earlier one than he got before.
-/

namespace PluginRegistry

/-- The publications behind `p` go on to those behind `q`: a category that has a snapshot keeps it
until it gets a later one. -/
structure Published.Precedes (p q : Published) : Prop where
  count : p.count ≤ q.count
  renewed : ∀ c s, p.snapshot? c = some s →
    ∃ s', q.snapshot? c = some s' ∧ (s' = s ∨ s.stamp < s'.stamp)

namespace Published

variable {p q : Published}

theorem Precedes.refl (p : Published) : p.Precedes p := ⟨le_rfl, fun _ s h => ⟨s, h, Or.inl rfl⟩⟩

theorem Precedes.publish (h : p.Precedes q)
    (dated : ∀ c s, q.snapshot? c = some s → s.stamp ≤ q.count) (c : Category) (m : PluginMap) :
    p.Precedes (q.publish c m) where
  count := Nat.le_succ_of_le h.count
  renewed d s hs := by
    obtain ⟨s', hs', hle⟩ := h.renewed d s hs
    rw [snapshot?_publish]
    split
    · have hd := dated d s' hs'
      refine ⟨_, rfl, Or.inr (Nat.lt_succ_of_le ?_)⟩
      rcases hle with rfl | hlt
      · exact hd
      · exact hlt.le.trans hd
    · exact ⟨s', hs', hle⟩

end Published

namespace Live

open Actor

def Moment.Publishes (e : Moment) (address : Nat) (c : Category) (p : Snapshot) : Prop :=
  e.task? address = some (.publish c) ∧ ∃ r, e.world.registry? address = some r ∧
    p = ⟨r.catalogue.published.count + 1, r.catalogue.working.get c⟩

namespace Registry

variable {a : Nat} {s s' : Shared} {r r' : Registry} {o : Outage} {c : Category}
  {x : Task} {todo : List Task} {marks : Changes} {act : Act}

def Dated (r : Registry) : Prop :=
  ∀ c p, r.catalogue.published.snapshot? c = some p → p.stamp ≤ r.catalogue.published.count

theorem published_carries (h : r.Carries o a s todo marks x s' r') :
    (∀ c, x ≠ .publish c) ∧ r'.catalogue.published = r.catalogue.published ∨
      ∃ c, x = .publish c ∧ r'.catalogue.published =
        r.catalogue.published.publish c (r.catalogue.working.get c) := by
  cases h with
  | publish c => exact Or.inr ⟨c, rfl, rfl⟩
  | _ => exact Or.inl ⟨by simp, rfl⟩

theorem catalogue_accept {box : Mailbox Message} {m : Message}
    (h : { r with mailbox := box }.accept s m = (s', r')) : r'.catalogue = r.catalogue := by
  cases m <;> rw [accept] at h <;> split at h <;> cases h <;> rfl

/-- The snapshots stay, or the worker publishes one of them anew. -/
theorem published_turn (h : r.Turn a s act r') :
    r'.catalogue.published = r.catalogue.published ∨
      ∃ o c todo marks, act = .work o a ∧ r.worker = .busy (.publish c :: todo) marks ∧
        r'.catalogue.published =
          r.catalogue.published.publish c (r.catalogue.working.get c) := by
  cases h with
  | stay | told | drop | summon | release => exact Or.inl rfl
  | work hact step =>
    cases works_of_step step with
    | take m q hw hq ha => exact Or.inl (congrArg Catalogue.published (catalogue_accept ha))
    | finish | rest | stop | leave => exact Or.inl rfl
    | perform x todo marks hw hp =>
      rcases published_carries hp with ⟨-, h⟩ | ⟨c, rfl, h⟩
      · exact Or.inl h
      · exact Or.inr ⟨_, c, todo, marks, hact, hw, h⟩

theorem dated_turn (hr : r.Dated) (h : r.Turn a s act r') : r'.Dated := by
  rw [Dated]
  rcases published_turn h with he | ⟨o, c, todo, marks, -, -, he⟩
  · rw [he]
    exact hr
  · rw [he]
    intro d p hp
    rw [Published.snapshot?_publish] at hp
    split at hp
    · cases hp
      exact le_rfl
    · exact Nat.le_succ_of_le (hr d p hp)

theorem precedes_turn {p : Published} (hp : p.Precedes r.catalogue.published) (hr : r.Dated)
    (h : r.Turn a s act r') : p.Precedes r'.catalogue.published := by
  rcases published_turn h with he | ⟨o, c, todo, marks, -, -, he⟩
  · rw [he]
    exact hp
  · rw [he]
    exact hp.publish hr c _

theorem gate_of_stage (hr : r.Stage) : r.gate = .shut ∨ r.gate = ⟨true, true⟩ := by
  cases hr with
  | fresh _ _ hg => exact Or.inl hg
  | booting todo _ _ _ hg =>
    rw [hg]
    split
    · exact Or.inl rfl
    · exact Or.inr rfl
  | idle _ _ hg => exact Or.inr hg
  | busy _ _ _ _ _ _ hg => exact Or.inr hg
  | ending _ _ hg => exact Or.inr hg

/-- Waiting ends just when a quick look finds the gate open. -/
theorem get?_of_stage (hr : r.Stage) (c : Category) : r.get? c = r.peek c := by
  have hg : r.gate.locked = r.gate.released := by
    rcases gate_of_stage hr with hg | hg
    · rw [hg]; rfl
    · rw [hg]
  rw [get?, peek, isLoaded, Latch.passes_eq_isOpen hg]

/-- The gate opens after both categories were published. -/
theorem shown_of_isLoaded (hr : r.Stage) (h : r.isLoaded = true) : r.Shown := by
  cases hr with
  | fresh _ _ hg =>
    rw [isLoaded, hg] at h
    cases h
  | booting todo hw left _ hg _ hc =>
    have hlate : ∀ l ∈ Task.boots, .openGate ∉ l →
        .publish .condition ∉ l ∧ .publish .setting ∉ l ∧ .conclude ∉ l := by
      decide
    by_cases ho : .openGate ∈ todo
    · rw [isLoaded, hg, if_pos ho] at h
      cases h
    · obtain ⟨hcond, hset, hcon⟩ := hlate todo left ho
      refine shown_of_settled fun c => settled_of_covered (hc c) hw ?_ hcon
      cases c <;> assumption
  | idle _ _ _ _ hc => exact shown_of_settled hc
  | busy _ _ _ _ _ _ _ _ _ hs => exact hs
  | ending _ _ _ _ hs => exact hs

/-- Readers of two open registries with the same snapshots get the same. -/
theorem reads_of_published {r₀ : Registry} (h₀ : r₀.gate = ⟨true, true⟩) (h : r.gate = ⟨true, true⟩)
    (hp : r.catalogue.published = r₀.catalogue.published) (c : Category) :
    r.seen c = r₀.seen c ∧ r.peek c = r₀.peek c ∧ r.get? c = r₀.get? c ∧
      (r.peek c).isSome = true := by
  simp [seen, peek, get?, isLoaded, current, Latch.passes, Latch.isOpen, h, h₀, hp]

theorem isOpen_opened (hr : r.Stage) : r.gate.opened.isOpen = true := by
  rcases gate_of_stage hr with hg | hg <;> rw [hg] <;> rfl

theorem isLoaded_opened (h : r.isLoaded = true) : r.gate.opened.isOpen = true := by
  rw [Latch.opened]
  split
  · exact h
  · rfl

theorem isLoaded_discard (h : r.isLoaded = true) : r.discard.isLoaded = true := by
  rw [isLoaded, discard]
  split
  · exact isLoaded_opened h
  · exact h

theorem isLoaded_carries (h : r.isLoaded = true) (hp : r.Carries o a s todo marks x s' r') :
    r'.isLoaded = true := by
  cases hp with
  | breaks => exact isLoaded_discard h
  | openGate => exact isLoaded_opened h
  | _ => exact h

/-- No turn closes a gate. -/
theorem isLoaded_turn (hr : r.Stage) (h : r.isLoaded = true) (ht : r.Turn a s act r') :
    r'.isLoaded = true := by
  cases ht with
  | stay | told | drop | summon => exact h
  | release => exact isLoaded_opened h
  | work _ step =>
    cases works_of_step step with
    | take m q hw hq ha => cases accepts_of_idle hr hw hq ha <;> exact h
    | finish | rest | stop => exact h
    | leave => exact isLoaded_discard h
    | perform x todo marks hw hp => exact isLoaded_carries h hp

end Registry

namespace World

variable {site : Site} {t : List Moment} {w w' v : World} {a : Nat} {r : Registry} {c : Category}
  {x : Act}

/-- Every snapshot was published at some moment of the run. -/
theorem publishes_of_snapshot (run : Run (ofSite site) t w) (hr : w.registry? a = some r)
    {p : Snapshot} (hp : r.catalogue.published.snapshot? c = some p) :
    ∃ e ∈ t, e.Publishes a c p := by
  let P (t : List Moment) (r : Registry) : Prop :=
    ∀ p, r.catalogue.published.snapshot? c = some p → ∃ e ∈ t, e.Publishes a c p
  refine run.traced (P := P) hr (fun {t} channel _ q hq => ?_)
    (fun {t u x r r'} _ hu ih ht q hq => ?_) p hp
  · cases c <;> cases hq
  · have hkept {p : Snapshot} (hp : r.catalogue.published.snapshot? c = some p) :
        ∃ e ∈ t ++ [⟨u, x⟩], e.Publishes a c p := by
      obtain ⟨e, he, hpub⟩ := ih p hp
      exact ⟨e, List.mem_append_left _ he, hpub⟩
    rcases Registry.published_turn ht with he | ⟨o, d, todo, marks, rfl, hw, he⟩
    · rw [he] at hq
      exact hkept hq
    · rw [he, Published.snapshot?_publish] at hq
      split at hq
      · next hd =>
        subst hd
        exact ⟨⟨u, .work o a⟩, List.mem_append_right _ List.mem_cons_self,
          Moment.task?_work hu hw, r, hu, (Option.some.inj hq).symm⟩
      · exact hkept hq

/-- What a reader of an open registry gets was published, and all ways of reading agree. -/
theorem seen_of_isLoaded (run : Run (ofSite site) t w) (hr : w.registry? a = some r)
    (h : r.isLoaded = true) (c : Category) :
    ∃ p, r.seen c = some p ∧ r.peek c = some p.plugins ∧ r.get? c = some p.plugins ∧
      ∃ e ∈ t, e.Publishes a c p := by
  have hs := stage_of_run run hr
  obtain ⟨p, hp⟩ := Registry.shown_of_isLoaded hs h c
  have hpeek : r.peek c = some p.plugins := by
    rw [Registry.peek, if_pos h, Registry.current, Published.plugins?, hp]
    rfl
  refine ⟨p, ?_, hpeek, ?_, publishes_of_snapshot run hr hp⟩
  · rw [Registry.seen, if_pos h, hp]
  · rw [Registry.get?_of_stage hs, hpeek]

/-- Readers begin to wait, or those who wait look again. -/
theorem waiting_of_act (h : w.act x = some w') :
    w'.waiting = w.waiting ∨ (∃ a c, w'.waiting = w.waiting ++ [⟨a, c, none⟩]) ∨
      x = .wake ∧ w' = w.wake := by
  cases happens_of_act h with
  | emit e => exact Or.inl (emit_eq w e).2
  | await a c => exact Or.inr (Or.inl ⟨a, c, rfl⟩)
  | wake => exact Or.inr (Or.inr ⟨rfl, rfl⟩)
  | _ => exact Or.inl rfl

/-- Who waited and got a map got one that was published, and the registry is loaded by now. -/
theorem isLoaded_of_got (run : Run (ofSite site) t w) {x : Waiting} (hx : x ∈ w.waiting)
    {m : PluginMap} (hm : x.got = some m) :
    ∃ r, w.registry? x.address = some r ∧ r.isLoaded = true ∧
      ∃ e ∈ t, ∃ p, e.Publishes x.address x.category p ∧ p.plugins = m := by
  induction run generalizing x with
  | refl => cases hx
  | @act t u v y run hy ih =>
    have hkept (hx : x ∈ u.waiting) : ∃ r, v.registry? x.address = some r ∧ r.isLoaded = true ∧
        ∃ e ∈ t ++ [⟨u, y⟩], ∃ p, e.Publishes x.address x.category p ∧ p.plugins = m := by
      obtain ⟨r, hr, hl, e, he, hp⟩ := ih hx hm
      obtain ⟨r', hr', ht⟩ := turn_of_act hy hr
      exact ⟨r', hr', Registry.isLoaded_turn (stage_of_run run hr) hl ht, e,
        List.mem_append_left _ he, hp⟩
    rcases waiting_of_act hy with he | ⟨a, c, he⟩ | ⟨rfl, rfl⟩
    · exact hkept (he ▸ hx)
    · rw [he, List.mem_append, List.mem_singleton] at hx
      rcases hx with hx | rfl
      · exact hkept hx
      · cases hm
    · obtain ⟨x, hx', rfl⟩ := List.mem_map.1 hx
      cases hg : x.got with
      | some m' =>
        rw [hg] at hm
        obtain ⟨r, hr, hl, e, he, hp⟩ := ih hx' (hg.trans hm)
        exact ⟨r, hr, hl, e, List.mem_append_left _ he, hp⟩
      | none =>
        rw [hg, Option.none_or] at hm
        obtain ⟨r, hr, hm⟩ := Option.bind_eq_some_iff.1 hm
        have hl : r.isLoaded = true := by
          rw [Registry.get?_of_stage (stage_of_run run hr), Registry.peek] at hm
          split at hm
          · assumption
          · cases hm
        obtain ⟨p, -, -, hp, e, he, hpub⟩ := seen_of_isLoaded run hr hl x.category
        exact ⟨r, hr, hl, e, List.mem_append_left _ he, p, hpub,
          Option.some.inj (hp.symm.trans hm)⟩

/-- Once a registry is loaded it remains so, and nobody reads an earlier snapshot than before. -/
theorem seen_of_run {t' : List Moment} (run : Run w t' v) (hr : w.registry? a = some r)
    (hs : r.Stage) (hd : r.Dated) :
    ∃ r', v.registry? a = some r' ∧ (r.isLoaded = true → r'.isLoaded = true) ∧
      r.catalogue.published.Precedes r'.catalogue.published := by
  let Q (r r' : Registry) : Prop :=
    (r'.Stage ∧ r'.Dated) ∧ (r.isLoaded = true → r'.isLoaded = true) ∧
      r.catalogue.published.Precedes r'.catalogue.published
  obtain ⟨r', hr', -, hq⟩ := run.relates (Q := Q) hr ⟨⟨hs, hd⟩, id, .refl _⟩
    fun ⟨⟨hs, hd⟩, hl, hp⟩ ht => ⟨⟨Registry.stage_turn hs ht, Registry.dated_turn hd ht⟩,
      fun h => Registry.isLoaded_turn hs (hl h) ht, Registry.precedes_turn hp hd ht⟩
  exact ⟨r', hr', hq⟩

theorem dated_of_run (run : Run (ofSite site) t w) (hr : w.registry? a = some r) : r.Dated :=
  run.registry hr (fun _ c p hp => by cases c <;> cases hp) Registry.dated_turn

/-- Nobody gets anything before the gate is open. Then every reader gets the latest snapshot, which
the worker has published, and from then on that or a later one. -/
theorem reads_published (run : Run (ofSite site) t w) (hr : w.registry? a = some r) :
    (r.isLoaded = false → ∀ c, r.peek c = none ∧ r.get? c = none) ∧
      (r.isLoaded = true → ∀ c, ∃ p, r.seen c = some p ∧ r.peek c = some p.plugins ∧
        r.get? c = some p.plugins ∧ ∃ e ∈ t, e.Publishes a c p) ∧
      (∀ x ∈ w.waiting, x.address = a → ∀ m, x.got = some m → r.isLoaded = true ∧
        ∃ e ∈ t, ∃ p, e.Publishes a x.category p ∧ p.plugins = m) ∧
      ∀ t' v, Run w t' v → ∃ r', v.registry? a = some r' ∧
        (r.isLoaded = true → r'.isLoaded = true) ∧
        ∀ c p, r.seen c = some p → ∃ p', r'.seen c = some p' ∧ (p' = p ∨ p.stamp < p'.stamp) := by
  have hs := stage_of_run run hr
  refine ⟨fun h c => ?_, seen_of_isLoaded run hr, ?_, fun t' v run' => ?_⟩
  · have hpeek : r.peek c = none := if_neg (by simp [h])
    exact ⟨hpeek, (Registry.get?_of_stage hs c).trans hpeek⟩
  · rintro x hx rfl m hm
    obtain ⟨r', hr', hl, hp⟩ := isLoaded_of_got run hx hm
    cases hr'.symm.trans hr
    exact ⟨hl, hp⟩
  · obtain ⟨r', hr', hl, hp⟩ := seen_of_run run' hr hs (dated_of_run run hr)
    refine ⟨r', hr', hl, fun c p hseen => ?_⟩
    rw [Registry.seen] at hseen
    split at hseen
    · next h =>
      obtain ⟨p', hp', hle⟩ := hp.renewed c p hseen
      exact ⟨p', by rw [Registry.seen, if_pos (hl h), hp'], hle⟩
    · cases hseen

def awaitedActs : List Act :=
  [.start (Settings.default.channel "1"), .await 0 .condition] ++
    List.replicate 10 (.work .none 0) ++ [.wake]

theorem reads_published_awaited :
    ∃ t w r p, Run (ofSite ⟨.metered 1, ∅⟩) t w ∧
      w.registry? 0 = some r ∧ r.isLoaded = true ∧ r.seen .condition = some p ∧
      p.plugins.contains "meter:Edit" = true ∧ ∃ e ∈ t, e.Publishes 0 .condition p := by
  have h : ((ofSite ⟨.metered 1, ∅⟩).acts awaitedActs).any
      (fun w => (w.registry? 0).any fun r => r.isLoaded &&
        (r.seen .condition).any fun p => p.plugins.contains "meter:Edit") = true := by
    decide +kernel
  obtain ⟨w, hw, h⟩ := (Option.any_eq_true ..).1 h
  obtain ⟨r, hr, h⟩ := (Option.any_eq_true ..).1 h
  rw [Bool.and_eq_true] at h
  obtain ⟨p, hp, hk⟩ := (Option.any_eq_true ..).1 h.2
  obtain ⟨t, run⟩ := Run.of_acts hw
  obtain ⟨p', hp', -, -, he⟩ := (reads_published run hr).2.1 h.1 .condition
  cases hp.symm.trans hp'
  exact ⟨t, w, r, p, run, hr, h.1, hp, hk, he⟩

end World

end Live

end PluginRegistry
