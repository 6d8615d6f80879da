import PluginRegistry.Proofs.Notifications

/-!
# How a map comes about

Once a registry is open, the working map of a category is the one that was published when the gate
was opened, brought in line with one change after another. Every change was followed in the
surroundings of the moment, and a category that looks for other versions compared the scan with the
map that it had then.
-/

namespace PluginRegistry

def PluginMap.followedAt (c : Category) (m : PluginMap) (f : Site × PackageChange) : PluginMap :=
  (follow f.2.kind f.2.package m
    (loadPlugins f.1.installation.directory f.1.characteristics c (some f.2.package))
    (if c.relaunchesOnUpgrade then some m else none)).1

namespace Live

open Actor

/-- The surroundings in which the worker of a registry judges a category at a moment, and the change
by which it does. -/
def Moment.judges? (e : Moment) (address : Nat) (c : Category) : Option (Site × PackageChange) :=
  ((e.deed? address).bind (Deed.followed? c)).map fun x => (e.world.shared.site, x)

/-- The worker of a registry opens the gate at a moment, and the snapshot of a category is `m`. -/
def Moment.Opens (e : Moment) (address : Nat) (c : Category) (m : PluginMap) : Prop :=
  e.task? address = some .openGate ∧ ∃ r, e.world.registry? address = some r ∧
    r.catalogue.published.plugins? c = some m

def judged (t : List Moment) (address : Nat) (c : Category) : List (Site × PackageChange) :=
  t.filterMap (·.judges? address c)

section
variable {t : List Moment} {u : World} {a : Nat} {s s' : Shared} {r r' : Registry} {o : Outage}
  {c d : Category} {x : Task} {y : PackageChange} {todo : List Task} {marks : Changes} {e : Moment}

theorem map_judged (t : List Moment) (a : Nat) (c : Category) :
    (judged t a c).map Prod.snd = (deeds t a).filterMap (Deed.followed? c) := by
  have he (e : Moment) :
      (e.judges? a c).map Prod.snd = (e.deed? a).bind (Deed.followed? c) := by
    rw [Moment.judges?, Option.map_map]
    exact congrFun Option.map_id _
  rw [judged, deeds, List.map_filterMap, List.filterMap_filterMap]
  exact congrArg (fun f => t.filterMap f) (funext he)

theorem judged_snoc (t : List Moment) (e : Moment) (a : Nat) (c : Category) :
    judged (t ++ [e]) a c = judged t a c ++ (e.judges? a c).toList :=
  filterMap_snoc _ t e

/-- A worker that judges a category has published its map. -/
theorem published_of_judging (hs : r.Stage) (hw : r.worker = .busy (.follow c y :: todo) marks) :
    r.catalogue.published.plugins? c = some (r.catalogue.working.get c) := by
  refine ((Registry.covered_iff hw).1 (Registry.covered_of_busy hs hw c)).resolve_right ?_
  rcases Registry.busy_of_stage hs hw with ⟨left, -⟩ | ⟨duty, -⟩
  · exact absurd rfl ((Task.boots_kind left).1 c y)
  · generalize htodo : Task.follow c y :: todo = l at duty
    cases duty with
    | follow z =>
      cases htodo
      rintro (h | ⟨-, h⟩)
      · simp [Task.following, Category.all] at h
      · cases h
    | second z marks hm =>
      cases htodo
      rintro (h | ⟨-, h⟩)
      · simp at h
      · cases hm.symm.trans h
    | conclude => cases htodo
    | announce cs rest _ hsil =>
      cases cs with
      | nil =>
        cases htodo
        cases hsil _ List.mem_cons_self
      | cons d cs => cases htodo

/-- The gate is open while a category is judged. -/
theorem gate_of_judging (hs : r.Stage) (hw : r.worker = .busy (.follow c y :: todo) marks) :
    r.gate = ⟨true, true⟩ := by
  rcases Registry.busy_of_stage hs hw with ⟨left, -⟩ | ⟨-, -, -, hg⟩
  · exact absurd rfl ((Task.boots_kind left).1 c y)
  · exact hg

/-- The gate is shut while a category is scanned in full, or emptied. -/
theorem gate_of_scanning (hs : r.Stage) (hw : r.worker = .busy (x :: todo) marks)
    (hx : x = .clear ∨ ∃ c, x = .load c) : r.gate = .shut := by
  have hboot : x.isBoot = true := by
    rcases hx with rfl | ⟨c, rfl⟩
    · rfl
    · rfl
  have left := Registry.boots_of_isBoot hs hw List.mem_cons_self hboot
  have hm := (Task.boots_scan left hx).2.2.1
  rcases Registry.busy_of_stage hs hw with ⟨-, -, -, hg⟩ | ⟨-, hn, -⟩
  · rw [hg, if_pos (List.mem_cons_of_mem _ hm)]
  · exact absurd (List.mem_cons_of_mem _ hm) hn

theorem gate_discard (h : r.gate = ⟨true, true⟩) : r.discard.gate = r.gate := by
  rw [Registry.discard]
  split
  · rw [h]
    rfl
  · rfl

theorem followed_of_judging (hs : r.Stage) (hw : r.worker = .busy (.follow c y :: todo) marks) :
    (r.catalogue.followed s.directory s.site.characteristics y c).1 =
      PluginMap.followedAt c (r.catalogue.working.get c) (s.site, y) := by
  rw [Catalogue.followed, Catalogue.consulted, published_of_judging hs hw]
  rfl

inductive Tracked (t : List Moment) (address : Nat) (c : Category) (r : Registry) : Prop
  | shut (gate : r.gate = .shut) (unjudged : judged t address c = [])
  | opened (m : PluginMap) (gate : r.gate = ⟨true, true⟩) (base : ∃ e ∈ t, e.Opens address c m)
      (map : r.catalogue.working.get c =
        (judged t address c).foldl (PluginMap.followedAt c) m)

/-- What neither judges the category nor touches its map nor opens the gate. -/
theorem Tracked.snoc (h : Tracked t a c r) (hg : r'.gate = r.gate)
    (hw : r.gate = ⟨true, true⟩ → r'.catalogue.working.get c = r.catalogue.working.get c)
    (he : e.judges? a c = none) : Tracked (t ++ [e]) a c r' := by
  have hj : judged (t ++ [e]) a c = judged t a c := by
    rw [judged_snoc, he]
    exact List.append_nil _
  cases h with
  | shut gate unjudged => exact .shut (hg.trans gate) (hj.trans unjudged)
  | opened m gate base map =>
    refine .opened m (hg.trans gate) (base.imp fun _ => And.imp_left (List.mem_append_left _)) ?_
    rw [hw gate, hj, map]

theorem judges?_none (hu : u.registry? a = some r)
    (h : (r.deed? o u.shared).bind (Deed.followed? c) = none) :
    Moment.judges? ⟨u, .work o a⟩ a c = none := by
  rw [Moment.judges?, Moment.deed?_work hu, h]
  rfl

theorem tracked_openGate (hs : r.Stage) (hu : u.registry? a = some r)
    (hw : r.worker = .busy (.openGate :: todo) marks) (h : Tracked t a c r) :
    Tracked (t ++ [⟨u, .work o a⟩]) a c
      { r with gate := r.gate.opened, worker := .busy todo marks } := by
  have ht := Registry.todo_of_busy hw
  have hset := Registry.settled_of_silent hs ht rfl c
  have hj : Moment.judges? ⟨u, .work o a⟩ a c = none :=
    judges?_none hu (by rw [Registry.deed?_visible hw rfl]; rfl)
  cases h with
  | shut gate unjudged =>
    refine .opened (r.catalogue.working.get c) ?_ ?_ ?_
    · change r.gate.opened = _
      rw [gate]
      rfl
    · exact ⟨_, List.mem_append_right _ List.mem_cons_self, Moment.task?_work hu hw, r, hu, hset⟩
    · rw [judged_snoc, hj, unjudged]
      rfl
  | opened m gate base map =>
    have hg : r.gate.opened = r.gate := by rw [gate]; rfl
    exact Tracked.snoc (.opened m gate base map) hg (fun _ => rfl) hj

theorem tracked_follow (hs : r.Stage) (hu : u.registry? a = some r)
    (hw : r.worker = .busy (.follow d y :: todo) marks)
    (answers : o.first (Scan.queries u.shared.directory d (some y.package)) = none)
    (h : Tracked t a c r) (hg : r'.gate = r.gate)
    (hc : r'.catalogue =
      (r.catalogue.follow u.shared.directory u.shared.site.characteristics y d).1) :
    Tracked (t ++ [⟨u, .work o a⟩]) a c r' := by
  have hopen := gate_of_judging hs hw
  have hdeed := Registry.deed?_follow hw answers
  by_cases hd : d = c
  · subst hd
    have hj : Moment.judges? ⟨u, .work o a⟩ a d = some (u.shared.site, y) := by
      rw [Moment.judges?, Moment.deed?_work hu, hdeed]
      simp [Deed.followed?]
    cases h with
    | shut gate => cases gate.symm.trans hopen
    | opened m gate base map =>
      refine .opened m (hg.trans gate)
        (base.imp fun _ => And.imp_left (List.mem_append_left _)) ?_
      rw [hc, Catalogue.follow_eq, ByCategory.get_set_self, followed_of_judging hs hw, map,
        judged_snoc, hj, Option.toList_some, List.foldl_append]
      rfl
  · refine h.snoc hg (fun _ => ?_) (judges?_none hu ?_)
    · rw [hc, Catalogue.follow_eq, ByCategory.get_set, if_neg hd]
    · rw [hdeed]
      simp [Deed.followed?, hd]

theorem tracked_carries (hs : r.Stage) (hu : u.registry? a = some r)
    (hw : r.worker = .busy (x :: todo) marks) (h : Tracked t a c r)
    (hp : r.Carries o a u.shared todo marks x s' r') : Tracked (t ++ [⟨u, .work o a⟩]) a c r' := by
  cases hp with
  | openGate => exact tracked_openGate hs hu hw h
  | follow d y answers => exact tracked_follow hs hu hw answers h rfl rfl
  | breaks d y p panics =>
    exact h.snoc (gate_discard (gate_of_judging hs hw)) (fun _ => rfl)
      (judges?_none hu (by rw [Registry.deed?_panic hw panics]; rfl))
  | conclude =>
    exact h.snoc rfl (fun _ => rfl) (judges?_none hu (by rw [Registry.deed?_busy hw]; rfl))
  | load b | clear =>
    have hshut := gate_of_scanning hs hw (by simp)
    exact h.snoc rfl (fun hg => by cases hshut.symm.trans hg)
      (judges?_none hu (by rw [Registry.deed?_visible hw rfl]; rfl))
  | _ =>
    exact h.snoc rfl (fun _ => rfl) (judges?_none hu (by rw [Registry.deed?_visible hw rfl]; rfl))

theorem tracked_works (hs : r.Stage) (hu : u.registry? a = some r) (h : Tracked t a c r)
    (hw : r.Works o a u.shared s' r') : Tracked (t ++ [⟨u, .work o a⟩]) a c r' := by
  cases hw with
  | perform x todo marks hw hp => exact tracked_carries hs hu hw h hp
  | take m q hw hq ha =>
    have hj : Moment.judges? ⟨u, .work o a⟩ a c = none :=
      judges?_none hu (by rw [Registry.deed?_take hw hq]; rfl)
    cases Registry.accepts_of_idle hs hw hq ha with
    | init | package | destroy => exact h.snoc rfl (fun _ => rfl) hj
  | finish hw hq =>
    exact h.snoc rfl (fun _ => rfl) (judges?_none hu (by rw [Registry.deed?, hw, hq]; rfl))
  | rest _ hw =>
    refine h.snoc rfl (fun _ => rfl) (judges?_none hu ?_)
    rw [Registry.deed?, Registry.todo_of_busy hw, hw]
    rfl
  | stop e hw =>
    have he : r.ending? = some e := by rw [Registry.ending?, hw]
    exact h.snoc rfl (fun _ => rfl) (judges?_none hu (by rw [Registry.deed?_ending he]; rfl))
  | leave e hw =>
    have he : r.ending? = some e := by rw [Registry.ending?, hw]
    have hg := Registry.gate_of_ending hs he
    exact h.snoc (gate_discard hg) (fun _ => rfl)
      (judges?_none hu (by rw [Registry.deed?_ending he]; rfl))

theorem tracked_turn {act : Act} (hs : r.Stage) (hu : u.registry? a = some r)
    (h : Tracked t a c r) (ht : r.Turn a u.shared act r') : Tracked (t ++ [⟨u, act⟩]) a c r' := by
  have hother (other : ∀ o, act ≠ .work o a) : Moment.judges? ⟨u, act⟩ a c = none := by
    rw [Moment.judges?, Moment.deed?_other other]
    rfl
  cases ht with
  | work hact step =>
    subst hact
    exact tracked_works hs hu h (Registry.works_of_step step)
  | stay other | told other | drop other | summon other =>
    exact h.snoc rfl (fun _ => rfl) (hother other)
  | release other exited =>
    refine h.snoc ?_ (fun _ => rfl) (hother other)
    have hg := Registry.gate_of_exited hs exited
    change r.gate.opened = r.gate
    rw [hg]
    rfl

end

namespace World

variable {site : Site} {t : List Moment} {w : World} {a : Nat} {r : Registry}

theorem tracked_of_run (run : Run (ofSite site) t w) (hr : w.registry? a = some r)
    (c : Category) : Tracked t a c r := by
  refine run.traced (P := fun t r => Tracked t a c r) hr (fun channel others => ?_)
    fun run hu ih ht => tracked_turn (stage_of_run run hu) hu ih ht
  refine .shut rfl (List.filterMap_eq_nil_iff.2 fun e he => ?_)
  rw [Moment.judges?, Moment.deed?_other (others e he)]
  rfl

end World

end Live

end PluginRegistry
