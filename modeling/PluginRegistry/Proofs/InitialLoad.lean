import PluginRegistry.Proofs.PackageRuns

/-!
# Around the initial load

A registry scans first and subscribes afterwards, so nobody tells it what changes in between. Once
it is at rest, its snapshots have the keys of a full scan but for those that such a change concerns,
and these stay as the scan found them until their package is replaced or uninstalled.
-/

namespace PluginRegistry.Live

open Actor

variable {w w' v : World} {r r' : Registry} {j : Installation} {e₁ e₂ e₃ es fs : List PackageEvent}
  {todo todo' rest : List Task} {marks : Changes} {x : Task} {c : Category} {m : PluginMap}

theorem Registry.site_perform {s s' : Shared} {o : Outage} {a : Nat}
    (h : r.perform o a s todo marks x = some (s', r')) : s'.site = s.site := by
  cases x with
  | load c | follow c y =>
    rw [Registry.perform] at h
    split at h
    · cases h
    · split at h <;> cases h <;> rfl
  | _ => cases h; rfl

theorem Registry.site_accept {s s' : Shared} {m : Message} (h : r.accept s m = (s', r')) :
    s'.site = s.site := by
  cases m <;> rw [Registry.accept] at h <;> split at h <;> cases h <;> rfl

theorem Registry.site_step {s s' : Shared} {o : Outage} {a : Nat}
    (h : r.step o a s = some (s', r')) : s'.site = s.site := by
  rw [Registry.step] at h
  split at h
  · split at h
    · exact site_accept (Option.some.inj h)
    · cases h
      rfl
    · cases h
  · cases h
    rfl
  · exact site_perform h
  · cases h
    rfl
  · cases h
    rfl
  · cases h

namespace World

theorem site_step (h : w.step .none 0 = some w') : w'.shared.site = w.shared.site := by
  obtain ⟨r, -, h⟩ := Option.bind_eq_some_iff.1 h
  obtain ⟨⟨s', r'⟩, hs, h⟩ := Option.bind_eq_some_iff.1 h
  cases h
  exact Registry.site_step hs

theorem site_shift (w : World) (j : Installation) (es : List PackageEvent) :
    (w.shift j es).shared.site = { w.shared.site with installation := j } := by
  have hm (as : List Nat) (e : PackageEvent) (v : World) :
      (as.foldl (deliverTo e) v).shared = v.shared := by
    induction as generalizing v with
    | nil => rfl
    | cons a as ih => exact ih _
  have he (v : World) : (es.foldl emit v).shared = v.shared := by
    induction es generalizing v with
    | nil => rfl
    | cons e es ih => exact (ih _).trans (hm _ e v)
  rw [shift, he]
  rfl

theorem PackageRun.site (hr : PackageRun w es w') (hi : w.shared.site.installation.Plain) :
    w'.shared.site.installation.Plain ∧
      w'.shared.site.characteristics = w.shared.site.characteristics := by
  induction hr with
  | refl => exact ⟨hi, rfl⟩
  | work _ hs ih => rwa [site_step hs]
  | shift _ hs ih =>
    rw [site_shift]
    exact ⟨hs.plain ih.1, ih.2⟩

def finds (w : World) (c : Category) (key : String) : Bool :=
  (loadPlugins w.shared.directory w.shared.site.characteristics c none).contains key

end World

theorem Booting.todo_unique (h : Booting w r todo) (h' : Booting w r' todo') : todo = todo' := by
  have hr : [r] = [r'] := h.registries.symm.trans h'.registries
  cases hr
  rcases h.worker with ⟨hi, -, -, ht⟩ | ⟨hb, -⟩
  · rcases h'.worker with ⟨-, -, -, ht'⟩ | ⟨hb', -⟩
    · rw [ht, ht']
    · rw [hi] at hb'
      cases hb'
  · rcases h'.worker with ⟨hi', -⟩ | ⟨hb', -⟩
    · rw [hi'] at hb
      cases hb
    · rw [hb] at hb'
      exact List.append_cancel_right (Worker.busy.inj hb').1

theorem Booting.not_serving (h : Booting w r todo) : ¬Serving w r' := by
  intro h'
  have ha := h'.addresses
  rw [Stream.addresses, h.sinks] at ha
  cases ha

/-- A step of the initial load: the worker begins, carries out a task, or subscribes. -/
theorem booting_step (h : Booting w r todo) (hs : w.step .none 0 = some w') :
    (∃ r', Booting w' r' todo ∧ r'.catalogue = r.catalogue) ∨
    (∃ x rest r', todo = x :: rest ∧ w.Performs x w' ∧ Booting w' r' rest ∧
      r'.catalogue = x.carryOut w.shared r.catalogue) ∨
    (todo = [] ∧ w.Performs .subscribe w' ∧ ∃ r', Serving w' r' ∧ r'.catalogue = r.catalogue ∧
      ∀ c, r'.pending c = []) := by
  have hreg : w.registry? 0 = some r := by rw [World.registry?, h.registries]; rfl
  by_cases hi : r.worker = .idle
  · obtain ⟨r', hb, -, hc⟩ := booting_accept h hi hs
    exact Or.inl ⟨r', hb, hc⟩
  · obtain ⟨hb, -⟩ := h.worker.resolve_left fun he => hi he.1
    have ht : r.todo = todo ++ Task.afterLoad := by rw [Registry.todo, hb]
    right
    cases todo with
    | nil =>
      obtain ⟨r', hr', -, hc, hp⟩ := booting_subscribe h hs
      exact Or.inr ⟨rfl, ⟨hs, r, hreg, by rw [ht]; rfl⟩, r', hr', hc, hp⟩
    | cons x rest =>
      obtain ⟨r', hr', -, hc⟩ := booting_task h hi hs
      exact Or.inl ⟨x, rest, r', rfl, ⟨hs, r, hreg, by rw [ht]; rfl⟩, hr', hc⟩

def Found (c : Category) (m : PluginMap) (w : World) : Prop :=
  ∃ r todo, Booting w r todo ∧ .load c ∉ todo ∧ r.catalogue.working.get c = m

theorem booting_or_serving (site : Site) (channel : Channel)
    (hr : World.PackageRun ((World.ofSite site).start channel) es w) :
    (∃ r todo, Booting w r todo) ∨ ∃ r, Serving w r := by
  induction hr with
  | refl => exact Or.inl ⟨_, _, booting_start site channel⟩
  | work _ hs ih =>
    rcases ih with ⟨r, todo, h⟩ | ⟨r, h⟩
    · rcases booting_step h hs with ⟨r', h', -⟩ | ⟨x, rest, r', -, -, h', -⟩ | ⟨-, -, r', h', -⟩
      · exact Or.inl ⟨r', todo, h'⟩
      · exact Or.inl ⟨r', rest, h'⟩
      · exact Or.inr ⟨r', h'⟩
    · obtain ⟨r', h', -⟩ := serving_step h hs
      exact Or.inr ⟨r', h'⟩
  | shift _ hs ih =>
    rcases ih with ⟨r, todo, h⟩ | ⟨r, h⟩
    · exact Or.inl ⟨r, todo, booting_shift h _ _⟩
    · exact Or.inr ⟨_, serving_shift h _ _⟩

/-- What a scan has found stays in the working map until the registry subscribes. -/
theorem found_or_serving (hr : World.PackageRun v es w) (h : Found c m v) :
    Found c m w ∨ ∃ r, Serving w r := by
  induction hr with
  | refl => exact Or.inl h
  | work _ hs ih =>
    rcases ih with ⟨r, todo, hb, hl, hm⟩ | ⟨r, hr⟩
    · rcases booting_step hb hs with
        ⟨r', hb', hc⟩ | ⟨x, rest, r', rfl, -, hb', hc⟩ | ⟨-, -, r', h', -⟩
      · exact Or.inl ⟨r', todo, hb', hl, by rw [hc, hm]⟩
      · left
        refine ⟨r', rest, hb', fun hx => hl (List.mem_cons_of_mem _ hx), ?_⟩
        rw [hc, ← hm]
        cases x with
        | load d =>
          have hne : d ≠ c := by
            rintro rfl
            exact hl List.mem_cons_self
          exact (ByCategory.get_set ..).trans (if_neg hne)
        | _ => rfl
      · exact Or.inr ⟨r', h'⟩
    · obtain ⟨r', h', -⟩ := serving_step hr hs
      exact Or.inr ⟨r', h'⟩
  | shift _ hs ih =>
    rcases ih with ⟨r, todo, hb, hl, hm⟩ | ⟨r, hr⟩
    · exact Or.inl ⟨r, todo, booting_shift hb _ _, hl, hm⟩
    · exact Or.inr ⟨_, serving_shift hr _ _⟩

/-- What becomes of a key that the initial scan `found` or not and that the installation `offered`
or not when the registry subscribed: once its package was replaced or uninstalled, and always if
nothing was missed, it comes out as offered. -/
structure Heading (c : Category) (key : String) (found offered : Bool) (es : List PackageEvent)
    (w : World) (r : Registry) : Prop where
  serving : Serving w r
  plain : w.shared.site.installation.Plain
  filed : (r.catalogue.working.get c).Filed
  told : renewed (packageOf key) (changesOf es) = true ∨ found = offered →
    heard key (w.finds c key) (r.pending c) ((r.catalogue.working.get c).contains key) =
      w.finds c key
  missed : renewed (packageOf key) (changesOf es) = false → found ≠ offered →
    heard key (w.finds c key) (r.pending c) ((r.catalogue.working.get c).contains key) = found ∧
      (offered = true → w.finds c key = true)

variable {key : String} {found offered : Bool}

theorem World.finds_eq (h : w.shared.site.installation.Plain) (c : Category) (key : String) :
    w.finds c key = w.shared.site.installation.offers w.shared.site.characteristics c key :=
  (Installation.offers_eq h).symm

theorem heading_work (h : Heading c key found offered es w r) (hs : w.step .none 0 = some w') :
    ∃ r', Heading c key found offered es w' r' := by
  obtain ⟨r', hr', hsite, ha⟩ := serving_step h.serving hs
  have hf : w'.finds c key = w.finds c key := by
    rw [World.finds, World.finds, Shared.directory, Shared.directory, hsite]
  have hplain : w'.shared.site.installation.Plain := by rw [hsite]; exact h.plain
  rcases ha c with ⟨hp, hw⟩ | ⟨x, hp, hw⟩
  · exact ⟨r', hr', hplain, hw ▸ h.filed, by rw [hf, hp, hw]; exact h.told,
      by rw [hf, hp, hw]; exact h.missed⟩
  · have hh : heard key (w.finds c key) (r'.pending c)
          ((r'.catalogue.working.get c).contains key) =
        heard key (w.finds c key) (r.pending c) ((r.catalogue.working.get c).contains key) := by
      rw [hp, hw, World.finds_eq h.plain, Shared.directory,
        Catalogue.contains_followed h.plain h.filed]
      rfl
    refine ⟨r', hr', hplain, ?_, by rw [hf, hh]; exact h.told, by rw [hf, hh]; exact h.missed⟩
    rw [hw]
    exact Catalogue.filed_followed h.plain h.filed

theorem heading_shift (h : Heading c key found offered es w r)
    (hs : w.shared.site.installation.Shift fs j) :
    Heading c key found offered (es ++ fs) (w.shift j fs) (r.told (changesOf fs)) := by
  have hplain : (w.shift j fs).shared.site.installation.Plain := by
    rw [World.site_shift]
    exact hs.plain h.plain
  have hf : (w.shift j fs).finds c key = j.offers w.shared.site.characteristics c key := by
    rw [World.finds_eq hplain, World.site_shift]
  have hf' := World.finds_eq h.plain c key
  have hpend := pending_told h.serving.opened (changesOf fs) c
  have hcases := heard_shift hs w.shared.site.characteristics c key (r.pending c)
    ((r.catalogue.working.get c).contains key)
  rw [← hf, ← hf', ← hpend] at hcases
  refine ⟨serving_shift h.serving j fs, hplain, h.filed, fun ht => ?_, fun hn hne => ?_⟩
  · rw [changesOf_append, renewed_append, Bool.or_eq_true] at ht
    change heard key ((w.shift j fs).finds c key) ((r.told (changesOf fs)).pending c)
      ((r.catalogue.working.get c).contains key) = _
    rcases hcases with ⟨hn, ho, he⟩ | ⟨-, he⟩ | ⟨hn, ho, he⟩
    · rw [he, ho]
      exact h.told (ht.imp_left fun hr => hr.resolve_right (by simp [hn]))
    · exact he
    · rw [he, h.told (ht.imp_left fun hr => hr.resolve_right (by simp [hn])), ho, Bool.false_or]
  · rw [changesOf_append, renewed_append, Bool.or_eq_false_iff] at hn
    obtain ⟨hh, hoff⟩ := h.missed hn.1 hne
    change heard key ((w.shift j fs).finds c key) ((r.told (changesOf fs)).pending c)
      ((r.catalogue.working.get c).contains key) = _ ∧ _
    rcases hcases with ⟨-, ho, he⟩ | ⟨hr, -⟩ | ⟨-, ho, he⟩
    · rw [he, ho]
      exact ⟨hh, hoff⟩
    · rw [hn.2] at hr
      cases hr
    · -- The package arrives, so the subscription did not miss its arrival but its departure.
      have ho' : offered = false := by
        by_contra ht
        rw [hoff (by simpa using ht)] at ho
        cases ho
      have hf : found = true := by
        rw [ho'] at hne
        simpa using hne
      refine ⟨by rw [he, hh, hf, Bool.true_or], fun ht => ?_⟩
      rw [ho'] at ht
      cases ht

theorem heading_run (hr : World.PackageRun v es w) {r : Registry}
    (h : Heading c key found offered [] v r) : ∃ r', Heading c key found offered es w r' := by
  induction hr with
  | refl => exact ⟨r, h⟩
  | work _ hs ih =>
    obtain ⟨r', h'⟩ := ih
    exact heading_work h' hs
  | shift _ hs ih =>
    obtain ⟨r', h'⟩ := ih
    exact ⟨_, heading_shift h' hs⟩

/-- With nothing pending the map holds the key just as it was headed for. -/
theorem Heading.contains_eq (h : Heading c key found offered es w r) (hp : r.pending c = []) :
    (r.catalogue.working.get c).contains key =
      if renewed (packageOf key) (changesOf es) = true ∨ found = offered then w.finds c key
      else found := by
  have hh : heard key (w.finds c key) (r.pending c) ((r.catalogue.working.get c).contains key) =
      (r.catalogue.working.get c).contains key := by
    rw [hp]
    rfl
  rw [← hh]
  split
  · next ht => exact h.told ht
  · next ht =>
    rw [not_or, Bool.not_eq_true] at ht
    exact (h.missed ht.1 ht.2).1

theorem heading_subscribed (hs : Serving v r) (hi : v.shared.site.installation.Plain)
    (hf : (r.catalogue.working.get c).Filed) (hp : r.pending c = []) (key : String) :
    Heading c key ((r.catalogue.working.get c).contains key) (v.finds c key) [] v r := by
  refine ⟨hs, hi, hf, fun ht => ?_, fun _ _ => ?_⟩
  · rw [hp]
    exact ht.resolve_left Bool.false_ne_true
  · rw [hp]
    exact ⟨rfl, id⟩

/-- At rest the snapshots are the working maps and nothing is left to follow. -/
theorem Serving.settled_of_atRest (h : Serving w r) (hq : r.AtRest) (c : Category) :
    r.catalogue.published.plugins? c = some (r.catalogue.working.get c) ∧ r.pending c = [] := by
  constructor
  · apply (h.covered c).resolve_right
    rintro (hx | ⟨hx, -⟩) <;> cases hq.silent _ hx
  · rw [Registry.pending, hq.queue, List.filterMap_nil, List.append_nil,
      List.filterMap_eq_nil_iff]
    intro x hx
    exact Task.followed?_of_silent (hq.silent x hx) c

/-- How a run goes on before the initial scan of a category, from there to the subscription, and
after that. -/
structure Opening (c : Category) (w : World) (es : List PackageEvent) (w' : World)
    (e₁ e₂ e₃ : List PackageEvent) (w₁ v₁ w₂ v₂ : World) : Prop where
  events : es = e₁ ++ (e₂ ++ e₃)
  before : World.PackageRun w e₁ w₁
  scans : w₁.Performs (.load c) v₁
  between : World.PackageRun v₁ e₂ w₂
  subscribes : w₂.Performs .subscribe v₂
  after : World.PackageRun v₂ e₃ w'

theorem exists_opening {site : Site} {channel : Channel}
    (hr : World.PackageRun ((World.ofSite site).start channel) es w) (h : Serving w r)
    (c : Category) :
    ∃ e₁ e₂ e₃ w₁ v₁ w₂ v₂,
      Opening c ((World.ofSite site).start channel) es w e₁ e₂ e₃ w₁ v₁ w₂ v₂ := by
  obtain ⟨e, e₃, w₂, v₂, rfl, h₂, ⟨r₂, todo₂, hb₂⟩, hs₂, hn₂, h₃⟩ :=
    hr.exists_leave (P := fun w => ∃ r todo, Booting w r todo)
      (fun v j fs ⟨r, todo, hb⟩ _ => ⟨r, todo, booting_shift hb j fs⟩)
      ⟨_, _, booting_start site channel⟩ fun ⟨_, _, hb⟩ => hb.not_serving h
  rcases booting_step hb₂ hs₂ with ⟨r', hb', -⟩ | ⟨x, rest, r', -, -, hb', -⟩ | ⟨rfl, hp₂, -⟩
  · exact absurd ⟨r', todo₂, hb'⟩ hn₂
  · exact absurd ⟨r', rest, hb'⟩ hn₂
  · obtain ⟨e₁, e₂, w₁, v₁, rfl, h₁, ⟨r₁, todo₁, hb₁, hl⟩, hs₁, hn₁, h₁₂⟩ :=
      h₂.exists_leave (P := fun w => ∃ r todo, Booting w r todo ∧ .load c ∈ todo)
        (fun v j fs ⟨r, todo, hb, hl⟩ _ => ⟨r, todo, booting_shift hb j fs, hl⟩)
        ⟨_, _, booting_start site channel, by cases c <;> simp [Task.loading, Category.all]⟩
        fun ⟨_, _, hb, hl⟩ => by
          rw [← hb₂.todo_unique hb] at hl
          cases hl
    rcases booting_step hb₁ hs₁ with ⟨r', hb', -⟩ | ⟨x, rest, r', rfl, hp₁, hb', -⟩ | ⟨rfl, -, -⟩
    · exact absurd ⟨r', todo₁, hb', hl⟩ hn₁
    · have hx : .load c = x := (List.mem_cons.1 hl).resolve_right fun hx => hn₁ ⟨r', rest, hb', hx⟩
      exact ⟨e₁, e₂, e₃, w₁, v₁, w₂, v₂, List.append_assoc .., h₁, hx ▸ hp₁, h₁₂, hp₂, h₃⟩
    · cases hl

/-- A registry that has subscribed neither scans everything nor subscribes once more. -/
theorem Serving.not_mem_todo (h : Serving w r) : (∀ c, .load c ∉ r.todo) ∧ .subscribe ∉ r.todo := by
  rcases h.worker with ⟨hi, -⟩ | ⟨todo, marks, hb, hd⟩
  · rw [Registry.todo, hi]
    simp
  · rw [Registry.todo, hb]
    generalize r.lifecycle = lifecycle at hd
    cases hd with
    | announce cs rest _ hr =>
      constructor
      · intro c hm
        rcases List.mem_append.1 hm with hm | hm
        · simp at hm
        · cases hr _ hm
      · intro hm
        rcases List.mem_append.1 hm with hm | hm
        · simp at hm
        · cases hr _ hm
    | _ => simp [Task.afterLoad, Task.following, Category.all]

/-- Only before the subscription a registry scans everything or subscribes. -/
theorem booting_of_performs {site : Site} {channel : Channel}
    (hr : World.PackageRun ((World.ofSite site).start channel) es w) (hp : w.Performs x v)
    (hx : x = .load c ∨ x = .subscribe) :
    ∃ r todo, Booting w r todo ∧ r.worker ≠ .idle ∧ (todo ++ Task.afterLoad).head? = some x := by
  obtain ⟨-, r, hreg, hhead⟩ := hp
  rcases booting_or_serving site channel hr with ⟨r', todo, hb⟩ | ⟨r', hs⟩
  · rw [World.registry?, hb.registries] at hreg
    cases hreg
    have hi : r.worker ≠ .idle := by
      intro hi
      rw [Registry.todo, hi] at hhead
      cases hhead
    obtain ⟨hw, -⟩ := hb.worker.resolve_left fun he => hi he.1
    rw [Registry.todo, hw] at hhead
    exact ⟨r, todo, hb, hi, hhead⟩
  · rw [World.registry?, hs.registries] at hreg
    cases hreg
    have hm := List.mem_of_mem_head? hhead
    rcases hx with rfl | rfl
    · exact absurd hm (hs.not_mem_todo.1 c)
    · exact absurd hm hs.not_mem_todo.2

theorem found_of_scans {site : Site} {channel : Channel}
    (hr : World.PackageRun ((World.ofSite site).start channel) es w)
    (hp : w.Performs (.load c) v) :
    Found c (loadPlugins w.shared.directory w.shared.site.characteristics c none) v := by
  obtain ⟨r, todo, hb, hi, hhead⟩ := booting_of_performs hr hp (Or.inl rfl)
  cases todo with
  | nil => cases hhead
  | cons x rest =>
    cases hhead
    obtain ⟨r', hb', -, hc⟩ := booting_task hb hi hp.1
    refine ⟨r', rest, hb', ?_, by rw [hc]; exact ByCategory.get_set_self ..⟩
    rcases Task.suffix_loading hb.suffix with he | he | he | he | he <;> cases he <;> simp

theorem serving_of_subscribes {site : Site} {channel : Channel}
    (hr : World.PackageRun ((World.ofSite site).start channel) es w)
    (hp : w.Performs .subscribe v) :
    ∃ r r', Booting w r [] ∧ Serving v r' ∧ r'.catalogue = r.catalogue ∧
      ∀ c, r'.pending c = [] := by
  obtain ⟨r, todo, hb, hi, hhead⟩ := booting_of_performs (c := .condition) hr hp (Or.inr rfl)
  have hnil : todo = [] := by
    rcases Task.suffix_loading hb.suffix with rfl | rfl | rfl | rfl | rfl
    · cases hhead
    · cases hhead
    · cases hhead
    · cases hhead
    · rfl
  subst hnil
  obtain ⟨r', hs, -, hc⟩ := booting_subscribe hb hp.1
  exact ⟨r, r', hb, hs, hc⟩

theorem serving_of_ready {site : Site} {channel : Channel}
    (hr : World.PackageRun ((World.ofSite site).start channel) es w)
    (hreg : w.registry? 0 = some r) (hl : r.lifecycle = .ready) : Serving w r := by
  rcases booting_or_serving site channel hr with ⟨r', todo, hb⟩ | ⟨r', hr'⟩
  · rw [World.registry?, hb.registries] at hreg
    cases hreg
    rcases hb.worker with ⟨-, -, hl', -⟩ | ⟨-, -, hl'⟩ <;> cases hl'.symm.trans hl
  · rw [World.registry?, hr'.registries] at hreg
    cases hreg
    exact hr'

/-- When a registry subscribes, its working map is what the initial scan has found. -/
theorem Opening.working {site : Site} {channel : Channel} {w₁ v₁ w₂ v₂ : World}
    (h : Opening c ((World.ofSite site).start channel) es w e₁ e₂ e₃ w₁ v₁ w₂ v₂) :
    ∃ r, Serving v₂ r ∧ (∀ c, r.pending c = []) ∧ r.catalogue.working.get c =
      loadPlugins w₁.shared.directory w₁.shared.site.characteristics c none := by
  have hbefore : World.PackageRun ((World.ofSite site).start channel) (e₁ ++ e₂) w₂ :=
    (h.before.work h.scans.1).trans h.between
  obtain ⟨r, r', hb, hs, hc, hp⟩ := serving_of_subscribes hbefore h.subscribes
  refine ⟨r', hs, hp, ?_⟩
  rcases found_or_serving h.between (found_of_scans h.before h.scans) with
    ⟨r₂, todo, hb₂, -, hw⟩ | ⟨r₂, hs₂⟩
  · have hr : [r] = [r₂] := hb.registries.symm.trans hb₂.registries
    cases hr
    rw [hc, hw]
  · exact absurd hs₂ hb.not_serving

/-- At rest a snapshot exists and has the keys of a full scan, but for the keys on which the
initial scan and the installation at the time of the subscription disagree; such a key stays as the
scan has found it until its package is replaced or uninstalled. -/
theorem published_of_atRest {site : Site} {channel : Channel} (hi : site.installation.Plain)
    (hr : World.PackageRun ((World.ofSite site).start channel) es w)
    (hreg : w.registry? 0 = some r) (hq : r.AtRest) (c : Category) :
    (∃ e₁ e₂ e₃ w₁ v₁ w₂ v₂,
      Opening c ((World.ofSite site).start channel) es w e₁ e₂ e₃ w₁ v₁ w₂ v₂) ∧
    ∃ m, r.catalogue.published.plugins? c = some m ∧ ∀ e₁ e₂ e₃ w₁ v₁ w₂ v₂,
      Opening c ((World.ofSite site).start channel) es w e₁ e₂ e₃ w₁ v₁ w₂ v₂ →
      ∀ key, m.contains key =
        if renewed (packageOf key) (changesOf e₃) = true ∨ w₁.finds c key = w₂.finds c key then
          w.finds c key
        else w₁.finds c key := by
  have hserving := serving_of_ready hr hreg hq.ready
  obtain ⟨hpub, hnone⟩ := hserving.settled_of_atRest hq c
  refine ⟨exists_opening hr hserving c, _, hpub, fun e₁ e₂ e₃ w₁ v₁ w₂ v₂ h key => ?_⟩
  obtain ⟨r₃, hs, hpend, hw⟩ := h.working
  have hsite := World.site_step h.subscribes.1
  have hplain : v₂.shared.site.installation.Plain := by
    rw [hsite]
    exact (((h.before.work h.scans.1).trans h.between).site hi).1
  have hf : v₂.finds c key = w₂.finds c key := by
    rw [World.finds, World.finds, Shared.directory, Shared.directory, hsite]
  have hfiled : (r₃.catalogue.working.get c).Filed := hw ▸ filed_loadPlugins (h.before.site hi).1
  obtain ⟨r', h'⟩ := heading_run h.after (heading_subscribed hs hplain hfiled (hpend c) key)
  have hr' : [r'] = [r] := h'.serving.registries.symm.trans hserving.registries
  cases hr'
  rw [hf, hw] at h'
  exact h'.contains_eq hnone

def bareWorld : World := (World.ofSite ⟨.bare 0, ∅⟩).start (Settings.default.channel "1")

def scannedWorld : World := World.runOne .none 0 5 bareWorld

/-- A package was installed after the scans and before the subscription. -/
def overtakenWorld : World :=
  World.runOne .none 0 8 (scannedWorld.shift
    (scannedWorld.shared.site.installation.install (.meter 1)) [.added "meter" false])

theorem run_overtakenWorld : World.PackageRun bareWorld [.added "meter" false] overtakenWorld :=
  ((World.PackageRun.refl.runOne 5).shift
    (.installs (.meter 1) (by decide +kernel) (Package.plainName_meter 1))).runOne 8

theorem atRest_overtakenWorld :
    ∃ r m, overtakenWorld.registry? 0 = some r ∧ r.AtRest ∧
      r.catalogue.published.plugins? .condition = some m ∧ m.contains "meter:Edit" = false := by
  have h : (overtakenWorld.registry? 0).any (fun r =>
      r.lifecycle = .ready && r.mailbox.queue = [] && r.todo.all Task.silent &&
        (r.catalogue.published.plugins? .condition).any fun m =>
          !m.contains "meter:Edit") = true := by
    decide +kernel
  obtain ⟨r, hr, h⟩ := (Option.any_eq_true ..).1 h
  simp only [Bool.and_eq_true, decide_eq_true_eq, List.all_eq_true] at h
  obtain ⟨⟨⟨hl, hq⟩, hs⟩, hm⟩ := h
  obtain ⟨m, hm, hk⟩ := (Option.any_eq_true ..).1 hm
  exact ⟨r, m, hr, ⟨hl, hq, hs⟩, hm, by simpa using hk⟩

theorem finds_overtakenWorld : overtakenWorld.finds .condition "meter:Edit" = true := by
  decide +kernel

/-- The installation after the scans is what the snapshot lacks. -/
theorem published_of_atRest_overtaken :
    ∃ e₁ e₂ e₃ w₁ v₁ w₂ v₂,
      Opening .condition bareWorld [.added "meter" false] overtakenWorld e₁ e₂ e₃ w₁ v₁ w₂ v₂ ∧
      w₁.finds .condition "meter:Edit" ≠ w₂.finds .condition "meter:Edit" := by
  obtain ⟨r, m, hr, hq, hm, hk⟩ := atRest_overtakenWorld
  obtain ⟨⟨e₁, e₂, e₃, w₁, v₁, w₂, v₂, ho⟩, m', hm', hkeys⟩ :=
    published_of_atRest (Installation.plain_bare 0) run_overtakenWorld hr hq .condition
  refine ⟨e₁, e₂, e₃, w₁, v₁, w₂, v₂, ho, fun he => ?_⟩
  cases hm.symm.trans hm'
  have hkey := hkeys _ _ _ _ _ _ _ ho "meter:Edit"
  rw [if_pos (Or.inr he), hk, finds_overtakenWorld] at hkey
  cases hkey

/-- A snapshot need not have the keys of a full scan when the registry is at rest. -/
theorem change_missed :
    ¬∀ (site : Site) (channel : Channel) (es : List PackageEvent) (w : World) (r : Registry),
      site.installation.Plain → World.PackageRun ((World.ofSite site).start channel) es w →
      w.registry? 0 = some r → r.AtRest → ∀ c, ∃ m,
        r.catalogue.published.plugins? c = some m ∧
          m.keys = (loadPlugins w.shared.directory w.shared.site.characteristics c none).keys := by
  intro h
  obtain ⟨r, m, hr, hq, hm, hk⟩ := atRest_overtakenWorld
  obtain ⟨m', hm', hkeys⟩ :=
    h _ _ _ _ r (Installation.plain_bare 0) run_overtakenWorld hr hq .condition
  cases hm.symm.trans hm'
  have hkey := (KeyMap.keys_eq_iff.1 hkeys "meter:Edit").symm.trans hk
  cases hkey.symm.trans finds_overtakenWorld

end PluginRegistry.Live
