import PluginRegistry.Live.Instances
import PluginRegistry.Proofs.Destruction
import PluginRegistry.Proofs.Histories

/-!
# The life of the process-wide registry

A process calls for the process-wide registry, starts others and asks for some to be destroyed,
while workers work and packages change. What a call makes of the process is one of a few cases
(`Makes`), and each of them keeps the books in order (`Sound`): the registries that were installed
are the one that is process-wide, and those that let themselves be destroyed are others, each once.
-/

namespace PluginRegistry.Live

open Actor

/-- What may happen around a registry that is not for its owner to do. -/
def Act.ambient : Act → Bool
  | .start _ | .drop _ | .requestDestroy _ => false
  | _ => true

namespace Registry

variable {a : Nat} {s s' : Shared} {r r' : Registry} {o : Outage} {x : Act}

theorem dropped_works (h : r.Works o a s s' r') : r'.dropped = r.dropped := by
  cases h with
  | take m q hw hq ha => cases m <;> rw [accept] at ha <;> split at ha <;> cases ha <;> rfl
  | finish | rest | stop | leave => rfl
  | perform x todo marks hw hp => cases hp <;> rfl

/-- Unless its owner has done with it or a panic has ended it, a registry takes messages and its
worker handles them. -/
def Serving (r : Registry) : Prop :=
  r.destroyRequested = false → r.dropped = false → r.hasFailed = false →
    r.ending? = none ∧ r.mailbox.closed = false

theorem serving_of_open (h : r.mailbox.closed = false) (he : r.ending? = none) : r.Serving :=
  fun _ _ _ => ⟨he, h⟩

theorem hasFailed_of_handling (he : r.ending? = none) : r.hasFailed = false := by
  rw [hasFailed, he]
  rfl

theorem serving_works (hs : r.Stage) (hu : r.Unasked) (hr : r.Serving)
    (h : r.Works o a s s' r') : r'.Serving := by
  intro hreq hdrop hcalm
  have hreq' : r.destroyRequested = false := (requested_works h).symm.trans hreq
  have hdrop' : r.dropped = false := (dropped_works h).symm.trans hdrop
  have still (he : r.ending? = none) : r.mailbox.closed = false :=
    (hr hreq' hdrop' (hasFailed_of_handling he)).2
  -- A worker that ends now would have ended before.
  have ended {e : Exit} (he : r.ending? = some e) (he' : r'.ending? = some e) : False := by
    have hcalm' : r.hasFailed = false := by
      rw [hasFailed, he, ← he']
      exact hcalm
    cases he.symm.trans (hr hreq' hdrop' hcalm').1
  cases h with
  | take m q hw hq ha =>
    have hopen := still (by rw [ending?, hw])
    cases accepts_of_idle hs hw hq ha with
    | init | package => exact ⟨rfl, hopen⟩
    | destroy =>
      refine absurd ?_ (hu hreq').1
      rw [hq]
      exact List.mem_cons_self
  | finish hw hq hc => exact absurd hc (by simp [still (by rw [ending?, hw])])
  | rest marks hw => exact ⟨rfl, still (by rw [ending?, hw])⟩
  | stop e hw => exact (ended (e := e) (by rw [ending?, hw]) rfl).elim
  | leave e hw => exact (ended (e := e) (by rw [ending?, hw]) rfl).elim
  | perform y todo marks hw hp =>
    have hopen := still (by rw [ending?, hw])
    cases hp with
    | breaks => cases hcalm
    | _ => exact ⟨rfl, hopen⟩

theorem serving_turn (hs : r.Stage) (hu : r.Unasked) (hr : r.Serving) (h : r.Turn a s x r') :
    r'.Serving := by
  cases h with
  | work _ step => exact serving_works hs hu hr (works_of_step step)
  | stay | release => exact hr
  | drop => exact fun _ hd => by cases hd
  | summon => exact fun hd => by cases hd
  | told _ xs =>
    obtain ⟨ys, hm, -⟩ := mailbox_told r xs
    intro hreq hdrop hcalm
    rw [hm]
    exact hr hreq hdrop hcalm

end Registry

namespace World

variable {site : Site} {t t' : List Moment} {w w' : World} {a : Nat} {r : Registry} {x : Act}

theorem serving_of_run (run : Run (ofSite site) t w) (hr : w.registry? a = some r) : r.Serving :=
  run.traced (P := fun _ r => r.Serving) hr
    (fun _ _ => Registry.serving_of_open rfl rfl)
    fun run hu ih ht =>
      Registry.serving_turn (stage_of_run run hu) (unasked_of_run run hu) ih ht

/-- Only its owner lets go of a registry or asks for it to be destroyed. -/
theorem owner_of_ambient (h : w.act x = some w') (hx : x.ambient = true)
    (hr : w.registry? a = some r) :
    ∃ r', w'.registry? a = some r' ∧ r'.dropped = r.dropped ∧
      r'.destroyRequested = r.destroyRequested := by
  have hmod (b : Nat) {f : Registry → Registry} (hf : ∀ r, (f r).dropped = r.dropped ∧
      (f r).destroyRequested = r.destroyRequested) :
      ∃ r', World.registry? (w.modify b f) a = some r' ∧ r'.dropped = r.dropped ∧
        r'.destroyRequested = r.destroyRequested := by
    refine ⟨if b = a then f r else r, by rw [World.registry?_modify, hr]; rfl, ?_⟩
    split
    · exact hf r
    · exact ⟨rfl, rfl⟩
  cases happens_of_act h with
  | work o b r₁ hr₁ hs =>
    by_cases hb : b = a
    · subst hb
      cases hr₁.symm.trans hr
      have hw := Registry.works_of_step hs
      exact ⟨_, List.getElem?_set_self (List.getElem?_eq_some_iff.1 hr).1,
        Registry.dropped_works hw, Registry.requested_works hw⟩
    · exact ⟨r, (List.getElem?_set_ne hb).trans hr, rfl, rfl⟩
  | furnish | hold | await | wake => exact ⟨r, hr, rfl, rfl⟩
  | emit e =>
    obtain ⟨xs, hxs⟩ := registry?_emit w e a
    exact ⟨r.told xs, by rw [hxs, hr]; rfl, rfl, rfl⟩
  | arrive b y => exact hmod b fun _ => ⟨rfl, rfl⟩
  | finishDestroy b => exact hmod b fun _ => ⟨rfl, rfl⟩
  | start | drop | requestDestroy => cases hx

/-- A worker that runs until it waits does nothing but to work. -/
theorem acts_runOne (o : Outage) (b n : Nat) (w : World) :
    ∃ xs : List Act, (∀ x ∈ xs, x.ambient = true) ∧ w.acts xs = some (runOne o b n w) := by
  induction n generalizing w with
  | zero => exact ⟨[], nofun, rfl⟩
  | succ n ih =>
    rw [runOne]
    cases hs : w.step o b with
    | none => exact ⟨[], nofun, rfl⟩
    | some v =>
      obtain ⟨xs, hxs, he⟩ := ih v
      refine ⟨.work o b :: xs, List.forall_mem_cons.2 ⟨rfl, hxs⟩, ?_⟩
      change (w.step o b).bind (·.acts xs) = _
      rw [hs]
      exact he

theorem acts_append (w : World) (xs ys : List Act) :
    w.acts (xs ++ ys) = (w.acts xs).bind (·.acts ys) :=
  List.foldlM_append

/-- So do all workers, and then those who wait look again. -/
theorem acts_settle (o : Outage) (w : World) :
    ∃ xs : List Act, (∀ x ∈ xs, x.ambient = true) ∧ w.acts xs = some (w.settle o) := by
  have workers (as : List Nat) (w : World) : ∃ xs : List Act, (∀ x ∈ xs, x.ambient = true) ∧
      w.acts xs = some (as.foldl
        (fun w a => runOne o a ((w.registry? a).elim 0 Registry.budget) w) w) := by
    induction as generalizing w with
    | nil => exact ⟨[], nofun, rfl⟩
    | cons b as ih =>
      obtain ⟨xs, hxs, he⟩ := acts_runOne o b ((w.registry? b).elim 0 Registry.budget) w
      obtain ⟨ys, hys, he'⟩ := ih (runOne o b ((w.registry? b).elim 0 Registry.budget) w)
      exact ⟨xs ++ ys, List.forall_mem_append.2 ⟨hxs, hys⟩, by
        rw [acts_append, he, Option.bind_some, he', List.foldl_cons]⟩
  obtain ⟨xs, hxs, he⟩ := workers (List.range w.registries.length) w
  refine ⟨xs ++ [.wake], List.forall_mem_append.2 ⟨hxs, by decide⟩, ?_⟩
  rw [acts_append, he]
  rfl

end World

namespace Instances

/-- What is done in a process: the process-wide registry is called for or looked for, another one is
started, somebody asks for one to be destroyed, or something happens around one. -/
inductive Call
  | obtain (init : Initializer)
  | look
  | create (site : Site) (channel : Channel)
  | destroy (i : Nat)
  | live (i : Nat) (x : Act) (ambient : x.ambient = true)

/-- What a caller gets: the place of a registry or nothing. A destruction that is refused and an
initializer that fails or panics end in a panic of the caller. -/
inductive Answer
  | shared (i : Nat)
  | own (i : Nat)
  | absent
  | done
  | refused (why : Refusal)
  | uninitialized
  deriving DecidableEq

def perform (p : Instances) : Call → Instances × Answer
  | .obtain init =>
    match p.getOrCreate init with
    | some (p, i, _) => (p, .shared i)
    | none => (p, .uninitialized)
  | .look => (p, p.shared?.elim .absent .shared)
  | .create site channel => ((p.create site channel).1, .own (p.create site channel).2)
  | .destroy i =>
    match p.requestDestroy i with
    | .ok p => (p, .done)
    | .error e => (p, .refused e)
  | .live i x _ => ({ p with worlds := p.worlds.modify i fun w => (w.act x).getD w }, .done)

def next (p : Instances) (c : Call) : Instances := (p.perform c).1

inductive Makes (p : Instances) : Call → Instances → Answer → Prop
  | found (init : Initializer) (i : Nat) (shared : p.shared? = some i) :
      Makes p (.obtain init) p (.shared i)
  | installed (site : Site) (channel : Channel) (missing : p.shared? = none) :
      Makes p (.obtain (.start site channel))
        ⟨p.worlds ++ [(World.ofSite site).start channel], some p.worlds.length⟩
        (.shared p.worlds.length)
  | failed (init : Initializer) (missing : p.shared? = none)
      (fails : ∀ site channel, init ≠ .start site channel) :
      Makes p (.obtain init) p .uninitialized
  | seen (i : Nat) (shared : p.shared? = some i) : Makes p .look p (.shared i)
  | unseen (missing : p.shared? = none) : Makes p .look p .absent
  | created (site : Site) (channel : Channel) :
      Makes p (.create site channel)
        { p with worlds := p.worlds ++ [(World.ofSite site).start channel] }
        (.own p.worlds.length)
  | spared (i : Nat) (shared : p.shared? = some i) :
      Makes p (.destroy i) p (.refused .processWide)
  | void (i : Nat) (void : p.registryOf i = none) : Makes p (.destroy i) p .done
  | again (i : Nat) (other : p.shared? ≠ some i) (r : Registry) (registry : p.registryOf i = some r)
      (asked : r.destroyRequested = true) : Makes p (.destroy i) p (.refused .twice)
  | asked (i : Nat) (other : p.shared? ≠ some i) (w w' : World) (world : p.worlds[i]? = some w)
      (act : w.act (.requestDestroy 0) = some w') :
      Makes p (.destroy i) { p with worlds := p.worlds.set i w' } .done
  | lived (i : Nat) (x : Act) (ambient : x.ambient = true) :
      Makes p (.live i x ambient)
        { p with worlds := p.worlds.modify i fun w => (w.act x).getD w } .done

variable {p p' : Instances} {c : Call} {ans : Answer} {i j : Nat} {w w' : World} {r : Registry}
  {t : List (Instant Instances Call)}

theorem perform_found (h : p.shared? = some i) (init : Initializer) :
    p.perform (.obtain init) = (p, .shared i) := by
  simp [perform, getOrCreate, h]

theorem perform_installed (h : p.shared? = none) (site : Site) (channel : Channel) :
    p.perform (.obtain (.start site channel)) =
      (⟨p.worlds ++ [(World.ofSite site).start channel], some p.worlds.length⟩,
        .shared p.worlds.length) := by
  simp [perform, getOrCreate, h, create]

theorem perform_failed (h : p.shared? = none) (init : Initializer)
    (fails : ∀ site channel, init ≠ .start site channel) :
    p.perform (.obtain init) = (p, .uninitialized) := by
  cases init with
  | start site channel => exact absurd rfl (fails site channel)
  | failing | panicking => simp [perform, getOrCreate, h]

theorem perform_spared (h : p.shared? = some i) :
    p.perform (.destroy i) = (p, .refused .processWide) := by
  simp [perform, requestDestroy, h]

theorem perform_void (h : p.registryOf i = none) (other : p.shared? ≠ some i) :
    p.perform (.destroy i) = (p, .done) := by
  rw [registryOf] at h
  cases hw : p.worlds[i]? with
  | none => simp [perform, requestDestroy, other, hw]
  | some w =>
    rw [hw] at h
    have hr : w.registry? 0 = none := h
    simp [perform, requestDestroy, other, hw, hr]

theorem perform_again (hw : p.worlds[i]? = some w) (hr : w.registry? 0 = some r)
    (other : p.shared? ≠ some i) (asked : r.destroyRequested = true) :
    p.perform (.destroy i) = (p, .refused .twice) := by
  simp [perform, requestDestroy, other, hw, hr, World.requestDestroy, asked, bind, Except.bind]

/-- A registry that nobody has asked to be destroyed is asked. -/
theorem perform_asked (hw : p.worlds[i]? = some w) (hr : w.registry? 0 = some r)
    (other : p.shared? ≠ some i) (first : r.destroyRequested = false) :
    ∃ w', w.act (.requestDestroy 0) = some w' ∧
      p.perform (.destroy i) = ({ p with worlds := p.worlds.set i w' }, .done) := by
  refine ⟨w.modify 0 fun r =>
    { r with destroyRequested := true, mailbox := (r.mailbox.send .destroy).1 }, ?_, ?_⟩
  · rw [World.act, hr, Option.bind_some, World.requestDestroy, if_neg (by simp [first])]
    rfl
  · simp [perform, requestDestroy, other, hw, hr, World.requestDestroy, first, bind, Except.bind,
      pure, Except.pure]

theorem makes_destroy (p : Instances) (i : Nat) :
    p.Makes (.destroy i) (p.perform (.destroy i)).1 (p.perform (.destroy i)).2 := by
  by_cases other : p.shared? = some i
  · rw [perform_spared other]
    exact .spared i other
  · cases hr : p.registryOf i with
    | none =>
      rw [perform_void hr other]
      exact .void i hr
    | some r =>
      obtain ⟨w, hw, hr'⟩ := Option.bind_eq_some_iff.1 hr
      cases asked : r.destroyRequested with
      | true =>
        rw [perform_again hw hr' other asked]
        exact .again i other r hr asked
      | false =>
        obtain ⟨w', hx, he⟩ := perform_asked hw hr' other asked
        rw [he]
        exact .asked i other w w' hw hx

theorem makes_perform (p : Instances) (c : Call) :
    p.Makes c (p.perform c).1 (p.perform c).2 := by
  cases c with
  | obtain init =>
    cases hs : p.shared? with
    | some i =>
      rw [perform_found hs]
      exact .found init i hs
    | none =>
      cases init with
      | start site channel =>
        rw [perform_installed hs]
        exact .installed site channel hs
      | failing =>
        rw [perform_failed hs .failing nofun]
        exact .failed .failing hs nofun
      | panicking =>
        rw [perform_failed hs .panicking nofun]
        exact .failed .panicking hs nofun
  | look =>
    rw [perform]
    cases hs : p.shared? with
    | some i => exact .seen i hs
    | none => exact .unseen hs
  | create site channel => exact .created site channel
  | destroy i => exact p.makes_destroy i
  | live i x ambient => exact .lived i x ambient

def installs (p : Instances) : Call → Option Nat
  | .obtain (.start _ _) => if p.shared? = none then some p.worlds.length else none
  | _ => none

def Answer.given : Answer → Option Nat
  | .shared i => some i
  | _ => none

def destroys (p : Instances) : Call → Answer → Option Nat
  | .destroy i, .done => if i < p.worlds.length then some i else none
  | _, _ => none

theorem shared_makes (h : p.Makes c p' ans) :
    p'.shared?.toList = p.shared?.toList ++ (p.installs c).toList := by
  cases h with
  | found init i shared => cases init <;> simp [installs, shared]
  | installed site channel missing => simp [installs, missing]
  | failed init missing fails =>
    cases init with
    | start site channel => exact absurd rfl (fails site channel)
    | failing | panicking => exact (List.append_nil _).symm
  | seen | unseen | created | spared | void | again | asked | lived =>
    exact (List.append_nil _).symm

theorem shared_of_makes (h : p.Makes c p' ans) (hs : p.shared? = some i) :
    p'.shared? = some i := by
  cases h with
  | installed site channel missing => cases hs.symm.trans missing
  | _ => exact hs

theorem given_makes (h : p.Makes c p' ans) (hi : i ∈ ans.given) : p'.shared? = some i := by
  cases h with
  | found init j shared | seen j shared =>
    cases hi
    exact shared
  | installed =>
    cases hi
    rfl
  | _ => cases hi

theorem lt_of_destroys (h : p.destroys c ans = some i) : i < p.worlds.length := by
  unfold destroys at h
  split at h
  · split at h
    · cases h
      assumption
    · cases h
  · cases h

theorem length_makes (h : p.Makes c p' ans) : p.worlds.length ≤ p'.worlds.length := by
  cases h with
  | found | failed | seen | unseen | spared | void | again => exact Nat.le_refl _
  | installed | created => simp
  | asked | lived => simp

/-- The process-wide registry is a new one. -/
theorem new_of_makes (h : p.Makes c p' ans) (missing : p.shared? = none)
    (hs : p'.shared? = some i) :
    i = p.worlds.length ∧ i < p'.worlds.length ∧ p.destroys c ans = none := by
  cases h with
  | installed site channel =>
    cases hs
    exact ⟨rfl, by simp, rfl⟩
  | _ => cases missing.symm.trans hs

/-- A registry is destroyed because somebody asks for it who is the first to do so. -/
theorem asked_of_destroys (h : p.Makes c p' ans) (hd : p.destroys c ans = some i)
    (hr : (p.registryOf i).isSome = true) :
    p.shared? ≠ some i ∧ ∃ w w', p.worlds[i]? = some w ∧ w.act (.requestDestroy 0) = some w' ∧
      p'.worlds[i]? = some w' := by
  have hi := lt_of_destroys hd
  cases h with
  | void j void =>
    have hj : j = i := by
      rw [destroys] at hd
      split at hd
      · exact Option.some.inj hd
      · cases hd
    rw [hj] at void
    simp [void] at hr
  | asked j other w w' hw hx =>
    rw [destroys, if_pos (List.getElem?_eq_some_iff.1 hw).1] at hd
    cases hd
    exact ⟨other, w, w', hw, hx, List.getElem?_set_self hi⟩
  | _ => cases hd

/-- What happens to a world besides: nothing, or something that is not for the owner to do. -/
theorem world_makes (h : p.Makes c p' ans) (hd : p.destroys c ans ≠ some i)
    (hw : p.worlds[i]? = some w) :
    ∃ w', p'.worlds[i]? = some w' ∧
      (w' = w ∨ ∃ x, x.ambient = true ∧ w.act x = some w') := by
  have hi : i < p.worlds.length := (List.getElem?_eq_some_iff.1 hw).1
  have keep {ws : List World} : (p.worlds ++ ws)[i]? = some w := by
    rw [List.getElem?_append_left hi, hw]
  cases h with
  | found | failed | seen | unseen | spared | void | again => exact ⟨w, hw, Or.inl rfl⟩
  | installed | created => exact ⟨w, keep, Or.inl rfl⟩
  | asked j other u u' hu hx =>
    have hj : j ≠ i := by
      rintro rfl
      exact hd (if_pos hi)
    exact ⟨w, (List.getElem?_set_ne hj).trans hw, Or.inl rfl⟩
  | lived j x ambient =>
    refine ⟨if j = i then (w.act x).getD w else w, by rw [List.getElem?_modify, hw]; rfl, ?_⟩
    split
    · cases hx : w.act x with
      | none => exact Or.inl rfl
      | some w' => exact Or.inr ⟨x, ambient, hx⟩
    · exact Or.inl rfl

/-- A world that was not there before. -/
theorem started_of_makes (h : p.Makes c p' ans) (hi : p.worlds.length ≤ i)
    (hw : p'.worlds[i]? = some w') :
    ∃ site channel, w' = (World.ofSite site).start channel := by
  have hnone : p.worlds[i]? = none := List.getElem?_eq_none hi
  have last {site : Site} {channel : Channel}
      (hw : (p.worlds ++ [(World.ofSite site).start channel])[i]? = some w') :
      w' = (World.ofSite site).start channel := by
    rw [List.getElem?_append_right hi] at hw
    exact List.mem_singleton.1 (List.mem_of_getElem? hw)
  cases h with
  | found | failed | seen | unseen | spared | void | again => cases hnone.symm.trans hw
  | installed site channel | created site channel => exact ⟨site, channel, last hw⟩
  | asked | lived =>
    rw [List.getElem?_eq_none (by simpa using hi)] at hw
    cases hw

def installations (t : List (Instant Instances Call)) : List Nat :=
  t.filterMap fun e => e.state.installs e.act

def handouts (t : List (Instant Instances Call)) : List Nat :=
  t.filterMap fun e => (e.state.perform e.act).2.given

def destructions (t : List (Instant Instances Call)) : List Nat :=
  t.filterMap fun e => e.state.destroys e.act (e.state.perform e.act).2

/-- The books of a process after some calls. -/
structure Sound (t : List (Instant Instances Call)) (p : Instances) : Prop where
  /-- Each world was run with a registry that its owner has kept. -/
  worlds : ∀ i w, p.worlds[i]? = some w → ∃ site t' r, World.Run (.ofSite site) t' w ∧
    w.registry? 0 = some r ∧ r.dropped = false ∧
    (r.destroyRequested = true ↔ i ∈ destructions t)
  installed : installations t = p.shared?.toList
  given : ∀ i ∈ handouts t, p.shared? = some i
  place : ∀ i, p.shared? = some i → i < p.worlds.length ∧ i ∉ destructions t
  known : ∀ i ∈ destructions t, i < p.worlds.length
  once : (destructions t).Nodup

theorem Sound.registry (h : Sound t p) (hi : i < p.worlds.length) :
    ∃ w r, p.worlds[i]? = some w ∧ w.registry? 0 = some r ∧ p.registryOf i = some r := by
  obtain ⟨w, hw⟩ : ∃ w, p.worlds[i]? = some w := ⟨_, List.getElem?_eq_getElem hi⟩
  obtain ⟨-, -, r, -, hr, -⟩ := h.worlds i w hw
  exact ⟨w, r, hw, hr, by rw [registryOf, hw]; exact hr⟩

/-- A registry that is destroyed was not asked before. -/
theorem Sound.first (h : Sound t p) (hm : p.Makes c p' ans) (hd : p.destroys c ans = some i) :
    p.shared? ≠ some i ∧ i ∉ destructions t ∧ ∃ w w', p.worlds[i]? = some w ∧
      w.act (.requestDestroy 0) = some w' ∧ p'.worlds[i]? = some w' := by
  obtain ⟨-, r, -, -, hreg⟩ := h.registry (lt_of_destroys hd)
  obtain ⟨other, w, w', hw, hx, hw'⟩ := asked_of_destroys hm hd (by rw [hreg]; rfl)
  obtain ⟨-, -, r, -, hr, -, hasked⟩ := h.worlds i w hw
  have hnot : r.destroyRequested = false := (World.registry?_of_request hx hr).1
  exact ⟨other, fun hmem => by simp [hasked.2 hmem] at hnot, w, w', hw, hx, hw'⟩

theorem Sound.worlds_next (h : Sound t p) (c : Call) {w' : World}
    (hw' : (p.next c).worlds[i]? = some w') :
    ∃ site t' r, World.Run (.ofSite site) t' w' ∧ w'.registry? 0 = some r ∧ r.dropped = false ∧
      (r.destroyRequested = true ↔ i ∈ destructions (t ++ [⟨p, c⟩])) := by
  have hm := p.makes_perform c
  rw [destructions, filterMap_snoc, List.mem_append, Option.mem_toList]
  change ∃ site t' r, _ ∧ _ ∧ _ ∧ (_ ↔ i ∈ destructions t ∨ p.destroys c (p.perform c).2 = some i)
  rcases Nat.lt_or_ge i p.worlds.length with hi | hi
  · obtain ⟨w, hw⟩ : ∃ w, p.worlds[i]? = some w := ⟨_, List.getElem?_eq_getElem hi⟩
    obtain ⟨site, t', r, run, hr, hkept, hasked⟩ := h.worlds i w hw
    by_cases hd : p.destroys c (p.perform c).2 = some i
    · obtain ⟨-, -, u, u', hu, hx, hu'⟩ := h.first hm hd
      cases hu.symm.trans hw
      cases hu'.symm.trans hw'
      exact ⟨site, _, _, run.act hx, (World.registry?_of_request hx hr).2, hkept,
        iff_of_true rfl (Or.inr hd)⟩
    · obtain ⟨u, hu, hgo⟩ := world_makes hm hd hw
      cases hu.symm.trans hw'
      rcases hgo with rfl | ⟨x, ambient, hx⟩
      · exact ⟨site, t', r, run, hr, hkept, by simp [hasked, hd]⟩
      · obtain ⟨r', hr', hdrop, hreq⟩ := World.owner_of_ambient hx ambient hr
        exact ⟨site, _, r', run.act hx, hr', hdrop.trans hkept, by simp [hreq, hasked, hd]⟩
  · obtain ⟨site, channel, rfl⟩ := started_of_makes hm hi hw'
    have hstart : (World.ofSite site).act (.start channel) =
        some ((World.ofSite site).start channel) := rfl
    refine ⟨site, _, .start channel, World.Run.refl.act hstart, rfl, rfl,
      iff_of_false nofun ?_⟩
    rintro (hmem | hd)
    · exact absurd (h.known i hmem) (by omega)
    · exact absurd (lt_of_destroys hd) (by omega)

theorem Sound.next (h : Sound t p) (c : Call) : Sound (t ++ [⟨p, c⟩]) (p.next c) := by
  have hm := p.makes_perform c
  have hd : destructions (t ++ [⟨p, c⟩]) =
      destructions t ++ (p.destroys c (p.perform c).2).toList := filterMap_snoc ..
  have hlen := length_makes hm
  refine ⟨fun i w => h.worlds_next c, ?installed, ?given, ?place, ?known, ?once⟩
  case installed =>
    rw [installations, filterMap_snoc]
    exact (congrArg (· ++ _) h.installed).trans (shared_makes hm).symm
  case given =>
    intro i hi
    rw [handouts, filterMap_snoc, List.mem_append, Option.mem_toList] at hi
    rcases hi with hi | hi
    · exact shared_of_makes hm (h.given i hi)
    · exact given_makes hm hi
  case place =>
    intro i hi
    rw [hd, List.mem_append, Option.mem_toList]
    cases hs : p.shared? with
    | some j =>
      cases (shared_of_makes hm hs).symm.trans hi
      obtain ⟨hlt, hnot⟩ := h.place i hs
      exact ⟨Nat.lt_of_lt_of_le hlt hlen, not_or.2 ⟨hnot, fun hi => (h.first hm hi).1 hs⟩⟩
    | none =>
      obtain ⟨rfl, hlt, hnone⟩ := new_of_makes hm hs hi
      rw [hnone]
      exact ⟨hlt, not_or.2 ⟨fun hmem => Nat.lt_irrefl _ (h.known _ hmem), nofun⟩⟩
  case known =>
    intro i hi
    rw [hd, List.mem_append, Option.mem_toList] at hi
    rcases hi with hi | hi
    · exact Nat.lt_of_lt_of_le (h.known i hi) hlen
    · exact Nat.lt_of_lt_of_le (lt_of_destroys hi) hlen
  case once =>
    rw [hd]
    cases he : p.destroys c (p.perform c).2 with
    | none => simpa using h.once
    | some i =>
      refine List.nodup_append.2 ⟨h.once, List.nodup_singleton i, fun a ha b hb => ?_⟩
      cases List.mem_singleton.1 hb
      rintro rfl
      exact (h.first hm he).2.1 ha

theorem sound_after (cs : List Call) : Sound (history next empty cs) (after next empty cs) :=
  history_induction next ⟨nofun, rfl, nofun, nofun, nofun, List.nodup_nil⟩
    (fun _ _ c h => h.next c) cs

/-- Whatever is called, the process-wide registry remains and only lives on. -/
theorem Sound.onward (h : Sound t p) (hs : p.shared? = some i) (hw : p.worlds[i]? = some w)
    (cs : List Call) :
    ∃ t' w', (after Instances.next p cs).worlds[i]? = some w' ∧ World.Run w t' w' := by
  induction cs generalizing t p w with
  | nil => exact ⟨[], w, hw, .refl⟩
  | cons c cs ih =>
    have hm := p.makes_perform c
    obtain ⟨u, hu, hgo⟩ := world_makes hm (fun hd => (h.first hm hd).1 hs) hw
    obtain ⟨t', w', hw', run⟩ := ih (h.next c) (shared_of_makes hm hs) hu
    rcases hgo with rfl | ⟨x, -, hx⟩
    · exact ⟨t', w', hw', run⟩
    · exact ⟨_, w', hw', (World.Run.refl.act hx).trans run⟩

/-- Once the process-wide registry is loaded, it is and remains readable. -/
theorem Sound.reads (h : Sound t p) (hs : p.shared? = some i) (hr : p.registryOf i = some r)
    (loaded : r.isLoaded = true) (cs : List Call) (c : Category) :
    ∃ r' m, (after Instances.next p cs).registryOf i = some r' ∧ r'.peek c = some m ∧
      r'.get? c = some m := by
  obtain ⟨w, hw, hr⟩ := Option.bind_eq_some_iff.1 hr
  obtain ⟨site, t₀, -, run, -⟩ := h.worlds i w hw
  obtain ⟨t', w', hw', run'⟩ := h.onward hs hw cs
  obtain ⟨r', hr', keeps, -⟩ := World.seen_of_run run' hr (World.stage_of_run run hr)
    (World.dated_of_run run hr)
  obtain ⟨q, -, hpeek, hget, -⟩ := World.seen_of_isLoaded (run.trans run') hr' (keeps loaded) c
  exact ⟨r', q.plugins, by rw [registryOf, hw']; exact hr', hpeek, hget⟩

/-- The process-wide registry is not being destroyed: it takes messages and its worker handles them,
unless a panic has ended it. -/
theorem Sound.serving (h : Sound t p) (hs : p.shared? = some i) :
    ∃ r, p.registryOf i = some r ∧ r.destroyRequested = false ∧ .destroy ∉ r.mailbox.queue ∧
      (r.hasFailed = false → r.ending? = none ∧ r.mailbox.closed = false) := by
  obtain ⟨hi, hnot⟩ := h.place i hs
  obtain ⟨w, r, hw, hr, hreg⟩ := h.registry hi
  obtain ⟨site, t', r', run, hr', hkept, hasked⟩ := h.worlds i w hw
  cases hr.symm.trans hr'
  have hfirst : r.destroyRequested = false := Bool.eq_false_iff.2 (mt hasked.1 hnot)
  exact ⟨r, hreg, hfirst, (World.unasked_of_run run hr hfirst).1,
    World.serving_of_run run hr hfirst hkept⟩

/-- Over any calls at most one registry is installed, and everybody who calls for it gets that one.
As long as none is, an initializer that fails or panics changes nothing, and one that succeeds
installs its registry. To ask for that one to be destroyed changes nothing, ever. Of the others each
lets itself be destroyed once, and asking again changes nothing. -/
theorem process_wide_kept (cs : List Call) :
    let t := history next empty cs
    let p := after next empty cs
    installations t = p.shared?.toList ∧
    (∀ i ∈ handouts t, p.shared? = some i) ∧
    (p.shared? = none →
      (∀ init, (∀ site channel, init ≠ .start site channel) →
        p.perform (.obtain init) = (p, .uninitialized)) ∧
      ∀ site channel, (p.perform (.obtain (.start site channel))).2 = .shared p.worlds.length ∧
        (p.next (.obtain (.start site channel))).shared? = some p.worlds.length) ∧
    (∀ i, p.shared? = some i →
      (∀ init, p.perform (.obtain init) = (p, .shared i)) ∧
      p.perform (.destroy i) = (p, .refused .processWide) ∧
      ∃ r, p.registryOf i = some r ∧ r.destroyRequested = false ∧ .destroy ∉ r.mailbox.queue ∧
        (r.hasFailed = false → r.ending? = none ∧ r.mailbox.closed = false) ∧
        (r.isLoaded = true → ∀ cs' c, ∃ r' m, (after next p cs').registryOf i = some r' ∧
          r'.peek c = some m ∧ r'.get? c = some m)) ∧
    (destructions t).Nodup ∧
    ∀ i, i < p.worlds.length → p.shared? ≠ some i →
      (i ∈ destructions t → p.perform (.destroy i) = (p, .refused .twice)) ∧
      (i ∉ destructions t → ∃ w w', p.worlds[i]? = some w ∧
        w.act (.requestDestroy 0) = some w' ∧
        p.perform (.destroy i) = ({ p with worlds := p.worlds.set i w' }, .done)) := by
  intro t p
  have sound : Sound t p := sound_after cs
  refine ⟨sound.installed, sound.given, fun hs => ⟨fun init => perform_failed hs init, ?_⟩,
    fun i hs => ⟨perform_found hs, perform_spared hs, ?_⟩, sound.once, fun i hi other => ?_⟩
  · intro site channel
    rw [next, perform_installed hs]
    exact ⟨rfl, rfl⟩
  · obtain ⟨r, hr, first, hq, serving⟩ := sound.serving hs
    exact ⟨r, hr, first, hq, serving, fun loaded cs' c => sound.reads hs hr loaded cs' c⟩
  · obtain ⟨w, r, hw, hr, -⟩ := sound.registry hi
    obtain ⟨-, -, r', -, hr', -, hasked⟩ := sound.worlds i w hw
    cases hr.symm.trans hr'
    refine ⟨fun hd => perform_again hw hr other (hasked.2 hd), fun hd => ?_⟩
    obtain ⟨w', hx, he⟩ := perform_asked hw hr other (Bool.eq_false_iff.2 (mt hasked.1 hd))
    exact ⟨w, w', hw, hx, he⟩

/-- An initializer fails, another registry is started and destroyed, and the next initializer
succeeds. -/
def mixedCalls : List Call :=
  [.obtain .failing, .create ⟨.bare 0, ∅⟩ (Settings.default.channel "1"), .destroy 0, .destroy 0,
    .obtain (.start ⟨.bare 0, ∅⟩ (Settings.default.channel "2")), .destroy 1, .obtain .panicking]

theorem process_wide_kept_mixed :
    let p := after next empty mixedCalls
    p.shared? = some 1 ∧ p.perform (.obtain .panicking) = (p, .shared 1) ∧
      p.perform (.destroy 1) = (p, .refused .processWide) ∧
      p.perform (.destroy 0) = (p, .refused .twice) := by
  intro p
  have hs : p.shared? = some 1 := by decide +kernel
  have hd : 0 ∈ destructions (history next empty mixedCalls) := by decide +kernel
  have hl : 0 < p.worlds.length := by decide +kernel
  obtain ⟨-, -, -, shared, -, others⟩ := process_wide_kept mixedCalls
  obtain ⟨found, spared, -⟩ := shared 1 hs
  exact ⟨hs, found .panicking, spared, (others 0 hl (by rw [hs]; decide)).1 hd⟩

def Call.IsLive (i : Nat) : Call → Prop
  | .live j _ _ => j = i
  | _ => False

theorem next_live (hw : p.worlds[i]? = some w) {x : Act} (hx : w.act x = some w')
    (ambient : x.ambient = true) :
    p.next (.live i x ambient) = { p with worlds := p.worlds.set i w' } := by
  change (⟨p.worlds.modify i fun w => (w.act x).getD w, p.shared?⟩ : Instances) = _
  rw [List.modify_eq_set_getElem?, hw]
  simp [hx]

theorem after_live {xs : List Act} (ambient : ∀ x ∈ xs, x.ambient = true)
    (hw : p.worlds[i]? = some w) (hx : w.acts xs = some w') :
    ∃ cs : List Call, (∀ c ∈ cs, c.IsLive i) ∧
      after next p cs = { p with worlds := p.worlds.set i w' } := by
  induction xs generalizing p w with
  | nil =>
    cases hx
    obtain ⟨hi, rfl⟩ := List.getElem?_eq_some_iff.1 hw
    refine ⟨[], nofun, ?_⟩
    rw [List.set_getElem_self hi]
    rfl
  | cons x xs ih =>
    obtain ⟨ha, has⟩ := List.forall_mem_cons.1 ambient
    obtain ⟨u, hu, hx⟩ := Option.bind_eq_some_iff.1 hx
    have hnext := next_live hw hu ha
    have hi := (List.getElem?_eq_some_iff.1 hw).1
    have hwu : (p.next (.live i x ha)).worlds[i]? = some u := by
      rw [hnext]
      exact List.getElem?_set_self hi
    obtain ⟨cs, hcs, he⟩ := ih has hwu hx
    refine ⟨.live i x ha :: cs, List.forall_mem_cons.2 ⟨rfl, hcs⟩, ?_⟩
    change after next (p.next (.live i x ha)) cs = _
    rw [he, hnext]
    exact congrArg (Instances.mk · p.shared?) (List.set_set ..)

/-- To let a registry settle is to let it live on. -/
theorem settle_eq_after (p : Instances) (i : Nat) :
    ∃ cs : List Call, (∀ c ∈ cs, c.IsLive i) ∧ p.settle i = after next p cs := by
  cases hw : p.worlds[i]? with
  | none =>
    refine ⟨[], nofun, ?_⟩
    have hi := List.getElem?_eq_none_iff.1 hw
    rw [settle, List.modify_eq_self hi]
    rfl
  | some w =>
    obtain ⟨xs, hxs, he⟩ := World.acts_settle .none w
    obtain ⟨cs, hcs, hafter⟩ := after_live hxs hw he
    refine ⟨cs, hcs, ?_⟩
    rw [hafter, settle, List.modify_eq_set_getElem?, hw]
    rfl

/-- A registry that is started and loads at once. -/
theorem add_eq_after (p : Instances) (site : Site) (channel : Channel) :
    ∃ cs : List Call, (∀ c ∈ cs, c.IsLive p.worlds.length) ∧
      p.add site channel =
        (after next p (.create site channel :: cs), p.worlds.length) := by
  obtain ⟨cs, hcs, he⟩ := settle_eq_after (p.create site channel).1 p.worlds.length
  exact ⟨cs, hcs, congrArg (·, p.worlds.length) he⟩

/-- The process-wide registry that is called for and loads at once if it is new. -/
theorem obtain_eq_after (p : Instances) (init : Initializer) :
    (p.perform (.obtain init)).2 = .uninitialized ∧ p.obtain init = none ∨
      ∃ i started, ∃ cs : List Call, (∀ c ∈ cs, c.IsLive i) ∧
        (p.perform (.obtain init)).2 = .shared i ∧
        p.obtain init = some (after next p (.obtain init :: cs), i, started) := by
  rw [perform, Instances.obtain]
  cases hg : p.getOrCreate init with
  | none => exact Or.inl ⟨rfl, rfl⟩
  | some q =>
    obtain ⟨q, i, started⟩ := q
    have hnext : p.next (.obtain init) = q := by rw [next, perform, hg]
    refine Or.inr ⟨i, started, ?_⟩
    cases started with
    | false => exact ⟨[], nofun, rfl, by rw [← hnext]; rfl⟩
    | true =>
      obtain ⟨cs, hcs, he⟩ := settle_eq_after q i
      refine ⟨cs, hcs, rfl, ?_⟩
      rw [← hnext] at he
      change some (q.settle i, i, true) = some (after next (p.next (.obtain init)) cs, i, true)
      rw [← hnext, he]

/-- A registry that is destroyed while its caller waits. -/
theorem destroy_eq_after (p : Instances) (i : Nat) :
    (∃ e, (p.perform (.destroy i)).2 = .refused e ∧ p.destroy i = .error e) ∨
      ∃ cs : List Call, (∀ c ∈ cs, c.IsLive i) ∧ (p.perform (.destroy i)).2 = .done ∧
        p.destroy i = .ok { after next p (.destroy i :: cs) with
          worlds := (after next p (.destroy i :: cs)).worlds.modify i (·.finishDestroy 0) } := by
  rw [perform, Instances.destroy]
  cases hg : p.requestDestroy i with
  | error e => exact Or.inl ⟨e, rfl, rfl⟩
  | ok q =>
    have hnext : p.next (.destroy i) = q := by rw [next, perform, hg]
    obtain ⟨cs, hcs, he⟩ := settle_eq_after q i
    refine Or.inr ⟨cs, hcs, rfl, ?_⟩
    have hafter : after next p (.destroy i :: cs) = q.settle i := by
      rw [he, ← hnext]
      rfl
    rw [hafter, settle, List.modify_modify_eq]
    rfl

end Instances

end PluginRegistry.Live
