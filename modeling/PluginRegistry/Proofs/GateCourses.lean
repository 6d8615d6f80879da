import PluginRegistry.Actor.Gate
import PluginRegistry.Proofs.Histories

/-!
# Courses at gates

Gates are made, handles are cloned, guards are made and end, gates are opened and waited at, in any
order. Which gate a handle or a guard belongs to is told by the course (`HandleOf`, `GuardOf`), and
so is whether the gate has been opened (`OpenedIn`). The gate is open just then
(`Gates.isOpen_iff_openedIn`).
-/

namespace PluginRegistry.Actor

inductive GuardEnd | released | dropped | unwound deriving DecidableEq, Repr

/-- What is done at gates: with handles and guards, or within a call that has begun, which makes a
step or, asleep, stirs unasked. -/
inductive GateAct
  | new
  | clone (handle : Nat)
  | guard (handle : Nat)
  | openAt (handle : Nat)
  | endGuard (guard : Nat) (how : GuardEnd)
  | wait (handle : Nat)
  | step (call : Nat)
  | stir (call : Nat)
  deriving DecidableEq, Repr

namespace Gates

def empty : Gates := ⟨[], [], [], []⟩

/-- What an act does if each call is done at once, from its begin to its end. One that refers to a
handle or guard that is not there does nothing. -/
def perform (g : Gates) : GateAct → Gates
  | .new => g.new
  | .clone h => if h < g.handles.length then g.clone h else g
  | .guard h => if h < g.handles.length then g.guard h else g
  | .openAt h => if h < g.handles.length then g.openAt h else g
  | .endGuard n _ => (g.endGuard n).1
  | .wait h => if h < g.handles.length then g.addWaiting h else g
  | .step _ | .stir _ => g

end Gates

section

variable (t : List (Instant Gates GateAct))

/-- A handle of a gate: the one it came with, or the clone of one. -/
inductive HandleOf : Nat → Nat → Prop
  | new {e : Instant Gates GateAct} (mem : e ∈ t) (act : e.act = .new) :
    HandleOf e.state.handles.length e.state.latches.length
  | clone {e : Instant Gates GateAct} {h i : Nat} (mem : e ∈ t) (act : e.act = .clone h)
    (there : h < e.state.handles.length) (of : HandleOf h i) : HandleOf e.state.handles.length i

inductive GuardOf : Nat → Nat → Prop
  | guard {e : Instant Gates GateAct} {h i : Nat} (mem : e ∈ t) (act : e.act = .guard h)
    (there : h < e.state.handles.length) (of : HandleOf t h i) : GuardOf e.state.guards.length i

/-- A gate has been opened: through a handle of it, or by the end of a guard of it. -/
inductive OpenedIn (i : Nat) : Prop
  | handle {e : Instant Gates GateAct} {h : Nat} (mem : e ∈ t) (act : e.act = .openAt h)
    (there : h < e.state.handles.length) (of : HandleOf t h i)
  | guard {e : Instant Gates GateAct} {n : Nat} {how : GuardEnd} (mem : e ∈ t)
    (act : e.act = .endGuard n how) (there : n < e.state.guards.length) (of : GuardOf t n i)

end

section

variable {t u : List (Instant Gates GateAct)} {h i n : Nat}

theorem HandleOf.mono (sub : t ⊆ u) (hh : HandleOf t h i) : HandleOf u h i := by
  induction hh with
  | new mem act => exact .new (sub mem) act
  | clone mem act there _ ih => exact .clone (sub mem) act there ih

theorem GuardOf.mono (sub : t ⊆ u) (hn : GuardOf t n i) : GuardOf u n i := by
  cases hn with
  | guard mem act there of => exact .guard (sub mem) act there (of.mono sub)

theorem OpenedIn.mono (sub : t ⊆ u) (ho : OpenedIn t i) : OpenedIn u i := by
  cases ho with
  | handle mem act there of => exact .handle (sub mem) act there (of.mono sub)
  | guard mem act there of => exact .guard (sub mem) act there (of.mono sub)

end

namespace Gates

variable {g g' g'' : Gates} {x : GateAct} {h i j n : Nat}

theorem latchOf_eq (hh : g.handles[h]? = some i) : g.latchOf h = i := by
  simp [latchOf, List.getD_eq_getElem?_getD, hh]

theorem latch_openLatch (hj : j < g.latches.length) :
    (g.openLatch j).latch i = if j = i then (g.latch i).opened else g.latch i := by
  simp only [openLatch, latch, List.getD_eq_getElem?_getD, List.getElem?_modify]
  by_cases h : j = i
  · subst h
    simp [hj]
  · simp [h]

theorem latch_congr (h : g.latches = g'.latches) (i : Nat) : g.latch i = g'.latch i := by
  rw [latch, h, latch]

theorem latch_new : g.new.latch i = g.latch i := by
  simp only [new, latch, List.getD_eq_getElem?_getD]
  grind

inductive Makes (g : Gates) : GateAct → Gates → Prop
  | new : g.Makes .new g.new
  | clone {h i : Nat} (there : g.handles[h]? = some i) :
    g.Makes (.clone h) { g with handles := g.handles ++ [i] }
  | guard {h i : Nat} (there : g.handles[h]? = some i) :
    g.Makes (.guard h) { g with guards := g.guards ++ [some i] }
  | opening {h i : Nat} (there : g.handles[h]? = some i) : g.Makes (.openAt h) (g.openLatch i)
  | ending {n i : Nat} {how : GuardEnd} (held : g.guards[n]? = some (some i)) :
    g.Makes (.endGuard n how) { g.openLatch i with guards := g.guards.set n none }
  | waiting {h i : Nat} (there : g.handles[h]? = some i) :
    g.Makes (.wait h) { g with waiting := g.waiting ++ [i] }
  | nothing {x : GateAct} : g.Makes x g

theorem makes_perform (g : Gates) (x : GateAct) : g.Makes x (g.perform x) := by
  cases x with
  | new => exact .new
  | clone h | guard h | openAt h | wait h =>
    rw [perform]
    split
    · next there =>
      have found := List.getElem?_eq_getElem there
      simp only [Gates.clone, Gates.guard, openAt, addWaiting, latchOf_eq found]
      constructor
      exact found
    · exact .nothing
  | endGuard n how =>
    rw [perform, endGuard]
    split
    · next held => exact .ending held
    · exact .nothing
  | step k | stir k => exact .nothing

structure Sound (g : Gates) : Prop where
  agree : ∀ i : Nat, (g.latch i).locked = (g.latch i).released
  handles : ∀ h i : Nat, g.handles[h]? = some i → i < g.latches.length
  guards : ∀ n i : Nat, g.guards[n]? = some (some i) → i < g.latches.length

theorem Sound.isOpen_openLatch (hg : g.Sound) (hi : i < g.latches.length) :
    ((g.openLatch i).latch i).isOpen = true := by
  rw [latch_openLatch hi, if_pos rfl, Latch.opened_eq (hg.agree i)]
  rfl

theorem Sound.agree_openLatch (hg : g.Sound) (hj : j < g.latches.length) (i : Nat) :
    ((g.openLatch j).latch i).locked = ((g.openLatch j).latch i).released := by
  rw [latch_openLatch hj]
  split
  · rw [Latch.opened_eq (hg.agree i)]
  · exact hg.agree i

theorem length_openLatch : (g.openLatch i).latches.length = g.latches.length := by
  simp [openLatch]

theorem Sound.perform (hg : g.Sound) (x : GateAct) : (g.perform x).Sound := by
  have made := makes_perform g x
  generalize g.perform x = g' at made
  cases made with
  | new =>
    refine ⟨fun i => ?_, fun h i there => ?_, fun n i held => ?_⟩
    · simpa only [latch_new] using hg.agree i
    · have := hg.handles h i
      simp only [Gates.new, List.length_append] at there ⊢
      grind
    · exact Nat.lt_of_lt_of_le (hg.guards n i held) (by simp [Gates.new])
  | clone there =>
    refine ⟨hg.agree, fun h i found => ?_, hg.guards⟩
    have := hg.handles h i
    have := hg.handles _ _ there
    grind
  | guard there =>
    refine ⟨hg.agree, hg.handles, fun n i found => ?_⟩
    have := hg.guards n i
    have := hg.handles _ _ there
    grind
  | opening there =>
    have placed := hg.handles _ _ there
    refine ⟨hg.agree_openLatch placed, fun h i found => ?_, fun n i held => ?_⟩
    · exact length_openLatch.symm ▸ hg.handles h i found
    · exact length_openLatch.symm ▸ hg.guards n i held
  | ending held =>
    have placed := hg.guards _ _ held
    refine ⟨hg.agree_openLatch placed, fun h i found => ?_, fun n i found => ?_⟩
    · exact length_openLatch.symm ▸ hg.handles h i found
    · refine length_openLatch.symm ▸ hg.guards n i ?_
      grind
  | waiting | nothing => exact ⟨hg.agree, hg.handles, hg.guards⟩

structure Leads (g g' : Gates) : Prop where
  handles : ∀ h i : Nat, g.handles[h]? = some i → g'.handles[h]? = some i
  held : ∀ n i : Nat, g.guards[n]? = some (some i) → g'.guards[n]? = some (some i) ∨
    g'.guards[n]? = some none ∧ (g'.latch i).isOpen = true
  ended : ∀ n : Nat, g.guards[n]? = some none → g'.guards[n]? = some none
  isOpen : ∀ i : Nat, (g.latch i).isOpen = true → (g'.latch i).isOpen = true

theorem Leads.refl (g : Gates) : g.Leads g :=
  ⟨fun _ _ => id, fun _ _ => Or.inl, fun _ => id, fun _ => id⟩

theorem Leads.trans (h₁ : g.Leads g') (h₂ : g'.Leads g'') : g.Leads g'' where
  handles h i there := h₂.handles h i (h₁.handles h i there)
  held n i held := by
    rcases h₁.held n i held with held' | ⟨ended, isOpen⟩
    · exact h₂.held n i held'
    · exact Or.inr ⟨h₂.ended n ended, h₂.isOpen i isOpen⟩
  ended n ended := h₂.ended n (h₁.ended n ended)
  isOpen i isOpen := h₂.isOpen i (h₁.isOpen i isOpen)

theorem Sound.keeps_open (hg : g.Sound) (hj : j < g.latches.length)
    (hi : (g.latch i).isOpen = true) : ((g.openLatch j).latch i).isOpen = true := by
  by_cases hji : j = i
  · exact hji ▸ hg.isOpen_openLatch hj
  · rwa [latch_openLatch hj, if_neg hji]

theorem Sound.leads (hg : g.Sound) (x : GateAct) : g.Leads (g.perform x) := by
  have made := makes_perform g x
  generalize g.perform x = g' at made
  obtain ⟨-, held, ended, same⟩ := Leads.refl g
  cases made with
  | new =>
    refine ⟨fun h i there => ?_, fun _ _ => Or.inl, ended, fun i isOpen => by rwa [latch_new]⟩
    simp only [Gates.new]
    grind
  | clone => exact ⟨fun h i there => by grind, held, ended, same⟩
  | guard =>
    exact ⟨fun _ _ => id, fun n i held => Or.inl (by grind), fun n ended => by grind, same⟩
  | opening there =>
    exact ⟨fun _ _ => id, fun _ _ => Or.inl, ended, fun i => hg.keeps_open (hg.handles _ _ there)⟩
  | @ending n i how held =>
    have placed := hg.guards n i held
    refine ⟨fun _ _ => id, fun m j found => ?_, fun m ended => by grind, fun j =>
      hg.keeps_open placed⟩
    by_cases hm : m = n
    · subst hm
      cases held.symm.trans found
      exact Or.inr ⟨by grind, hg.isOpen_openLatch placed⟩
    · exact Or.inl (by grind)
  | waiting | nothing => exact ⟨fun _ _ => id, held, ended, same⟩

theorem getElem?_snoc {α : Type} {xs : List α} {x y : α} (h : (xs ++ [x])[n]? = some y) :
    xs[n]? = some y ∨ n = xs.length ∧ x = y := by
  grind

/-- What a course has left: the gates lie ahead of each of its acts, and what they hold comes from
it. -/
structure Accounted (t : List (Instant Gates GateAct)) (g : Gates) : Prop where
  sound : g.Sound
  past : ∀ e ∈ t, e.state.Sound ∧ (e.state.perform e.act).Leads g
  handles : ∀ h i : Nat, g.handles[h]? = some i → HandleOf t h i
  guards : ∀ n i : Nat, g.guards[n]? = some (some i) → GuardOf t n i
  isOpen : ∀ i : Nat, (g.latch i).isOpen = true → OpenedIn t i

theorem accounted_empty : Accounted [] empty where
  sound := ⟨fun _ => rfl, nofun, nofun⟩
  past := nofun
  handles := nofun
  guards := nofun
  isOpen := nofun

/-- What the gates hold after one act more comes from the course with that act. -/
theorem Accounted.causes {t : List (Instant Gates GateAct)} (ht : Accounted t g)
    (made : g.Makes x g') :
    (∀ h i : Nat, g'.handles[h]? = some i → HandleOf (t ++ [⟨g, x⟩]) h i) ∧
    (∀ n i : Nat, g'.guards[n]? = some (some i) → GuardOf (t ++ [⟨g, x⟩]) n i) ∧
    ∀ i, (g'.latch i).isOpen = true → OpenedIn (t ++ [⟨g, x⟩]) i := by
  have sub : t ⊆ t ++ [⟨g, x⟩] := List.subset_append_left t _
  have last : (⟨g, x⟩ : Instant Gates GateAct) ∈ t ++ [⟨g, x⟩] := by simp
  have handles (h i : Nat) (there : g.handles[h]? = some i) : HandleOf (t ++ [⟨g, x⟩]) h i :=
    (ht.handles h i there).mono sub
  have guards (n i : Nat) (held : g.guards[n]? = some (some i)) : GuardOf (t ++ [⟨g, x⟩]) n i :=
    (ht.guards n i held).mono sub
  have isOpen (i : Nat) (hi : (g.latch i).isOpen = true) : OpenedIn (t ++ [⟨g, x⟩]) i :=
    (ht.isOpen i hi).mono sub
  have bound {h i : Nat} {is : List Nat} (there : is[h]? = some i) : h < is.length :=
    (List.getElem?_eq_some_iff.1 there).1
  have opened {j : Nat} (placed : j < g.latches.length) (cause : OpenedIn (t ++ [⟨g, x⟩]) j)
      (i : Nat) (hi : ((g.openLatch j).latch i).isOpen = true) : OpenedIn (t ++ [⟨g, x⟩]) i := by
    by_cases hji : j = i
    · exact hji ▸ cause
    · rw [latch_openLatch placed, if_neg hji] at hi
      exact isOpen i hi
  cases made with
  | new =>
    refine ⟨fun h i found => ?_, guards, fun i hi => isOpen i (by rwa [latch_new] at hi)⟩
    rcases getElem?_snoc found with found | ⟨rfl, rfl⟩
    · exact handles h i found
    · exact .new last rfl
  | clone there =>
    refine ⟨fun h i found => ?_, guards, isOpen⟩
    rcases getElem?_snoc found with found | ⟨rfl, rfl⟩
    · exact handles h i found
    · exact .clone last rfl (bound there) (handles _ _ there)
  | guard there =>
    refine ⟨handles, fun n i found => ?_, isOpen⟩
    rcases getElem?_snoc found with found | ⟨rfl, he⟩
    · exact guards n i found
    · cases he
      exact .guard last rfl (bound there) (handles _ _ there)
  | opening there =>
    exact ⟨handles, guards, opened (ht.sound.handles _ _ there)
      (.handle last rfl (bound there) (handles _ _ there))⟩
  | ending held =>
    refine ⟨handles, fun n i found => guards n i (by grind), opened (ht.sound.guards _ _ held) ?_⟩
    exact .guard last rfl (List.getElem?_eq_some_iff.1 held).1 (guards _ _ held)
  | waiting | nothing => exact ⟨handles, guards, isOpen⟩

theorem Accounted.next {t : List (Instant Gates GateAct)} (ht : Accounted t g) (x : GateAct) :
    Accounted (t ++ [⟨g, x⟩]) (g.perform x) := by
  obtain ⟨handles, guards, isOpen⟩ := ht.causes (makes_perform g x)
  refine ⟨ht.sound.perform x, fun e he => ?_, handles, guards, isOpen⟩
  rcases List.mem_append.1 he with he | he
  · exact ⟨(ht.past e he).1, (ht.past e he).2.trans (ht.sound.leads x)⟩
  · cases List.mem_singleton.1 he
    exact ⟨ht.sound, .refl _⟩

theorem accounted (xs : List GateAct) :
    Accounted (history perform empty xs) (after perform empty xs) :=
  history_induction perform accounted_empty (fun _ _ x ht => ht.next x) xs

section

variable {t : List (Instant Gates GateAct)} {e : Instant Gates GateAct}

/-- A handle had its gate already when it was used. -/
theorem Accounted.of_later (ht : Accounted t g) (mem : e ∈ t) (there : h < e.state.handles.length)
    (later : g.handles[h]? = some i) : e.state.handles[h]? = some i := by
  have ⟨sound, leads⟩ := ht.past e mem
  have found := List.getElem?_eq_getElem there
  have kept := leads.handles h _ ((sound.leads e.act).handles h _ found)
  rwa [found, ← kept]

theorem Accounted.handle_of (ht : Accounted t g) (hh : HandleOf t h i) :
    g.handles[h]? = some i := by
  induction hh with
  | @new e mem act =>
    refine (ht.past e mem).2.handles _ _ ?_
    rw [act, perform, Gates.new]
    simp
  | @clone e h i mem act there _ ih =>
    refine (ht.past e mem).2.handles _ _ ?_
    rw [act, perform, if_pos there, Gates.clone, latchOf_eq (ht.of_later mem there ih)]
    simp

theorem Accounted.guard_of (ht : Accounted t g) (hn : GuardOf t n i) :
    g.guards[n]? = some (some i) ∨ g.guards[n]? = some none ∧ (g.latch i).isOpen = true := by
  cases hn with
  | @guard e h i mem act there of =>
    refine (ht.past e mem).2.held _ _ ?_
    rw [act, perform, if_pos there, Gates.guard,
      latchOf_eq (ht.of_later mem there (ht.handle_of of))]
    simp

theorem Accounted.isOpen_of (ht : Accounted t g) (ho : OpenedIn t i) :
    (g.latch i).isOpen = true := by
  cases ho with
  | @handle e h mem act there of =>
    have ⟨sound, leads⟩ := ht.past e mem
    have found := ht.of_later mem there (ht.handle_of of)
    refine leads.isOpen i ?_
    rw [act, perform, if_pos there, openAt, latchOf_eq found]
    exact sound.isOpen_openLatch (sound.handles h i found)
  | @guard e n how mem act there of =>
    have ended : g.guards[n]? = some none := by
      refine (ht.past e mem).2.ended n ?_
      rw [act, perform, endGuard]
      split
      · grind
      · next still =>
        have found := List.getElem?_eq_getElem there
        cases he : e.state.guards[n] with
        | none => rw [found, he]
        | some j => exact absurd (he ▸ found) (still j)
    rcases ht.guard_of of with held | ⟨-, isOpen⟩
    · cases ended.symm.trans held
    · exact isOpen

end

/-- A gate is open just when the course has opened it. -/
theorem isOpen_iff_openedIn (xs : List GateAct) :
    ((after perform empty xs).latch i).isOpen = true ↔ OpenedIn (history perform empty xs) i :=
  ⟨(accounted xs).isOpen i, (accounted xs).isOpen_of⟩

theorem isOpen_later (xs ys : List GateAct)
    (hi : ((after perform empty xs).latch i).isOpen = true) :
    ((after perform empty (xs ++ ys)).latch i).isOpen = true := by
  rw [isOpen_iff_openedIn] at hi ⊢
  rw [history_append]
  exact hi.mono (List.subset_append_left _ _)

/-- Through each handle of a gate, the same is seen. -/
theorem seen_through (xs : List GateAct) (hh : HandleOf (history perform empty xs) h i) :
    (after perform empty xs).isOpen h = ((after perform empty xs).latch i).isOpen ∧
      (after perform empty xs).passes h = ((after perform empty xs).latch i).isOpen := by
  have latch := latchOf_eq ((accounted xs).handle_of hh)
  rw [isOpen, passes, latch]
  exact ⟨rfl, Latch.passes_eq_isOpen ((accounted xs).sound.agree i)⟩

end Gates

end PluginRegistry.Actor
