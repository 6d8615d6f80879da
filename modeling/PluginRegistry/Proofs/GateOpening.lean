import PluginRegistry.Proofs.GateCalls

/-!
# The opening of gates

Every act keeps what `GateCalls.Kept` says of all gates. With no opening under way, the gates are as
if each call had been done at once (`GateCalls.settled_after`). So a gate is opened once and for
all, by its handles and its guards, whatever the order of the steps (`GateCalls.latched`).
-/

namespace PluginRegistry.Actor

namespace GateCalls

variable {s s' : GateCalls} {i j k k' n : Nat} {p q r : Point} {x : GateAct}

def kinds (s : GateCalls) : List (Nat × Bool) := s.calls.map fun c => (c.gate, c.point.opens)

theorem kinds_call : (s.call i p).kinds = s.kinds ++ [(i, p.opens)] := by
  simp [kinds, call]

theorem kinds_go (hk : s.At i k p) (hq : q.opens = p.opens) : (s.go i k q).kinds = s.kinds := by
  unfold At at hk
  have there : k < s.calls.length := (List.getElem?_eq_some_iff.1 hk).1
  simp only [kinds, go, List.map_set]
  refine List.ext_getElem? fun n => ?_
  rw [List.getElem?_set]
  split
  · next h =>
    subst h
    rw [List.getElem?_map, hk, List.length_map, if_pos there, hq]
    rfl
  · rfl

theorem kinds_wake : (s.wake i).kinds = s.kinds := by
  simp only [kinds, wake, List.map_map]
  refine List.map_congr_left fun c _ => ?_
  simp only [Function.comp_apply, woken]
  split
  · next h => rw [h.1, h.2]; rfl
  · rfl

theorem kinds_advance (hk : s.At i k p) : (s.advance i k p).kinds = s.kinds := by
  cases p with
  | opening | wanting =>
    rw [advance]
    split
    · exact kinds_go hk rfl
    · rfl
  | entered =>
    rw [advance]
    split
    · exact kinds_go hk rfl
    · exact kinds_go (s := s.onLatch i Latch.mark) hk rfl
  | marked => exact kinds_go (s := s.onLatch i Latch.release) hk rfl
  | stored => exact (kinds_go (q := .leaving) (at_wake_stored hk) rfl).trans kinds_wake
  | leaving => exact kinds_go hk rfl
  | looking | checking =>
    refine kinds_go hk ?_
    split <;> rfl
  | asleep | opened | passed => rfl

theorem gates_advance :
    (s.advance i k p).gates = { s.gates with latches := (s.advance i k p).gates.latches } := by
  cases p <;> simp only [advance] <;> try split
  all_goals rfl

theorem length_advance : (s.advance i k p).gates.latches.length = s.gates.latches.length := by
  cases p <;> simp only [advance] <;> try split
  all_goals simp [go, onLatch, wake, Gates.onLatch]

/-- How a gate is left when every opening of it that has begun is done. -/
def final (s : GateCalls) (i : Nat) : Latch := if (i, true) ∈ s.kinds then ⟨true, true⟩ else .shut

def settled (s : GateCalls) : Gates :=
  { s.gates with latches := (List.range s.gates.latches.length).map s.final }

structure Placed (s : GateCalls) : Prop where
  settled : s.settled.Sound
  calls : ∀ i b, (i, b) ∈ s.kinds → i < s.gates.latches.length

theorem Placed.handles (hs : s.Placed) {h : Nat} (there : s.gates.handles[h]? = some i) :
    i < s.gates.latches.length := by
  simpa [GateCalls.settled] using hs.settled.handles h i there

theorem Placed.guards (hs : s.Placed) (held : s.gates.guards[n]? = some (some i)) :
    i < s.gates.latches.length := by
  simpa [GateCalls.settled] using hs.settled.guards n i held

theorem Placed.at (hs : s.Placed) (hk : s.At i k p) : i < s.gates.latches.length :=
  hs.calls i p.opens (List.mem_map_of_mem (List.mem_of_getElem? hk))

theorem final_of_new (hs : s.Placed) (hi : s.gates.latches.length ≤ i) : s.final i = .shut :=
  if_neg fun h => absurd (hs.calls i true h) (Nat.not_lt.2 hi)

theorem final_congr (h : ∀ j, (j, true) ∈ s'.kinds ↔ (j, true) ∈ s.kinds) :
    s'.final = s.final := by
  funext j
  simp only [final, h]

theorem settled_advance (hk : s.At i k p) : (s.advance i k p).settled = s.settled := by
  have same : (s.advance i k p).final = s.final :=
    final_congr fun j => by rw [kinds_advance hk]
  rw [settled, gates_advance, same, length_advance, settled]

theorem settled_opening (s : GateCalls) (i : Nat) :
    (s.call i .opening).settled = s.settled.openLatch i := by
  have same (j : Nat) :
      (s.call i .opening).final j = if i = j then ⟨true, true⟩ else s.final j := by
    rw [final, kinds_call, final]
    grind [Point.opens]
  have opened : (s.final i).opened = ⟨true, true⟩ := by
    rw [final]
    split <;> rfl
  simp only [settled, Gates.openLatch]
  congr 1
  refine List.ext_getElem? fun j => ?_
  rw [List.getElem?_modify, List.getElem?_map, List.getElem?_map]
  change Option.map _ (List.range s.gates.latches.length)[j]? = _
  by_cases hj : j < s.gates.latches.length
  · rw [List.getElem?_range hj]
    by_cases hij : i = j
    · subst hij
      simp [same, opened]
    · simp [same, hij]
  · have none : (List.range s.gates.latches.length)[j]? = none := by simpa using hj
    rw [none]
    rfl

theorem settled_looking (s : GateCalls) (i : Nat) : (s.call i .looking).settled = s.settled := by
  have same : (s.call i .looking).final = s.final :=
    final_congr fun j => by simp [kinds_call, Point.opens]
  rw [settled, same]
  rfl

theorem settled_stir (hk : s.At i k .asleep) : (s.go i k .wanting).settled = s.settled := by
  have same : (s.go i k .wanting).final = s.final :=
    final_congr fun j => by rw [kinds_go (q := .wanting) hk rfl]
  rw [settled, same]
  rfl

/-- Whatever its steps, an act leaves the gates as it does when it is done at once. -/
theorem settled_next (hs : s.Placed) (x : GateAct) :
    (s.next x).settled = s.settled.perform x := by
  have handles : s.settled.handles = s.gates.handles := rfl
  cases x with
  | new =>
    have last : s.final s.gates.latches.length = .shut := final_of_new hs (Nat.le_refl _)
    have same : ({ s with gates := s.gates.perform .new } : GateCalls).final = s.final := rfl
    rw [next, settled, same]
    simp [Gates.perform, Gates.new, settled, List.range_succ, last]
  | clone h | guard h =>
    by_cases there : h < s.gates.handles.length
    · rw [next, Gates.perform, if_pos there, Gates.perform, handles, if_pos there]
      rfl
    · rw [next, Gates.perform, if_neg there, Gates.perform, handles, if_neg there]
  | openAt h =>
    rw [next, Gates.perform, handles]
    split
    · next i there =>
      rw [if_pos (List.getElem?_eq_some_iff.1 there).1, Gates.openAt,
        Gates.latchOf_eq (g := s.settled) there]
      exact settled_opening s i
    · next none => exact (if_neg (Nat.not_lt.2 (List.getElem?_eq_none_iff.1 none))).symm
  | endGuard n how =>
    have guards : s.settled.guards = s.gates.guards := rfl
    rw [next, Gates.perform]
    split
    · next i held =>
      simp only [Gates.endGuard, guards, held]
      exact settled_opening (s.letGo n) i
    · next gone =>
      rw [Gates.endGuard, guards]
      split
      · next i held => exact (gone i held).elim
      · rfl
  | wait h =>
    rw [next, Gates.perform]
    split
    · next i there =>
      have bound := (List.getElem?_eq_some_iff.1 there).1
      rw [settled_looking, Gates.perform, handles, if_pos bound, if_pos bound]
      rfl
    · next none => exact (if_neg (Nat.not_lt.2 (List.getElem?_eq_none_iff.1 none))).symm
  | step k =>
    rw [next, Gates.perform]
    split
    · next c hk => exact settled_advance hk
    · rfl
  | stir k =>
    rw [next, Gates.perform]
    split
    · next c hk =>
      split
      · next asleep => exact settled_stir (asleep ▸ hk)
      · rfl
    · rfl

def gateOf (s : GateCalls) : GateAct → Option Nat
  | .new | .clone _ | .guard _ => none
  | .openAt h | .wait h => s.gates.handles[h]?
  | .endGuard n _ => s.gates.guards[n]?.join
  | .step k | .stir k => s.calls[k]?.map GateCall.gate

/-- The states that an act at a gate, or at none, makes of another. -/
inductive Makes (s : GateCalls) : Option Nat → GateCalls → Prop
  | nothing {j : Option Nat} : s.Makes j s
  | tables {g : Gates} (latch : ∀ i, g.latch i = s.gates.latch i)
    (more : s.gates.latches.length ≤ g.latches.length) : s.Makes none { s with gates := g }
  | begins {g : Gates} {i : Nat} {p : Point} (latches : g.latches = s.gates.latches)
    (there : i < s.gates.latches.length) (fresh : p = .opening ∨ p = .looking) :
    s.Makes (some i) ({ s with gates := g }.call i p)
  | step {i k : Nat} {p : Point} (hk : s.At i k p) : s.Makes (some i) (s.advance i k p)
  | stir {i k : Nat} (hk : s.At i k .asleep) : s.Makes (some i) (s.go i k .wanting)

theorem makes_next (hs : s.Placed) (x : GateAct) : s.Makes (s.gateOf x) (s.next x) := by
  cases x with
  | new => exact .tables (fun _ => Gates.latch_new) (by simp [Gates.perform, Gates.new])
  | clone h | guard h =>
    rw [next, Gates.perform]
    split
    · exact .tables (fun _ => rfl) (Nat.le_refl _)
    · exact .nothing
  | openAt h =>
    rw [next, gateOf]
    split
    · next i there => exact there ▸ .begins (g := s.gates) rfl (hs.handles there) (Or.inl rfl)
    · exact .nothing
  | endGuard n how =>
    rw [next, gateOf]
    split
    · next i held => exact held ▸ .begins rfl (hs.guards held) (Or.inl rfl)
    · exact .nothing
  | wait h =>
    rw [next, gateOf]
    split
    · next i there =>
      have latches : (s.gates.perform (.wait h)).latches = s.gates.latches := by
        rw [Gates.perform]
        split <;> rfl
      exact there ▸ .begins latches (hs.handles there) (Or.inr rfl)
    · exact .nothing
  | step k =>
    rw [next, gateOf]
    split
    · next c hk => exact hk ▸ .step hk
    · exact .nothing
  | stir k =>
    rw [next, gateOf]
    split
    · next c hk =>
      split
      · next asleep => exact hk ▸ .stir (asleep ▸ hk)
      · exact .nothing
    · exact .nothing

theorem Placed.next (hs : s.Placed) (x : GateAct) : (s.next x).Placed := by
  refine ⟨settled_next hs x ▸ hs.settled.perform x, fun i b hib => ?_⟩
  have made := makes_next hs x
  generalize s.next x = s' at made hib
  generalize s.gateOf x = at' at made
  cases made with
  | nothing => exact hs.calls i b hib
  | tables latch more => exact Nat.lt_of_lt_of_le (hs.calls i b hib) more
  | begins latches there fresh =>
    refine Nat.lt_of_lt_of_eq ?_ (congrArg List.length latches.symm)
    rcases List.mem_append.1 (kinds_call ▸ hib) with old | last
    · exact hs.calls i b old
    · cases List.mem_singleton.1 last
      exact there
  | step hk =>
    rw [length_advance]
    exact hs.calls i b (kinds_advance hk ▸ hib)
  | stir hk => exact hs.calls i b (kinds_go (q := .wanting) hk rfl ▸ hib)

/-- An act at one gate leaves the others alone, and their calls. -/
theorem alike_next (hs : s.Placed) (hx : s.gateOf x ≠ some i) : Alike i s (s.next x) := by
  have made := makes_next hs x
  generalize s.next x = s' at made
  generalize s.gateOf x = at' at made hx
  cases made with
  | nothing => exact .refl
  | tables latch => exact ⟨latch i, fun _ _ => Iff.rfl⟩
  | @begins g j p latches =>
    have apart : j ≠ i := fun h => hx (congrArg some h)
    exact ⟨Gates.latch_congr latches i, (alike_call (s := { s with gates := g }) apart).calls⟩
  | step hk => exact alike_advance (hs.at hk) hk fun h => hx (congrArg some h)
  | stir hk => exact alike_go hk fun h => hx (congrArg some h)

structure Kept (s : GateCalls) : Prop where
  placed : s.Placed
  exclusive : ∀ i, s.Exclusive i
  stage : ∀ i, s.Stage i

theorem Kept.next (hs : s.Kept) (x : GateAct) : (s.next x).Kept := by
  suffices each : ∀ i, (s.next x).Exclusive i ∧ (s.next x).Stage i from
    ⟨hs.placed.next x, fun i => (each i).1, fun i => (each i).2⟩
  intro i
  -- at its own gate an act is one of a few; any other gate it leaves alike
  by_cases here : s.gateOf x = some i
  · have made := makes_next hs.placed x
    have exclusive := hs.exclusive i
    have stage := hs.stage i
    rw [here] at made
    generalize s.next x = s' at made
    cases made with
    | nothing => exact ⟨exclusive, stage⟩
    | @begins g _ p latches there fresh =>
      have alike : Alike i s { s with gates := g } :=
        ⟨Gates.latch_congr latches i, fun _ _ => Iff.rfl⟩
      have outside : p.holds = false := by rcases fresh with rfl | rfl <;> rfl
      exact ⟨exclusive_call (alike.exclusive exclusive) outside,
        stage_call (alike.stage stage) fresh⟩
    | step hk =>
      exact ⟨exclusive_advance exclusive hk, stage_advance stage exclusive (hs.placed.at hk) hk⟩
    | stir hk => exact ⟨exclusive_go exclusive hk (by rintro ⟨⟩), stage_stir stage hk⟩
  · have alike := alike_next hs.placed here
    exact ⟨alike.exclusive (hs.exclusive i), alike.stage (hs.stage i)⟩

theorem kept_empty : empty.Kept where
  placed := ⟨⟨fun _ => rfl, nofun, nofun⟩, nofun⟩
  exclusive := nofun
  stage _ := .shut rfl nofun

theorem kept (xs : List GateAct) : (after next empty xs).Kept :=
  history_induction next (P := fun _ s => s.Kept) kept_empty (fun _ _ x hs => hs.next x) xs

theorem settled_after (xs : List GateAct) :
    (after next empty xs).settled = after Gates.perform .empty xs := by
  induction xs using List.reverseRecOn with
  | nil => rfl
  | append_singleton xs x ih =>
    rw [after_append, after_append, ← ih]
    exact settled_next (kept xs).placed x

/-- Acts that are done elsewhere leave a gate alone. -/
theorem alike_after (hs : s.Kept) (xs : List GateAct)
    (elsewhere : ∀ e ∈ history next s xs, e.state.gateOf e.act ≠ some i) :
    Alike i s (after next s xs) := by
  induction xs generalizing s with
  | nil => exact .refl
  | cons x xs ih =>
    rw [history, List.forall_mem_cons] at elsewhere
    have first := alike_next hs.placed elsewhere.1
    have rest := ih (hs.next x) elsewhere.2
    exact ⟨rest.latch.trans first.latch, fun k p => (rest.calls k p).trans (first.calls k p)⟩

theorem isOpen_advance (hj : j < s.gates.latches.length) (hi : (s.gates.latch i).isOpen = true) :
    ((s.advance j k p).gates.latch i).isOpen = true := by
  have onLatch (f : Latch → Latch) (hf : ∀ l : Latch, l.isOpen = true → (f l).isOpen = true) :
      ((s.onLatch j f).gates.latch i).isOpen = true := by
    rw [latch_onLatch hj]
    split
    · exact hf _ hi
    · exact hi
  cases p with
  | opening | wanting =>
    rw [advance]
    split <;> exact hi
  | entered =>
    rw [advance]
    split
    · exact hi
    · exact onLatch Latch.mark fun _ hl => hl
  | marked => exact onLatch Latch.release fun _ _ => rfl
  | _ => exact hi

/-- A gate that is open stays so. -/
theorem isOpen_next (hs : s.Placed) (x : GateAct) (hi : (s.gates.latch i).isOpen = true) :
    ((s.next x).gates.latch i).isOpen = true := by
  have made := makes_next hs x
  generalize s.next x = s' at made
  generalize s.gateOf x = at' at made
  cases made with
  | nothing | stir => exact hi
  | tables latch => exact (latch i).symm ▸ hi
  | begins latches => exact (Gates.latch_congr latches i).symm ▸ hi
  | step hk => exact isOpen_advance (hs.at hk) hi

theorem isOpen_after (hs : s.Kept) (hi : (s.gates.latch i).isOpen = true) (xs : List GateAct) :
    ((after next s xs).gates.latch i).isOpen = true := by
  induction xs generalizing s with
  | nil => exact hi
  | cons x xs ih => exact ih (hs.next x) (isOpen_next hs.placed x hi)

theorem mem_kinds (hk : s.At i k p) (hp : p.opens = true) : (i, true) ∈ s.kinds := by
  have mem : (i, p.opens) ∈ s.kinds := List.mem_map_of_mem (List.mem_of_getElem? hk)
  rwa [hp] at mem

theorem of_mem_kinds (h : (i, true) ∈ s.kinds) : ∃ k p, s.At i k p ∧ p.opens = true := by
  obtain ⟨⟨j, p⟩, hc, he⟩ := List.mem_map.1 h
  obtain ⟨k, hk⟩ := List.mem_iff_getElem?.1 hc
  obtain ⟨rfl, hp⟩ : j = i ∧ p.opens = true := by simpa using he
  exact ⟨k, p, hk, hp⟩

theorem quiet_iff : s.Quiet i ↔ ∀ k p, s.At i k p → p.opens = true → p = .opened := by
  constructor
  · intro h k p hk
    exact h _ (List.mem_of_getElem? hk) rfl
  · intro h c hc hi
    obtain ⟨k, hk⟩ := List.mem_iff_getElem?.1 hc
    refine h k c.point ?_
    rw [At, hk, ← hi]

theorem Stage.opener (h : s.Stage i) (hi : (s.gates.latch i).isOpen = true) :
    (i, true) ∈ s.kinds := by
  cases h with
  | shut latch | marked _ _ latch =>
    rw [latch] at hi
    cases hi
  | waking k call => exact mem_kinds call rfl
  | done _ _ opener =>
    obtain ⟨k, hk | hk⟩ := opener
    · exact mem_kinds hk rfl
    · exact mem_kinds hk rfl

theorem Stage.latch_of_quiet (h : s.Stage i) (quiet : s.Quiet i) :
    s.gates.latch i = s.final i := by
  have ended {k : Nat} {p : Point} := quiet_iff.1 quiet k p
  cases h with
  | shut latch calls =>
    have none : (i, true) ∉ s.kinds := by
      intro mem
      obtain ⟨k, p, hk, hp⟩ := of_mem_kinds mem
      cases ended hk hp
      cases calls k _ hk
    rw [latch, final, if_neg none]
    rfl
  | marked k call => cases ended call rfl
  | waking k call => cases ended call rfl
  | done latch calls opener =>
    rw [final, if_pos, latch]
    exact (Stage.done latch calls opener).opener (latch ▸ rfl)

/-- A call that has come this far tells that its gate is open. -/
theorem Stage.isOpen_of (h : s.Stage i) (hk : s.At i k p) (hp : p = .opened ∨ p = .passed) :
    (s.gates.latch i).isOpen = true := by
  have late : p.early = false := by rcases hp with rfl | rfl <;> rfl
  cases h with
  | shut latch calls => exact absurd (calls k p hk) (by simp [late])
  | marked k₀ call latch others =>
    have hne : k ≠ k₀ := by
      rintro rfl
      cases at_unique hk call
      simp at hp
    exact absurd (others k p hk hne) (by simp [late])
  | waking _ _ latch | done latch => exact latch ▸ rfl

theorem Stage.agree (h : s.Stage i) (free : s.Free i) :
    (s.gates.latch i).locked = (s.gates.latch i).released := by
  cases h with
  | shut latch | done latch | waking _ _ latch => rw [latch]
  | marked k call => exact (not_free call rfl free).elim

/-- Nobody sleeps at an open gate, once whoever opened it has given the lock back. -/
theorem Stage.awake (h : s.Stage i) (free : s.Free i) (hi : (s.gates.latch i).isOpen = true) :
    ¬s.At i k .asleep := by
  cases h with
  | shut latch | marked _ _ latch =>
    rw [latch] at hi
    cases hi
  | waking k call => exact (not_free call rfl free).elim
  | done _ calls => exact fun hk => (calls _ _ hk).2.2 rfl

theorem latch_settled (hs : s.Placed) : s.settled.latch i = s.final i := by
  by_cases hi : i < s.gates.latches.length
  · simp [Gates.latch, settled, List.getD_eq_getElem?_getD, hi]
  · have new := final_of_new hs (Nat.not_lt.1 hi)
    simp [Gates.latch, settled, List.getD_eq_getElem?_getD, hi, new]

/-- With no opening under way, the gates are as if every act had been done at once. -/
theorem Kept.settled_eq (hs : s.Kept) (quiet : ∀ i, s.Quiet i) : s.settled = s.gates := by
  have latches : (List.range s.gates.latches.length).map s.final = s.gates.latches := by
    refine List.ext_getElem (by simp) fun i _ hi => ?_
    rw [List.getElem_map, List.getElem_range, ← (hs.stage i).latch_of_quiet (quiet i)]
    simp [Gates.latch, hi]
  rw [settled, latches]

theorem opened_iff (xs : List GateAct) :
    (i, true) ∈ (after next empty xs).kinds ↔ OpenedIn (history Gates.perform .empty xs) i := by
  rw [← Gates.isOpen_iff_openedIn, ← settled_after, latch_settled (kept xs).placed, final]
  by_cases mem : (i, true) ∈ (after next empty xs).kinds
  · simp [mem, Latch.isOpen]
  · simp [mem, Latch.isOpen, Latch.shut]

theorem next_step (hk : s.At i k p) : s.next (.step k) = s.advance i k p := by
  unfold At at hk
  simp only [next, hk]

theorem free_go (free : s.Free i) (hk : s.At i k p) (hq : q.holds = false) :
    (s.go i k q).Free i :=
  free_iff.2 (forall_go hk hq fun k' r hr _ => free_iff.1 free k' r hr)

theorem wait_rests {b : Bool} (hk : s.At i k (.waited b)) : s.next (.step k) = s := by
  rw [next_step hk]
  cases b <;> rfl

theorem checking_step {b : Bool} (latch : s.gates.latch i = ⟨b, b⟩) (hk : s.At i k .checking) :
    (s.next (.step k)).At i k (.waited b) := by
  rw [next_step hk, advance, latch]
  exact at_go_self hk

theorem wanting_steps {b : Bool} (free : s.Free i) (latch : s.gates.latch i = ⟨b, b⟩)
    (hk : s.At i k .wanting) : (after next s [.step k, .step k]).At i k (.waited b) := by
  have first : s.next (.step k) = s.go i k .checking := by rw [next_step hk, advance, if_pos free]
  change ((s.next (.step k)).next (.step k)).At i k _
  rw [first]
  exact checking_step latch (at_go_self hk)

theorem looking_steps {b : Bool} (free : s.Free i) (latch : s.gates.latch i = ⟨b, b⟩)
    (hk : s.At i k .looking) : (after next s [.step k, .step k, .step k]).At i k (.waited b) := by
  change (after next (s.next (.step k)) [.step k, .step k]).At i k _
  rw [next_step hk, advance, latch]
  cases b with
  | true =>
    have there : (s.go i k .passed).At i k (.waited true) := at_go_self hk
    change (((s.go i k .passed).next (.step k)).next (.step k)).At i k _
    rw [wait_rests there, wait_rests there]
    exact there
  | false => exact wanting_steps (free_go free hk rfl) latch (at_go_self hk)

theorem wait_steps (hs : s.Stage i) (free : s.Free i) (hk : s.At i k p) (hp : p.waits = true) :
    (after next s [.step k, .step k, .step k]).At i k (.waited (s.gates.latch i).isOpen) := by
  have latch : s.gates.latch i = ⟨(s.gates.latch i).isOpen, (s.gates.latch i).isOpen⟩ := by
    rw [Latch.isOpen]
    exact congrArg (Latch.mk · _) (hs.agree free)
  have resting (there : s.At i k (.waited (s.gates.latch i).isOpen)) :
      (after next s [.step k, .step k, .step k]).At i k (.waited (s.gates.latch i).isOpen) := by
    change (((s.next (.step k)).next (.step k)).next (.step k)).At i k _
    rw [wait_rests there, wait_rests there, wait_rests there]
    exact there
  cases p with
  | looking => exact looking_steps free latch hk
  | wanting =>
    have there := wanting_steps free latch hk
    change ((after next s [.step k, .step k]).next (.step k)).At i k _
    rwa [wait_rests there]
  | checking => exact absurd free (not_free hk rfl)
  | asleep =>
    have shut : (s.gates.latch i).isOpen = false :=
      Bool.eq_false_iff.2 fun hi => hs.awake free hi hk
    exact resting (shut ▸ hk)
  | passed => exact resting (hs.isOpen_of hk (Or.inr rfl) ▸ hk)
  | _ => cases hp

/-- Who has the lock and is done with it gives it back. -/
theorem free_of_step (hx : s.Exclusive i) (hk : s.At i k p) (hp : p.holds = true)
    (hq : q.holds = false) : (s.go i k q).Free i :=
  free_iff.2 (forall_go hk hq fun k' r hr hne =>
    Bool.eq_false_iff.2 fun hr' => hne (hx k' k r p hr hk hr' hp))

/-- Where nobody has the lock, a wait at an open gate comes back. -/
theorem passes_of_free (hs : s.Kept) (hi : (s.gates.latch i).isOpen = true) (free : s.Free i)
    (hk : s.At i k p) (hp : p.waits = true) :
    (after next s ([k, k, k].map .step)).At i k .passed := by
  have there := wait_steps (hs.stage i) free hk hp
  rwa [hi] at there

/-- A step of another call after which nobody has the lock lets a wait come back. -/
theorem passes_after (hs : s.Kept) (hi : (s.gates.latch i).isOpen = true) {m : Nat}
    (free : (s.next (.step m)).Free i) (hk : (s.next (.step m)).At i k p) (hp : p.waits = true) :
    (after next s ([m, k, k, k].map .step)).At i k .passed :=
  passes_of_free (hs.next (.step m)) (isOpen_next hs.placed (.step m) hi) free hk hp

/-- Once the caller that opened the gate has only the lock to give back, a wait can come back. -/
theorem passes_after_leaving (hs : s.Kept) (hi : (s.gates.latch i).isOpen = true) {m : Nat}
    (hm : s.At i m .leaving) (hk : s.At i k p) (hp : p.waits = true) :
    (after next s ([m, k, k, k].map .step)).At i k .passed := by
  have hne : k ≠ m := by
    rintro rfl
    cases at_unique hk hm
    cases hp
  have leaves : s.next (.step m) = s.go i m .opened := next_step hm
  refine passes_after hs hi ?_ ?_ hp
  · exact leaves ▸ free_of_step (hs.exclusive i) hm rfl rfl
  · exact leaves ▸ at_go_other hm hk hne

theorem Stage.latch_of_isOpen (h : s.Stage i) (hi : (s.gates.latch i).isOpen = true) :
    s.gates.latch i = ⟨true, true⟩ ∧ ∀ k, ¬s.At i k .marked := by
  cases h with
  | shut latch | marked _ _ latch =>
    rw [latch] at hi
    cases hi
  | waking k₀ call latch others =>
    refine ⟨latch, fun k hk => ?_⟩
    by_cases hne : k = k₀
    · subst hne
      cases at_unique hk call
    · rcases others k _ hk hne with early | passed
      · cases early
      · cases passed
  | done latch calls => exact ⟨latch, fun k hk => (calls k _ hk).1 rfl⟩

theorem waits_wake (hk : s.At i k p) (hp : p.waits = true) :
    ∃ q, (s.wake i).At i k q ∧ q.waits = true := by
  simp only [at_wake, if_pos]
  by_cases asleep : p = .asleep
  · exact ⟨.wanting, Or.inr ⟨rfl, asleep ▸ hk⟩, rfl⟩
  · exact ⟨p, Or.inl ⟨asleep, hk⟩, hp⟩

/-- At an open gate, each wait can come back, whoever has the lock. -/
theorem can_pass (hs : s.Kept) (hi : (s.gates.latch i).isOpen = true) (hk : s.At i k p)
    (hp : p.waits = true) : ∃ ks : List Nat, (after next s (ks.map .step)).At i k .passed := by
  by_cases free : s.Free i
  · exact ⟨_, passes_of_free hs hi free hk hp⟩
  obtain ⟨latch, unmarked⟩ := (hs.stage i).latch_of_isOpen hi
  obtain ⟨m, q, hm, hq⟩ : ∃ m q, s.At i m q ∧ q.holds = true := by
    simpa [free_iff] using free
  -- whoever has the lock, maybe the wait itself, has few steps left before giving it back
  by_cases hne : k = m
  · subst hne
    cases at_unique hk hm
    cases p with
    | checking =>
      have step : s.next (.step k) = s.go i k .passed := by rw [next_step hk, advance, latch]; rfl
      exact ⟨[k], show (s.next (.step k)).At i k .passed from step ▸ at_go_self hk⟩
    | _ => simp [Point.holds, Point.waits] at hq hp
  have moved {r : Point} : (s.go i m r).At i k p := at_go_other hm hk hne
  have first : (∃ ks : List Nat, (after next (s.next (.step m)) (ks.map .step)).At i k .passed) →
      ∃ ks : List Nat, (after next s (ks.map .step)).At i k .passed := by
    rintro ⟨ks, there⟩
    exact ⟨m :: ks, there⟩
  have later : (s.next (.step m)).Kept := hs.next (.step m)
  have still : ((s.next (.step m)).gates.latch i).isOpen = true :=
    isOpen_next hs.placed (.step m) hi
  cases q with
  | marked => exact (unmarked m hm).elim
  | leaving => exact ⟨_, passes_after_leaving hs hi hm hk hp⟩
  | checking =>
    have step : s.next (.step m) = s.go i m .passed := by rw [next_step hm, advance, latch]; rfl
    refine ⟨_, passes_after (m := m) hs hi ?_ ?_ hp⟩
    · exact step ▸ free_of_step (hs.exclusive i) hm rfl rfl
    · exact step ▸ moved
  | entered =>
    have step : s.next (.step m) = s.go i m .leaving := by rw [next_step hm, advance, latch]; rfl
    have leaving : (s.next (.step m)).At i m .leaving := step ▸ at_go_self hm
    exact first ⟨_, passes_after_leaving later still leaving (step ▸ moved) hp⟩
  | stored =>
    have step : s.next (.step m) = (s.wake i).go i m .leaving := next_step hm
    have awake := at_wake_stored hm
    have leaving : (s.next (.step m)).At i m .leaving := step ▸ at_go_self awake
    obtain ⟨r, there, hr⟩ := waits_wake hk hp
    have moved : (s.next (.step m)).At i k r := step ▸ at_go_other awake there hne
    exact first ⟨_, passes_after_leaving later still leaving moved hr⟩
  | _ => cases hq

/-- A gate is opened once and for all, by its handles and its guards.

Done one after the other, the acts of a course leave it open just when one of them has opened it,
with both flags the same, and through each handle a look and a wait tell just that; it stays open.
However the steps of the calls are mixed, it is open only if the course has opened it, and is so
once no opening of it is under way, or one has come back; it stays open; its flags agree while
nobody has its lock. A wait that has come back has found it open; one that goes on alone while
nobody has the lock comes back just when it is open; at an open gate each wait can come back. Acts
done elsewhere leave the gate and the calls at it alone. Handles and guards are always as if the
acts had been done one after the other, and so are the gates with no opening under way anywhere. -/
theorem latched (xs ys : List GateAct) (i : Nat) :
    let t := history Gates.perform .empty xs
    let g := after Gates.perform .empty xs
    let s := after next empty xs
    (((g.latch i).isOpen = true ↔ OpenedIn t i) ∧
      (g.latch i).locked = (g.latch i).released ∧
      (∀ h, HandleOf t h i → g.isOpen h = (g.latch i).isOpen ∧ g.passes h = (g.latch i).isOpen) ∧
      ((g.latch i).isOpen = true →
        ((after Gates.perform .empty (xs ++ ys)).latch i).isOpen = true)) ∧
    ((s.gates.latch i).isOpen = true → OpenedIn t i) ∧
    (OpenedIn t i → (s.Quiet i ∨ ∃ k, s.At i k .opened) → (s.gates.latch i).isOpen = true) ∧
    ((s.gates.latch i).isOpen = true → ((after next s ys).gates.latch i).isOpen = true) ∧
    (s.Free i → (s.gates.latch i).locked = (s.gates.latch i).released) ∧
    (∀ k p, s.At i k p → p.waits = true →
      (p = .passed → (s.gates.latch i).isOpen = true) ∧
      (s.Free i → ((after next s [.step k, .step k, .step k]).At i k .passed ↔
        (s.gates.latch i).isOpen = true)) ∧
      ((s.gates.latch i).isOpen = true →
        ∃ ks : List Nat, (after next s (ks.map .step)).At i k .passed)) ∧
    ((∀ e ∈ history next s ys, e.state.gateOf e.act ≠ some i) → Alike i s (after next s ys)) ∧
    (s.gates.handles = g.handles ∧ s.gates.guards = g.guards) ∧
    ((∀ j, s.Quiet j) → s.gates = g) := by
  intro t g s
  have hs : s.Kept := kept xs
  have stage := hs.stage i
  have whole := Gates.accounted xs
  have same : s.settled = g := settled_after xs
  have handles : s.settled.handles = g.handles := congrArg Gates.handles same
  have guards : s.settled.guards = g.guards := congrArg Gates.guards same
  refine ⟨⟨Gates.isOpen_iff_openedIn xs, whole.sound.agree i, fun h => Gates.seen_through xs,
    Gates.isOpen_later xs ys⟩, fun hi => (opened_iff xs).1 (stage.opener hi), ?_,
    fun hi => isOpen_after hs hi ys, stage.agree, fun k p hk hp => ⟨?_, fun free => ?_, ?_⟩,
    alike_after hs ys, ⟨handles, guards⟩, fun quiet => (hs.settled_eq quiet).symm.trans same⟩
  · rintro opened (quiet | ⟨k, hk⟩)
    · rw [stage.latch_of_quiet quiet, final, if_pos ((opened_iff xs).2 opened)]
      rfl
    · exact stage.isOpen_of hk (Or.inl rfl)
  · rintro rfl
    exact stage.isOpen_of hk (Or.inr rfl)
  · have there := wait_steps stage free hk hp
    cases isOpen : (s.gates.latch i).isOpen with
    | true =>
      rw [isOpen] at there
      exact ⟨fun _ => rfl, fun _ => there⟩
    | false =>
      rw [isOpen] at there
      refine ⟨fun passed => ?_, nofun⟩
      cases at_unique there passed
  · exact fun hi => can_pass hs hi hk hp

/-- A thread sleeps at a gate, and a guard of a clone of its handle ends by unwinding. -/
def unwinding : List GateAct :=
  [.new, .clone 0, .guard 1, .wait 0, .step 0, .step 0, .step 0, .endGuard 0 .unwound] ++
    List.replicate 5 (.step 1)

theorem latched_unwinding :
    let s := after next empty unwinding
    let g := after Gates.perform .empty unwinding
    OpenedIn (history Gates.perform .empty unwinding) 0 ∧ g.isOpen 1 = true ∧ s.gates = g ∧
    s.At 0 0 .wanting ∧ (after next s [.step 0, .step 0, .step 0]).At 0 0 .passed := by
  intro s g
  obtain ⟨⟨-, -, seen, -⟩, opened, -, -, -, waits, -, -, same⟩ := latched unwinding [] 0
  have done : ∀ c ∈ s.calls, c.point.opens = true → c.point = .opened := by decide
  have quiet (j : Nat) : s.Quiet j := fun c hc _ => done c hc
  have handle : HandleOf (history Gates.perform .empty unwinding) 1 0 :=
    (Gates.accounted unwinding).handles 1 0 rfl
  have free : s.Free 0 := by decide
  exact ⟨opened rfl, (seen 1 handle).1.trans rfl, same quiet, rfl,
    ((waits 0 .wanting rfl rfl).2.1 free).2 rfl⟩

end GateCalls

end PluginRegistry.Actor
