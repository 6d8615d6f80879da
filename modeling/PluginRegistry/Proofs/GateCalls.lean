import PluginRegistry.Proofs.GateCourses

/-!
# Calls at gates

Threads open gates and wait at them at the same time, one small step each: a call takes the lock of
its gate, looks at the locked flag, sets one flag after the other, wakes those who sleep, and gives
the lock back. Whatever the order of the steps, one call at most has the lock
(`GateCalls.Exclusive`), and a gate goes through the stages of `GateCalls.Stage` on its way from
shut to open.
-/

namespace PluginRegistry.Actor

/-- How far a call has come. An opening takes the lock, marks the gate as open and releases it,
wakes those who sleep and gives the lock back; a wait takes a quick look first, then looks under the
lock, and sleeps without it. -/
inductive Point
  | opening | entered | marked | stored | leaving | opened
  | looking | wanting | checking | asleep | passed
  deriving DecidableEq, Repr

namespace Point

def holds : Point → Bool
  | entered | marked | stored | leaving | checking => true
  | _ => false

def opens : Point → Bool
  | opening | entered | marked | stored | leaving | opened => true
  | _ => false

def waits : Point → Bool
  | looking | wanting | checking | asleep | passed => true
  | _ => false

def waited (isOpen : Bool) : Point := if isOpen then passed else asleep

/-- Whether a call may be here before its gate is marked as open. -/
def early : Point → Bool
  | opening | entered | looking | wanting | checking | asleep => true
  | _ => false

end Point

structure GateCall where
  gate : Nat
  point : Point
  deriving DecidableEq, Repr

/-- Gates and all calls that were ever made at them. -/
structure GateCalls where
  gates : Gates
  calls : List GateCall

namespace Latch

def mark (l : Latch) : Latch := { l with locked := true }

def release (l : Latch) : Latch := { l with released := true }

end Latch

def Gates.onLatch (g : Gates) (i : Nat) (f : Latch → Latch) : Gates :=
  { g with latches := g.latches.modify i f }

namespace GateCalls

def empty : GateCalls := ⟨.empty, []⟩

def Free (s : GateCalls) (i : Nat) : Prop := ∀ c ∈ s.calls, c.gate = i → c.point.holds = false

instance (s : GateCalls) (i : Nat) : Decidable (s.Free i) :=
  inferInstanceAs (Decidable (∀ c ∈ s.calls, _))

def Quiet (s : GateCalls) (i : Nat) : Prop :=
  ∀ c ∈ s.calls, c.gate = i → c.point.opens = true → c.point = .opened

instance (s : GateCalls) (i : Nat) : Decidable (s.Quiet i) :=
  inferInstanceAs (Decidable (∀ c ∈ s.calls, _))

def At (s : GateCalls) (i k : Nat) (p : Point) : Prop := s.calls[k]? = some ⟨i, p⟩

def call (s : GateCalls) (i : Nat) (p : Point) : GateCalls :=
  { s with calls := s.calls ++ [⟨i, p⟩] }

def go (s : GateCalls) (i k : Nat) (p : Point) : GateCalls :=
  { s with calls := s.calls.set k ⟨i, p⟩ }

def onLatch (s : GateCalls) (i : Nat) (f : Latch → Latch) : GateCalls :=
  { s with gates := s.gates.onLatch i f }

def letGo (s : GateCalls) (n : Nat) : GateCalls :=
  { s with gates := { s.gates with guards := s.gates.guards.set n none } }

def woken (i : Nat) (c : GateCall) : GateCall :=
  if c.gate = i ∧ c.point = .asleep then ⟨i, .wanting⟩ else c

def wake (s : GateCalls) (i : Nat) : GateCalls := { s with calls := s.calls.map (woken i) }

def advance (s : GateCalls) (i k : Nat) : Point → GateCalls
  | .opening => if s.Free i then s.go i k .entered else s
  | .entered =>
    if (s.gates.latch i).locked then s.go i k .leaving else (s.onLatch i Latch.mark).go i k .marked
  | .marked => (s.onLatch i Latch.release).go i k .stored
  | .stored => (s.wake i).go i k .leaving
  | .leaving => s.go i k .opened
  | .looking => s.go i k (if (s.gates.latch i).released then .passed else .wanting)
  | .wanting => if s.Free i then s.go i k .checking else s
  | .checking => s.go i k (if (s.gates.latch i).locked then .passed else .asleep)
  | .asleep | .opened | .passed => s

/-- What an act does. One that refers to nothing does nothing. -/
def next (s : GateCalls) (x : GateAct) : GateCalls :=
  match x with
  | .new | .clone _ | .guard _ => { s with gates := s.gates.perform x }
  | .openAt h =>
    match s.gates.handles[h]? with
    | some i => s.call i .opening
    | none => s
  | .endGuard n _ =>
    match s.gates.guards[n]? with
    | some (some i) => (s.letGo n).call i .opening
    | _ => s
  | .wait h =>
    match s.gates.handles[h]? with
    | some i => { s with gates := s.gates.perform x }.call i .looking
    | none => s
  | .step k =>
    match s.calls[k]? with
    | some c => s.advance c.gate k c.point
    | none => s
  | .stir k =>
    match s.calls[k]? with
    | some c => if c.point = .asleep then s.go c.gate k .wanting else s
    | none => s

variable {s s' : GateCalls} {i j k k' n : Nat} {p q r : Point} {x : GateAct} {f : Latch → Latch}

theorem at_call : (s.call j p).At i k q ↔ s.At i k q ∨ k = s.calls.length ∧ j = i ∧ p = q := by
  unfold At call
  rcases Nat.lt_trichotomy k s.calls.length with h | h | h
  · rw [List.getElem?_append_left h]
    simp [Nat.ne_of_lt h]
  · simp [h]
  · have beyond : (s.calls ++ [GateCall.mk j p]).length ≤ k := by
      rw [List.length_append]
      exact h
    rw [List.getElem?_eq_none beyond, List.getElem?_eq_none (Nat.le_of_lt h)]
    simp [Nat.ne_of_gt h]

theorem at_go (hk : s.At j k p) :
    (s.go j k q).At i k' r ↔ if k' = k then j = i ∧ q = r else s.At i k' r := by
  have there : k < s.calls.length := (List.getElem?_eq_some_iff.1 hk).1
  unfold At go
  rw [List.getElem?_set]
  by_cases h : k = k'
  · subst h
    simp [there]
  · simp [h, Ne.symm h]

theorem at_go_self (hk : s.At i k p) : (s.go i k q).At i k q := by
  rw [at_go hk, if_pos rfl]
  exact ⟨rfl, rfl⟩

theorem at_go_other (hk : s.At i k p) (hk' : s.At i k' q) (hne : k' ≠ k) :
    (s.go i k r).At i k' q := by
  rw [at_go hk, if_neg hne]
  exact hk'

theorem at_unique (hp : s.At i k p) (hq : s.At i k q) : p = q := by
  unfold At at hp hq
  rw [hp] at hq
  simpa using hq

/-- What holds where one call has come to and of all others holds of all calls. -/
theorem forall_go {P : Nat → Point → Prop} (hk : s.At i k p) (hq : P k q)
    (h : ∀ k' r, s.At i k' r → k' ≠ k → P k' r) (k' : Nat) (r : Point)
    (hr : (s.go i k q).At i k' r) : P k' r := by
  rw [at_go hk] at hr
  split at hr
  · next same => exact same ▸ hr.2 ▸ hq
  · next hne => exact h k' r hr hne

theorem forall_call {P : Nat → Point → Prop} (hp : ∀ k, P k p) (h : ∀ k' r, s.At i k' r → P k' r)
    (k' : Nat) (r : Point) (hr : (s.call i p).At i k' r) : P k' r := by
  rcases at_call.1 hr with old | ⟨-, -, rfl⟩
  · exact h k' r old
  · exact hp k'

theorem at_wake : (s.wake j).At i k q ↔
    if j = i then q ≠ .asleep ∧ s.At i k q ∨ q = .wanting ∧ s.At i k .asleep else s.At i k q := by
  unfold At wake
  rw [List.getElem?_map]
  cases s.calls[k]? with
  | none => simp
  | some c =>
    obtain ⟨g, p⟩ := c
    simp only [Option.map_some, Option.some.injEq, woken, GateCall.mk.injEq]
    grind

theorem at_wake_stored (hk : s.At i k .stored) : (s.wake i).At i k .stored := by
  rw [at_wake, if_pos rfl]
  exact Or.inl ⟨nofun, hk⟩

theorem latch_onLatch (hi : i < s.gates.latches.length) :
    (s.onLatch i f).gates.latch j = if i = j then f (s.gates.latch j) else s.gates.latch j := by
  simp only [onLatch, Gates.onLatch, Gates.latch, List.getD_eq_getElem?_getD, List.getElem?_modify]
  by_cases h : i = j
  · subst h
    simp [hi]
  · simp [h]

structure Alike (i : Nat) (s s' : GateCalls) : Prop where
  latch : s'.gates.latch i = s.gates.latch i
  calls : ∀ k p, s'.At i k p ↔ s.At i k p

theorem Alike.refl : Alike i s s := ⟨rfl, fun _ _ => Iff.rfl⟩

theorem alike_call (h : j ≠ i) : Alike i s (s.call j p) where
  latch := rfl
  calls k q := by rw [at_call]; grind

theorem alike_go (hk : s.At j k p) (h : j ≠ i) : Alike i s (s.go j k q) where
  latch := rfl
  calls k' r := by
    rw [at_go hk]
    split
    · next hkk =>
      refine ⟨fun hr => absurd hr.1 h, fun hr => ?_⟩
      rw [At, hkk, hk] at hr
      simp [h] at hr
    · rfl

theorem alike_advance (hj : j < s.gates.latches.length) (hk : s.At j k p) (h : j ≠ i) :
    Alike i s (s.advance j k p) := by
  have shut (f : Latch → Latch) : (s.onLatch j f).gates.latch i = s.gates.latch i := by
    rw [latch_onLatch hj, if_neg h]
  cases p with
  | opening | wanting =>
    rw [advance]
    split
    · exact alike_go hk h
    · exact .refl
  | entered =>
    rw [advance]
    split
    · exact alike_go hk h
    · exact ⟨shut _, (alike_go hk h (q := .marked)).calls⟩
  | marked => exact ⟨shut _, (alike_go hk h (q := .stored)).calls⟩
  | stored =>
    refine ⟨rfl, fun k' r => ((alike_go (at_wake_stored hk) h (q := .leaving)).calls k' r).trans ?_⟩
    rw [at_wake, if_neg h]
  | leaving | looking | checking => exact alike_go hk h
  | asleep | opened | passed => exact .refl

theorem free_iff : s.Free i ↔ ∀ k p, s.At i k p → p.holds = false := by
  constructor
  · intro h k p hk
    exact h _ (List.mem_of_getElem? hk) rfl
  · intro h c hc hi
    obtain ⟨k, hk⟩ := List.mem_iff_getElem?.1 hc
    refine h k c.point ?_
    rw [At, hk, ← hi]

def Exclusive (s : GateCalls) (i : Nat) : Prop :=
  ∀ k k' p p', s.At i k p → s.At i k' p' → p.holds = true → p'.holds = true → k = k'

/-- How a gate comes to be open: nobody has marked it yet; one call has; that call has released it
too, and is about to wake the sleepers; or all that is done. -/
inductive Stage (s : GateCalls) (i : Nat) : Prop
  | shut (latch : s.gates.latch i = ⟨false, false⟩) (calls : ∀ k p, s.At i k p → p.early = true)
  | marked (k : Nat) (call : s.At i k .marked) (latch : s.gates.latch i = ⟨true, false⟩)
    (others : ∀ k' p, s.At i k' p → k' ≠ k → p.early = true)
  | waking (k : Nat) (call : s.At i k .stored) (latch : s.gates.latch i = ⟨true, true⟩)
    (others : ∀ k' p, s.At i k' p → k' ≠ k → p.early = true ∨ p = .passed)
  | done (latch : s.gates.latch i = ⟨true, true⟩)
    (calls : ∀ k p, s.At i k p → p ≠ .marked ∧ p ≠ .stored ∧ p ≠ .asleep)
    (opener : ∃ k, s.At i k .leaving ∨ s.At i k .opened)

theorem exclusive_go (h : s.Exclusive i) (hk : s.At i k p)
    (hq : q.holds = true → p.holds = true ∨ s.Free i) : (s.go i k q).Exclusive i := by
  have alone {b : Nat} {t : Point} (hb : s.At i b t) (ht : t.holds = true) (hq' : q.holds = true) :
      b = k := by
    rcases hq hq' with hp | free
    · exact h b k t p hb hk ht hp
    · exact absurd (free_iff.1 free b t hb) (by simp [ht])
  intro a b r t ha hb hr ht
  rw [at_go hk] at ha hb
  split at ha <;> split at hb
  · next hak hbk => exact hak.trans hbk.symm
  · next hak _ => exact hak.trans (alone hb ht (ha.2 ▸ hr)).symm
  · next _ hbk => exact (alone ha hr (hb.2 ▸ ht)).trans hbk.symm
  · exact h a b r t ha hb hr ht

theorem exclusive_wake (h : s.Exclusive i) : (s.wake i).Exclusive i := by
  intro a b r t ha hb hr ht
  rw [at_wake, if_pos rfl] at ha hb
  rcases ha with ⟨-, ha⟩ | ⟨rfl, -⟩
  · rcases hb with ⟨-, hb⟩ | ⟨rfl, -⟩
    · exact h a b r t ha hb hr ht
    · cases ht
  · cases hr

theorem exclusive_advance (h : s.Exclusive i) (hk : s.At i k p) :
    (s.advance i k p).Exclusive i := by
  cases p with
  | opening | wanting =>
    rw [advance]
    split
    · next free => exact exclusive_go h hk fun _ => Or.inr free
    · exact h
  | entered =>
    rw [advance]
    split
    · exact exclusive_go h hk fun _ => Or.inl rfl
    · exact exclusive_go (s := s.onLatch i Latch.mark) h hk fun _ => Or.inl rfl
  | marked => exact exclusive_go (s := s.onLatch i Latch.release) h hk fun _ => Or.inl rfl
  | stored => exact exclusive_go (exclusive_wake h) (at_wake_stored hk) fun _ => Or.inl rfl
  | leaving | checking => exact exclusive_go h hk fun _ => Or.inl rfl
  | looking =>
    refine exclusive_go h hk fun hq => ?_
    split at hq <;> cases hq
  | asleep | opened | passed => exact h

/-- Before the gate is marked, a call may go on to any early point. -/
theorem shut_go (latch : s.gates.latch i = ⟨false, false⟩)
    (calls : ∀ k p, s.At i k p → p.early = true) (hk : s.At i k p) (hq : q.early = true) :
    (s.go i k q).Stage i := by
  exact .shut latch (forall_go hk hq fun k' r hr _ => calls k' r hr)

theorem done_go (latch : s.gates.latch i = ⟨true, true⟩)
    (calls : ∀ k p, s.At i k p → p ≠ .marked ∧ p ≠ .stored ∧ p ≠ .asleep)
    (opener : ∃ k, s.At i k .leaving ∨ s.At i k .opened) (hk : s.At i k p)
    (hq : q ≠ .marked ∧ q ≠ .stored ∧ q ≠ .asleep)
    (hp : p = .leaving ∨ p = .opened → q = .opened) : (s.go i k q).Stage i := by
  refine .done latch (forall_go hk hq fun k' r hr _ => calls k' r hr) ?_
  obtain ⟨k', hk'⟩ := opener
  by_cases hne : k' = k
  · subst hne
    have same : p = .leaving ∨ p = .opened := hk'.imp (at_unique hk) (at_unique hk)
    exact ⟨k', Or.inr (hp same ▸ at_go_self hk)⟩
  · exact ⟨k', hk'.imp (at_go_other hk · hne) (at_go_other hk · hne)⟩

theorem not_free (hk : s.At i k p) (hp : p.holds = true) : ¬s.Free i := by
  intro free
  rw [free_iff.1 free k p hk] at hp
  cases hp

/-- While one call has marked the gate, the others may go on to any early point. -/
theorem marked_go {k₀ : Nat} (call : s.At i k₀ .marked) (latch : s.gates.latch i = ⟨true, false⟩)
    (others : ∀ k' p, s.At i k' p → k' ≠ k₀ → p.early = true) (hk : s.At i k p) (hne : k ≠ k₀)
    (hq : q.early = true) : (s.go i k q).Stage i :=
  .marked k₀ (at_go_other hk call hne.symm) latch
    (forall_go hk (fun _ => hq) fun k' r hr _ => others k' r hr)

theorem waking_go {k₀ : Nat} (call : s.At i k₀ .stored) (latch : s.gates.latch i = ⟨true, true⟩)
    (others : ∀ k' p, s.At i k' p → k' ≠ k₀ → p.early = true ∨ p = .passed) (hk : s.At i k p)
    (hne : k ≠ k₀) (hq : q.early = true ∨ q = .passed) : (s.go i k q).Stage i :=
  .waking k₀ (at_go_other hk call hne.symm) latch
    (forall_go hk (fun _ => hq) fun k' r hr _ => others k' r hr)

theorem marked_advance (hx : s.Exclusive i) (hi : i < s.gates.latches.length) {k₀ : Nat}
    (call : s.At i k₀ .marked) (latch : s.gates.latch i = ⟨true, false⟩)
    (others : ∀ k' p, s.At i k' p → k' ≠ k₀ → p.early = true) (hk : s.At i k p) :
    (s.advance i k p).Stage i := by
  have held : ¬s.Free i := not_free call rfl
  by_cases hne : k = k₀
  · subst hne
    cases at_unique hk call
    have released : (s.onLatch i Latch.release).gates.latch i = ⟨true, true⟩ := by
      rw [latch_onLatch hi, if_pos rfl, latch]
      rfl
    exact .waking k (at_go_self (s := s.onLatch i Latch.release) call) released
      (forall_go (s := s.onLatch i Latch.release) call (absurd rfl) fun k' r hr hne _ =>
        Or.inl (others k' r hr hne))
  · -- another call cannot have the lock, so it waits for it or takes a quick look
    have early := others k p hk hne
    have outside (hp : p.holds = true) : False := hne (hx k k₀ p .marked hk call hp rfl)
    cases p with
    | opening | wanting =>
      rw [advance, if_neg held]
      exact .marked k₀ call latch others
    | looking =>
      rw [advance, latch]
      exact marked_go call latch others hk hne rfl
    | asleep => exact .marked k₀ call latch others
    | entered | checking => exact (outside rfl).elim
    | _ => cases early

theorem waking_advance (hx : s.Exclusive i) {k₀ : Nat}
    (call : s.At i k₀ .stored) (latch : s.gates.latch i = ⟨true, true⟩)
    (others : ∀ k' p, s.At i k' p → k' ≠ k₀ → p.early = true ∨ p = .passed) (hk : s.At i k p) :
    (s.advance i k p).Stage i := by
  have held : ¬s.Free i := not_free call rfl
  by_cases hne : k = k₀
  · subst hne
    cases at_unique hk call
    have awake := at_wake_stored call
    refine .done latch (forall_go awake (by decide) fun k' r hr hne => ?_)
      ⟨k, Or.inl (at_go_self awake)⟩
    rw [at_wake, if_pos rfl] at hr
    rcases hr with ⟨hr, hr'⟩ | ⟨rfl, -⟩
    · rcases others k' r hr' hne with early | rfl
      · refine ⟨?_, ?_, hr⟩ <;> rintro rfl <;> cases early
      · decide
    · decide
  · have other := others k p hk hne
    have outside (hp : p.holds = true) : False := hne (hx k k₀ p .stored hk call hp rfl)
    cases p with
    | opening | wanting =>
      rw [advance, if_neg held]
      exact .waking k₀ call latch others
    | looking =>
      rw [advance, latch]
      exact waking_go call latch others hk hne (Or.inr rfl)
    | asleep | passed => exact .waking k₀ call latch others
    | entered | checking => exact (outside rfl).elim
    | _ => simp [Point.early] at other

theorem stage_advance (h : s.Stage i) (hx : s.Exclusive i) (hi : i < s.gates.latches.length)
    (hk : s.At i k p) : (s.advance i k p).Stage i := by
  cases h with
  | shut latch calls =>
    have early := calls k p hk
    cases p with
    | opening | wanting =>
      rw [advance]
      split
      · exact shut_go latch calls hk rfl
      · exact .shut latch calls
    | entered =>
      have marked : (s.onLatch i Latch.mark).gates.latch i = ⟨true, false⟩ := by
        rw [latch_onLatch hi, if_pos rfl, latch]
        rfl
      rw [advance, latch, if_neg (by decide)]
      exact .marked k (at_go_self (s := s.onLatch i Latch.mark) hk) marked
        (forall_go (s := s.onLatch i Latch.mark) hk (absurd rfl) fun k' r hr _ _ => calls k' r hr)
    | looking | checking =>
      rw [advance, latch]
      exact shut_go latch calls hk rfl
    | asleep => exact .shut latch calls
    | _ => cases early
  | marked k₀ call latch others => exact marked_advance hx hi call latch others hk
  | waking k₀ call latch others => exact waking_advance hx call latch others hk
  | done latch calls opener =>
    have settled := calls k p hk
    cases p with
    | opening | wanting =>
      rw [advance]
      split
      · exact done_go latch calls opener hk (by decide) (by decide)
      · exact .done latch calls opener
    | entered | looking | checking =>
      rw [advance, latch]
      exact done_go latch calls opener hk (by decide) (by decide)
    | leaving => exact done_go latch calls opener hk (by decide) (by decide)
    | marked | stored | asleep => simp at settled
    | opened | passed => exact .done latch calls opener

/-- A sleeper may wake at any time. -/
theorem stage_stir (h : s.Stage i) (hk : s.At i k .asleep) : (s.go i k .wanting).Stage i := by
  cases h with
  | shut latch calls => exact shut_go latch calls hk rfl
  | marked k₀ call latch others =>
    have hne : k ≠ k₀ := by
      rintro rfl
      cases at_unique hk call
    exact marked_go call latch others hk hne rfl
  | waking k₀ call latch others =>
    have hne : k ≠ k₀ := by
      rintro rfl
      cases at_unique hk call
    exact waking_go call latch others hk hne (Or.inl rfl)
  | done latch calls => exact absurd rfl (calls k .asleep hk).2.2

theorem stage_call (h : s.Stage i) (hp : p = .opening ∨ p = .looking) : (s.call i p).Stage i := by
  have old {k : Nat} {q : Point} (hk : s.At i k q) : (s.call i p).At i k q := at_call.2 (Or.inl hk)
  have early : p.early = true := by rcases hp with rfl | rfl <;> rfl
  cases h with
  | shut latch calls => exact .shut latch (forall_call (fun _ => early) calls)
  | marked k₀ call latch others =>
    exact .marked k₀ (old call) latch (forall_call (fun _ _ => early) others)
  | waking k₀ call latch others =>
    exact .waking k₀ (old call) latch (forall_call (fun _ _ => Or.inl early) others)
  | done latch calls opener =>
    obtain ⟨k, hk⟩ := opener
    refine .done latch (forall_call (fun _ => ?_) calls) ⟨k, hk.imp old old⟩
    rcases hp with rfl | rfl <;> decide

theorem exclusive_call (h : s.Exclusive i) (hp : p.holds = false) : (s.call i p).Exclusive i := by
  have old {k : Nat} {q : Point} (hk : (s.call i p).At i k q) (hq : q.holds = true) :
      s.At i k q := by
    rcases at_call.1 hk with hk | ⟨-, -, rfl⟩
    · exact hk
    · exact absurd (hp.symm.trans hq) (by decide)
  intro a b q r ha hb hq hr
  exact h a b q r (old ha hq) (old hb hr) hq hr

theorem Alike.exclusive (h : Alike i s s') (hs : s.Exclusive i) : s'.Exclusive i :=
  fun a b p q ha hb => hs a b p q ((h.calls a p).1 ha) ((h.calls b q).1 hb)

theorem Alike.stage (h : Alike i s s') (hs : s.Stage i) : s'.Stage i := by
  cases hs with
  | shut latch calls =>
    exact .shut (h.latch.trans latch) fun k p hk => calls k p ((h.calls k p).1 hk)
  | marked k call latch others =>
    exact .marked k ((h.calls k _).2 call) (h.latch.trans latch)
      fun k' p hk => others k' p ((h.calls k' p).1 hk)
  | waking k call latch others =>
    exact .waking k ((h.calls k _).2 call) (h.latch.trans latch)
      fun k' p hk => others k' p ((h.calls k' p).1 hk)
  | done latch calls opener =>
    refine .done (h.latch.trans latch) (fun k p hk => calls k p ((h.calls k p).1 hk)) ?_
    obtain ⟨k, hk⟩ := opener
    exact ⟨k, hk.imp (h.calls k _).2 (h.calls k _).2⟩

end GateCalls

end PluginRegistry.Actor
