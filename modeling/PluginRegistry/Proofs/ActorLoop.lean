import PluginRegistry.Actor.Counter
import PluginRegistry.Proofs.MailboxLedger

/-!
# Messages are handled in order

The thread of an actor takes single steps, between any two of which others send to the actor or
close its mailbox. Whatever the behaviour does, a step of the thread is one of a few (`Works`), and
every act is a move of the mailbox, so what was accepted is what was handled, then what was
discarded, then what is queued. Which of these is empty depends on how far the actor is on its way
out (`Orderly`).
-/

namespace PluginRegistry.Actor

variable {σ μ ε α : Type}

def Script.post? : Script μ ε α → Option μ
  | .post m _ => some m
  | _ => none

/-- A single effect of a script is a move of the mailbox. -/
theorem Script.moves_step {s s' : Script μ ε α} {c c' : Script.Context μ ε}
    (h : s.step c = some (c', s')) :
    c.mailbox.Moves c'.mailbox (s.post?.toList.flatMap c.mailbox.admitted) [] [] := by
  cases s with
  | done a => cases h
  | emit e rest =>
    cases h
    exact .refl _
  | post m rest =>
    cases h
    simp only [Script.post?, Option.toList, List.flatMap_cons, List.flatMap_nil, List.append_nil]
    exact c.mailbox.moves_send m
  | close rest =>
    cases h
    exact c.mailbox.moves_close
  | measure rest =>
    cases h
    exact .refl _

namespace Phase

def post? : Phase σ μ ε → Option μ
  | starting rest => rest.post?
  | waiting _ => none
  | handling rest => rest.post?
  | stopping rest _ => rest.post?
  | exited _ _ => none

def leaving? : Phase σ μ ε → Option Exit
  | stopping _ exit => some exit
  | exited _ exit => some exit
  | _ => none

/-- A handler has said stop or panicked, or starting or stopping is over for good. -/
def Parting : Phase σ μ ε → Prop
  | starting (.done (_, ending)) => ending ≠ .returns
  | handling (.done (_, flow)) => flow ≠ .proceed
  | stopping (.done _) _ => True
  | _ => False

/-- The actor carries out the next effect of its script. -/
inductive Effects (c c' : Script.Context μ ε) : Phase σ μ ε → Phase σ μ ε → Prop
  | starting {rest rest' : Script μ ε (σ × Ending)} (step : rest.step c = some (c', rest')) :
      Effects c c' (starting rest) (starting rest')
  | handling {rest rest' : Script μ ε (σ × Flow)} (step : rest.step c = some (c', rest')) :
      Effects c c' (handling rest) (handling rest')
  | stopping {rest rest' : Script μ ε (σ × Ending)} {exit : Exit}
      (step : rest.step c = some (c', rest')) :
      Effects c c' (stopping rest exit) (stopping rest' exit)

variable {p p' : Phase σ μ ε} {c c' : Script.Context μ ε}

theorem moves_effects (h : Effects c c' p p') :
    c.mailbox.Moves c'.mailbox (p.post?.toList.flatMap c.mailbox.admitted) [] [] := by
  cases h with
  | starting step | handling step | stopping step => exact Script.moves_step step

theorem leaving_effects (h : Effects c c' p p') : p'.leaving? = p.leaving? := by
  cases h <;> rfl

theorem not_exited_of_effects (h : Effects c c' p p') (s : σ) (exit : Exit) :
    p' ≠ .exited s exit := by
  rintro rfl
  cases h

/-- A script that has an effect left is not done. -/
theorem not_parting_of_effects (h : Effects c c' p p') : ¬p.Parting := by
  intro hp
  unfold Parting at hp
  split at hp
  · cases h with
    | starting step => cases step
  · cases h with
    | handling step => cases step
  · cases h with
    | stopping step => cases step
  · exact hp

end Phase

namespace Running

variable {b : Behaviour σ μ ε} {r r' : Running σ μ ε}

/-- What may happen to an actor. Its thread and others take turns in any order. -/
inductive Act (μ : Type)
  | work
  | send (m : μ)
  | close

/-- Nothing comes of the thread's turn while it waits or after it has exited. -/
def next (b : Behaviour σ μ ε) (r : Running σ μ ε) : Act μ → Running σ μ ε
  | .work => (r.step b).getD r
  | .send m => (r.send m).1
  | .close => r.close

inductive Works (b : Behaviour σ μ ε) (r : Running σ μ ε) : Running σ μ ε → Prop
  | waits {s : σ} (phase : r.phase = .waiting s) (queue : r.mailbox.queue = []) : Works b r r
  | gone {s : σ} {exit : Exit} (phase : r.phase = .exited s exit) : Works b r r
  | effect {c : Script.Context μ ε} {p : Phase σ μ ε}
      (effects : Phase.Effects r.context c r.phase p) : Works b r ⟨c, p⟩
  | started {s : σ} (phase : r.phase = .starting (.done (s, .returns))) :
      Works b r { r with phase := .waiting s }
  | aborted {s : σ} {t : Option String} (phase : r.phase = .starting (.done (s, .panics t))) :
      Works b r (r.leave s (.panicked t))
  | take {s : σ} {m : μ} {q : List μ} (phase : r.phase = .waiting s)
      (queue : r.mailbox.queue = m :: q) :
      Works b r { r.withMailbox ⟨q, r.mailbox.closed⟩ with phase := .handling (b.handle s m) }
  | finish {s : σ} (phase : r.phase = .waiting s) (spent : r.mailbox = ⟨[], true⟩) :
      Works b r { r with phase := .stopping (b.onStop s) .mailboxClosed }
  | proceed {s : σ} (phase : r.phase = .handling (.done (s, .proceed))) :
      Works b r { r with phase := .waiting s }
  | stop {s : σ} (phase : r.phase = .handling (.done (s, .stop))) :
      Works b r { r with phase := .stopping (b.onStop s) .stopped }
  | panic {s : σ} {t : Option String} (phase : r.phase = .handling (.done (s, .panic t))) :
      Works b r
        { r.withMailbox r.mailbox.discard.1 with phase := .stopping (b.onStop s) (.panicked t) }
  | stopped {s : σ} {ending : Ending} {exit : Exit}
      (phase : r.phase = .stopping (.done (s, ending)) exit) :
      Works b r (r.leave s (ending.exit exit))

theorem works_next (b : Behaviour σ μ ε) (r : Running σ μ ε) : Works b r (next b r .work) := by
  obtain ⟨c, p⟩ := r
  cases p with
  | starting rest =>
    cases rest with
    | done a =>
      obtain ⟨s, ending⟩ := a
      cases ending with
      | returns => exact .started rfl
      | panics t => exact .aborted rfl
    | emit _ _ | post _ _ | close _ | measure _ => exact .effect (.starting rfl)
  | waiting s =>
    obtain ⟨⟨queue, closed⟩, events⟩ := c
    cases queue with
    | cons m q => exact .take rfl rfl
    | nil =>
      cases closed with
      | true => exact .finish rfl rfl
      | false => exact .waits rfl rfl
  | handling rest =>
    cases rest with
    | done a =>
      obtain ⟨s, flow⟩ := a
      cases flow with
      | proceed => exact .proceed rfl
      | stop => exact .stop rfl
      | panic t => exact .panic rfl
    | emit _ _ | post _ _ | close _ | measure _ => exact .effect (.handling rfl)
  | stopping rest exit =>
    cases rest with
    | done a => exact .stopped rfl
    | emit _ _ | post _ _ | close _ | measure _ => exact .effect (.stopping rfl)
  | exited s exit => exact .gone rfl

def accepted (e : Instant (Running σ μ ε) (Act μ)) : List μ :=
  match e.act with
  | .work => e.state.phase.post?.toList.flatMap e.state.mailbox.admitted
  | .send m => e.state.mailbox.admitted m
  | .close => []

def handled (e : Instant (Running σ μ ε) (Act μ)) : List μ :=
  match e.act, e.state.phase with
  | .work, .waiting _ => e.state.mailbox.tryReceive.2.toList
  | _, _ => []

def discarded (e : Instant (Running σ μ ε) (Act μ)) : List μ :=
  match e.act, e.state.phase with
  | .work, .starting (.done (_, .panics _)) => e.state.mailbox.queue
  | .work, .handling (.done (_, .panic _)) => e.state.mailbox.queue
  | .work, .stopping (.done _) _ => e.state.mailbox.queue
  | _, _ => []

def Parts (e : Instant (Running σ μ ε) (Act μ)) : Prop :=
  match e.act with
  | .work => e.state.phase.Parting
  | _ => False

theorem handled_of_not_waiting (h : ∀ s, r.phase ≠ .waiting s) (x : Act μ) :
    handled ⟨r, x⟩ = [] := by
  obtain ⟨c, p⟩ := r
  cases x with
  | send m | close => rfl
  | work =>
    cases p with
    | waiting s => exact absurd rfl (h s)
    | starting _ | handling _ | stopping _ _ | exited _ _ => rfl

theorem discarded_of_not_parts {x : Act μ} (h : ¬Parts ⟨r, x⟩) : discarded ⟨r, x⟩ = [] := by
  unfold discarded
  split <;> simp_all [Parts, Phase.Parting]

theorem moves_works (h : Works b r r') :
    r.mailbox.Moves r'.mailbox (accepted ⟨r, .work⟩) (handled ⟨r, .work⟩)
      (discarded ⟨r, .work⟩) := by
  obtain ⟨c, p⟩ := r
  cases h with
  | waits hp queue =>
    cases hp
    obtain ⟨⟨q, closed⟩, events⟩ := c
    cases queue
    exact .refl _
  | gone hp | started hp | proceed hp | stop hp =>
    cases hp
    exact .refl _
  | effect he =>
    have hw : ∀ s, p ≠ .waiting s := by
      rintro s rfl
      cases he
    have hd : ¬Parts ⟨⟨c, p⟩, .work⟩ := Phase.not_parting_of_effects he
    rw [handled_of_not_waiting hw, discarded_of_not_parts hd]
    exact Phase.moves_effects he
  | aborted hp | panic hp | stopped hp =>
    cases hp
    exact c.mailbox.moves_discard
  | take hp queue =>
    cases hp
    obtain ⟨⟨q, closed⟩, events⟩ := c
    cases queue
    exact Mailbox.moves_tryReceive _
  | finish hp spent =>
    cases hp
    obtain ⟨box, events⟩ := c
    cases spent
    exact .refl _

/-- Every act is a move of the mailbox. -/
theorem moves_next (b : Behaviour σ μ ε) (r : Running σ μ ε) (x : Act μ) :
    r.mailbox.Moves (next b r x).mailbox (accepted ⟨r, x⟩) (handled ⟨r, x⟩) (discarded ⟨r, x⟩) := by
  cases x with
  | send m => exact r.mailbox.moves_send m
  | close => exact r.mailbox.moves_close
  | work => exact moves_works (works_next b r)

/-- What is known of an actor and of the messages discarded so far, by how far it is on its way
out. -/
structure Orderly (r : Running σ μ ε) (drop : List μ) : Prop where
  inside : r.phase.leaving? = none → drop = []
  finished : r.phase.leaving? = some .mailboxClosed → drop = [] ∧ r.mailbox = ⟨[], true⟩
  ended : ∀ s exit, r.phase = .exited s exit → r.mailbox = ⟨[], true⟩

variable {drop a o : List μ}

theorem orderly_spawn (b : Behaviour σ μ ε) (s : σ) : (spawn b s).Orderly [] where
  inside _ := rfl
  finished h := nomatch h
  ended _ _ h := nomatch h

/-- An act that leaves the actor as far on its way out as it was, and drops nothing. -/
theorem Orderly.stays (h : r.Orderly drop) (move : r.mailbox.Moves r'.mailbox a o [])
    (leaving : r'.phase.leaving? = r.phase.leaving?)
    (ended : ∀ s exit, r'.phase = .exited s exit → r.phase = .exited s exit) :
    r'.Orderly drop where
  inside hl := h.inside (leaving ▸ hl)
  finished hl := by
    obtain ⟨hd, hm⟩ := h.finished (leaving ▸ hl)
    exact ⟨hd, (move.of_spent hm).1⟩
  ended s exit hp := (move.of_spent (h.ended s exit (ended s exit hp))).1

theorem Orderly.works (h : r.Orderly drop) (w : Works b r r') :
    r'.Orderly (drop ++ discarded ⟨r, .work⟩) := by
  have stays (hn : ¬r.phase.Parting) (hl : r'.phase.leaving? = r.phase.leaving?)
      (he : ∀ s exit, r'.phase = .exited s exit → r.phase = .exited s exit) :
      r'.Orderly (drop ++ discarded ⟨r, .work⟩) := by
    have move := moves_works w
    rw [discarded_of_not_parts (x := .work) hn] at move ⊢
    rw [List.append_nil]
    exact h.stays move hl he
  obtain ⟨c, p⟩ := r
  cases w with
  | waits hp _ | gone hp =>
    cases hp
    exact stays id rfl fun _ _ => id
  | started hp | proceed hp =>
    cases hp
    exact stays (fun hn => hn rfl) rfl fun _ _ h => nomatch h
  | take hp _ =>
    cases hp
    exact stays id rfl fun _ _ h => nomatch h
  | effect he =>
    exact stays (Phase.not_parting_of_effects he) (Phase.leaving_effects he) fun _ _ h =>
      absurd h (Phase.not_exited_of_effects he _ _)
  | aborted hp => exact ⟨nofun, nofun, fun _ _ _ => rfl⟩
  | stop hp | panic hp => exact ⟨nofun, nofun, nofun⟩
  | finish hp spent =>
    cases hp
    exact ⟨nofun, fun _ => ⟨by simpa [discarded] using h.inside rfl, spent⟩, nofun⟩
  | @stopped s ending exit hp =>
    cases hp
    refine ⟨nofun, fun hf => ⟨?_, rfl⟩, fun _ _ _ => rfl⟩
    cases ending with
    | returns =>
      cases hf
      obtain ⟨hd, hm⟩ := h.finished rfl
      simp [hd, discarded, hm]
    | panics t => cases hf

theorem orderly_next (h : r.Orderly drop) (x : Act μ) :
    (next b r x).Orderly (drop ++ discarded ⟨r, x⟩) := by
  cases x with
  | send m =>
    rw [discarded_of_not_parts id, List.append_nil]
    exact h.stays (moves_next b r (.send m)) rfl fun _ _ => id
  | close =>
    rw [discarded_of_not_parts id, List.append_nil]
    exact h.stays (moves_next b r .close) rfl fun _ _ => id
  | work => exact h.works (works_next b r)

/-- Who parts leaves, and who leaves does not come back. -/
theorem leaving_works (w : Works b r r') (h : r.phase.Parting ∨ r.phase.leaving?.isSome) :
    r'.phase.leaving?.isSome := by
  cases w with
  | effect he =>
    rw [Phase.leaving_effects he]
    exact h.resolve_left (Phase.not_parting_of_effects he)
  | waits hp _ | started hp | proceed hp | take hp _ =>
    simp [hp, Phase.Parting, Phase.leaving?] at h
  | gone hp => simp [hp, Phase.leaving?]
  | aborted _ | stop _ | panic _ | finish _ _ | stopped _ => rfl

/-- From a parting act on the actor leaves, and a leaving actor takes no message. -/
structure Parted (t : List (Instant (Running σ μ ε) (Act μ))) (r : Running σ μ ε) : Prop where
  leaves : ∀ e ∈ t, Parts e → r.phase.leaving?.isSome
  unhandled : t.Pairwise fun e e' => Parts e → handled e' = []

theorem handled_of_leaving (h : r.phase.leaving?.isSome) (x : Act μ) : handled ⟨r, x⟩ = [] :=
  handled_of_not_waiting (fun s hs => by simp [hs, Phase.leaving?] at h) x

theorem parted_next {t : List (Instant (Running σ μ ε) (Act μ))} (h : Parted t r) (x : Act μ) :
    Parted (t ++ [⟨r, x⟩]) (next b r x) where
  leaves e he hp := by
    have hr : Parts ⟨r, x⟩ ∨ r.phase.leaving?.isSome := by
      obtain he | he := List.mem_append.1 he
      · exact .inr (h.leaves e he hp)
      · cases List.mem_singleton.1 he
        exact .inl hp
    cases x with
    | send m | close => exact hr.resolve_left id
    | work => exact leaving_works (works_next b r) hr
  unhandled := by
    refine List.pairwise_append.2 ⟨h.unhandled, List.pairwise_singleton _ _, fun e he e' he' hp => ?_⟩
    cases List.mem_singleton.1 he'
    exact handled_of_leaving (h.leaves e he hp) x

/-- The account of what stood in the mailbox and of what was accepted since. -/
theorem balanced_after (b : Behaviour σ μ ε) (r : Running σ μ ε) (xs : List (Act μ)) :
    (after (next b) r xs).mailbox.Balanced
      (r.mailbox.queue ++ (history (next b) r xs).flatMap accepted)
      ((history (next b) r xs).flatMap handled) ((history (next b) r xs).flatMap discarded) := by
  refine history_induction (next b) (P := fun t r' => r'.mailbox.Balanced
    (r.mailbox.queue ++ t.flatMap accepted) (t.flatMap handled) (t.flatMap discarded)) ?_ ?_ xs
  · exact ⟨by simp, fun h => absurd rfl h⟩
  · intro t r x h
    simpa [List.flatMap_append] using h.moves (moves_next b r x)

def reached (b : Behaviour σ μ ε) (s : σ) (xs : List (Act μ)) : Running σ μ ε :=
  after (next b) (spawn b s) xs

def record (b : Behaviour σ μ ε) (s : σ) (xs : List (Act μ)) :
    List (Instant (Running σ μ ε) (Act μ)) :=
  history (next b) (spawn b s) xs

variable (b) (s : σ) (xs : List (Act μ))

theorem balanced_reached :
    (reached b s xs).mailbox.Balanced ((record b s xs).flatMap accepted)
      ((record b s xs).flatMap handled) ((record b s xs).flatMap discarded) :=
  balanced_after b (spawn b s) xs

theorem orderly_reached : (reached b s xs).Orderly ((record b s xs).flatMap discarded) := by
  refine history_induction (next b) (P := fun t r => r.Orderly (t.flatMap discarded))
    (orderly_spawn b s) ?_ xs
  intro t r x h
  simpa [List.flatMap_append] using orderly_next h x

theorem parted_reached : Parted (record b s xs) (reached b s xs) :=
  history_induction (next b) (P := Parted) ⟨nofun, .nil⟩ (fun _ _ x h => parted_next h x) xs

variable {b s xs}

/-- Nothing happens to an actor any more whose mailbox is spent and whose thread is gone. -/
theorem after_of_exited {s' : σ} {exit : Exit} (phase : r.phase = .exited s' exit)
    (spent : r.mailbox = ⟨[], true⟩) (xs : List (Act μ)) : after (next b) r xs = r := by
  obtain ⟨⟨box, events⟩, p⟩ := r
  cases phase
  cases spent
  refine history_induction (next b) (P := fun _ r' => r' = _) rfl ?_ xs
  rintro t r' x rfl
  cases x <;> rfl

theorem exit?_eq_some_iff {exit : Exit} :
    r.exit? = some exit ↔ ∃ s, r.phase = .exited s exit := by
  obtain ⟨c, p⟩ := r
  cases p <;> simp [exit?]

/-- Whatever an actor does and whoever sends to it or closes its mailbox meanwhile: it handles the
accepted messages once and in order, and none after a handler has said stop or anything has
panicked. An actor that ends because its mailbox is closed has handled all of them; otherwise it has
discarded the rest. From then on its mailbox is closed and empty, and what is sent to it is given
back. -/
theorem handled_in_order (b : Behaviour σ μ ε) (s : σ) (xs : List (Act μ)) :
    (record b s xs).flatMap handled <+: (record b s xs).flatMap accepted ∧
    (record b s xs).Pairwise (fun e e' => Parts e → handled e' = []) ∧
    ∀ exit, (reached b s xs).exit? = some exit →
      (exit = .mailboxClosed →
        (record b s xs).flatMap accepted = (record b s xs).flatMap handled) ∧
      (record b s xs).flatMap accepted =
        (record b s xs).flatMap handled ++ (record b s xs).flatMap discarded ∧
      (reached b s xs).mailbox = ⟨[], true⟩ ∧
      ∀ xs' m, (reached b s (xs ++ xs')).send m = (reached b s xs, .rejected m) := by
  have balance := (balanced_reached b s xs).balance
  have orderly := orderly_reached b s xs
  refine ⟨?_, (parted_reached b s xs).unhandled, fun exit h => ?_⟩
  · rw [balance, List.append_assoc]
    exact List.prefix_append _ _
  · obtain ⟨s', phase⟩ := exit?_eq_some_iff.1 h
    have spent := orderly.ended s' exit phase
    have whole : (record b s xs).flatMap accepted =
        (record b s xs).flatMap handled ++ (record b s xs).flatMap discarded := by
      rw [balance, spent, List.append_nil]
    refine ⟨?_, whole, spent, fun xs' m => ?_⟩
    · rintro rfl
      obtain ⟨none_discarded, -⟩ := orderly.finished (by rw [phase]; rfl)
      rw [whole, none_discarded, List.append_nil]
    · have same : reached b s (xs ++ xs') = reached b s xs := by
        rw [reached, after_append]
        exact after_of_exited phase spent xs'
      rw [same, send, Mailbox.send_of_closed (by rw [spent])]
      rfl

/-- Two messages from outside and one that the actor posts to itself are handled before the one
that stops it; the last one is discarded. -/
theorem handled_in_order_stopped :
    let b := Counter.behaviour fun | 0 => .stop | 1 => .post 2 | n => .add (n : Nat)
    let xs : List (Act Nat) := [.send 1, .send 3] ++ List.replicate 8 .work ++
      [.send 0, .send 7] ++ List.replicate 20 .work
    (reached b .initial xs).exit? = some .stopped ∧
      (record b .initial xs).flatMap handled = [1, 3, 2, 0] ∧
      (record b .initial xs).flatMap accepted = [1, 3, 2, 0] ++ [7] ∧
      (reached b .initial (xs ++ [.work])).send 9 = (reached b .initial xs, .rejected 9) := by
  intro b xs
  have exit : (reached b .initial xs).exit? = some .stopped := by decide +kernel
  have four : (record b .initial xs).flatMap handled = [1, 3, 2, 0] := by decide +kernel
  have one : (record b .initial xs).flatMap discarded = [7] := by decide +kernel
  obtain ⟨-, -, ended⟩ := handled_in_order b .initial xs
  obtain ⟨-, whole, -, send⟩ := ended _ exit
  rw [one, four] at whole
  exact ⟨exit, four, whole, send [.work] 9⟩

end Running

end PluginRegistry.Actor
