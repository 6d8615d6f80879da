import PluginRegistry.Proofs.Joining

/-!
# An actor whose mailbox is closed ends

A closed mailbox takes nothing in, so the queue only gets shorter, whatever the actor posts to itself
(`Confined`). Every script ends, so the thread gets through with whatever it is at if only it gets
turns again and again, alone or in a larger system (`Hosts.exists_done`). In its loop it either takes
one of the messages that are left or leaves, which bounds the messages that it still handles and
brings it to its end (`ends_of_closed`).
-/

namespace PluginRegistry.Actor.Running

variable {σ μ ε α : Type} {b : Behaviour σ μ ε} {r : Running σ μ ε} {f : Nat → Act μ}
variable {n k : Nat}

theorem next_started {s : σ} (phase : r.phase = .starting (.done (s, .returns))) :
    (next b r .work).phase = .waiting s := by
  obtain ⟨c, p⟩ := r
  cases phase
  rfl

theorem next_aborted {s : σ} {t : Option String}
    (phase : r.phase = .starting (.done (s, .panics t))) :
    (next b r .work).phase = .exited s (.panicked t) := by
  obtain ⟨c, p⟩ := r
  cases phase
  rfl

theorem next_finish {s : σ} (phase : r.phase = .waiting s) (spent : r.mailbox = ⟨[], true⟩) :
    (next b r .work).phase = .stopping (b.onStop s) .mailboxClosed := by
  obtain ⟨⟨box, events⟩, p⟩ := r
  cases phase
  cases spent
  rfl

theorem next_take {s : σ} {m : μ} {q : List μ} (phase : r.phase = .waiting s)
    (queue : r.mailbox.queue = m :: q) :
    next b r .work =
      { r.withMailbox ⟨q, r.mailbox.closed⟩ with phase := .handling (b.handle s m) } := by
  obtain ⟨⟨⟨queue', closed⟩, events⟩, p⟩ := r
  cases phase
  cases queue
  rfl

theorem next_handled {s : σ} {flow : Flow} (phase : r.phase = .handling (.done (s, flow))) :
    (next b r .work).phase = .waiting s ∨
      ∃ rest exit, (next b r .work).phase = .stopping rest exit := by
  obtain ⟨c, p⟩ := r
  cases phase
  cases flow with
  | proceed => exact .inl rfl
  | stop | panic t => exact .inr ⟨_, _, rfl⟩

theorem next_stopped {s : σ} {ending : Ending} {exit : Exit}
    (phase : r.phase = .stopping (.done (s, ending)) exit) :
    (next b r .work).exit? = some (ending.exit exit) := by
  obtain ⟨c, p⟩ := r
  cases phase
  rfl

theorem phase_of_others {x : Act μ} (h : x ≠ .work) : (next b r x).phase = r.phase := by
  cases x with
  | work => exact absurd rfl h
  | send m | close => rfl

theorem next_of_effects {c : Script.Context μ ε} {p : Phase σ μ ε}
    (h : Phase.Effects r.context c r.phase p) : next b r .work = ⟨c, p⟩ := by
  obtain ⟨c₀, p₀⟩ := r
  cases h with
  | @starting rest _ step | @handling rest _ step | @stopping rest _ _ step =>
    cases rest with
    | done a => cases step
    | emit _ _ | post _ _ | close _ | measure _ =>
      cases step
      rfl

/-- A system of which an actor is a part: in one kind of turn the actor's thread works, and in no
other does the actor get on in its life. -/
structure Hosts {S A : Type} (b : Behaviour σ μ ε) (step : S → A → S) (actor : S → Running σ μ ε)
    (turn : A) : Prop where
  works : ∀ u, actor (step u turn) = next b (actor u) .work
  keeps : ∀ u x, x ≠ turn → (actor (step u x)).phase = (actor u).phase

theorem hosts_self (b : Behaviour σ μ ε) : Hosts b (next b) (fun r => r) .work :=
  ⟨fun _ => rfl, fun _ _ => phase_of_others⟩

section

variable {S A : Type} {step : S → A → S} {actor : S → Running σ μ ε} {turn : A}
variable {u : S} {g : Nat → A}

theorem Hosts.succ (host : Hosts b step actor turn) (now : g n = turn) :
    actor (stateAt step u g (n + 1)) = next b (actor (stateAt step u g n)) .work := by
  rw [stateAt_succ, now, host.works]

/-- The phase lasts until the thread gets a turn. -/
theorem Hosts.exists_turn (host : Hosts b step actor turn) (fair : Recurs g turn) (u : S) (n : Nat) :
    ∃ m, n ≤ m ∧ g m = turn ∧
      (actor (stateAt step u g m)).phase = (actor (stateAt step u g n)).phase :=
  fair.exists_turn (I := fun v => (actor v).phase = (actor (stateAt step u g n)).phase)
    (fun v x hx hv => (host.keeps v x hx).trans hv) rfl

section

variable {K : Script μ ε α → Phase σ μ ε}
variable (effects : ∀ {c c' : Script.Context μ ε} {rest rest' : Script μ ε α},
  rest.step c = some (c', rest') → Phase.Effects c c' (K rest) (K rest'))

include effects

theorem Hosts.phase_succ (host : Hosts b step actor turn) {rest rest' : Script μ ε α}
    {c' : Script.Context μ ε} (now : g n = turn)
    (phase : (actor (stateAt step u g n)).phase = K rest)
    (effect : rest.step (actor (stateAt step u g n)).context = some (c', rest')) :
    (actor (stateAt step u g (n + 1))).phase = K rest' := by
  rw [host.succ now, next_of_effects (phase ▸ effects effect)]

/-- A thread that gets its turns comes to the end of the script that it goes through. -/
theorem Hosts.exists_done (host : Hosts b step actor turn) (fair : Recurs g turn)
    {rest : Script μ ε α} (phase : (actor (stateAt step u g n)).phase = K rest) :
    ∃ m a, n ≤ m ∧ g m = turn ∧ (actor (stateAt step u g m)).phase = K (.done a) := by
  induction rest generalizing n with
  | done a =>
    obtain ⟨m, hn, now, same⟩ := host.exists_turn fair u n
    exact ⟨m, a, hn, now, same.trans phase⟩
  | emit _ rest ih | close rest ih =>
    obtain ⟨m, hn, now, same⟩ := host.exists_turn fair u n
    obtain ⟨m', a, hm, done⟩ := ih (host.phase_succ effects now (same.trans phase) rfl)
    exact ⟨m', a, by omega, done⟩
  | post x rest ih =>
    obtain ⟨m, hn, now, same⟩ := host.exists_turn fair u n
    obtain ⟨m', a, hm, done⟩ := ih _ (host.phase_succ effects now (same.trans phase) rfl)
    exact ⟨m', a, by omega, done⟩
  | measure rest ih =>
    obtain ⟨m, hn, now, same⟩ := host.exists_turn fair u n
    obtain ⟨m', a, hm, done⟩ := ih _ _ (host.phase_succ effects now (same.trans phase) rfl)
    exact ⟨m', a, by omega, done⟩

end

/-- A thread that has begun to stop gets through with it. -/
theorem Hosts.exit_of_stopping (host : Hosts b step actor turn) (fair : Recurs g turn)
    {rest : Script μ ε (σ × Ending)} {exit : Exit}
    (phase : (actor (stateAt step u g n)).phase = .stopping rest exit) :
    ∃ (m : Nat) (ending : Ending), n ≤ m ∧
      (actor (stateAt step u g m)).exit? = some (ending.exit exit) := by
  obtain ⟨m, ⟨s, ending⟩, hn, now, done⟩ :=
    host.exists_done (K := fun rest => .stopping rest exit) .stopping fair phase
  refine ⟨m + 1, ending, by omega, ?_⟩
  rw [host.succ now, next_stopped done]

end

def Confined (k : Nat) (r : Running σ μ ε) : Prop :=
  r.mailbox.closed = true ∧ r.mailbox.queue.length ≤ k

theorem confined_next (x : Act μ) (h : r.Confined k) : (next b r x).Confined k := by
  have move := moves_next b r x
  obtain ⟨closed, nothing⟩ := move.closed h.1
  have length := congrArg List.length move.queue
  rw [nothing, List.append_nil, List.length_append] at length
  exact ⟨closed, by have := h.2; omega⟩

theorem confined_of_le {m : Nat} (hn : n ≤ m) (h : (stateAt (next b) r f n).Confined k) :
    (stateAt (next b) r f m).Confined k :=
  stateAt_keeps (fun _ x => confined_next x) hn h

def Ends (b : Behaviour σ μ ε) (r : Running σ μ ε) (f : Nat → Act μ) : Prop :=
  ∃ n exit, (stateAt (next b) r f n).exit? = some exit

theorem ends_of_stopping (fair : Recurs f .work) {rest : Script μ ε (σ × Ending)} {exit : Exit}
    (phase : (stateAt (next b) r f n).phase = .stopping rest exit) : Ends b r f := by
  obtain ⟨m, ending, -, ended⟩ := (hosts_self b).exit_of_stopping fair phase
  exact ⟨m, _, ended⟩

/-- A thread that waits takes one of the messages that are left or leaves its loop. -/
theorem turn_of_waiting (fair : Recurs f .work) {s : σ}
    (phase : (stateAt (next b) r f n).phase = .waiting s)
    (confined : (stateAt (next b) r f n).Confined k) :
    ∃ m, (∃ rest exit, (stateAt (next b) r f m).phase = .stopping rest exit) ∨
      ∃ j < k, (∃ rest, (stateAt (next b) r f m).phase = .handling rest) ∧
        (stateAt (next b) r f m).Confined j := by
  obtain ⟨m, hn, turn, same⟩ := (hosts_self b).exists_turn fair r n
  have phase := same.trans phase
  obtain ⟨closed, length⟩ := confined_of_le hn confined
  refine ⟨m + 1, ?_⟩
  rw [stateAt_succ, turn]
  cases queue : (stateAt (next b) r f m).mailbox.queue with
  | nil =>
    have spent : (stateAt (next b) r f m).mailbox = ⟨[], true⟩ := by
      rw [← queue, ← closed]
    exact .inl ⟨_, _, next_finish phase spent⟩
  | cons x q =>
    rw [next_take phase queue]
    rw [queue, List.length_cons] at length
    exact .inr ⟨k - 1, by omega, ⟨_, rfl⟩, closed, Nat.le_sub_one_of_lt length⟩

theorem ends_of_handling (fair : Recurs f .work)
    (loop : ∀ m s, (stateAt (next b) r f m).phase = .waiting s →
      (stateAt (next b) r f m).Confined k → Ends b r f)
    {rest : Script μ ε (σ × Flow)} (phase : (stateAt (next b) r f n).phase = .handling rest)
    (confined : (stateAt (next b) r f n).Confined k) : Ends b r f := by
  obtain ⟨m, ⟨s, flow⟩, hn, turn, done⟩ := (hosts_self b).exists_done .handling fair phase
  have after : (stateAt (next b) r f (m + 1)).phase = .waiting s ∨
      ∃ rest exit, (stateAt (next b) r f (m + 1)).phase = .stopping rest exit := by
    rw [stateAt_succ, turn]
    exact next_handled done
  obtain waits | ⟨rest, exit, stops⟩ := after
  · exact loop (m + 1) s waits (confined_of_le (by omega) confined)
  · exact ends_of_stopping fair stops

theorem ends_of_waiting (fair : Recurs f .work) {s : σ}
    (phase : (stateAt (next b) r f n).phase = .waiting s)
    (confined : (stateAt (next b) r f n).Confined k) : Ends b r f := by
  -- The messages that are left grow fewer with each one that is handled.
  induction k using Nat.strongRecOn generalizing n s with
  | ind k ih =>
    obtain ⟨m, ⟨rest, exit, stops⟩ | ⟨j, hj, ⟨rest, handles⟩, fewer⟩⟩ :=
      turn_of_waiting fair phase confined
    · exact ends_of_stopping fair stops
    · exact ends_of_handling fair (fun m s => ih j hj) handles fewer

theorem ends_of_closed (fair : Recurs f .work) (closed : r.mailbox.closed = true) :
    Ends b r f := by
  have confined (n : Nat) : (stateAt (next b) r f n).Confined r.mailbox.queue.length :=
    confined_of_le (Nat.zero_le n) ⟨closed, Nat.le_refl _⟩
  cases phase : (stateAt (next b) r f 0).phase with
  | starting rest =>
    obtain ⟨m, ⟨s, ending⟩, -, turn, done⟩ := (hosts_self b).exists_done .starting fair phase
    have after : stateAt (next b) r f (m + 1) = next b (stateAt (next b) r f m) .work := by
      rw [stateAt_succ, turn]
    cases ending with
    | returns => exact ends_of_waiting fair (after ▸ next_started done) (confined (m + 1))
    | panics t => exact ⟨m + 1, .panicked t, exit?_eq_some_iff.2 ⟨s, after ▸ next_aborted done⟩⟩
  | waiting s => exact ends_of_waiting fair phase (confined 0)
  | handling rest =>
    exact ends_of_handling fair (fun m s => ends_of_waiting fair) phase (confined 0)
  | stopping rest exit => exact ends_of_stopping fair phase
  | exited s exit => exact ⟨0, exit, exit?_eq_some_iff.2 ⟨s, phase⟩⟩

theorem accepted_of_closed (b : Behaviour σ μ ε) (closed : r.mailbox.closed = true)
    (xs : List (Act μ)) : (history (next b) r xs).flatMap accepted = [] := by
  have h : (after (next b) r xs).mailbox.closed = true ∧
      (history (next b) r xs).flatMap accepted = [] := by
    refine history_induction (next b)
      (P := fun t r' => r'.mailbox.closed = true ∧ t.flatMap accepted = []) ⟨closed, rfl⟩ ?_ xs
    intro t u x ⟨hc, ht⟩
    obtain ⟨hc', nothing⟩ := (moves_next b u x).closed hc
    exact ⟨hc', by simp [List.flatMap_append, ht, nothing]⟩
  exact h.2

theorem handled_of_closed (b : Behaviour σ μ ε) (closed : r.mailbox.closed = true)
    (xs : List (Act μ)) : (history (next b) r xs).flatMap handled <+: r.mailbox.queue := by
  have balance := (balanced_after b r xs).balance
  rw [accepted_of_closed b closed, List.append_nil, List.append_assoc] at balance
  exact ⟨_, balance.symm⟩

theorem leaving_next (x : Act μ) (h : r.phase.leaving?.isSome) :
    (next b r x).phase.leaving?.isSome := by
  cases x with
  | work => exact leaving_works (works_next b r) (.inr h)
  | send m | close => exact h

theorem handled_after_leaving (h : r.phase.leaving?.isSome) (xs : List (Act μ)) :
    ∀ e ∈ history (next b) r xs, handled e = [] := by
  induction xs generalizing r with
  | nil => exact nofun
  | cons x xs ih =>
    intro e he
    obtain rfl | he := List.mem_cons.1 he
    · exact handled_of_leaving h x
    · exact ih (leaving_next x h) e he

/-- Once an act has led out of the loop, no message is taken any more. -/
theorem pairwise_leaving (b : Behaviour σ μ ε) (r : Running σ μ ε) (xs : List (Act μ)) :
    (history (next b) r xs).Pairwise fun e e' =>
      (next b e.state e.act).phase.leaving?.isSome → handled e' = [] := by
  induction xs generalizing r with
  | nil => exact .nil
  | cons x xs ih =>
    exact List.pairwise_cons.2 ⟨fun e he h => handled_after_leaving h xs e he, ih (next b r x)⟩

theorem starting_of_works {r' : Running σ μ ε} {rest : Script μ ε (σ × Ending)} (w : Works b r r')
    (h : r'.phase = .starting rest) : ∃ rest', r.phase = .starting rest' := by
  cases w with
  | waits _ _ | gone _ => exact ⟨rest, h⟩
  | effect he =>
    cases h
    cases hp : r.phase <;> rw [hp] at he <;> cases he
    exact ⟨_, rfl⟩
  | started _ | aborted _ | take _ _ | finish _ _ | proceed _ | stop _ | panic _ | stopped _ =>
    cases h

/-- Only a thread that has not started yet can panic while it starts. -/
theorem starting_of_aborts (xs : List (Act μ)) {e : Instant (Running σ μ ε) (Act μ)}
    {text : Option String} (he : e ∈ history (next b) r xs) (aborts : Aborts e text) :
    ∃ rest, r.phase = .starting rest := by
  induction xs generalizing r with
  | nil => cases he
  | cons x xs ih =>
    obtain rfl | he := List.mem_cons.1 he
    · obtain ⟨-, s, phase⟩ := aborts
      exact ⟨_, phase⟩
    · obtain ⟨rest, phase⟩ := ih he
      cases x with
      | work => exact starting_of_works (works_next b r) phase
      | send m | close => exact ⟨rest, phase⟩

/-- From the time its mailbox is closed, whatever an actor posts to itself and others send to it, no
message is accepted, so that it handles no more messages than were queued. If its thread gets a turn
again and again, it leaves its loop after the last of them, stops and is gone; an actor that had not
started yet may instead panic while it does. -/
theorem closed_actor_ends (b : Behaviour σ μ ε) {r : Running σ μ ε}
    (closed : r.mailbox.closed = true) :
    (∀ xs : List (Act μ),
      (history (next b) r xs).flatMap accepted = [] ∧
      (history (next b) r xs).flatMap handled <+: r.mailbox.queue ∧
      ((history (next b) r xs).flatMap handled).length ≤ r.mailbox.queue.length ∧
      (history (next b) r xs).Pairwise (fun e e' =>
        (next b e.state e.act).phase.leaving?.isSome → handled e' = []) ∧
      ∀ e ∈ history (next b) r xs, ∀ text, Aborts e text → ∃ rest, r.phase = .starting rest) ∧
    ∀ f : Nat → Act μ, Recurs f .work → ∃ n exit,
      (stateAt (next b) r f n).exit? = some exit ∧
      (r.phase.leaving? = none → Ended b (history (next b) r (firstActs f n)) exit) := by
  refine ⟨fun xs => ?_, fun f fair => ?_⟩
  · have taken := handled_of_closed b closed xs
    exact ⟨accepted_of_closed b closed xs, taken, taken.length_le, pairwise_leaving b r xs,
      fun e he text => starting_of_aborts xs he⟩
  · obtain ⟨n, exit, ended⟩ := ends_of_closed (b := b) fair closed
    refine ⟨n, exit, ended, fun inside => ?_⟩
    obtain ⟨s, phase⟩ := exit?_eq_some_iff.1 ended
    exact (traced_after inside (firstActs f n)).ended s exit phase

/-- One message closes the mailbox, all others post themselves again. When it is closed, two of those
are queued. -/
theorem closed_actor_ends_reposting :
    let b : Behaviour (Counter.State Nat) Nat Int :=
      Counter.behaviour fun | 0 => .close | n => .post n
    let r := reached b .initial ([.send 1, .send 0, .send 2] ++ List.replicate 9 .work)
    let f : Nat → Act Nat := fun _ => .work
    r.mailbox = ⟨[2, 1], true⟩ ∧ r.phase.leaving? = none ∧ Recurs f .work ∧
      ((history (next b) r (firstActs f 30)).flatMap handled).length ≤ 2 ∧
      ∃ n exit, (stateAt (next b) r f n).exit? = some exit ∧
        Ended b (history (next b) r (firstActs f n)) exit := by
  intro b r f
  have box : r.mailbox = ⟨[2, 1], true⟩ := by decide +kernel
  have inside : r.phase.leaving? = none := by decide +kernel
  have fair : Recurs f .work := fun n => ⟨n, Nat.le_refl n, rfl⟩
  obtain ⟨bounded, ends⟩ := closed_actor_ends b (r := r) (by rw [box])
  obtain ⟨n, exit, ended, how⟩ := ends f fair
  have few := (bounded (firstActs f 30)).2.2.1
  rw [box] at few
  exact ⟨box, inside, fair, few, n, exit, ended, how inside⟩

end PluginRegistry.Actor.Running
