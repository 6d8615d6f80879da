import PluginRegistry.Actor.Handle
import PluginRegistry.Proofs.ActorLoop

/-!
# Joining a running actor

Threads that share the handle of an actor join it, each in two steps: it takes the actor's thread out
of the handle, if that is still there, and then waits for the thread to end. The one that finds the
thread is the only one to learn how the actor ended (`Joined`), which an actor does by stopping or by
a panic while it starts (`Ended`). Between the two steps the handle has no thread to look at and
reports a running actor as finished (`isFinished_early`), and at no other time does it err
(`isFinished_iff_or_waits`).
-/

namespace PluginRegistry.Actor

variable {σ μ ε : Type}

theorem Phase.stopping_of_effects {p : Phase σ μ ε} {c c' : Script.Context μ ε}
    {rest : Script μ ε (σ × Ending)} {exit : Exit}
    (h : Effects c c' p (.stopping rest exit)) : ∃ rest', p = .stopping rest' exit := by
  cases h
  exact ⟨_, rfl⟩

namespace Running

variable {b : Behaviour σ μ ε} {r r' : Running σ μ ε} {exit : Exit}
variable {e : Instant (Running σ μ ε) (Act μ)} {t : List (Instant (Running σ μ ε) (Act μ))}

def Leaves (b : Behaviour σ μ ε) (e : Instant (Running σ μ ε) (Act μ)) (exit : Exit) : Prop :=
  e.state.phase.leaving? = none ∧ ∃ s, (next b e.state e.act).phase = .stopping (b.onStop s) exit

def Stops (e : Instant (Running σ μ ε) (Act μ)) (ending : Ending) (exit : Exit) : Prop :=
  e.act = .work ∧ ∃ s, e.state.phase = .stopping (.done (s, ending)) exit

def Aborts (e : Instant (Running σ μ ε) (Act μ)) (text : Option String) : Prop :=
  e.act = .work ∧ ∃ s, e.state.phase = .starting (.done (s, .panics text))

inductive Ended (b : Behaviour σ μ ε) (t : List (Instant (Running σ μ ε) (Act μ))) : Exit → Prop
  | stopped {e e' : Instant (Running σ μ ε) (Act μ)} {ending : Ending} {exit : Exit}
      (order : [e, e'].Sublist t) (leaves : Leaves b e exit) (stops : Stops e' ending exit) :
      Ended b t (ending.exit exit)
  | aborted {e : Instant (Running σ μ ε) (Act μ)} {text : Option String}
      (mem : e ∈ t) (aborts : Aborts e text) : Ended b t (.panicked text)

theorem Ended.snoc (h : Ended b t exit) : Ended b (t ++ [e]) exit := by
  cases h with
  | stopped order leaves stops =>
    exact .stopped (order.trans (List.sublist_append_left _ _)) leaves stops
  | aborted mem aborts => exact .aborted (List.mem_append_left _ mem) aborts

/-- What an actor that is stopping or gone has been through. -/
structure Traced (b : Behaviour σ μ ε) (t : List (Instant (Running σ μ ε) (Act μ)))
    (r : Running σ μ ε) : Prop where
  stopping : ∀ rest exit, r.phase = .stopping rest exit → ∃ e ∈ t, Leaves b e exit
  ended : ∀ s exit, r.phase = .exited s exit → Ended b t exit

theorem Traced.stays (h : Traced b t r)
    (stopping : ∀ rest exit, r'.phase = .stopping rest exit → ∃ rest', r.phase = .stopping rest' exit)
    (ended : ∀ s exit, r'.phase = .exited s exit → r.phase = .exited s exit) :
    Traced b (t ++ [e]) r' where
  stopping rest exit hp := by
    obtain ⟨rest', hp⟩ := stopping rest exit hp
    obtain ⟨e, he, hl⟩ := h.stopping rest' exit hp
    exact ⟨e, List.mem_append_left _ he, hl⟩
  ended s exit hp := (h.ended s exit (ended s exit hp)).snoc

/-- The turn with which the thread begins to stop. -/
theorem traced_leaving {s : σ} (hn : next b e.state e.act = r')
    (hl : e.state.phase.leaving? = none) (hp : r'.phase = .stopping (b.onStop s) exit) :
    Traced b (t ++ [e]) r' where
  stopping rest exit' hp' := by
    cases hp.symm.trans hp'
    exact ⟨e, List.mem_concat_self, hl, s, hn ▸ hp⟩
  ended s exit' hp' := by cases hp.symm.trans hp'

theorem Traced.works (h : Traced b t r) (w : Works b r r') (hn : next b r .work = r') :
    Traced b (t ++ [⟨r, .work⟩]) r' := by
  obtain ⟨c, p⟩ := r
  cases w with
  | waits hp _ | gone hp => exact h.stays (fun rest _ hp => ⟨rest, hp⟩) fun _ _ => id
  | started hp | proceed hp | take hp _ =>
    exact h.stays (fun _ _ hp => nomatch hp) fun _ _ hp => nomatch hp
  | effect he =>
    refine h.stays (fun rest exit hp => ?_) fun s exit hp =>
      absurd hp (Phase.not_exited_of_effects he s exit)
    cases hp
    exact Phase.stopping_of_effects he
  | finish hp _ | stop hp | panic hp =>
    cases hp
    exact traced_leaving hn rfl rfl
  | aborted hp =>
    refine ⟨nofun, fun s exit he => ?_⟩
    cases he
    exact .aborted List.mem_concat_self ⟨rfl, _, hp⟩
  | stopped hp =>
    refine ⟨nofun, fun s exit he => ?_⟩
    cases he
    obtain ⟨e, he, hl⟩ := h.stopping _ _ hp
    exact .stopped ((List.singleton_sublist.2 he).append (.refl _)) hl ⟨rfl, _, hp⟩

theorem traced_after (inside : r.phase.leaving? = none) (xs : List (Act μ)) :
    Traced b (history (next b) r xs) (after (next b) r xs) := by
  have start : Traced b [] r :=
    ⟨fun _ _ h => by simp [h, Phase.leaving?] at inside,
      fun _ _ h => by simp [h, Phase.leaving?] at inside⟩
  refine history_induction (next b) (P := Traced b) start ?_ xs
  intro t r x h
  cases x with
  | work => exact h.works (works_next b r) rfl
  | send m | close => exact h.stays (fun rest _ hp => ⟨rest, hp⟩) fun _ _ => id

/-- An actor that has ended stopped, after it had left its loop, or panicked while it started. -/
theorem ended_of_exit {s : σ} {xs : List (Act μ)} (h : (reached b s xs).exit? = some exit) :
    Ended b (record b s xs) exit := by
  obtain ⟨s', phase⟩ := exit?_eq_some_iff.1 h
  exact (traced_after rfl xs).ended s' exit phase

theorem exit?_next (h : r.exit? = some exit) (x : Act μ) : (next b r x).exit? = some exit := by
  obtain ⟨s, phase⟩ := exit?_eq_some_iff.1 h
  obtain ⟨c, p⟩ := r
  cases phase
  cases x <;> rfl

end Running

inductive Joining
  | waits
  | returned (exit : Option Exit)
  deriving DecidableEq

/-- A handle that threads share, with their calls of join in the order of their first steps. -/
structure Shared (σ μ ε : Type) where
  handle : Handle σ μ ε
  joins : List Joining

namespace Shared

variable {b : Behaviour σ μ ε} {h : Shared σ μ ε}

/-- What may happen to a shared handle: something happens to its actor, a thread calls join, or a
join that waits goes on. -/
inductive Act (μ : Type)
  | actor (x : Running.Act μ)
  | join
  | resume (i : Nat)

def Act.actor? : Act μ → Option (Running.Act μ)
  | actor x => some x
  | _ => none

/-- Nothing comes of resuming a join that does not wait or whose actor has not ended. -/
def next (b : Behaviour σ μ ε) (h : Shared σ μ ε) : Act μ → Shared σ μ ε
  | .actor .work => { h with handle := (h.handle.step b).getD h.handle }
  | .actor (.send m) => { h with handle := (h.handle.send m).1 }
  | .actor .close => { h with handle := h.handle.close }
  | .join =>
    let (handle, took) := h.handle.take
    ⟨handle, h.joins ++ [if took then .waits else .returned none]⟩
  | .resume i =>
    match h.joins[i]?, h.handle.joined true with
    | some .waits, some exit => { h with joins := h.joins.set i (.returned (some exit)) }
    | _, _ => h

def spawn (b : Behaviour σ μ ε) (s : σ) : Shared σ μ ε := ⟨.ofActor (.spawn b s), []⟩

def reached (b : Behaviour σ μ ε) (s : σ) (xs : List (Act μ)) : Shared σ μ ε :=
  after (next b) (spawn b s) xs

theorem next_actor (b : Behaviour σ μ ε) (h : Shared σ μ ε) (x : Running.Act μ) :
    next b h (.actor x) = ⟨⟨h.handle.actor.next b x, h.handle.taken⟩, h.joins⟩ := by
  obtain ⟨⟨r, taken⟩, joins⟩ := h
  cases x with
  | work =>
    simp only [next, Handle.step, Running.next]
    cases r.step b <;> rfl
  | send m | close => rfl

theorem next_resume_of_not_waits {i : Nat} (hw : h.joins[i]? ≠ some .waits) :
    next b h (.resume i) = h := by
  rw [next]
  split
  · next hi _ => exact absurd hi hw
  · rfl

theorem handle_resume (b : Behaviour σ μ ε) (h : Shared σ μ ε) (i : Nat) :
    (next b h (.resume i)).handle = h.handle := by
  rw [next]
  split <;> rfl

/-- The actor takes no notice of those who join it. -/
theorem actor_after (b : Behaviour σ μ ε) (h : Shared σ μ ε) (xs : List (Act μ)) :
    (after (next b) h xs).handle.actor =
      after (Running.next b) h.handle.actor (xs.filterMap Act.actor?) := by
  induction xs generalizing h with
  | nil => rfl
  | cons x xs ih =>
    refine (ih (next b h x)).trans ?_
    cases x with
    | actor x => rw [next_actor]; rfl
    | join => rfl
    | resume i =>
      rw [handle_resume]
      rfl

/-- Whether the thread is in the handle, and what the joins have come to. -/
inductive Joined (h : Shared σ μ ε) : Prop
  | untaken (taken : h.handle.taken = false) (joins : h.joins = [])
  | waits (n : Nat) (taken : h.handle.taken = true)
      (joins : h.joins = .waits :: List.replicate n (.returned none))
  | returned (n : Nat) (exit : Exit) (taken : h.handle.taken = true)
      (joins : h.joins = .returned (some exit) :: List.replicate n (.returned none))
      (ended : h.handle.actor.exit? = some exit)

theorem Joined.actor (j : h.Joined) (x : Running.Act μ) : (next b h (.actor x)).Joined := by
  rw [next_actor]
  cases j with
  | untaken taken joins => exact .untaken taken joins
  | waits n taken joins => exact .waits n taken joins
  | returned n exit taken joins ended =>
    exact .returned n exit taken joins (Running.exit?_next ended x)

theorem Joined.join (j : h.Joined) : (next b h .join).Joined := by
  cases j with
  | untaken taken joins => exact .waits 0 rfl (by simp [next, Handle.take, taken, joins])
  | waits n taken joins =>
    exact .waits (n + 1) rfl (by simp [next, Handle.take, taken, joins, List.replicate_succ'])
  | returned n exit taken joins ended =>
    exact .returned (n + 1) exit rfl
      (by simp [next, Handle.take, taken, joins, List.replicate_succ']) ended

/-- Only the first join can be one that waits. -/
theorem Joined.resume (j : h.Joined) (i : Nat) : (next b h (.resume i)).Joined := by
  by_cases hw : h.joins[i]? = some .waits
  · cases j with
    | untaken taken joins => simp [joins] at hw
    | returned n exit taken joins ended =>
      cases i <;> simp [joins, List.getElem?_replicate] at hw
    | waits n taken joins =>
      cases i with
      | succ i => simp [joins, List.getElem?_replicate] at hw
      | zero =>
        cases he : h.handle.actor.exit? with
        | none =>
          have same : next b h (.resume 0) = h := by simp [next, Handle.joined, joins, he]
          rw [same]
          exact .waits n taken joins
        | some exit =>
          have given : next b h (.resume 0) =
              ⟨h.handle, .returned (some exit) :: List.replicate n (.returned none)⟩ := by
            simp [next, Handle.joined, joins, he]
          rw [given]
          exact .returned n exit taken rfl he
  · rw [next_resume_of_not_waits hw]
    exact j

theorem joined_reached (b : Behaviour σ μ ε) (s : σ) (xs : List (Act μ)) :
    (reached b s xs).Joined := by
  refine history_induction (next b) (P := fun _ h => h.Joined) (.untaken rfl rfl) ?_ xs
  intro _ h x j
  cases x with
  | actor x => exact j.actor x
  | join => exact j.join
  | resume i => exact j.resume i

theorem Joined.isFinished_iff (j : h.Joined) :
    h.handle.isFinished = true ↔ h.handle.actor.exit?.isSome ∨ .waits ∈ h.joins := by
  cases j with
  | untaken taken joins => simp [Handle.isFinished, taken, joins]
  | waits n taken joins => simp [Handle.isFinished, taken, joins]
  | returned n exit taken joins ended => simp [Handle.isFinished, taken, ended]

/-- Only the first join can be one that is told how the actor ended. -/
theorem Joined.ended_of_returned (j : h.Joined) {i : Nat} {exit : Exit}
    (hi : h.joins[i]? = some (.returned (some exit))) :
    i = 0 ∧ h.handle.actor.exit? = some exit := by
  cases j with
  | untaken taken joins => simp [joins] at hi
  | waits n taken joins => cases i <;> simp [joins, List.getElem?_replicate] at hi
  | returned n exit' taken joins ended =>
    cases i with
    | zero =>
      obtain rfl : exit' = exit := by simpa [joins] using hi
      exact ⟨rfl, ended⟩
    | succ i => simp [joins, List.getElem?_replicate] at hi

/-- Whatever the actor does and whoever joins it or sends to it meanwhile: the handle reports it as
finished when its thread has exited, but also as long as a join waits for a thread that has not. An
actor whose thread has exited had left its loop and was through with stopping, unless it panicked
while it started. At most one join is told how the actor ended, and it is told the truth. -/
theorem isFinished_iff_or_waits (b : Behaviour σ μ ε) (s : σ) (xs : List (Act μ)) :
    ((reached b s xs).handle.isFinished = true ↔
      (reached b s xs).handle.actor.exit?.isSome ∨ .waits ∈ (reached b s xs).joins) ∧
    (∀ exit, (reached b s xs).handle.actor.exit? = some exit →
      Running.Ended b (Running.record b s (xs.filterMap Act.actor?)) exit) ∧
    ∀ (i : Nat) (exit : Exit), (reached b s xs).joins[i]? = some (.returned (some exit)) →
      (reached b s xs).handle.actor.exit? = some exit ∧
      ∀ (j : Nat) (exit' : Exit),
        (reached b s xs).joins[j]? = some (.returned (some exit')) → j = i := by
  have joined := joined_reached b s xs
  refine ⟨joined.isFinished_iff, fun exit h => ?_, fun i exit hi => ?_⟩
  · rw [reached, actor_after] at h
    exact Running.ended_of_exit h
  · obtain ⟨rfl, ended⟩ := joined.ended_of_returned hi
    exact ⟨ended, fun j exit' hj => (joined.ended_of_returned hj).1⟩

/-- Two threads join an actor that stops at its first message. -/
theorem isFinished_iff_or_waits_joined :
    let b : Behaviour (Counter.State Unit) Unit Int := Counter.behaviour fun _ => .stop
    let turns : List (Act Unit) := List.replicate 10 (.actor .work)
    let xs : List (Act Unit) := [.join, .actor (.send ()), .join] ++ turns ++ [.resume 0]
    (reached b .initial xs).handle.isFinished = true ∧
      (reached b .initial xs).handle.actor.exit? = some .stopped ∧
      Running.Ended b (Running.record b .initial (xs.filterMap Act.actor?)) .stopped ∧
      (reached b .initial xs).joins = [.returned (some .stopped), .returned none] := by
  intro b turns xs
  have joins : (reached b .initial xs).joins = [.returned (some .stopped), .returned none] := by
    decide +kernel
  obtain ⟨finished, ended, told⟩ := isFinished_iff_or_waits b .initial xs
  obtain ⟨exit, -⟩ := told 0 .stopped (by rw [joins]; rfl)
  exact ⟨finished.2 (.inl (by rw [exit]; rfl)), exit, ended _ exit, joins⟩

/-- A thread joins an actor that goes on waiting for messages: the handle reports the actor as
finished, though it has not left its loop and accepts a message. -/
theorem isFinished_early :
    let h := reached (Counter.behaviour fun () => .stop) .initial
      [.join, .actor .work, .actor .work]
    h.handle.isFinished = true ∧ h.joins = [.waits] ∧ h.handle.actor.exit? = none ∧
      h.handle.actor.phase.leaving? = none ∧ (h.handle.send ()).2 = .accepted := by
  decide +kernel

end Shared

end PluginRegistry.Actor
