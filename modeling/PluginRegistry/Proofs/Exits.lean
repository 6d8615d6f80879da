import PluginRegistry.Proofs.Termination

/-!
# How actors exit

The log of an actor tells of its start, of the messages it takes and what their handlers answer, of
the mailbox that is found drained, and of where its stop begins and ends. If neither start nor stop
panics, every log is the beginning of one of three lives, each with its own exit and what caused it
(`Life`), and how far it has come shows in the phase of the actor (`Course`). The first to join an
actor is told of the exit whose cause is in the log.
-/

namespace PluginRegistry.Actor

variable {σ μ ε α : Type}

/-- What the log of an actor tells. -/
inductive Mark (μ : Type)
  | started (ending : Ending)
  | took (m : μ)
  | answered (flow : Flow)
  | drained
  | stopping (exit : Exit)
  | stopped (ending : Ending)
  deriving DecidableEq

/-- What leads to the exit. -/
def Exit.cause : Exit → Mark μ
  | stopped => .answered .stop
  | mailboxClosed => .drained
  | panicked t => .answered (.panic t)

def begun (ms : List μ) : List (Mark μ) :=
  .started .returns :: ms.flatMap fun m => [.took m, .answered .proceed]

inductive Departs : List (Mark μ) → Exit → Prop
  | stopped (m : μ) : Departs [.took m, .answered .stop] .stopped
  | mailboxClosed : Departs [.drained] .mailboxClosed
  | panicked (m : μ) (t : Option String) : Departs [.took m, .answered (.panic t)] (.panicked t)

/-- The log of an orderly life, from the start of the actor to the end of its stop. -/
def Life (log : List (Mark μ)) (exit : Exit) : Prop :=
  ∃ ms tail, Departs tail exit ∧ log = begun ms ++ tail ++ [.stopping exit, .stopped .returns]

section

variable {ms : List μ} {tail log : List (Mark μ)} {exit exit' : Exit}

theorem begun_concat (ms : List μ) (m : μ) :
    begun (ms ++ [m]) = begun ms ++ [.took m] ++ [.answered .proceed] := by
  simp [begun]

theorem begun_took (ms : List μ) (m : μ) (x y : Mark μ) :
    begun ms ++ [.took m] ++ [x, y] = begun ms ++ [.took m, x] ++ [y] := by
  simp

theorem Exit.cause_not_mem_begun : exit.cause ∉ begun ms := by
  cases exit <;> simp [begun, cause]

theorem Departs.cause_mem_iff (d : Departs tail exit) (ms : List μ) :
    exit'.cause ∈ begun ms ++ tail ++ [.stopping exit] ↔ exit' = exit := by
  cases d <;> cases exit' <;> simp [begun, Exit.cause]

theorem Life.cause_mem_iff (life : Life log exit) : exit'.cause ∈ log ↔ exit' = exit := by
  obtain ⟨ms, tail, d, rfl⟩ := life
  have other : exit'.cause ≠ (.stopped .returns : Mark μ) := by cases exit' <;> simp [Exit.cause]
  rw [← d.cause_mem_iff ms]
  simp [other]

end

/-- What the log tells of an actor in this phase. -/
def Course (log : List (Mark μ)) : Phase σ μ ε → Prop
  | .starting _ => log = []
  | .waiting _ => ∃ ms, log = begun ms
  | .handling _ => ∃ ms m, log = begun ms ++ [.took m]
  | .stopping _ exit => ∃ ms tail, Departs tail exit ∧ log = begun ms ++ tail ++ [.stopping exit]
  | .exited _ exit => Life log exit

namespace Course

variable {log : List (Mark μ)} {p p' : Phase σ μ ε} {exit : Exit}

theorem effects {c c' : Script.Context μ ε} (h : Course log p) (he : Phase.Effects c c' p p') :
    Course log p' := by
  cases he <;> exact h

/-- Wherever an actor is in its life, it may still come to an orderly end. -/
theorem exists_life (h : Course log p) : ∃ rest exit, Life (log ++ rest) exit := by
  cases p with
  | starting rest =>
    subst h
    exact ⟨_, _, [], _, .mailboxClosed, rfl⟩
  | waiting s =>
    obtain ⟨ms, rfl⟩ := h
    exact ⟨[.drained, .stopping .mailboxClosed, .stopped .returns], _, ms, _, .mailboxClosed,
      by simp⟩
  | handling rest =>
    obtain ⟨ms, m, rfl⟩ := h
    exact ⟨[.answered .stop, .stopping .stopped, .stopped .returns], _, ms, _, .stopped m, by simp⟩
  | stopping rest exit =>
    obtain ⟨ms, tail, d, rfl⟩ := h
    exact ⟨[.stopped .returns], exit, ms, tail, d, by simp⟩
  | exited s exit => exact ⟨[], exit, (List.append_nil log).symm ▸ h⟩

/-- The cause of an exit puts the actor on its way to it. -/
theorem leaving_of_cause (h : Course log p) (cause : exit.cause ∈ log) :
    p.leaving? = some exit := by
  cases p with
  | starting rest =>
    subst h
    cases cause
  | waiting s =>
    obtain ⟨ms, rfl⟩ := h
    exact absurd cause Exit.cause_not_mem_begun
  | handling rest =>
    obtain ⟨ms, m, rfl⟩ := h
    have other : exit.cause ≠ .took m := by cases exit <;> simp [Exit.cause]
    exact absurd cause (by simp [Exit.cause_not_mem_begun, other])
  | stopping rest exit' =>
    obtain ⟨ms, tail, d, rfl⟩ := h
    exact congrArg some ((d.cause_mem_iff ms).1 cause).symm
  | exited s exit' => exact congrArg some (h.cause_mem_iff.1 cause).symm

end Course

namespace Running

variable {b : Behaviour σ μ ε} {r r' : Running σ μ ε} {s : σ} {xs : List (Act μ)}
variable {told : List (Mark μ)} {drop : List μ}

def gets (r : Running σ μ ε) : List (Mark μ) :=
  match r.phase with
  | .starting (.done (_, ending)) => [.started ending]
  | .waiting _ =>
    match r.mailbox.receive.2 with
    | .message m => [.took m]
    | .finished => [.drained]
    | .waits => []
  | .handling (.done (_, flow)) => [.answered flow]
  | .stopping (.done (_, ending)) _ => [.stopped ending]
  | _ => []

/-- What the log tells of an act. With some turns the actor begins to stop. -/
def marks (b : Behaviour σ μ ε) (e : Instant (Running σ μ ε) (Act μ)) : List (Mark μ) :=
  match e.act with
  | .work =>
    e.state.gets ++
      match e.state.phase.leaving?, (next b e.state .work).phase with
      | none, .stopping _ exit => [.stopping exit]
      | _, _ => []
  | _ => []

def log (b : Behaviour σ μ ε) (s : σ) (xs : List (Act μ)) : List (Mark μ) :=
  (record b s xs).flatMap (marks b)

def Panics (e : Instant (Running σ μ ε) (Act μ)) : Prop :=
  ∃ text, Aborts e text ∨ ∃ exit, Stops e (.panics text) exit

/-- Neither the start nor the stop of the actor ever panics. -/
def Calm (b : Behaviour σ μ ε) (s : σ) : Prop := ∀ xs, ∀ e ∈ record b s xs, ¬Panics e

theorem gets_of_effects {c : Script.Context μ ε} {p : Phase σ μ ε}
    (he : Phase.Effects r.context c r.phase p) : r.gets = [] := by
  obtain ⟨c₀, p₀⟩ := r
  cases he with
  | @starting rest _ step | @handling rest _ step | @stopping rest _ _ step =>
    cases rest with
    | done a => cases step
    | emit _ _ | post _ _ | close _ | measure _ => rfl

theorem marks_of_effects {c : Script.Context μ ε} {p : Phase σ μ ε}
    (he : Phase.Effects r.context c r.phase p) : marks b ⟨r, .work⟩ = [] := by
  have turn : next b r .work = ⟨c, p⟩ := next_of_effects he
  simp only [marks, gets_of_effects he, turn, List.nil_append]
  obtain ⟨c₀, p₀⟩ := r
  cases he <;> rfl

theorem course_works (h : Course told r.phase) (calm : ¬Panics ⟨r, .work⟩) (w : Works b r r')
    (turn : next b r .work = r') : Course (told ++ marks b ⟨r, .work⟩) r'.phase := by
  obtain ⟨⟨⟨queue, closed⟩, events⟩, p⟩ := r
  cases w with
  | effect he =>
    rw [marks_of_effects he, List.append_nil]
    exact h.effects he
  | @waits s hp queue =>
    cases hp
    cases queue
    cases closed with
    -- A thread that finds the mailbox drained does not go on waiting.
    | true => cases congrArg Running.phase turn
    | false => exact (List.append_nil told).symm ▸ h
  | gone hp =>
    cases hp
    exact (List.append_nil told).symm ▸ h
  | started hp =>
    cases hp
    cases h
    exact ⟨[], rfl⟩
  | aborted hp => exact absurd ⟨_, .inl ⟨rfl, _, hp⟩⟩ calm
  | @take s m q hp queue =>
    cases hp
    cases queue
    obtain ⟨ms, rfl⟩ := h
    exact ⟨ms, m, rfl⟩
  | finish hp spent =>
    cases hp
    cases spent
    obtain ⟨ms, rfl⟩ := h
    exact ⟨ms, _, .mailboxClosed, (List.append_assoc _ [Mark.drained] _).symm⟩
  | proceed hp =>
    cases hp
    obtain ⟨ms, m, rfl⟩ := h
    exact ⟨ms ++ [m], (begun_concat ms m).symm⟩
  | stop hp =>
    cases hp
    obtain ⟨ms, m, rfl⟩ := h
    exact ⟨ms, _, .stopped m, begun_took ms m _ _⟩
  | @panic s t hp =>
    cases hp
    obtain ⟨ms, m, rfl⟩ := h
    exact ⟨ms, _, .panicked m t, begun_took ms m _ _⟩
  | @stopped s ending exit hp =>
    cases hp
    cases ending with
    | panics t => exact absurd ⟨t, .inr ⟨exit, rfl, s, rfl⟩⟩ calm
    | returns =>
      obtain ⟨ms, tail, d, rfl⟩ := h
      exact ⟨ms, tail, d, List.append_assoc _ [Mark.stopping exit] _⟩

theorem course_reached (calm : Calm b s) (xs : List (Act μ)) :
    Course (log b s xs) (reached b s xs).phase := by
  refine history_induction (next b)
    (P := fun t r => (∀ e ∈ t, ¬Panics e) → Course (t.flatMap (marks b)) r.phase)
    (s := spawn b s) (fun _ => rfl) ?_ xs (calm xs)
  intro t r x h calm
  have h := h fun e he => calm e (List.mem_append_left _ he)
  rw [List.flatMap_append, List.flatMap_singleton]
  cases x with
  | work => exact course_works h (calm _ List.mem_concat_self) (works_next b r) rfl
  | send m | close => exact (List.append_nil (t.flatMap (marks b))).symm ▸ h

theorem life_of_exit {exit : Exit} (calm : Calm b s) (h : (reached b s xs).exit? = some exit) :
    Life (log b s xs) exit := by
  obtain ⟨s', phase⟩ := exit?_eq_some_iff.1 h
  have course := course_reached calm xs
  rwa [phase] at course

/-- The mailbox of an actor that is on its way out, and the messages discarded so far. -/
structure Holds (r : Running σ μ ε) (drop : List μ) : Prop where
  panicked : ∀ rest t, r.phase = .stopping rest (.panicked t) → r.mailbox = ⟨[], true⟩
  stopped : ∀ rest, r.phase = .stopping rest .stopped → drop = []

theorem holds_of_not_stopping (h : ∀ rest exit, r.phase ≠ .stopping rest exit) : r.Holds drop :=
  ⟨fun _ _ hp => absurd hp (h _ _), fun _ hp => absurd hp (h _ _)⟩

/-- An act that drops nothing, of an actor that goes on with its stop. -/
theorem Holds.stays {a o : List μ} (h : r.Holds drop) (move : r.mailbox.Moves r'.mailbox a o [])
    (stopping : ∀ rest exit, r'.phase = .stopping rest exit →
      ∃ rest', r.phase = .stopping rest' exit) : r'.Holds drop where
  panicked rest t hp := by
    obtain ⟨rest', hp⟩ := stopping rest _ hp
    exact (move.of_spent (h.panicked rest' t hp)).1
  stopped rest hp := by
    obtain ⟨rest', hp⟩ := stopping rest _ hp
    exact h.stopped rest' hp

theorem Holds.works (h : r.Holds drop) (o : r.Orderly drop) (w : Works b r r') :
    r'.Holds (drop ++ discarded ⟨r, .work⟩) := by
  obtain ⟨c, p⟩ := r
  cases w with
  | waits hp _ | gone hp =>
    cases hp
    exact holds_of_not_stopping nofun
  | started _ | aborted _ | take _ _ | proceed _ | stopped _ => exact holds_of_not_stopping nofun
  | effect he =>
    have move := moves_works (b := b) (.effect he)
    rw [discarded_of_not_parts (x := .work) (Phase.not_parting_of_effects he)] at move ⊢
    rw [List.append_nil]
    refine h.stays move fun rest exit hp => ?_
    cases hp
    exact Phase.stopping_of_effects he
  | finish hp _ => exact ⟨nofun, nofun⟩
  | stop hp =>
    cases hp
    refine ⟨nofun, fun _ _ => ?_⟩
    rw [o.inside rfl]
    rfl
  | panic hp => exact ⟨fun _ _ _ => rfl, nofun⟩

theorem holds_reached (b : Behaviour σ μ ε) (s : σ) (xs : List (Act μ)) :
    (reached b s xs).Holds ((record b s xs).flatMap discarded) := by
  have both : (reached b s xs).Orderly ((record b s xs).flatMap discarded) ∧
      (reached b s xs).Holds ((record b s xs).flatMap discarded) := by
    refine history_induction (next b)
      (P := fun t r => r.Orderly (t.flatMap discarded) ∧ r.Holds (t.flatMap discarded))
      ⟨orderly_spawn b s, holds_of_not_stopping nofun⟩ ?_ xs
    intro t r x ⟨o, h⟩
    rw [List.flatMap_append, List.flatMap_singleton]
    refine ⟨orderly_next o x, ?_⟩
    cases x with
    | work => exact h.works o (works_next b r)
    | send m | close =>
      rw [discarded_of_not_parts id, List.append_nil]
      exact h.stays (moves_next b r _) fun rest _ hp => ⟨rest, hp⟩
  exact both.2

theorem queued_while_stopping {rest : Script μ ε (σ × Ending)}
    (phase : (reached b s xs).phase = .stopping rest .stopped) :
    (record b s xs).flatMap discarded = [] ∧
      (record b s xs).flatMap accepted =
        (record b s xs).flatMap handled ++ (reached b s xs).mailbox.queue := by
  have nothing := (holds_reached b s xs).stopped rest phase
  refine ⟨nothing, ?_⟩
  simpa [nothing] using (balanced_reached b s xs).balance

theorem discarded_at_exit {exit : Exit} (ended : (reached b s xs).exit? = some exit) :
    (record b s xs).flatMap accepted =
        (record b s xs).flatMap handled ++ (record b s xs).flatMap discarded ∧
      (reached b s xs).mailbox = ⟨[], true⟩ := by
  obtain ⟨s', phase⟩ := exit?_eq_some_iff.1 ended
  have spent := (orderly_reached b s xs).ended s' exit phase
  refine ⟨?_, spent⟩
  simpa [spent] using (balanced_reached b s xs).balance

theorem log_append (xs ys : List (Act μ)) : log b s xs <+: log b s (xs ++ ys) := by
  rw [log, log, record, record, history_append, List.flatMap_append]
  exact List.prefix_append _ _

end Running

def Script.Always (P : α → Prop) : Script μ ε α → Prop
  | done a => P a
  | emit _ rest => rest.Always P
  | post _ rest => ∀ x, (rest x).Always P
  | close rest => rest.Always P
  | measure rest => ∀ n c, (rest n c).Always P

theorem Script.Always.step {P : α → Prop} {s s' : Script μ ε α} {c c' : Script.Context μ ε}
    (h : s.Always P) (turn : s.step c = some (c', s')) : s'.Always P := by
  cases s with
  | done a => cases turn
  | emit e rest | close rest =>
    cases turn
    exact h
  | post m rest =>
    cases turn
    exact h _
  | measure rest =>
    cases turn
    exact h _ _

def Phase.Mild : Phase σ μ ε → Prop
  | starting rest => rest.Always (·.2 = .returns)
  | stopping rest _ => rest.Always (·.2 = .returns)
  | _ => True

theorem Phase.Mild.effects {p p' : Phase σ μ ε} {c c' : Script.Context μ ε} (h : p.Mild)
    (he : Effects c c' p p') : p'.Mild := by
  cases he with
  | starting step | stopping step => exact Script.Always.step h step
  | handling step => trivial

namespace Running

variable {b : Behaviour σ μ ε} {r r' : Running σ μ ε} {s : σ}

theorem mild_works (stop : ∀ s, (b.onStop s).Always (·.2 = .returns)) (h : r.phase.Mild)
    (w : Works b r r') : r'.phase.Mild := by
  cases w with
  | waits _ _ | gone _ => exact h
  | effect he => exact h.effects he
  | started _ | aborted _ | take _ _ | proceed _ | stopped _ => trivial
  | finish _ _ | stop _ | panic _ => exact stop _

theorem not_panics_of_mild (h : r.phase.Mild) (x : Act μ) : ¬Panics ⟨r, x⟩ := by
  rintro ⟨text, ⟨-, s, phase⟩ | ⟨exit, -, s, phase⟩⟩
  all_goals
    dsimp only at phase
    rw [phase] at h
    cases h

/-- An actor is calm if its scripts of start and stop return however they go. -/
theorem calm_of_returns (start : (b.onStart s).Always (·.2 = .returns))
    (stop : ∀ s, (b.onStop s).Always (·.2 = .returns)) : Calm b s := by
  intro xs
  have both : (reached b s xs).phase.Mild ∧ ∀ e ∈ record b s xs, ¬Panics e := by
    refine history_induction (next b) (P := fun t r => r.phase.Mild ∧ ∀ e ∈ t, ¬Panics e)
      (s := spawn b s) ⟨start, nofun⟩ ?_ xs
    intro t r x ⟨mild, calm⟩
    constructor
    · cases x with
      | work => exact mild_works stop mild (works_next b r)
      | send m | close => exact mild
    · intro e he
      obtain he | he := List.mem_append.1 he
      · exact calm e he
      · cases List.mem_singleton.1 he
        exact not_panics_of_mild mild x
  exact both.2

theorem Hosts.exit?_step {S A : Type} {step : S → A → S} {actor : S → Running σ μ ε} {turn : A}
    (host : Hosts b step actor turn) {u : S} {exit : Exit} (h : (actor u).exit? = some exit)
    (x : A) : (actor (step u x)).exit? = some exit := by
  by_cases hx : x = turn
  · rw [hx, host.works]
    exact exit?_next h .work
  · obtain ⟨s, phase⟩ := exit?_eq_some_iff.1 h
    exact exit?_eq_some_iff.2 ⟨s, (host.keeps u x hx).trans phase⟩

end Running

namespace Shared

variable {b : Behaviour σ μ ε} {h : Shared σ μ ε} {s : σ} {f : Nat → Act μ} {exit : Exit} {n : Nat}

def log (b : Behaviour σ μ ε) (s : σ) (xs : List (Act μ)) : List (Mark μ) :=
  Running.log b s (xs.filterMap Act.actor?)

theorem actor_reached (b : Behaviour σ μ ε) (s : σ) (xs : List (Act μ)) :
    (reached b s xs).handle.actor = Running.reached b s (xs.filterMap Act.actor?) :=
  actor_after b (spawn b s) xs

theorem log_mono {m : Nat} (hn : n ≤ m) : log b s (firstActs f n) <+: log b s (firstActs f m) := by
  obtain ⟨d, rfl⟩ := Nat.exists_eq_add_of_le hn
  rw [firstActs, firstActs, List.range_add, List.map_append, log, log, List.filterMap_append]
  exact Running.log_append _ _

theorem hosts (b : Behaviour σ μ ε) :
    Running.Hosts b (next b) (fun h => h.handle.actor) (.actor .work) where
  works h := congrArg (fun h => h.handle.actor) (next_actor b h .work)
  keeps h x hx := by
    cases x with
    | actor x =>
      rw [next_actor]
      exact Running.phase_of_others fun same => hx (congrArg Act.actor same)
    | join => rfl
    | resume i => rw [handle_resume]

theorem taken_next (x : Act μ) (taken : h.handle.taken = true) :
    (next b h x).handle.taken = true := by
  cases x with
  | actor x => rwa [next_actor]
  | join => rfl
  | resume i => rwa [handle_resume]

theorem Joined.first {first : Joining} {later : List Joining} (j : h.Joined)
    (joins : h.joins = first :: later) :
    (first = .waits ∨ ∃ exit, first = .returned (some exit) ∧ h.handle.actor.exit? = some exit) ∧
      ∀ j ∈ later, j = .returned none := by
  cases j with
  | untaken taken none => cases none.symm.trans joins
  | waits n taken all =>
    cases all.symm.trans joins
    exact ⟨.inl rfl, fun j hj => List.eq_of_mem_replicate hj⟩
  | returned n exit taken all ended =>
    cases all.symm.trans joins
    exact ⟨.inr ⟨exit, rfl, ended⟩, fun j hj => List.eq_of_mem_replicate hj⟩

theorem Joined.told (j : h.Joined) (taken : h.handle.taken = true)
    (ended : h.handle.actor.exit? = some exit) :
    (next b h (.resume 0)).joins[0]? = some (.returned (some exit)) := by
  cases j with
  | untaken free none => cases free.symm.trans taken
  | waits n _ all => simp [next, Handle.joined, all, ended]
  | returned n exit' _ all ended' =>
    cases ended'.symm.trans ended
    simp [next, all]

/-- A join that gets its turns is told of the exit. -/
theorem told_of_exit (resumes : Recurs f (.resume 0)) (joins : ∃ n, f n = .join)
    (ended : (stateAt (next b) (spawn b s) f n).handle.actor.exit? = some exit) :
    ∃ m, (stateAt (next b) (spawn b s) f m).joins[0]? = some (.returned (some exit)) := by
  obtain ⟨k, call⟩ := joins
  have taken : (stateAt (next b) (spawn b s) f (k + 1)).handle.taken = true := by
    rw [stateAt_succ, call]
    rfl
  obtain ⟨m, late, turn⟩ := resumes (max n (k + 1))
  have ended := stateAt_keeps (I := fun h : Shared σ μ ε => h.handle.actor.exit? = some exit)
    (fun _ x h => (hosts b).exit?_step h x) (by omega : n ≤ m) ended
  have taken := stateAt_keeps (I := fun h : Shared σ μ ε => h.handle.taken = true)
    (fun _ x => taken_next x) (by omega : k + 1 ≤ m) taken
  refine ⟨m + 1, ?_⟩
  rw [stateAt_succ, turn]
  exact (joined_reached b s (firstActs f m)).told taken ended

theorem course_reached (calm : Running.Calm b s) (xs : List (Act μ)) :
    Course (log b s xs) (reached b s xs).handle.actor.phase := by
  rw [actor_reached]
  exact Running.course_reached calm _

theorem life_of_exit (calm : Running.Calm b s) {xs : List (Act μ)}
    (ended : (reached b s xs).handle.actor.exit? = some exit) : Life (log b s xs) exit := by
  rw [actor_reached] at ended
  exact Running.life_of_exit calm ended

/-- An actor that gets its turns comes to the exit of which the cause has come up. -/
theorem exit_of_cause (calm : Running.Calm b s) (works : Recurs f (.actor .work))
    (cause : exit.cause ∈ log b s (firstActs f n)) :
    ∃ m, (stateAt (next b) (spawn b s) f m).handle.actor.exit? = some exit := by
  have leaving := (course_reached calm (firstActs f n)).leaving_of_cause cause
  cases phase : (reached b s (firstActs f n)).handle.actor.phase with
  | starting _ | waiting _ | handling _ =>
    rw [phase] at leaving
    cases leaving
  | exited s' exit' =>
    rw [phase] at leaving
    cases leaving
    exact ⟨n, Running.exit?_eq_some_iff.2 ⟨s', phase⟩⟩
  | stopping rest exit' =>
    rw [phase] at leaving
    cases leaving
    obtain ⟨m, ending, hn, ended⟩ := (hosts b).exit_of_stopping works phase
    -- The end of the stop leaves no other exit than the one whose cause is in the log.
    have life := life_of_exit calm ended
    have same := life.cause_mem_iff.1 ((log_mono hn).subset cause)
    exact ⟨m, same ▸ ended⟩

/-- Whatever an actor does whose start and stop do not panic, and whoever sends to it, closes its
mailbox or joins it: its log is the beginning of an orderly life, in which the start comes first and
the stop begins and ends once, after the last handler, whichever the exit. The first join is told of
the exit that has its cause in the log, and later joins are told nothing. During the stop after a
panic the mailbox is closed and empty; during the stop that a handler asked for, all messages that
were not handled are queued, and only then are they discarded. If the thread and the first join get
their turns again and again, the join is told of an exit exactly if its cause comes up. -/
theorem exits_told (b : Behaviour σ μ ε) (s : σ) (calm : Running.Calm b s) :
    (∀ xs : List (Act μ),
      let h := reached b s xs
      let record := Running.record b s (xs.filterMap Act.actor?)
      (∃ rest exit, Life (log b s xs ++ rest) exit) ∧
      (∀ exit, h.handle.actor.exit? = some exit →
        Life (log b s xs) exit ∧ Running.Ended b record exit) ∧
      (∀ first later, h.joins = first :: later →
        (first = .waits ∨ ∃ exit, first = .returned (some exit) ∧ Life (log b s xs) exit ∧
          ∀ exit', exit'.cause ∈ log b s xs ↔ exit' = exit) ∧
        ∀ j ∈ later, j = .returned none) ∧
      (∀ rest t, h.handle.actor.phase = .stopping rest (.panicked t) →
        h.handle.actor.mailbox = ⟨[], true⟩) ∧
      (∀ rest, h.handle.actor.phase = .stopping rest .stopped →
        record.flatMap Running.discarded = [] ∧
        record.flatMap Running.accepted =
          record.flatMap Running.handled ++ h.handle.actor.mailbox.queue) ∧
      (h.handle.actor.exit? = some .stopped →
        record.flatMap Running.accepted =
          record.flatMap Running.handled ++ record.flatMap Running.discarded ∧
        h.handle.actor.mailbox = ⟨[], true⟩)) ∧
    ∀ f : Nat → Act μ, Recurs f (.actor .work) → Recurs f (.resume 0) → (∃ n, f n = .join) →
      ∀ exit, (∃ n, (stateAt (next b) (spawn b s) f n).joins[0]? = some (.returned (some exit))) ↔
        ∃ n, exit.cause ∈ log b s (firstActs f n) := by
  refine ⟨fun xs => ⟨(course_reached calm xs).exists_life, ?_, ?_, ?_, ?_, ?_⟩,
    fun f works resumes joins exit => ⟨?_, ?_⟩⟩
  · rw [actor_reached]
    exact fun _ ended => ⟨Running.life_of_exit calm ended, Running.ended_of_exit ended⟩
  · intro first later joins
    obtain ⟨one, others⟩ := (joined_reached b s xs).first joins
    refine ⟨one.imp_right ?_, others⟩
    rintro ⟨exit, rfl, ended⟩
    have life := life_of_exit calm ended
    exact ⟨exit, rfl, life, fun _ => life.cause_mem_iff⟩
  · rw [actor_reached]
    exact (Running.holds_reached b s _).panicked
  · rw [actor_reached]
    exact fun _ => Running.queued_while_stopping
  · rw [actor_reached]
    exact Running.discarded_at_exit
  · rintro ⟨n, told⟩
    have ended := ((joined_reached b s (firstActs f n)).ended_of_returned told).2
    exact ⟨n, (life_of_exit calm ended).cause_mem_iff.2 rfl⟩
  · rintro ⟨n, cause⟩
    obtain ⟨m, ended⟩ := exit_of_cause calm works cause
    exact told_of_exit resumes joins ended

/-- The second message crashes the actor while a third one is queued. -/
theorem exits_told_crashed :
    let b : Behaviour (Counter.State Nat) Nat Int :=
      Counter.behaviour fun | 0 => .crash (some "boom") | n => .add n
    let xs : List (Act Nat) :=
      [.join, .actor (.send 1), .actor (.send 0), .actor (.send 2), .join] ++
        List.replicate 12 (.actor .work) ++ [.resume 0]
    let f : Nat → Act Nat
      | 0 => .join
      | 1 => .actor (.send 0)
      | n + 2 => if n % 2 = 0 then .actor .work else .resume 0
    Running.Calm b .initial ∧
      (reached b .initial xs).joins = [.returned (some (.panicked (some "boom"))), .returned none] ∧
      Life (log b .initial xs) (.panicked (some "boom")) ∧
      Recurs f (.actor .work) ∧ Recurs f (.resume 0) ∧
      ∃ n, (stateAt (next b) (spawn b .initial) f n).joins[0]? =
        some (.returned (some (.panicked (some "boom")))) := by
  intro b xs f
  have calm : Running.Calm b .initial :=
    Running.calm_of_returns (fun _ _ => rfl) fun _ _ _ => rfl
  have joins : (reached b .initial xs).joins =
      [.returned (some (.panicked (some "boom"))), .returned none] := by decide +kernel
  have cause : (Exit.panicked (some "boom")).cause ∈ log b .initial (firstActs f 20) := by
    decide +kernel
  have works : Recurs f (.actor .work) := fun n => ⟨2 * n + 2, by omega, by simp [f]⟩
  have resumes : Recurs f (.resume 0) := fun n => ⟨2 * n + 1 + 2, by omega, by simp [f]⟩
  obtain ⟨runs, courses⟩ := exits_told b .initial calm
  obtain ⟨-, -, told, -⟩ := runs xs
  obtain ⟨first, -⟩ := told _ _ joins
  obtain ⟨exit, same, life, -⟩ := first.resolve_left nofun
  cases same
  exact ⟨calm, joins, life, works, resumes,
    (courses f works resumes ⟨0, rfl⟩ _).2 ⟨20, cause⟩⟩

end Shared

end PluginRegistry.Actor
