import PluginRegistry.Actor.Exchange
import PluginRegistry.Proofs.Histories

/-!
# Nothing is lost in a mailbox

What one operation does to a mailbox is a move: messages come in at the end, go out in front, or are
dropped, all that are left at once and for good (`Moves`). Moves keep the account of a mailbox, in
which what was accepted is what was taken, then what was dropped, then what is queued (`Balanced`).
Every request at an exchange is a move, whoever of its senders makes it, so the account is in order
over any requests (`messages_accounted`).
-/

namespace PluginRegistry.Actor

variable {α : Type}

namespace Mailbox

/-- From one state of a mailbox to another, with the messages that are accepted, taken out and
dropped on the way. -/
structure Moves (m m' : Mailbox α) (accepted taken dropped : List α) : Prop where
  queue : m.queue ++ accepted = taken ++ dropped ++ m'.queue
  closed : m.closed = true → m'.closed = true ∧ accepted = []
  spent : dropped ≠ [] → m' = ⟨[], true⟩

structure Balanced (m : Mailbox α) (accepted taken dropped : List α) : Prop where
  balance : accepted = taken ++ dropped ++ m.queue
  spent : dropped ≠ [] → m = ⟨[], true⟩

def admitted (m : Mailbox α) (a : α) : List α := if (m.send a).2.isAccepted then [a] else []

theorem Moves.refl (m : Mailbox α) : m.Moves m [] [] [] :=
  ⟨by simp, fun h => ⟨h, rfl⟩, fun h => absurd rfl h⟩

theorem moves_close (m : Mailbox α) : m.Moves m.close [] [] [] :=
  ⟨by simp [close], fun _ => ⟨rfl, rfl⟩, fun h => absurd rfl h⟩

theorem moves_send (m : Mailbox α) (a : α) : m.Moves (m.send a).1 (m.admitted a) [] [] := by
  cases h : m.closed with
  | false =>
    rw [admitted, send_of_open h]
    exact ⟨rfl, fun h' => absurd (h.symm.trans h') Bool.false_ne_true, fun h => absurd rfl h⟩
  | true =>
    rw [admitted, send_of_closed h]
    exact .refl m

theorem moves_tryReceive (m : Mailbox α) :
    m.Moves m.tryReceive.1 [] m.tryReceive.2.toList [] where
  queue := by simpa using m.queue_tryReceive
  closed h := ⟨m.closed_tryReceive.trans h, rfl⟩
  spent h := absurd rfl h

theorem moves_receiveAll (m : Mailbox α) : m.Moves m.receiveAll.1 [] m.receiveAll.2 [] :=
  ⟨by simp [receiveAll], fun h => ⟨h, rfl⟩, fun h => absurd rfl h⟩

theorem moves_discard (m : Mailbox α) : m.Moves m.discard.1 [] [] m.queue :=
  ⟨by simp [discard], fun _ => ⟨rfl, rfl⟩, fun _ => rfl⟩

theorem balanced_empty : (empty : Mailbox α).Balanced [] [] [] := ⟨rfl, fun h => absurd rfl h⟩

variable {m m' : Mailbox α} {acc out drop a o d : List α}

/-- Nothing moves in a mailbox that is closed and empty. -/
theorem Moves.of_spent (move : m.Moves m' a o d) (h : m = ⟨[], true⟩) :
    m' = ⟨[], true⟩ ∧ a = [] ∧ o = [] ∧ d = [] := by
  subst h
  obtain ⟨hc, rfl⟩ := move.closed rfl
  obtain ⟨rfl, rfl, hq⟩ : o = [] ∧ d = [] ∧ m'.queue = [] := by simpa using move.queue
  refine ⟨?_, rfl, rfl, rfl⟩
  cases m'
  exact congr (congrArg Mailbox.mk hq) hc

/-- Once something was dropped the mailbox is spent. -/
theorem Balanced.moves (h : m.Balanced acc out drop) (move : m.Moves m' a o d) :
    m'.Balanced (acc ++ a) (out ++ o) (drop ++ d) := by
  by_cases hd : drop = []
  · subst hd
    refine ⟨?_, fun hn => move.spent (by simpa using hn)⟩
    calc acc ++ a = out ++ (m.queue ++ a) := by simp [h.balance]
      _ = out ++ o ++ ([] ++ d) ++ m'.queue := by simp [move.queue]
  · have hm := h.spent hd
    obtain ⟨rfl, rfl, rfl, rfl⟩ := move.of_spent hm
    subst hm
    exact ⟨by simpa using h.balance, fun _ => rfl⟩

end Mailbox

namespace Exchange

def next (x : Exchange α) (q : Request α) : Exchange α := (x.perform q).1

def answer (e : Instant (Exchange α) (Request α)) : Answer α := (e.state.perform e.act).2

def accepted (e : Instant (Exchange α) (Request α)) : List α :=
  match e.act, answer e with
  | .send a, .sent .accepted => [a]
  | _, _ => []

def received (e : Instant (Exchange α) (Request α)) : List α :=
  match answer e with
  | .received a => a.toList
  | .all as => as
  | _ => []

/-- The messages that stood in the mailbox when its receiver discarded them or was given up. -/
def discarded (e : Instant (Exchange α) (Request α)) : List α :=
  match e.act with
  | .discard | .giveUp => if e.state.receiving then e.state.mailbox.queue else []
  | _ => []

theorem accepted_send (x : Exchange α) (a : α) :
    accepted ⟨x, .send a⟩ = x.mailbox.admitted a := by
  cases h : x.mailbox.closed with
  | false =>
    simp [accepted, answer, perform, Mailbox.admitted, Mailbox.send_of_open h, Sent.isAccepted]
  | true =>
    simp [accepted, answer, perform, Mailbox.admitted, Mailbox.send_of_closed h, Sent.isAccepted]

/-- Every request is a move of the mailbox. -/
theorem moves_next (x : Exchange α) (q : Request α) :
    x.mailbox.Moves (next x q).mailbox (accepted ⟨x, q⟩) (received ⟨x, q⟩) (discarded ⟨x, q⟩) := by
  obtain ⟨box, senders, receiving⟩ := x
  cases q with
  | send a =>
    rw [accepted_send]
    exact box.moves_send a
  | close => exact box.moves_close
  | addSender => exact .refl box
  | receive =>
    cases receiving with
    | false => exact .refl box
    | true =>
      have h := box.moves_tryReceive
      obtain ⟨queue, closed⟩ := box
      cases queue <;> cases closed <;> exact h
  | tryReceive =>
    cases receiving with
    | false => exact .refl box
    | true => exact box.moves_tryReceive
  | receiveAll =>
    cases receiving with
    | false => exact .refl box
    | true => exact box.moves_receiveAll
  | discard =>
    cases receiving with
    | false => exact .refl box
    | true => exact box.moves_discard
  | giveUp =>
    cases receiving with
    | false => exact .refl box
    | true => exact box.moves_discard

/-- A receiver that was given up left a mailbox that is closed and empty. -/
def Abandoned (x : Exchange α) : Prop := x.receiving = false → x.mailbox = ⟨[], true⟩

theorem spent_next {x : Exchange α} (h : x.mailbox = ⟨[], true⟩) (q : Request α) :
    (next x q).mailbox = ⟨[], true⟩ :=
  ((moves_next x q).of_spent h).1

theorem abandoned_next {x : Exchange α} (h : x.Abandoned) (q : Request α) :
    (next x q).Abandoned := by
  cases hr : x.receiving with
  | false => exact fun _ => spent_next (h hr) q
  | true =>
    obtain ⟨box, senders, receiving⟩ := x
    cases hr
    cases q with
    | giveUp => exact fun _ => rfl
    | receive =>
      obtain ⟨queue, closed⟩ := box
      cases queue <;> cases closed <;> exact fun h => absurd h.symm Bool.false_ne_true
    | send | close | addSender | tryReceive | receiveAll | discard =>
      exact fun h => absurd h.symm Bool.false_ne_true

def reached (qs : List (Request α)) : Exchange α := after next fresh qs

def record (qs : List (Request α)) : List (Instant (Exchange α) (Request α)) := history next fresh qs

theorem balanced_reached (qs : List (Request α)) :
    (reached qs).mailbox.Balanced ((record qs).flatMap accepted) ((record qs).flatMap received)
      ((record qs).flatMap discarded) := by
  refine history_induction next (P := fun t x => x.mailbox.Balanced (t.flatMap accepted)
    (t.flatMap received) (t.flatMap discarded)) Mailbox.balanced_empty ?_ qs
  intro t x q h
  simpa [List.flatMap_append] using h.moves (moves_next x q)

theorem abandoned_reached (qs : List (Request α)) : (reached qs).Abandoned :=
  history_induction next (P := fun _ x => x.Abandoned) (fun h => absurd h.symm Bool.false_ne_true)
    (fun _ _ q h => abandoned_next h q) qs

theorem closed_after {x : Exchange α} (h : x.mailbox.closed = true) (qs : List (Request α)) :
    (after next x qs).mailbox.closed = true :=
  history_induction next (P := fun _ x => x.mailbox.closed = true) h
    (fun _ x q h => ((moves_next x q).closed h).1) qs

theorem received_none_iff {x : Exchange α} (h : x.Abandoned) :
    (x.perform .receive).2 = .received none ↔
      x.mailbox.closed = true ∧ x.mailbox.queue = [] := by
  cases hr : x.receiving with
  | false => simp [perform, hr, h hr]
  | true =>
    obtain ⟨⟨queue, closed⟩, senders, receiving⟩ := x
    cases hr
    cases queue <;> cases closed <;> simp [perform, Mailbox.receive, Mailbox.tryReceive]

/-- Over any requests of any number of senders and the receiver: what was accepted is, in order,
what was received, then what was discarded, then what is queued. A closed mailbox stays closed and
gives back what is sent to it. The receiver learns of the end when the mailbox is closed and empty
and never before, and discarding tells how many messages it drops. -/
theorem messages_accounted (qs : List (Request α)) :
    (record qs).flatMap accepted =
      (record qs).flatMap received ++ (record qs).flatMap discarded ++
        (reached qs).mailbox.queue ∧
    ((reached qs).mailbox.closed = true → ∀ qs', (reached (qs ++ qs')).mailbox.closed = true ∧
      ∀ a, (reached (qs ++ qs')).perform (.send a) =
        (reached (qs ++ qs'), .sent (.rejected a))) ∧
    (((reached qs).perform .receive).2 = .received none ↔
      (reached qs).mailbox.closed = true ∧ (reached qs).mailbox.queue = []) ∧
    ((reached qs).receiving = true → ((reached qs).perform .discard).2 =
      .discarded (some (discarded ⟨reached qs, .discard⟩).length)) := by
  refine ⟨(balanced_reached qs).balance, fun hc qs' => ?_, received_none_iff (abandoned_reached qs),
    fun hr => ?_⟩
  · have hc' : (reached (qs ++ qs')).mailbox.closed = true := by
      rw [reached, after_append]
      exact closed_after hc qs'
    refine ⟨hc', fun a => ?_⟩
    rw [perform, Mailbox.send_of_closed hc']
  · simp [perform, discarded, hr, Mailbox.discard, Mailbox.size]

/-- Two senders; one message is received, one more discarded, and the last comes too late. -/
theorem messages_accounted_discarded :
    let qs : List (Request Nat) := [.send 1, .addSender, .send 2, .receive, .discard]
    (reached qs).mailbox.closed = true ∧ (reached qs).receiving = true ∧
      (record qs).flatMap accepted = [1] ++ [2] ++ (reached qs).mailbox.queue ∧
      ((reached qs).perform .discard).2 = .discarded (some 0) ∧
      (reached (qs ++ [.send 3, .giveUp])).perform (.send 4) =
        (reached (qs ++ [.send 3, .giveUp]), .sent (.rejected 4)) := by
  intro qs
  obtain ⟨hb, hc, -, hd⟩ := messages_accounted qs
  exact ⟨rfl, rfl, hb, hd rfl, (hc rfl _).2 4⟩

end Exchange

end PluginRegistry.Actor
