/-!
# Mailboxes

An unbounded queue of messages, taken out in the order in which they were put in. Closing is
explicit and final: a closed mailbox rejects messages but still hands out what it holds.
-/

namespace PluginRegistry.Actor

structure Mailbox (α : Type) where
  queue : List α
  closed : Bool
  deriving DecidableEq

/-- What became of a message that was sent. A rejected message is given back. -/
inductive Sent (α : Type) | accepted | rejected (a : α) deriving DecidableEq

def Sent.isAccepted {α : Type} : Sent α → Bool
  | accepted => true
  | rejected _ => false

/-- The report of a rejected message. -/
def rejection : String := "mailbox closed"

/-- The short description of a rejection, which leaves the message out. -/
def rejectionSummary : String := "Closed(..)"

/-- What a receiver that may wait meets. -/
inductive Received (α : Type) | message (a : α) | finished | waits deriving DecidableEq

namespace Mailbox

variable {α : Type}

def empty : Mailbox α := ⟨[], false⟩

instance : Inhabited (Mailbox α) := ⟨empty⟩

def size (m : Mailbox α) : Nat := m.queue.length

def send (m : Mailbox α) (a : α) : Mailbox α × Sent α :=
  if m.closed then (m, .rejected a) else ({ m with queue := m.queue ++ [a] }, .accepted)

def close (m : Mailbox α) : Mailbox α := { m with closed := true }

def tryReceive (m : Mailbox α) : Mailbox α × Option α :=
  match m.queue with
  | [] => (m, none)
  | a :: r => ({ m with queue := r }, some a)

/-- Takes the oldest message. Without one a receiver of an open mailbox has to wait, and a closed
mailbox is finished. -/
def receive (m : Mailbox α) : Mailbox α × Received α :=
  match m.tryReceive with
  | (m, some a) => (m, .message a)
  | (m, none) => (m, if m.closed then .finished else .waits)

def receiveAll (m : Mailbox α) : Mailbox α × List α := ({ m with queue := [] }, m.queue)

/-- Closes the mailbox and drops its messages; tells how many they were. -/
def discard (m : Mailbox α) : Mailbox α × Nat := (⟨[], true⟩, m.size)

theorem send_of_closed {m : Mailbox α} (h : m.closed = true) (a : α) :
    m.send a = (m, .rejected a) := by
  simp [send, h]

theorem send_of_open {m : Mailbox α} (h : m.closed = false) (a : α) :
    m.send a = (⟨m.queue ++ [a], false⟩, .accepted) := by
  simp [send, h]

@[simp] theorem closed_tryReceive (m : Mailbox α) : m.tryReceive.1.closed = m.closed := by
  unfold tryReceive; split <;> rfl

/-- What is taken out stood in front of what remains. -/
theorem queue_tryReceive (m : Mailbox α) :
    m.queue = m.tryReceive.2.toList ++ m.tryReceive.1.queue := by
  unfold tryReceive; split <;> simp_all

theorem receive_eq_message_iff {m box : Mailbox α} {a : α} :
    m.receive = (box, .message a) ↔ m.queue = a :: box.queue ∧ m.closed = box.closed := by
  unfold receive tryReceive
  cases box
  cases h : m.queue <;> cases hc : m.closed <;> simp [hc, and_comm, and_left_comm]

theorem receive_eq_finished_iff {m : Mailbox α} :
    m.receive.2 = .finished ↔ m.queue = [] ∧ m.closed = true := by
  unfold receive tryReceive
  cases h : m.queue <;> cases hc : m.closed <;> simp [hc]

end Mailbox

end PluginRegistry.Actor
