import PluginRegistry.Actor.Mailbox
import PluginRegistry.Live.Event

/-!
# The event stream

Subscribers have numbers that are not used again, and are told of events in the order in which they
subscribed. A subscriber is named by an address; the mailbox at the address receives the changes of
each event until it rejects one.
-/

namespace PluginRegistry.Live

open Actor

inductive Message
  | init
  | package (x : PackageChange)
  | destroy
  deriving DecidableEq, Repr

/-- The next number is the one that a counter of 64 bits has as long as there were no more than 2^64
subscriptions. After those the counter would start again and numbers be used a second time. -/
structure Stream where
  nextId : Nat
  sinks : List (Nat × Nat)
  deriving DecidableEq, Repr

namespace Stream

def empty : Stream := ⟨0, []⟩

def subscribe (s : Stream) (address : Nat) : Stream × Nat :=
  (⟨s.nextId + 1, s.sinks ++ [(s.nextId, address)]⟩, s.nextId)

def unsubscribe (s : Stream) (id : Nat) : Stream :=
  { s with sinks := s.sinks.filter fun e => e.1 ≠ id }

def size (s : Stream) : Nat := s.sinks.length

/-- The addresses of the subscribers in the order in which they are told of events. -/
def addresses (s : Stream) : List Nat := s.sinks.map (·.2)

@[simp] theorem addresses_subscribe (s : Stream) (a : Nat) :
    (s.subscribe a).1.addresses = s.addresses ++ [a] := by
  simp [subscribe, addresses]

theorem mem_sinks_unsubscribe {s : Stream} {id : Nat} {e : Nat × Nat} :
    e ∈ (s.unsubscribe id).sinks ↔ e ∈ s.sinks ∧ e.1 ≠ id := by
  simp [unsubscribe]

end Stream

/-- Puts changes into a mailbox until one is rejected. -/
def deliver (m : Mailbox Message) : List PackageChange → Mailbox Message
  | [] => m
  | x :: xs =>
    match m.send (.package x) with
    | (m, .accepted) => deliver m xs
    | (m, .rejected _) => m

theorem deliver_of_open {m : Mailbox Message} (h : m.closed = false) (xs : List PackageChange) :
    deliver m xs = ⟨m.queue ++ xs.map .package, false⟩ := by
  induction xs generalizing m with
  | nil => rw [deliver, ← h]; simp
  | cons x xs ih => rw [deliver, Mailbox.send_of_open h]; simp [ih]

@[simp] theorem deliver_of_closed {m : Mailbox Message} (h : m.closed = true)
    (xs : List PackageChange) : deliver m xs = m := by
  cases xs with
  | nil => rfl
  | cons x xs => rw [deliver, Mailbox.send_of_closed h]

end PluginRegistry.Live
