import PluginRegistry.Actor.Mailbox

/-!
# Exchanges

A mailbox with its ends: any number of senders and at most one receiver. A receiver that is given up
closes the mailbox and drops what it holds.
-/

namespace PluginRegistry.Actor

structure Exchange (α : Type) where
  mailbox : Mailbox α
  senders : Nat
  receiving : Bool

namespace Exchange

/-- What can be done at one of the ends. -/
inductive Request (α : Type)
  | send (a : α)
  | close
  | addSender
  | receive
  | tryReceive
  | receiveAll
  | discard
  | giveUp

inductive Answer (α : Type)
  | sent (s : Sent α)
  | closed
  | senders (n : Nat)
  | received (a : Option α)
  | waits
  | all (as : List α)
  | discarded (n : Option Nat)
  | gaveUp (was : Bool)

variable {α : Type}

def fresh : Exchange α := ⟨.empty, 1, true⟩

/-- Carries out one request. Receiving that would wait is not carried out. -/
def perform (x : Exchange α) : Request α → Exchange α × Answer α
  | .send a =>
    let (m, s) := x.mailbox.send a
    ({ x with mailbox := m }, .sent s)
  | .close => ({ x with mailbox := x.mailbox.close }, .closed)
  | .addSender => ({ x with senders := x.senders + 1 }, .senders (x.senders + 1))
  | .receive =>
    if x.receiving then
      match x.mailbox.receive with
      | (m, .message a) => ({ x with mailbox := m }, .received (some a))
      | (_, .finished) => (x, .received none)
      | (_, .waits) => (x, .waits)
    else (x, .received none)
  | .tryReceive =>
    if x.receiving then
      let (m, a) := x.mailbox.tryReceive
      ({ x with mailbox := m }, .received a)
    else (x, .received none)
  | .receiveAll =>
    if x.receiving then
      let (m, as) := x.mailbox.receiveAll
      ({ x with mailbox := m }, .all as)
    else (x, .all [])
  | .discard =>
    if x.receiving then
      let (m, n) := x.mailbox.discard
      ({ x with mailbox := m }, .discarded (some n))
    else (x, .discarded none)
  | .giveUp =>
    if x.receiving then
      ({ x with mailbox := x.mailbox.discard.1, receiving := false }, .gaveUp true)
    else (x, .gaveUp false)

end Exchange

end PluginRegistry.Actor
