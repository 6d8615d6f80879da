/-!
# Broadcast channels

Every receiver sees what is sent after it subscribed, in order. The channel keeps only the newest
items; a receiver that falls behind learns how many it has lost and goes on with the oldest one
kept.
-/

namespace PluginRegistry.Actor

/-- A channel with everything sent so far, of which a receiver gets at most the newest
`capacity`. -/
structure Broadcast (α : Type) where
  capacity : Nat
  sent : List α
  deriving Repr

/-- What a receiver gets: an item, or the number of items it has lost. -/
inductive Reception (α : Type) | item (a : α) | lagged (n : Nat) deriving DecidableEq, Repr

namespace Broadcast

variable {α : Type}

def ofCapacity (n : Nat) : Broadcast α := ⟨n, []⟩

def send (b : Broadcast α) (a : α) : Broadcast α := { b with sent := b.sent ++ [a] }

/-- The place from which a new receiver reads on. -/
def subscribe (b : Broadcast α) : Nat := b.sent.length

def lost (b : Broadcast α) (place : Nat) : Nat := b.sent.length - place - b.capacity

/-- What a receiver at a place gets until nothing is left. -/
def drain (b : Broadcast α) (place : Nat) : List (Reception α) :=
  let n := b.lost place
  (if n = 0 then [] else [.lagged n]) ++ (b.sent.drop (place + n)).map .item

end Broadcast

end PluginRegistry.Actor
