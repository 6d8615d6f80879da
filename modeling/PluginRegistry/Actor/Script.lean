import PluginRegistry.Actor.Broadcast
import PluginRegistry.Actor.Mailbox

/-!
# Scripts

What an actor does while it starts, handles one message or stops, as a sequence of single effects.
Other threads may act between any two of them.
-/

namespace PluginRegistry.Actor

/-- A sequence of effects on the actor's own mailbox and events that ends with a value. -/
inductive Script (μ ε α : Type)
  | done (a : α)
  | emit (e : ε) (next : Script μ ε α)
  | post (m : μ) (next : Sent μ → Script μ ε α)
  | close (next : Script μ ε α)
  | measure (next : Nat → Bool → Script μ ε α)

namespace Script

variable {μ ε α β : Type}

def andThen (f : α → Script μ ε β) : Script μ ε α → Script μ ε β
  | done a => f a
  | emit e next => emit e (next.andThen f)
  | post m next => post m fun s => (next s).andThen f
  | close next => close (next.andThen f)
  | measure next => measure fun n c => (next n c).andThen f

def emitAll (es : List ε) (s : Script μ ε α) : Script μ ε α := es.foldr emit s

structure Context (μ ε : Type) where
  mailbox : Mailbox μ
  events : Broadcast ε

/-- The first effect of a script, unless it is done. -/
def step (c : Context μ ε) : Script μ ε α → Option (Context μ ε × Script μ ε α)
  | done _ => none
  | emit e next => some ({ c with events := c.events.send e }, next)
  | post m next =>
    let (box, s) := c.mailbox.send m
    some ({ c with mailbox := box }, next s)
  | close next => some ({ c with mailbox := c.mailbox.close }, next)
  | measure next => some (c, next c.mailbox.size c.mailbox.closed)

end Script

end PluginRegistry.Actor
