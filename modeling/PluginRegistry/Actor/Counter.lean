import PluginRegistry.Actor.Running

/-!
# A counting actor

An actor that keeps a total, emits it after every addition and keeps a journal of what it does. Its
messages are of any type that can be read as orders.
-/

namespace PluginRegistry.Actor.Counter

inductive Order (μ : Type)
  | add (n : Int)
  | burst (times : Nat)
  | post (m : μ)
  | close
  | stop
  | crash (text : Option String)

/-- An entry of the journal. The queue is measured when the entry is made. -/
inductive Entry (μ : Type)
  | started (queued : Nat)
  | took (m : μ) (queued : Nat)
  | posted (s : Sent μ)
  | stopped (total : Int) (queued : Nat) (closed : Bool)

structure State (μ : Type) where
  total : Int
  journal : List (Entry μ)

variable {μ : Type}

def State.initial : State μ := ⟨0, []⟩

def State.note (s : State μ) (e : Entry μ) : State μ := { s with journal := s.journal ++ [e] }

def obey (s : State μ) : Order μ → Script μ Int (State μ × Flow)
  | .add n =>
    let s := { s with total := s.total + n }
    .emit s.total (.done (s, .proceed))
  | .burst times =>
    .emitAll ((List.range times).map fun i => s.total + (i + 1 : Nat))
      (.done ({ s with total := s.total + times }, .proceed))
  | .post m => .post m fun x => .done (s.note (.posted x), .proceed)
  | .close => .close (.done (s, .proceed))
  | .stop => .done (s, .stop)
  | .crash text => .done (s, .panic text)

/-- The counting actor whose messages are read as orders by the given function. -/
def behaviour (read : μ → Order μ) : Behaviour (State μ) μ Int where
  onStart s := .measure fun n _ => .done (s.note (.started n), .returns)
  handle s m := .measure fun n _ => obey (s.note (.took m n)) (read m)
  onStop s := .measure fun n closed => .done (s.note (.stopped s.total n closed), .returns)

end PluginRegistry.Actor.Counter
