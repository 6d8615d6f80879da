import PluginRegistry.Actor.Running

/-!
# Handles

The control handle of a running actor. Whoever joins first takes the thread out of the handle and
waits for it; the handle has nothing to give to later joins.
-/

namespace PluginRegistry.Actor

/-- An actor with its handle, from which the thread may have been taken. -/
structure Handle (σ μ ε : Type) where
  actor : Running σ μ ε
  taken : Bool

namespace Handle

variable {σ μ ε : Type}

def ofActor (r : Running σ μ ε) : Handle σ μ ε := ⟨r, false⟩

def isFinished (h : Handle σ μ ε) : Bool := h.taken || h.actor.exit?.isSome

def send (h : Handle σ μ ε) (m : μ) : Handle σ μ ε × Sent μ :=
  let (r, s) := h.actor.send m
  ({ h with actor := r }, s)

def close (h : Handle σ μ ε) : Handle σ μ ε := { h with actor := h.actor.close }

/-- The first half of joining: takes the thread and tells whether it was still there. -/
def take (h : Handle σ μ ε) : Handle σ μ ε × Bool := ({ h with taken := true }, !h.taken)

/-- What the first half of a join and the end of the thread amount to. -/
def joined (h : Handle σ μ ε) (took : Bool) : Option Exit := if took then h.actor.exit? else none

/-- Joins an actor whose thread runs to its end. -/
def join (h : Handle σ μ ε) : Handle σ μ ε × Option Exit :=
  let (h, took) := h.take
  (h, h.joined took)

def step (b : Behaviour σ μ ε) (h : Handle σ μ ε) : Option (Handle σ μ ε) :=
  (h.actor.step b).map fun r => { h with actor := r }

end Handle

end PluginRegistry.Actor
