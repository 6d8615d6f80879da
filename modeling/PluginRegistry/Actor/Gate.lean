/-!
# Gates

A gate is a latch that starts closed and opens once. Its state is kept twice, under a lock for those
who wait and outside of it for quick looks. Any number of handles, among them guards, may share one
gate; a guard opens its gate when it ends, however it ends.
-/

namespace PluginRegistry.Actor

/-- The state of a gate: the locked flag and the one that is read without the lock. -/
structure Latch where
  locked : Bool
  released : Bool
  deriving DecidableEq, Repr

namespace Latch

def shut : Latch := ⟨false, false⟩

instance : Inhabited Latch := ⟨shut⟩

def opened (l : Latch) : Latch := if l.locked then l else ⟨true, true⟩

def isOpen (l : Latch) : Bool := l.released

/-- Whether waiting at the gate ends: at once, or under the lock. -/
def passes (l : Latch) : Bool := l.released || l.locked

theorem opened_eq {l : Latch} (h : l.locked = l.released) : l.opened = ⟨true, true⟩ := by
  cases l with
  | mk locked released => cases locked <;> simp_all [opened]

theorem passes_eq_isOpen {l : Latch} (h : l.locked = l.released) : l.passes = l.isOpen := by
  simp [passes, isOpen, h]

def describe (l : Latch) : String := "Gate \x7b open: " ++ toString l.isOpen ++ " \x7d"

end Latch

/-- Gates with the handles, guards and waiting threads that refer to them. A guard that has ended
refers to none. -/
structure Gates where
  latches : List Latch
  handles : List Nat
  guards : List (Option Nat)
  waiting : List Nat

namespace Gates

def one : Gates := ⟨[.shut], [0], [], []⟩

def latchOf (g : Gates) (handle : Nat) : Nat := g.handles.getD handle 0

def latch (g : Gates) (i : Nat) : Latch := g.latches.getD i .shut

def openLatch (g : Gates) (i : Nat) : Gates :=
  { g with latches := g.latches.modify i Latch.opened }

def new (g : Gates) : Gates :=
  { g with latches := g.latches ++ [.shut], handles := g.handles ++ [g.latches.length] }

def clone (g : Gates) (handle : Nat) : Gates :=
  { g with handles := g.handles ++ [g.latchOf handle] }

def openAt (g : Gates) (handle : Nat) : Gates := g.openLatch (g.latchOf handle)

def guard (g : Gates) (handle : Nat) : Gates :=
  { g with guards := g.guards ++ [some (g.latchOf handle)] }

/-- Ends a guard by release, by drop or by unwinding, and tells whether it was still held. -/
def endGuard (g : Gates) (guard : Nat) : Gates × Bool :=
  match g.guards[guard]? with
  | some (some i) => ({ g.openLatch i with guards := g.guards.set guard none }, true)
  | _ => (g, false)

def isOpen (g : Gates) (handle : Nat) : Bool := (g.latch (g.latchOf handle)).isOpen

def passes (g : Gates) (handle : Nat) : Bool := (g.latch (g.latchOf handle)).passes

def addWaiting (g : Gates) (handle : Nat) : Gates :=
  { g with waiting := g.waiting ++ [g.latchOf handle] }

/-- Takes the waiting threads and tells of each whether it gets through. -/
def joinWaiting (g : Gates) : Gates × List Bool :=
  ({ g with waiting := [] }, g.waiting.map fun i => (g.latch i).passes)

end Gates

end PluginRegistry.Actor
