import PluginRegistry.Live.World

/-!
# The process-wide registry

A process may have one registry for everybody. It is made by the first successful initializer and is
never destroyed; all other registries may be destroyed once.
-/

namespace PluginRegistry.Live

/-- What is to make the process-wide registry, if it is still missing. -/
inductive Initializer
  | start (site : Site) (channel : Channel)
  | failing
  | panicking

/-- The registries of a process, each in a world of its own, and which of them is the process-wide
one. -/
structure Instances where
  worlds : List World
  shared? : Option Nat

namespace Instances

def empty : Instances := ⟨[], none⟩

def initializerFailure : String := "failed to start the process-wide plugin registry"

def registryOf (p : Instances) (i : Nat) : Option Registry :=
  (p.worlds[i]?).bind fun w => w.registry? 0

def instance? (p : Instances) : Option Registry := p.shared?.bind p.registryOf

def create (p : Instances) (site : Site) (channel : Channel) : Instances × Nat :=
  ({ p with worlds := p.worlds ++ [(World.ofSite site).start channel] }, p.worlds.length)

/-- Gives the place of the process-wide registry, which is started when it is missing, and tells
whether it was started now. Nothing comes of an initializer that fails or panics. -/
def getOrCreate (p : Instances) (init : Initializer) : Option (Instances × Nat × Bool) :=
  match p.shared?, init with
  | some i, _ => some (p, i, false)
  | none, .start site channel =>
    let (p, i) := p.create site channel
    some ({ p with shared? := some i }, i, true)
  | none, .failing => none
  | none, .panicking => none

def requestDestroy (p : Instances) (i : Nat) : Except Refusal Instances :=
  if p.shared? = some i then .error .processWide
  else
    match p.worlds[i]? with
    | none => .ok p
    | some w =>
      match w.registry? 0 with
      | none => .ok p
      | some r => do
        let w ← w.requestDestroy 0 r
        return { p with worlds := p.worlds.set i w }

def settle (p : Instances) (i : Nat) : Instances :=
  { p with worlds := p.worlds.modify i (World.settle .none) }

def add (p : Instances) (site : Site) (channel : Channel) : Instances × Nat :=
  let (p, i) := p.create site channel
  (p.settle i, i)

/-- Gives the place of the process-wide registry and lets it load if it was started now. -/
def obtain (p : Instances) (init : Initializer) : Option (Instances × Nat × Bool) := do
  let (p, i, started) ← p.getOrCreate init
  return (if started then p.settle i else p, i, started)

def destroy (p : Instances) (i : Nat) : Except Refusal Instances := do
  let p ← p.requestDestroy i
  return { p with worlds := p.worlds.modify i fun w => w.awaitExit .none 0 }

end Instances

end PluginRegistry.Live
