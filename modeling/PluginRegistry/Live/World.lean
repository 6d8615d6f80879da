import PluginRegistry.Live.Registry

/-!
# Worlds

Any number of registries over one site, one event stream and one place for signals, with the readers
that wait for them. A registry's address is its place in the list. What the surroundings do happens
between steps of the workers; `settle` lets all workers run until they wait.
-/

namespace PluginRegistry.Live

open Actor

/-- Somebody who waits for a registry to be loaded, and what he got. -/
structure Waiting where
  address : Nat
  category : Category
  got : Option PluginMap

structure World where
  shared : Shared
  registries : List Registry
  waiting : List Waiting

inductive Refusal | twice | processWide deriving DecidableEq, Repr

def Refusal.message : Refusal → String
  | twice => "plugin registry destroyed twice"
  | processWide => "the process-wide plugin registry cannot be destroyed"

namespace World

def ofSite (site : Site) : World := ⟨.ofSite site, [], []⟩

def registry? (w : World) (address : Nat) : Option Registry := w.registries[address]?

def modify (w : World) (address : Nat) (f : Registry → Registry) : World :=
  { w with registries := w.registries.modify address f }

def step (o : Outage) (address : Nat) (w : World) : Option World := do
  let r ← w.registry? address
  let (shared, r) ← r.step o address w.shared
  return { w with shared, registries := w.registries.set address r }

/-- Lets one worker run until it waits, for at most so many steps. -/
def runOne (o : Outage) (address : Nat) : Nat → World → World
  | 0, w => w
  | n + 1, w =>
    match w.step o address with
    | some w => runOne o address n w
    | none => w

/-- Gives their maps to those whose registry is loaded by now. -/
def wake (w : World) : World :=
  { w with
    waiting := w.waiting.map fun x =>
      { x with got := x.got.or ((w.registry? x.address).bind fun r => r.get? x.category) } }

/-- Lets all workers run until they wait. -/
def settle (o : Outage) (w : World) : World :=
  wake <| (List.range w.registries.length).foldl
    (fun w a => runOne o a ((w.registry? a).elim 0 Registry.budget) w) w

def start (w : World) (channel : Channel) : World :=
  { w with registries := w.registries ++ [.start channel] }

def withHeld (w : World) (held : Bool) : World := { w with shared := { w.shared with held } }

def withInstallation (w : World) (i : Installation) : World :=
  { w with shared := { w.shared with site := { w.shared.site with installation := i } } }

def deliverTo (e : PackageEvent) (w : World) (address : Nat) : World :=
  w.modify address fun r => { r with mailbox := deliver r.mailbox e.changes }

def emit (w : World) (e : PackageEvent) : World := w.shared.stream.addresses.foldl (deliverTo e) w

def unsubscribe (w : World) (id : Nat) : World :=
  { w with shared := { w.shared with stream := w.shared.stream.unsubscribe id } }

def addWaiting (w : World) (address : Nat) (c : Category) : World :=
  { w with waiting := w.waiting ++ [⟨address, c, none⟩] }

/-- The owner lets go of a registry: its worker finishes what is queued and exits. -/
def drop (w : World) (address : Nat) : World :=
  w.modify address fun r => { r with dropped := true, mailbox := r.mailbox.close }

/-- Asks for a registry to be destroyed. That is done once; the caller then waits for the worker. -/
def requestDestroy (w : World) (address : Nat) (r : Registry) : Except Refusal World :=
  if r.destroyRequested then .error .twice
  else .ok (w.modify address fun r =>
    { r with destroyRequested := true, mailbox := (r.mailbox.send .destroy).1 })

/-- What is left to do about a registry that was to be destroyed, once its worker has exited. -/
def finishDestroy (w : World) (address : Nat) : World :=
  w.modify address fun r => { r with gate := r.gate.opened }

def awaitExit (o : Outage) (w : World) (address : Nat) : World :=
  (settle o w).finishDestroy address

def destroy (o : Outage) (w : World) (address : Nat) (r : Registry) : Except Refusal World := do
  let w ← w.requestDestroy address r
  return w.awaitExit o address

end World

end PluginRegistry.Live
