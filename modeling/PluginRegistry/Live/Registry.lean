import PluginRegistry.Actor.Broadcast
import PluginRegistry.Actor.Gate
import PluginRegistry.Actor.Running
import PluginRegistry.Catalogue.Basic
import PluginRegistry.Directory.Inventory
import PluginRegistry.Live.Outage
import PluginRegistry.Live.Stream
import PluginRegistry.Settings
import PluginRegistry.Text.Quoted

/-!
# Live registries

A live registry keeps a catalogue in line with its surroundings. Its worker takes one message at a
time from a mailbox and carries it out as a list of tasks, between any two of which others may act.
Readers see only what is published, and nothing before the gate is open.

The initial load is all or nothing: a panic in one of its scans leaves an empty registry. A panic
while a package change is followed ends the worker and leaves the snapshots as they are.
-/

namespace PluginRegistry.Live

open Actor

inductive Lifecycle | unstarted | initializing | ready | destroyed deriving DecidableEq, Repr

/-- One step in carrying out a message. -/
inductive Task
  /-- Replaces a working map by a full scan. -/
  | load (c : Category)
  /-- Empties both working maps. -/
  | clear
  | publish (c : Category)
  | subscribe
  | becomeReady
  /-- Broadcasts the signal of the registry. -/
  | signal
  /-- Tells subscribers which maps were replaced. -/
  | report (x : Changes)
  | openGate
  /-- Brings a working map in line with a changed package. -/
  | follow (c : Category) (x : PackageChange)
  /-- Publishes and reports what changed. -/
  | conclude
  deriving DecidableEq, Repr

namespace Task

def afterLoad : List Task := [subscribe, becomeReady, signal, report .all, openGate]

def publishAll : List Task := Category.all.map publish

def initial : List Task := Category.all.map load ++ publishAll ++ afterLoad

/-- What is done instead when the initial load fails. -/
def recovery : List Task := clear :: publishAll ++ afterLoad

def following (x : PackageChange) : List Task := Category.all.map (follow · x) ++ [conclude]

def announce (marks : Changes) : List Task :=
  if marks.any then (Category.all.filter marks.get).map publish ++ [signal, report marks] else []

end Task

/-- What the worker of a registry is about. While it is busy it marks the categories that
changed. -/
inductive Worker
  | idle
  | busy (todo : List Task) (marks : Changes)
  | stopping (exit : Exit)
  | leaving (exit : Exit)
  | exited (exit : Exit)
  deriving DecidableEq, Repr

/-- A message that came at the wrong time. -/
inductive Breach | initializedTwice | early (x : PackageChange) | destroyedTwice
  deriving DecidableEq, Repr

def Breach.text : Breach → String
  | initializedTwice => "plugin registry initialized twice"
  | early x => "package change " ++ x.kind.name ++ " delivered before the initial load"
  | destroyedTwice => "plugin registry destroyed twice"

structure Registry where
  channel : Channel
  worker : Worker
  mailbox : Mailbox Message
  lifecycle : Lifecycle
  subscription : Option Nat
  /-- The number under which the registry ever subscribed. -/
  sink : Option Nat
  catalogue : Catalogue
  gate : Latch
  reloads : Broadcast Changes
  /-- Whether somebody asked for the registry to be destroyed. -/
  destroyRequested : Bool
  /-- Whether the owner let go of the registry. -/
  dropped : Bool

/-- What the registries of one host share. -/
structure Shared where
  site : Site
  /-- While it is held, the directory answers no query. -/
  held : Bool
  stream : Stream
  signals : Broadcast Channel

namespace Shared

def signalCapacity : Nat := 16

def ofSite (site : Site) : Shared := ⟨site, false, .empty, .ofCapacity signalCapacity⟩

def directory (s : Shared) : Directory := s.site.installation.directory

end Shared

namespace Registry

/-- A new registry. The initial load is its first message. -/
def start (channel : Channel) : Registry where
  channel := channel
  worker := .idle
  mailbox := (Mailbox.empty.send .init).1
  lifecycle := .unstarted
  subscription := none
  sink := none
  catalogue := .empty
  gate := .shut
  reloads := .ofCapacity eventCapacity
  destroyRequested := false
  dropped := false

def isLoaded (r : Registry) : Bool := r.gate.isOpen

/-- The latest snapshot, or an empty map if there is none. -/
def current (r : Registry) (c : Category) : PluginMap := (r.catalogue.published.plugins? c).getD ∅

/-- The latest snapshot, once the registry is loaded. -/
def peek (r : Registry) (c : Category) : Option PluginMap :=
  if r.isLoaded then some (r.current c) else none

/-- What a reader gets who waits for the registry to be loaded, unless the wait goes on. -/
def get? (r : Registry) (c : Category) : Option PluginMap :=
  if r.gate.passes then some (r.current c) else none

/-- The publication that a reader would see. -/
def seen (r : Registry) (c : Category) : Option Snapshot :=
  if r.isLoaded then r.catalogue.published.snapshot? c else none

def describe (r : Registry) : String :=
  "PluginRegistry \x7b channel: ChangeChannel \x7b action: " ++ Text.quoted r.channel.action ++
    ", permission: " ++ Text.quoted r.channel.permission ++ " \x7d, loaded: " ++
    toString r.isLoaded ++ ", snapshots: " ++ r.catalogue.published.describe ++ " \x7d"

def describeSink (r : Registry) : String :=
  "EventSink \x7b closed: " ++ toString r.mailbox.closed ++ " \x7d"

/-- Drops what is queued. An initial load opens the gate when it is dropped. -/
def discard (r : Registry) : Registry :=
  { r with
    mailbox := r.mailbox.discard.1
    gate := if .init ∈ r.mailbox.queue then r.gate.opened else r.gate }

/-- Ends the handling of a message by a panic: nothing else is handled. -/
def fail (r : Registry) (text : Option String) : Registry :=
  { r.discard with worker := .stopping (.panicked text) }

def accept (s : Shared) (r : Registry) : Message → Shared × Registry
  | .init =>
    if r.lifecycle = .unstarted then
      (s, { r with lifecycle := .initializing, worker := .busy Task.initial .none })
    else (s, { r with gate := r.gate.opened }.fail (some Breach.initializedTwice.text))
  | .package x =>
    if r.lifecycle = .ready then (s, { r with worker := .busy (Task.following x) .none })
    else (s, r.fail (some (Breach.early x).text))
  | .destroy =>
    if r.lifecycle = .destroyed then (s, r.fail (some Breach.destroyedTwice.text))
    else
      ({ s with stream := r.subscription.elim s.stream s.stream.unsubscribe },
        { r with subscription := none, lifecycle := .destroyed, worker := .stopping .stopped })

/-- Carries out a task; `todo` and `marks` are what the worker goes on with. A scan has to wait
while the directory is held. -/
def perform (o : Outage) (address : Nat) (s : Shared) (r : Registry) (todo : List Task)
    (marks : Changes) : Task → Option (Shared × Registry)
  | .load c =>
    if s.held then none
    else match o.first (Scan.queries s.directory c none) with
      | some _ => some (s, { r with worker := .busy Task.recovery marks })
      | none =>
        some (s, { r with
          catalogue := r.catalogue.load s.directory s.site.characteristics c
          worker := .busy todo marks })
  | .clear => some (s, { r with catalogue := r.catalogue.clear, worker := .busy todo marks })
  | .publish c =>
    some (s, { r with catalogue := r.catalogue.publishOne c, worker := .busy todo marks })
  | .subscribe =>
    let (stream, id) := s.stream.subscribe address
    some ({ s with stream },
      { r with subscription := some id, sink := some id, worker := .busy todo marks })
  | .becomeReady => some (s, { r with lifecycle := .ready, worker := .busy todo marks })
  | .signal =>
    some ({ s with signals := s.signals.send r.channel }, { r with worker := .busy todo marks })
  | .report x => some (s, { r with reloads := r.reloads.send x, worker := .busy todo marks })
  | .openGate => some (s, { r with gate := r.gate.opened, worker := .busy todo marks })
  | .follow c x =>
    if s.held then none
    else match o.first (Scan.queries s.directory c (some x.package)) with
      | some p => some (s, r.fail p.text)
      | none =>
        let (catalogue, changed) := r.catalogue.follow s.directory s.site.characteristics x c
        some (s, { r with catalogue, worker := .busy todo (marks.set c changed) })
  | .conclude => some (s, { r with worker := .busy (Task.announce marks ++ todo) marks })

/-- The next step of the worker, unless it waits or has exited. -/
def step (o : Outage) (address : Nat) (s : Shared) (r : Registry) : Option (Shared × Registry) :=
  match r.worker with
  | .idle =>
    match r.mailbox.receive with
    | (box, .message m) => some ({ r with mailbox := box }.accept s m)
    | (_, .finished) => some (s, { r with worker := .stopping .mailboxClosed })
    | (_, .waits) => none
  | .busy [] _ => some (s, { r with worker := .idle })
  | .busy (t :: todo) marks => r.perform o address s todo marks t
  | .stopping exit =>
    some ({ s with stream := r.subscription.elim s.stream s.stream.unsubscribe },
      { r with subscription := none, lifecycle := .destroyed, worker := .leaving exit })
  | .leaving exit => some (s, { r.discard with worker := .exited exit })
  | .exited _ => none

def exit? (r : Registry) : Option Exit :=
  match r.worker with
  | .exited e => some e
  | _ => none

/-- A number of steps after which the worker waits or has exited. -/
def budget (r : Registry) : Nat := 16 * (r.mailbox.size + 2)

end Registry

end PluginRegistry.Live
