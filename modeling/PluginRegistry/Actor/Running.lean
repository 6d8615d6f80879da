import PluginRegistry.Actor.Script

/-!
# Running actors

An actor starts, handles messages in the order of its mailbox, and stops: because a handler said so,
because its mailbox is closed and empty, or because a handler panicked. A panic drops the waiting
messages before the actor stops; otherwise they are dropped afterwards. An actor that panics while it
starts or stops is gone at once, and its waiting messages with it.
-/

namespace PluginRegistry.Actor

/-- How the handling of a message ends. A panic may carry a text. -/
inductive Flow | proceed | stop | panic (text : Option String) deriving DecidableEq, Repr

/-- How starting or stopping ends. A panic may carry a text. -/
inductive Ending | returns | panics (text : Option String) deriving DecidableEq, Repr

/-- How an actor ended. -/
inductive Exit | stopped | mailboxClosed | panicked (text : Option String)
  deriving DecidableEq, Repr

namespace Exit

def name : Exit → String
  | stopped => "stopped"
  | mailboxClosed => "mailbox_closed"
  | panicked _ => "panicked"

def isFailure : Exit → Bool
  | panicked _ => true
  | _ => false

def text? : Exit → Option String
  | panicked t => t
  | _ => none

end Exit

/-- How an actor ended that was stopping because of the given exit. -/
def Ending.exit (exit : Exit) : Ending → Exit
  | returns => exit
  | panics t => .panicked t

/-- What an actor with state `σ`, messages `μ` and events `ε` does. -/
structure Behaviour (σ μ ε : Type) where
  onStart : σ → Script μ ε (σ × Ending)
  handle : σ → μ → Script μ ε (σ × Flow)
  onStop : σ → Script μ ε (σ × Ending)

/-- Where an actor is in its life. -/
inductive Phase (σ μ ε : Type)
  | starting (rest : Script μ ε (σ × Ending))
  | waiting (s : σ)
  | handling (rest : Script μ ε (σ × Flow))
  | stopping (rest : Script μ ε (σ × Ending)) (exit : Exit)
  | exited (s : σ) (exit : Exit)

structure Running (σ μ ε : Type) where
  context : Script.Context μ ε
  phase : Phase σ μ ε

/-- How many events a slow subscriber may lag behind. -/
def eventCapacity : Nat := 64

namespace Running

variable {σ μ ε : Type}

def spawn (b : Behaviour σ μ ε) (s : σ) : Running σ μ ε :=
  ⟨⟨.empty, .ofCapacity eventCapacity⟩, .starting (b.onStart s)⟩

def mailbox (r : Running σ μ ε) : Mailbox μ := r.context.mailbox

def withMailbox (r : Running σ μ ε) (m : Mailbox μ) : Running σ μ ε :=
  { r with context := { r.context with mailbox := m } }

def send (r : Running σ μ ε) (m : μ) : Running σ μ ε × Sent μ :=
  let (box, s) := r.mailbox.send m
  (r.withMailbox box, s)

def close (r : Running σ μ ε) : Running σ μ ε := r.withMailbox r.mailbox.close

/-- What follows the handling of a message. -/
def conclude (b : Behaviour σ μ ε) (r : Running σ μ ε) (s : σ) : Flow → Running σ μ ε
  | .proceed => { r with phase := .waiting s }
  | .stop => { r with phase := .stopping (b.onStop s) .stopped }
  | .panic t =>
    { r.withMailbox r.mailbox.discard.1 with phase := .stopping (b.onStop s) (.panicked t) }

/-- The end of the thread, with which the mailbox is closed and what it holds is dropped. -/
def leave (r : Running σ μ ε) (s : σ) (exit : Exit) : Running σ μ ε :=
  { r.withMailbox r.mailbox.discard.1 with phase := .exited s exit }

/-- The next step of the actor's thread, unless it waits or has exited. -/
def step (b : Behaviour σ μ ε) (r : Running σ μ ε) : Option (Running σ μ ε) :=
  match r.phase with
  | .starting (.done (s, .returns)) => some { r with phase := .waiting s }
  | .starting (.done (s, .panics t)) => some (r.leave s (.panicked t))
  | .starting rest => (rest.step r.context).map fun (c, rest) => ⟨c, .starting rest⟩
  | .waiting s =>
    match r.mailbox.receive with
    | (box, .message m) => some { r.withMailbox box with phase := .handling (b.handle s m) }
    | (_, .finished) => some { r with phase := .stopping (b.onStop s) .mailboxClosed }
    | (_, .waits) => none
  | .handling (.done (s, flow)) => some (conclude b r s flow)
  | .handling rest => (rest.step r.context).map fun (c, rest) => ⟨c, .handling rest⟩
  | .stopping (.done (s, ending)) exit => some (r.leave s (ending.exit exit))
  | .stopping rest exit => (rest.step r.context).map fun (c, rest) => ⟨c, .stopping rest exit⟩
  | .exited _ _ => none

/-- Lets the actor run until it waits or has exited, for at most so many steps. -/
def run (b : Behaviour σ μ ε) : Nat → Running σ μ ε → Running σ μ ε
  | 0, r => r
  | n + 1, r =>
    match r.step b with
    | some r => run b n r
    | none => r

def exit? (r : Running σ μ ε) : Option Exit :=
  match r.phase with
  | .exited _ e => some e
  | _ => none

def final? (r : Running σ μ ε) : Option σ :=
  match r.phase with
  | .exited s _ => some s
  | _ => none

end Running

end PluginRegistry.Actor
