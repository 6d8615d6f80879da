import PluginRegistry.Command.Arguments
import PluginRegistry.Command.Render
import PluginRegistry.Launch
import PluginRegistry.Live.World

/-!
# Running the program

One run of the program as a function of its arguments, of the files it may read and of the number of
its process: an exit code and two texts.
-/

namespace PluginRegistry.Command

structure Outcome where
  code : Nat
  out : String
  err : String
  deriving DecidableEq, Repr

/-- What a run depends on besides its arguments. -/
structure Host where
  files : Files
  process : String

/-- A failure in words, with its causes from the outermost to the innermost. -/
structure Complaint where
  context : String
  causes : List String

/-- A text whose lines after the first one are moved in. -/
def hang (margin : Nat) (s : String) : String :=
  ("\n" ++ "".pushn ' ' margin).intercalate (s.splitOn "\n")

namespace Complaint

/-- The causes below each other, numbered when there is more than one. -/
def causesText (c : Complaint) : String :=
  match c.causes with
  | [] => ""
  | [s] => "\n\nCaused by:\n    " ++ hang 4 s
  | ss => "\n\nCaused by:" ++
    String.join (ss.zipIdx.map fun (s, n) => "\n    " ++ toString n ++ ": " ++ hang 7 s)

def text (c : Complaint) : String := "Error: " ++ c.context ++ c.causesText ++ "\n"

def outcome (c : Complaint) : Outcome := ⟨1, "", c.text⟩

end Complaint

/-- Why a run ends without an answer: a failure that it reports, or a crash. -/
inductive Ending
  | failure (c : Complaint)
  | crash (message : String)

def Ending.outcome : Ending → Outcome
  | failure c => c.outcome
  | crash message => ⟨101, "", message ++ "\n"⟩

def version : String := "plugreg 0.3.0\n"

def usage : String :=
  "plugreg [-v] scan --inventory FILE [--category CATEGORY] [--package NAME] [--json]\n" ++
  "plugreg [-v] registry --inventory FILE [--config FILE] [--json]\n"

def printed (s : String) : Outcome := ⟨0, if s.endsWith "\n" then s else s ++ "\n", ""⟩

/-- The plugins that a live registry over a site shows once it is loaded. -/
def rosters (site : Site) (channel : Channel) : List Roster :=
  let w := ((Live.World.ofSite site).start channel).settle .none
  Category.all.map fun c => .ofMap c (((w.registry? 0).bind fun r => r.get? c).getD ∅)

/-- What scans of some categories find at a site. -/
def findingsAt (site : Site) (categories : List Category) (package : Option String) :
    List Findings :=
  categories.map fun c =>
    .ofReport c (scan site.installation.directory site.characteristics c package)

def runScan (h : Host) (inventory : String) (category : Option Category) (package : Option String)
    (json : Bool) : Except Ending String := do
  let site ← (Launch.readInventory h.files inventory).mapError fun e =>
    .failure ⟨"loading inventory " ++ inventory, Launch.inventoryCauses e⟩
  return renderScan json (findingsAt site (category.elim Category.all ([·])) package)

/-- What becomes of a run whose registry cannot be launched. -/
def endingOf : Launch.Failure → Ending
  | .worker e => .crash e.message
  | e => .failure ⟨"starting registry", e.causes⟩

def runRegistry (h : Host) (inventory : String) (config : Option String) (json : Bool) :
    Except Ending String := do
  let (settings, site) ← (Launch.prepare h.files inventory config).mapError endingOf
  let channel := settings.channel h.process
  return renderRegistry json channel (rosters site channel)

def Invocation.run (h : Host) : Invocation → Except Ending String
  | scan inventory category package json => runScan h inventory category package json
  | registry inventory config json => runRegistry h inventory config json

def run (h : Host) (args : List String) : Outcome :=
  match Invocation.read args with
  | .error .help => ⟨0, usage, ""⟩
  | .error .version => ⟨0, version, ""⟩
  | .error .misuse => ⟨2, "", usage⟩
  | .ok i =>
    match i.run h with
    | .ok s => printed s
    | .error e => e.outcome

end PluginRegistry.Command
