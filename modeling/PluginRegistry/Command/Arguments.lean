import PluginRegistry.Plugin.Category

/-!
# Arguments

The two commands with their options. An option that takes a value finds it behind an equals sign or
in the next argument, which then must not look like an option. No option may be given twice, and
arguments are taken from left to right: the first fault, or the first request for help or for the
version, decides.
-/

namespace PluginRegistry.Command

inductive Invocation
  | scan (inventory : String) (category : Option Category) (package : Option String) (json : Bool)
  | registry (inventory : String) (config : Option String) (json : Bool)
  deriving DecidableEq, Repr

inductive Stop | help | version | misuse deriving DecidableEq, Repr

inductive Verb | scan | registry deriving DecidableEq, Repr

def Verb.all : List Verb := [scan, registry]

def Verb.name : Verb → String
  | scan => "scan"
  | registry => "registry"

inductive Valued | inventory | category | package | config deriving DecidableEq, Repr

def Valued.name : Valued → String
  | inventory => "inventory"
  | category => "category"
  | package => "package"
  | config => "config"

def Verb.valued : Verb → List Valued
  | scan => [.inventory, .category, .package]
  | registry => [.inventory, .config]

/-- Whether an option takes a given value. -/
def Valued.admits (o : Valued) (value : String) : Bool :=
  match o with
  | inventory => value ≠ ""
  | config => value ≠ ""
  | category => Category.all.any fun c => c.name = value
  | package => true

/-- What the arguments of a command have set so far. -/
structure Draft where
  values : List (Valued × String)
  json : Bool
  verbose : Bool
  deriving DecidableEq, Repr

namespace Draft

def empty : Draft := ⟨[], false, false⟩

def value? (d : Draft) (o : Valued) : Option String := (d.values.find? fun e => e.1 = o).map (·.2)

def assign (d : Draft) (o : Valued) (value : String) : Except Stop Draft :=
  if (d.value? o).isSome || !o.admits value then .error .misuse
  else .ok { d with values := d.values ++ [(o, value)] }

def setJson (d : Draft) : Except Stop Draft :=
  if d.json then .error .misuse else .ok { d with json := true }

def setVerbose (d : Draft) : Except Stop Draft :=
  if d.verbose then .error .misuse else .ok { d with verbose := true }

end Draft

/-- Takes the letters behind a single dash. Only the program itself knows of a version. -/
def readLetters (version : Bool) (d : Draft) : List Char → Except Stop Draft
  | [] => .ok d
  | 'v' :: r => do readLetters version (← d.setVerbose) r
  | 'h' :: _ => .error .help
  | 'V' :: _ => .error (if version then .version else .misuse)
  | _ :: _ => .error .misuse

/-- The name of a long option and the value behind its equals sign. -/
def splitOption (cs : List Char) : String × Option String :=
  match cs.dropWhile (· ≠ '=') with
  | [] => (String.ofList cs, none)
  | _ :: r => (String.ofList (cs.takeWhile (· ≠ '=')), some (String.ofList r))

/-- Whether an argument can stand for the value of the option before it. -/
def isValue (arg : String) : Bool :=
  match arg.toList with
  | ['-'] => true
  | '-' :: _ => false
  | _ => true

def readOptions (verb : Verb) (d : Draft) : List String → Except Stop Draft
  | [] => .ok d
  | arg :: rest =>
    match arg.toList with
    -- nothing may follow a double dash of its own, because there are no further arguments
    | ['-', '-'] => if rest.isEmpty then .ok d else .error .misuse
    | '-' :: '-' :: cs =>
      let (name, attached) := splitOption cs
      match verb.valued.find? (fun o => o.name = name), attached with
      | some o, some value => do readOptions verb (← d.assign o value) rest
      | some o, none =>
        match rest with
        | value :: rest =>
          if isValue value then do readOptions verb (← d.assign o value) rest else .error .misuse
        | [] => .error .misuse
      | none, some _ => .error .misuse
      | none, none =>
        if name = "json" then do readOptions verb (← d.setJson) rest
        else if name = "verbose" then do readOptions verb (← d.setVerbose) rest
        else if name = "help" then .error .help
        else .error .misuse
    | '-' :: c :: cs => do readOptions verb (← readLetters false d (c :: cs)) rest
    | _ => .error .misuse

/-- Makes an invocation of what was set. -/
def Verb.finish (verb : Verb) (d : Draft) : Except Stop Invocation :=
  match d.value? .inventory with
  | none => .error .misuse
  | some inventory =>
    match verb with
    | scan =>
      let category := (d.value? .category).bind fun s => Category.all.find? fun c => c.name = s
      .ok (.scan inventory category (d.value? .package) d.json)
    | registry => .ok (.registry inventory (d.value? .config) d.json)

/-- What to say to somebody who asks for help about something. -/
def readHelp : List String → Stop
  | [] => .help
  | [name] => if name = "help" ∨ (Verb.all.any fun v => v.name = name) then .help else .misuse
  | _ => .misuse

/-- Takes the arguments in front of the command, and the command with what follows it. -/
def readFrom (d : Draft) : List String → Except Stop Invocation
  | [] => .error .misuse
  | arg :: rest =>
    match Verb.all.find? fun v => v.name = arg with
    | some verb => do verb.finish (← readOptions verb .empty rest)
    | none =>
      if arg = "--verbose" then do readFrom (← d.setVerbose) rest
      else if arg = "--version" then .error .version
      else if arg = "--help" then .error .help
      else if arg = "help" then .error (readHelp rest)
      else match arg.toList with
        | '-' :: '-' :: _ => .error .misuse
        | '-' :: c :: cs => do readFrom (← readLetters true d (c :: cs)) rest
        | _ => .error .misuse

def Invocation.read (args : List String) : Except Stop Invocation := readFrom .empty args

def Invocation.paths : Invocation → List String
  | scan inventory _ _ _ => [inventory]
  | registry inventory config _ => config.toList ++ [inventory]

end PluginRegistry.Command
