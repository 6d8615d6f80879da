import PluginRegistry.Command.Run

/-!
# The program

Reads the files that the arguments name and the number of the process, and prints the outcome of the
run.
-/

namespace PluginRegistry.Command

/-- The number of an error; the system gives some of them with a minus sign. -/
def errorNumber (code : UInt32) : UInt32 := if code < 0x80000000 then code else 0 - code

/-- What the system reports when a file cannot be read. -/
def faultOfSystem : IO.Error → FileFault
  | .inappropriateType _ code _ => if errorNumber code = 20 then .notDirectory else .isDirectory
  | .invalidArgument _ code _ => if errorNumber code = 36 then .nameTooLong else .badName
  | _ => .missing

def readSystemFile (path : String) : IO (Except FileFault String) := do
  match ← (IO.FS.readBinFile path).toBaseIO with
  | .error e => return .error (faultOfSystem e)
  | .ok content =>
    match String.fromUTF8? content with
    | some text => return .ok text
    | none => return .error .notText

def systemProcess : IO String := do
  let stat ← IO.FS.readFile "/proc/self/stat"
  return String.ofList (stat.toList.takeWhile Char.isDigit)

end PluginRegistry.Command

def main (args : List String) : IO UInt32 := do
  let paths := match PluginRegistry.Command.Invocation.read args with
    | .ok i => i.paths
    | .error _ => []
  let texts ← paths.mapM fun path => return (path, ← PluginRegistry.Command.readSystemFile path)
  let files : PluginRegistry.Files := fun path =>
    match texts.find? fun e => e.1 = path with
    | some (_, text) => text
    | none => .error .missing
  let outcome := PluginRegistry.Command.run ⟨files, ← PluginRegistry.Command.systemProcess⟩ args
  IO.print outcome.out
  IO.eprint outcome.err
  return UInt32.ofNat outcome.code
