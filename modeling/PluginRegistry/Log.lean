/-!
# Log records

A record has a level, a message and named fields. Logging is kept apart from the results it reports
on: a function that logs has a companion that lists its records.
-/

namespace PluginRegistry.Log

inductive Level | trace | debug | info | warn deriving DecidableEq, Repr

def Level.name : Level → String
  | trace => "trace"
  | debug => "debug"
  | info => "info"
  | warn => "warn"

inductive Field | text (s : String) | number (n : Int) | flag (b : Bool) deriving DecidableEq, Repr

structure Record where
  level : Level
  message : String
  fields : List (String × Field)
  deriving DecidableEq, Repr

end PluginRegistry.Log
