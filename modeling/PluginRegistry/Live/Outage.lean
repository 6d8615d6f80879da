import PluginRegistry.Scan.Report

/-!
# Outages

A directory may panic instead of answering a query. A scan makes its queries in a fixed order, and
the first panic ends it.
-/

namespace PluginRegistry.Live

/-- An action and the package that is asked about, or none for all packages. -/
abbrev Query := String × Option String

/-- A panic, which may carry a text. -/
structure Panic where
  text : Option String
  deriving DecidableEq, Repr

/-- Which queries of a scan panic, by their place in the scan. -/
abbrev Outage := Nat → Query → Option Panic

namespace Outage

def none : Outage := fun _ _ => .none

/-- The first panic among queries from a given place on. -/
def firstFrom (o : Outage) : Nat → List Query → Option Panic
  | _, [] => .none
  | n, q :: qs => (o n q).or (firstFrom o (n + 1) qs)

def first (o : Outage) (qs : List Query) : Option Panic := o.firstFrom 0 qs

end Outage

end PluginRegistry.Live
