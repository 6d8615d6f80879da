/-!
# Names of threads

An actor's thread has a name. A thread cannot be started under a name with a NUL byte in it.
-/

namespace PluginRegistry.Actor

/-- A name that no thread can have: the place of its first NUL, and its bytes. -/
structure BadThreadName where
  place : Nat
  bytes : List UInt8
  deriving DecidableEq, Repr

def BadThreadName.message (e : BadThreadName) : String :=
  "thread name may not contain interior null bytes: NulError(" ++ toString e.place ++ ", [" ++
    ", ".intercalate (e.bytes.map toString) ++ "])"

def checkThreadName (name : String) : Except BadThreadName Unit :=
  let bytes := name.toUTF8.data.toList
  match bytes.idxOf? 0 with
  | some place => .error ⟨place, bytes⟩
  | none => .ok ()

theorem checkThreadName_eq_ok_iff {name : String} :
    checkThreadName name = .ok () ↔ 0 ∉ name.toUTF8.data.toList := by
  rw [← List.idxOf?_eq_none_iff, checkThreadName]
  cases h : name.toUTF8.data.toList.idxOf? 0 <;> simp

end PluginRegistry.Actor
