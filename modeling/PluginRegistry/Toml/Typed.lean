import PluginRegistry.Document.Reading
import PluginRegistry.Toml.Reader

/-!
# Typed TOML documents

A text fails to give a typed value when it is no document at all, or when the document has another
shape. A document of another shape counts as none when it holds a value that has no meaning. In
parts that are not read such values do no harm.
-/

namespace PluginRegistry.Toml

open Document

inductive Failure
  | malformed
  | fault (f : Fault)
  deriving DecidableEq, Repr

def Failure.detail : Failure → String
  | malformed => "not a document"
  | fault f => f.message .toml

def Failure.message (e : Failure) : String := "TOML parse error: " ++ e.detail

mutual

/-- Whether all parts of a value have a meaning. A mapping that starts with the key of a date-time
must go on with the text of one; what follows that text is not looked at. -/
def isSound : Value → Bool
  | .numeral _ => false
  | .sequence vs => itemsSound vs
  | .mapping [] => true
  | .mapping ((k, v) :: fs) =>
    if k = dateTimeKey then isDateTimeText v else isSound v && fieldsSound fs
  | _ => true

def itemsSound : List Value → Bool
  | [] => true
  | v :: vs => isSound v && itemsSound vs

def fieldsSound : List (String × Value) → Bool
  | [] => true
  | (_, v) :: fs => isSound v && fieldsSound fs

end

/-- Whether all parts of a document have a meaning. A document never stands for a date-time. -/
def isSoundDocument : Value → Bool
  | .mapping fs => fieldsSound fs
  | v => isSound v

/-- What a fault in a document amounts to. -/
def Failure.ofFault (document : Value) (f : Fault) : Failure :=
  if isSoundDocument document then .fault f else .malformed

def readAs {α : Type} (reader : Reader α) (text : String) : Except Failure α :=
  match read text with
  | none => .error .malformed
  | some v => (reader v).mapError (.ofFault v)

end PluginRegistry.Toml
