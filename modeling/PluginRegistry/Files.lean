/-!
# Files

Reading a text file by its path, and why that may fail. A file tree holds files in memory; it
answers for paths from its working directory, in which nothing else exists.
-/

namespace PluginRegistry

inductive FileFault | missing | isDirectory | notDirectory | nameTooLong | badName | notText
  deriving DecidableEq, Repr

def FileFault.message : FileFault → String
  | missing => "No such file or directory (os error 2)"
  | isDirectory => "Is a directory (os error 21)"
  | notDirectory => "Not a directory (os error 20)"
  | nameTooLong => "File name too long (os error 36)"
  | badName => "file name contained an unexpected NUL byte"
  | notText => "stream did not contain valid UTF-8"

/-- The text files that can be read, by path. -/
abbrev Files := String → Except FileFault String

/-- Files in memory by the names on their paths, and the directories that exist even when empty. -/
structure FileTree where
  files : List (List String × ByteArray)
  directories : List (List String)

namespace FileTree

/-- What stands at a place of a tree. -/
inductive Node | file (content : ByteArray) | directory | nothing

def node (t : FileTree) (place : List String) : Node :=
  match t.files.find? fun e => e.1 = place with
  | some (_, content) => .file content
  | none =>
    if place.isEmpty || (t.files.map (·.1) ++ t.directories).any place.isPrefixOf then .directory
    else .nothing

def maxName : Nat := 255

def maxPath : Nat := 4095

/-- Follows the names of a path from a place. Only a directory can be passed through. -/
def follow (t : FileTree) (place : List String) : List String → Except FileFault (List String)
  | [] => .ok place
  | name :: names =>
    match t.node place with
    | .nothing => .error .missing
    | .file _ => .error .notDirectory
    | .directory =>
      if name = "" ∨ name = "." then follow t place names
      else if name = ".." then follow t place.dropLast names
      else if maxName < name.utf8ByteSize then .error .nameTooLong
      else follow t (place ++ [name]) names

def read (t : FileTree) : Files := fun path =>
  if path.contains '\x00' then .error .badName
  else if path = "" then .error .missing
  else if maxPath < path.utf8ByteSize then .error .nameTooLong
  else do
    match t.node (← t.follow [] (path.splitOn "/")) with
    | .nothing => throw .missing
    | .directory => throw .isDirectory
    | .file content =>
      match String.fromUTF8? content with
      | some text => return text
      | none => throw .notText

end FileTree

end PluginRegistry
