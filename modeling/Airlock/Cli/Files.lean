import Airlock.Text.Utf8

/-!
# Files that a command reads

A path is followed part by part, from the root when it starts with a slash and from the working
directory otherwise. Empty parts and single dots stay in place, two dots go up. The first part that
cannot be followed decides the fault; the length of the whole path is judged before any part. A file
that is read as text has to be UTF-8.
-/

set_option autoImplicit false

namespace Airlock.Cli

inductive FileFault where
  | missing
  | notDirectory
  | isDirectory
  | nameTooLong
  | notText
  | other (reason : String)
  deriving DecidableEq, Repr

def FileFault.message : FileFault → String
  | .missing => "No such file or directory (os error 2)"
  | .notDirectory => "Not a directory (os error 20)"
  | .isDirectory => "Is a directory (os error 21)"
  | .nameTooLong => "File name too long (os error 36)"
  | .notText => "stream did not contain valid UTF-8"
  | .other reason => reason

/-- Reads the bytes of the file that a path names. -/
abbrev Files := String → Except FileFault Bytes

namespace Files

def readText (files : Files) (path : String) : Except FileFault String := do
  let bytes ← files path
  match Text.Utf8.toString? bytes with
  | some text => return text
  | none => throw .notText

/-- Files by their paths, each read already. A path that was not read is missing. -/
def ofRead (read : List (String × Except FileFault Bytes)) : Files := fun path =>
  (read.lookup path).getD (.error .missing)

end Files

/-! ## Following a path -/

/-- The longest name of a file or directory, in bytes. -/
def maxNameLength : Nat := 255

/-- A path has to be shorter than this many bytes. -/
def pathLengthLimit : Nat := 4096

/-- The files of a system, each by the names that lead to it from the root, and the directory in
which paths without a leading slash start. -/
structure FileTree where
  files : List (List (List Char) × Bytes)
  working : List (List Char)

inductive Place where
  | file (bytes : Bytes)
  /-- a directory, by the names that lead to it from the root -/
  | directory (names : List (List Char))

namespace FileTree

/-- Whether the names lead to a directory: to the working one, or above it or some file. -/
def hasDirectory (tree : FileTree) (names : List (List Char)) : Bool :=
  names.isPrefixOf tree.working || tree.files.any fun (name, _) => names.isPrefixOf name

/-- The place that one part of a path leads to. -/
def enter (tree : FileTree) (place : Place) (part : List Char) : Except FileFault Place :=
  match place with
  | .file _ => .error .notDirectory
  | .directory names =>
    if part = [] ∨ part = ['.'] then .ok place
    else if part = ['.', '.'] then .ok (.directory names.dropLast)
    else if maxNameLength < (Text.Utf8.encode part).length then .error .nameTooLong
    else
      let names := names ++ [part]
      match tree.files.lookup names with
      | some bytes => .ok (.file bytes)
      | none => if tree.hasDirectory names then .ok (.directory names) else .error .missing

def follow (tree : FileTree) (path : List Char) : Except FileFault Place :=
  if path = [] then .error .missing
  else if pathLengthLimit ≤ (Text.Utf8.encode path).length then .error .nameTooLong
  else
    let start := if path.head? = some '/' then [] else tree.working
    (path.splitOn '/').foldlM tree.enter (.directory start)

end FileTree

namespace Files

/-- The files of a tree, each by every path that leads to it. -/
def ofTree (tree : FileTree) : Files := fun path =>
  match tree.follow path.toList with
  | .ok (.file bytes) => .ok bytes
  | .ok (.directory _) => .error .isDirectory
  | .error fault => .error fault

/-- The files of a working directory by their names. It lies in the directory for temporary files of
a system that holds nothing else but the null device, which reads as an empty file. -/
def ofDirectory (entries : List (String × Bytes)) : Files :=
  let working := ["tmp".toList, "work".toList]
  let held := entries.map fun (name, bytes) =>
    (working ++ (name.toList.splitOn '/').filter (· ≠ []), bytes)
  ofTree ⟨(["dev".toList, "null".toList], []) :: held, working⟩

end Files

end Airlock.Cli
