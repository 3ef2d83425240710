/-
# Files by name

A word of the command line names a file by the components between its slashes, starting
from the working directory, or from the root if it starts with a slash.  Empty components
and `.` stay where they are and `..` goes up; all of them need a directory to stand in.
Of the directories above the working directory, and of the root, nothing is known but
that they are directories.
-/

import Lexis.Text

namespace Lexis

/-- What a name leads to. -/
inductive FileEntry where
  | missing
  | directory
  | file (bytes : List UInt8)
deriving DecidableEq, Repr

namespace Path

/-- The pieces of a text between slashes. -/
def pieces : Text → List Text
  | [] => [[]]
  | c :: rest =>
    if c = '/' then [] :: pieces rest
    else
      match pieces rest with
      | [] => [[c]]
      | piece :: more => (c :: piece) :: more

/-- Whether a component stays where it is. -/
def stays (component : Text) : Bool := component.isEmpty || component == ['.']

/-- The components of a name that lead somewhere. -/
def components (t : Text) : List Text := (pieces t).filter fun piece => !stays piece

/-- The slashes that a name starts with, as they are kept: two are two, any other number
is one. -/
def root (t : Text) : Text :=
  match t with
  | '/' :: '/' :: '/' :: _ => ['/']
  | '/' :: '/' :: _ => ['/', '/']
  | '/' :: _ => ['/']
  | _ => []

/-- A name without its empty components and its `.`; what leads nowhere is `.` itself. -/
def normal (t : Text) : Text :=
  match root t ++ List.intercalate ['/'] (components t) with
  | [] => ['.']
  | name => name

end Path

/-- The files below a working directory, by their components. -/
structure FileTree where
  directories : List (List Text) := []
  files : List (List Text × List UInt8) := []
deriving DecidableEq, Repr

namespace FileTree

/-- Where a walk through the tree has come to. -/
inductive Place where
  /-- Below the working directory, or there. -/
  | inside (path : List Text)
  /-- Some directory above the working directory. -/
  | above
  | nowhere
deriving DecidableEq, Repr

/-- What stands at a path below the working directory.  The directories on the way to a
directory or a file are there too. -/
def entryAt (t : FileTree) (path : List Text) : FileEntry :=
  match t.files.find? fun file => file.1 == path with
  | some file => .file file.2
  | none =>
    if path.isEmpty || t.directories.any path.isPrefixOf ||
        t.files.any fun file => path.isPrefixOf file.1 then
      .directory
    else .missing

/-- Goes one component further. -/
def step (t : FileTree) (place : Place) (component : Text) : Place :=
  match place with
  | .nowhere => .nowhere
  | .above => if Path.stays component || component == ['.', '.'] then .above else .nowhere
  | .inside path =>
    match t.entryAt path with
    | .directory =>
      if Path.stays component then .inside path
      else if component == ['.', '.'] then
        match path with
        | [] => .above
        | _ => .inside path.dropLast
      else .inside (path ++ [component])
    | _ => .nowhere

/-- What a name leads to.  The empty name leads nowhere. -/
def lookup (t : FileTree) (name : Text) : FileEntry :=
  match name with
  | [] => .missing
  | first :: _ =>
    let start : Place := if first = '/' then .above else .inside []
    match (Path.pieces name).foldl t.step start with
    | .nowhere => .missing
    | .above => .directory
    | .inside path => t.entryAt path

end FileTree
end Lexis
