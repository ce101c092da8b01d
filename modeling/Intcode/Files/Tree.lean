import Intcode.Files.Path
import Intcode.Text.Quoted

/-!
# File trees

A tree of directories and files, with a working directory. A path is followed name by name, each
looked up in the directory reached so far; what stands in the way is reported with the path as it
is written.

## Main definitions

* `Files.Tree` — the directories and files
* `Files.Error` — why a file operation fails
* `Tree.locate` — the place that a path leads to
* `Tree.read` — the content of a file
* `Tree.makeDirectories` — makes a directory and those above it
* `Tree.openAppend`, `Tree.append` — writing at the end of a file
-/

namespace Intcode.Files

/-- What a path leads to. -/
inductive Entry where
  | file (content : ByteArray)
  | directory

/-- Directories and files by the names that lead to them from the root, and the working
directory. The root itself is always there. -/
structure Tree where
  entries : List (List String × Entry)
  working : List String

/-- What stands in the way of a file operation. -/
inductive Obstacle where
  | noSuchFile
  | exists
  | notDirectory
  | isDirectory
  | nameTooLong
  deriving DecidableEq, Repr

/-- The number of an obstacle. -/
def Obstacle.number : Obstacle → Nat
  | noSuchFile => 2
  | .exists => 17
  | notDirectory => 20
  | isDirectory => 21
  | nameTooLong => 36

/-- The wording of an obstacle. -/
def Obstacle.text : Obstacle → String
  | noSuchFile => "No such file or directory"
  | .exists => "File exists"
  | notDirectory => "Not a directory"
  | isDirectory => "Is a directory"
  | nameTooLong => "File name too long"

/-- Why a file operation fails. -/
inductive Error where
  /-- Something stands in the way on a path. -/
  | blocked (obstacle : Obstacle) (path : String)
  /-- A path holds a null character. -/
  | nullCharacter
  deriving DecidableEq, Repr

/-- The wording of an error. -/
def Error.message : Error → String
  | blocked obstacle path =>
    "[Errno " ++ Nat.repr obstacle.number ++ "] " ++ obstacle.text ++ ": " ++ Text.quote path
  | nullCharacter => "embedded null byte"

/-- Where a path leads: to something that is there, or to a free place in a directory. -/
inductive Spot where
  | taken (place : List String) (entry : Entry)
  | free (place : List String)

/-- The most bytes of a name. -/
def nameLimit : Nat := 255

/-- The bytes that a whole path must stay below. -/
def pathLimit : Nat := 4096

namespace Tree

/-- A tree with nothing but an empty working directory. -/
def empty (working : List String) : Tree :=
  let above := (List.range working.length).map fun n => working.take (n + 1)
  { entries := above.map (·, .directory), working }

/-- What is at a place. -/
def find? (t : Tree) (place : List String) : Option Entry :=
  if place.isEmpty then some .directory
  else (t.entries.find? fun item => item.1 = place).map (·.2)

/-- Puts something at a place. -/
def put (t : Tree) (place : List String) (entry : Entry) : Tree :=
  { t with entries := (place, entry) :: t.entries.filter fun item => item.1 ≠ place }

/-- Follows names from a directory on. -/
def locateFrom (t : Tree) : List String → List String → Except Obstacle Spot
  | here, [] => .ok (.taken here .directory)
  | here, ".." :: names => t.locateFrom here.dropLast names
  | here, name :: names =>
    let place := here ++ [name]
    if nameLimit < name.utf8ByteSize then .error .nameTooLong
    else
      match t.find? place with
      | some .directory => t.locateFrom place names
      | some (.file content) =>
        if names.isEmpty then .ok (.taken place (.file content)) else .error .notDirectory
      | none => if names.isEmpty then .ok (.free place) else .error .noSuchFile

/-- The place that a path leads to. -/
def locate (t : Tree) (p : Path) : Except Error Spot :=
  let start := if p.anchor = .relative then t.working else []
  if p.text.toList.contains (Char.ofNat 0) then .error .nullCharacter
  else if pathLimit ≤ p.text.utf8ByteSize then .error (.blocked .nameTooLong p.text)
  else (t.locateFrom start p.names).mapError (.blocked · p.text)

/-- The path from the root to where a path leads. -/
def absolute (t : Tree) (p : Path) : Path :=
  p.absolute t.working

/-- The content of the file at a path. -/
def read (t : Tree) (p : Path) : Except Error ByteArray := do
  match ← t.locate p with
  | .taken _ (.file content) => return content
  | .taken _ .directory => .error (.blocked .isDirectory p.text)
  | .free _ => .error (.blocked .noSuchFile p.text)

/-- Whether a path leads to a directory. -/
def isDirectory (t : Tree) (p : Path) : Bool :=
  match t.locate p with
  | .ok (.taken _ .directory) => true
  | _ => false

/-- Makes a directory in one that is there. -/
def makeDirectory (t : Tree) (p : Path) : Except Error Tree := do
  match ← t.locate p with
  | .free place => return t.put place .directory
  | .taken .. => .error (.blocked .exists p.text)

/-- The tree with a directory made, or as it was, with the error, if there is one in the way that
is no directory itself. -/
def keepDirectory (t : Tree) (p : Path) : Tree × Option Error :=
  match t.makeDirectory p with
  | .ok t => (t, none)
  | .error e => (t, if t.isDirectory p then none else some e)

/-- Makes the directory with the given names, the last one first, and those above it. -/
def makeUpwards (anchor : Anchor) : List String → Tree → Tree × Option Error
  | [], t => t.keepDirectory ⟨anchor, []⟩
  | name :: above, t =>
    let p : Path := ⟨anchor, (name :: above).reverse⟩
    match t.makeDirectory p with
    | .error (.blocked .noSuchFile _) =>
      match makeUpwards anchor above t with
      | (t, none) => t.keepDirectory p
      | failed => failed
    | _ => t.keepDirectory p

/-- Makes a directory and those above it, unless it is there. What was made stays when something
stands in the way. -/
def makeDirectories (t : Tree) (p : Path) : Tree × Option Error :=
  makeUpwards p.anchor p.names.reverse t

/-- Opens a file for writing at its end, and makes it if there is none: the tree and the place of
the file. -/
def openAppend (t : Tree) (p : Path) : Except Error (Tree × List String) := do
  match ← t.locate p with
  | .taken place (.file _) => return (t, place)
  | .taken _ .directory => .error (.blocked .isDirectory p.text)
  | .free place => return (t.put place (.file .empty), place)

/-- Writes bytes at the end of the file at a place. -/
def append (t : Tree) (place : List String) (bytes : ByteArray) : Tree :=
  match t.find? place with
  | some (.file content) => t.put place (.file (content ++ bytes))
  | _ => t

/-- The tree with a file at a path, in a directory that is made if need be. -/
def addFile (t : Tree) (p : Path) (content : ByteArray) : Tree :=
  let (t, _) := t.makeDirectories p.parent
  match t.locate p with
  | .ok (.free place) => t.put place (.file content)
  | .ok (.taken place (.file _)) => t.put place (.file content)
  | _ => t

/-- The files in the working directory and below it, by their names from there. -/
def files (t : Tree) : List (String × ByteArray) :=
  t.entries.filterMap fun item =>
    match item.2 with
    | .directory => none
    | .file content =>
      if item.1.take t.working.length = t.working then
        some ("/".intercalate (item.1.drop t.working.length), content)
      else none

end Tree

end Intcode.Files
