/-!
# Paths

A path is an anchor and a list of names. Empty names and single dots say nothing and are left out;
two dots are kept, for what they mean depends on the files. Exactly two slashes at the start are an
anchor of their own.

## Main definitions

* `Files.Path` — a path
* `Path.ofString`, `Path.text` — reading and writing a path
* `Path.parent`, `Path.join` — the path above, and a path below
* `Path.absolute` — the path from the root
-/

namespace Intcode.Files

/-- Where a path starts. -/
inductive Anchor where
  /-- At the working directory. -/
  | relative
  /-- At the root. -/
  | root
  /-- At the root, written with two slashes. -/
  | doubleRoot
  deriving DecidableEq, Repr

/-- The text of an anchor. -/
def Anchor.text : Anchor → String
  | relative => ""
  | root => "/"
  | doubleRoot => "//"

/-- A path. -/
structure Path where
  anchor : Anchor
  names : List String
  deriving DecidableEq, Repr

namespace Path

/-- The path that a text stands for. -/
def ofString (text : String) : Path :=
  let anchor : Anchor :=
    match (text.toList.takeWhile (· = '/')).length with
    | 0 => .relative
    | 2 => .doubleRoot
    | _ => .root
  let names := (text.toList.splitOn '/').map String.ofList
  { anchor, names := names.filter fun name => name ≠ "" && name ≠ "." }

/-- The text of a path. The working directory is a dot. -/
def text (p : Path) : String :=
  match p.anchor, p.names with
  | .relative, [] => "."
  | anchor, names => anchor.text ++ "/".intercalate names

/-- The path without its last name. -/
def parent (p : Path) : Path :=
  { p with names := p.names.dropLast }

/-- The path `q` as seen from `p`. -/
def join (p q : Path) : Path :=
  match q.anchor with
  | .relative => { p with names := p.names ++ q.names }
  | _ => q

/-- The names from the root to where some names lead from a directory. Two dots take back the name
before them. -/
def resolve (here names : List String) : List String :=
  names.foldl (fun here name => if name = ".." then here.dropLast else here ++ [name]) here

/-- The path from the root, as seen from a working directory. -/
def absolute (p : Path) (working : List String) : Path :=
  match p.anchor with
  | .relative => ⟨.root, resolve working p.names⟩
  | anchor => ⟨anchor, resolve [] p.names⟩

end Path

end Intcode.Files
