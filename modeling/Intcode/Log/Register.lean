/-!
# Names of loggers

Loggers are known by dotted names, and each stands below another one, the root at the top. A logger
is placed when its name is entered: below the nearest logger among the names that its dots cut off,
or else below the root. The names cut off that have no logger yet become gaps, which remember who
was placed past them; when a logger is entered into a gap, those who were placed past it move below
it, unless they already stand below a logger whose name begins with its name.

## Main definitions

* `Log.cutOff` — the names that the dots of a name cut off
* `Log.Register` — the names entered so far
* `Register.enter` — enters a name
* `Register.lineage` — a name and the names above it
-/

namespace Intcode.Log

/-- The name of the root logger. -/
def rootName : String := "root"

/-- The name of the logger meant by a name: no name is the root. -/
def canonical (name : String) : String :=
  if name = "" then rootName else name

/-- The names cut off by the dots of a name, given in reverse, the longest first. A dot right before
one that cut a name off does not cut again, and nothing is cut off before the first character. -/
def cutOffReversed (reversed : List Char) : List (List Char) :=
  match _h : reversed.dropWhile (· ≠ '.') with
  | [] => []
  | [_] => []
  | _ :: rest => rest.reverse :: cutOffReversed (rest.drop 1)
termination_by reversed.length
decreasing_by
  have := (List.dropWhile_sublist (l := reversed) (· ≠ '.')).length_le
  simp_all
  omega

/-- The names cut off by the dots of a name, the longest first. -/
def cutOff (name : String) : List String :=
  (cutOffReversed name.toList.reverse).map String.ofList

/-- What stands at a name that was met: a logger and the name above it, or a gap and the loggers
placed past it. -/
inductive Node where
  | logger (above : String)
  | gap (passed : List String)
  deriving DecidableEq, Repr

/-- The names met so far. The root is not among them. -/
structure Register where
  nodes : List (String × Node)
  deriving DecidableEq, Repr

namespace Register

/-- A register without any name. -/
def empty : Register := ⟨[]⟩

/-- What stands at a name. -/
def node? (r : Register) (name : String) : Option Node :=
  (r.nodes.find? fun item => item.1 = name).map (·.2)

/-- Puts something at a name. -/
def put (r : Register) (name : String) (node : Node) : Register :=
  ⟨(name, node) :: r.nodes.filter fun item => item.1 ≠ name⟩

/-- The name above the logger of a name. -/
def above (r : Register) (name : String) : String :=
  match r.node? name with
  | some (.logger above) => above
  | _ => rootName

/-- Places the logger of a name below the first logger among some names, or else below the root, and
leaves gaps at the names before it. -/
def place (r : Register) (name : String) : List String → Register
  | [] => r.put name (.logger rootName)
  | higher :: rest =>
    match r.node? higher with
    | some (.logger _) => r.put name (.logger higher)
    | some (.gap passed) => (r.put higher (.gap (passed ++ [name]))).place name rest
    | none => (r.put higher (.gap [name])).place name rest

/-- Moves a logger below the logger of a name, unless the one above it begins with that name. -/
def adopt (name : String) (r : Register) (lower : String) : Register :=
  if name.toList.isPrefixOf (r.above lower).toList then r else r.put lower (.logger name)

/-- Enters a name. A second time changes nothing. -/
def enter (r : Register) (name : String) : Register :=
  if name = rootName then r
  else
    match r.node? name with
    | some (.logger _) => r
    | some (.gap passed) => (passed.foldl (adopt name) r).place name (cutOff name)
    | none => r.place name (cutOff name)

/-- A name and the names above it, the nearest first, at most `fuel` of them below the root. -/
def lineageWithin (r : Register) : Nat → String → List String
  | 0, _ => [rootName]
  | fuel + 1, name =>
    if name = rootName then [rootName] else name :: r.lineageWithin fuel (r.above name)

/-- A name and the names above it, the nearest first. Each is shorter than the one before, down to
the root. -/
def lineage (r : Register) (name : String) : List String :=
  r.lineageWithin name.length name

end Register

end Intcode.Log
