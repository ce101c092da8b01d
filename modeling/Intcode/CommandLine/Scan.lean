import Intcode.CommandLine.Switch
import Intcode.Text.Quoted

/-!
# Scanning a command line

The arguments up to a double dash have shapes; those after it are all plain. A scan goes through
them from left to right and finds, one after the other, switches with their values, plain arguments,
and arguments that nothing takes, until something is wrong.

Short switches without a value may be written in one argument, with or without an equals sign after
the first. Such a cluster is checked as a whole before its first switch counts. These are the
conventions of release 3.11.8; later ones take an unknown letter of a cluster for an argument of its
own, and refuse an equals sign after a switch without a value.

## Main definitions

* `CommandLine.Arguments` — arguments with their shapes
* `CommandLine.Token` — what a scan finds
* `CommandLine.scanCommand` — the scan up to the first plain argument, which takes all the rest
* `CommandLine.scanOne` — the scan for switches and one plain argument
-/

namespace Intcode.CommandLine

variable {κ : Type}

/-- Arguments: those before the first double dash with their shapes, and those after it if there
is one. -/
structure Arguments (κ : Type) where
  shaped : List (String × Shape κ)
  after : Option (List String)

/-- The arguments with their shapes. An ambiguous one is an error before anything else. -/
def Arguments.ofList (switches : List (Switch κ)) (arguments : List String) :
    Except Ambiguous (Arguments κ) := do
  let shaped ← (arguments.takeWhile (· ≠ "--")).mapM fun argument => do
    return (argument, ← shape switches argument)
  let after :=
    match arguments.dropWhile (· ≠ "--") with
    | [] => none
    | _ :: rest => some rest
  return { shaped, after }

/-- All arguments from some shaped ones on, as they were given. -/
def texts (shaped : List (String × Shape κ)) (after : Option (List String)) : List String :=
  shaped.map (·.1) ++
    match after with
    | none => []
    | some rest => "--" :: rest

/-- What is wrong with the use of a switch. -/
inductive Problem where
  /-- It takes no value and is given one. -/
  | ignoredValue (text : String)
  /-- It takes a value and is given none. -/
  | missingValue
  deriving DecidableEq, Repr

/-- The wording of a problem. -/
def Problem.message : Problem → String
  | ignoredValue text => "ignored explicit argument " ++ Text.quote text
  | missingValue => "expected one argument"

/-- What a scan finds. -/
inductive Token (κ : Type) where
  /-- A switch, with its value if it takes one. -/
  | use (switch : Switch κ) (value : Option String)
  /-- A plain argument that is taken. -/
  | word (text : String)
  /-- An argument that nothing takes. -/
  | extra (text : String)
  /-- A switch that is used wrongly, which ends the scan. -/
  | wrong (switch : Switch κ) (problem : Problem)
  deriving DecidableEq, Repr

/-- The switches of a cluster from one of them on, after those found before in it. What is joined to
a short switch without a value is read as further short switches. The result is the tokens and, if
the last switch still needs its value from the next argument, that switch. -/
def cluster (switches : List (Switch κ)) (s : Switch κ) (isShort : Bool) :
    List (Token κ) → Option (List Char) → List (Token κ) × Option (Switch κ)
  | found, none =>
    if s.takesValue then (found, some s) else (found ++ [.use s none], none)
  | found, some text =>
    if s.takesValue then (found ++ [.use s (some (String.ofList text))], none)
    else
      match isShort, text with
      | true, letter :: rest =>
        match find? switches ['-', letter] with
        | some next =>
          cluster switches next true (found ++ [.use s none]) (if rest.isEmpty then none else rest)
        | none => ([.wrong s (.ignoredValue (String.ofList text))], none)
      | _, _ => ([.wrong s (.ignoredValue (String.ofList text))], none)
termination_by _ joined => (joined.map fun text => text.length + 1).getD 0
decreasing_by
  split <;> simp

/-- The tokens of an argument that is a switch, and the arguments after it and its value. -/
def takeSwitch (switches : List (Switch κ)) (found : Match κ) (rest : List (String × Shape κ)) :
    List (Token κ) × List (String × Shape κ) :=
  match cluster switches found.switch found.isShort [] found.joined, rest with
  | (tokens, none), rest => (tokens, rest)
  | (tokens, some s), (value, .plain) :: rest => (tokens ++ [.use s (some value)], rest)
  | (_, some s), rest => ([.wrong s .missingValue], rest)

theorem length_takeSwitch_le (switches : List (Switch κ)) (found : Match κ)
    (rest : List (String × Shape κ)) : (takeSwitch switches found rest).2.length ≤ rest.length := by
  unfold takeSwitch
  split <;> simp

/-- The command that plain arguments name: its name and its own arguments. -/
structure Invocation where
  name : String
  arguments : List String
  deriving DecidableEq, Repr

/-- Scans switches up to the first plain argument, which takes all the rest. A double dash counts
as such an argument if anything follows it. -/
def scanCommand (switches : List (Switch κ)) (after : Option (List String)) :
    List (String × Shape κ) → List (Token κ) × Option Invocation
  | [] =>
    match after with
    | none => ([], none)
    | some [] => ([.extra "--"], none)
    | some rest => ([], some ⟨"--", rest⟩)
  | (argument, .plain) :: rest => ([], some ⟨argument, texts rest after⟩)
  | (argument, .unknown) :: rest =>
    let (tokens, invocation) := scanCommand switches after rest
    (.extra argument :: tokens, invocation)
  | (_, .known found) :: rest =>
    let taken := takeSwitch switches found rest
    let (tokens, invocation) := scanCommand switches after taken.2
    (taken.1 ++ tokens, invocation)
termination_by shaped => shaped.length
decreasing_by
  · simp
  · have := length_takeSwitch_le switches found rest
    simp only [List.length_cons]
    omega

/-- Scans switches and the one plain argument that is still wanted, if it is. A double dash right
before that argument or right after it is dropped. -/
def scanOne (switches : List (Switch κ)) (after : Option (List String)) :
    Bool → List (String × Shape κ) → List (Token κ)
  | wanted, [] =>
    match after with
    | none => []
    | some [] => [.extra "--"]
    | some (word :: rest) =>
      if wanted then .word word :: rest.map .extra else .extra "--" :: (word :: rest).map .extra
  | true, [(argument, .plain)] => .word argument :: (after.getD []).map .extra
  | true, (argument, .plain) :: rest => .word argument :: scanOne switches after false rest
  | false, (argument, .plain) :: rest => .extra argument :: scanOne switches after false rest
  | wanted, (argument, .unknown) :: rest => .extra argument :: scanOne switches after wanted rest
  | wanted, (_, .known found) :: rest =>
    let taken := takeSwitch switches found rest
    taken.1 ++ scanOne switches after wanted taken.2
termination_by _ shaped => shaped.length
decreasing_by
  · simp
  · simp
  · simp
  · have := length_takeSwitch_le switches found rest
    simp only [List.length_cons]
    omega

end Intcode.CommandLine
