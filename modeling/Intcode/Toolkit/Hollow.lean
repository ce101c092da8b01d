import Intcode.Machine.Journal
import Intcode.Toolkit.Given

/-!
# Runs with blanks

A blank may be given as an input value, and once it is read it stands in a cell of memory like a
number. Such a hollow memory runs by the rules of a machine, with these for blanks: two blanks add
up to a blank, a blank times a number is a blank, a blank equals a blank and nothing else, is not
less than a blank, and is not zero. No instruction is made out of a blank. Any other use of one
breaks the run down.

## Main definitions

* `Toolkit.Cell` — a cell that may be blank
* `Toolkit.Hollow` — a memory with blanks, at some point of a run
* `Hollow.step` — one step
* `Hollow.run` — a run to the end
-/

namespace Intcode.Toolkit

/-- A cell of a memory with blanks. -/
abbrev Cell := Given Int

/-- A cell in words. -/
def cellText? : Cell → Option String
  | .value n => Numeral.write? n
  | .blank => some "[]"

/-- A memory with blanks, at some point of a run: the cells, the program counter, the number of
steps taken, the inputs still to come, the number of outputs, the text printed, and the trace. -/
structure Hollow where
  cells : Array Cell
  pc : Cell
  steps : Nat
  pending : List Cell
  outputs : Nat
  printed : String
  trace : Array String

namespace Hollow

/-- Why an instruction does not complete. -/
inductive Halt where
  /-- A fault with its name and its wording. -/
  | fault (name text : String)
  /-- A refusal. -/
  | refused (why : Refusal)
  /-- A breakdown. -/
  | broken (why : Breakdown)
  deriving DecidableEq, Repr

/-- The stop of an instruction without blanks. -/
def Halt.ofStop : Stop → Halt
  | .refused why => .refused why
  | .fault cause =>
    match cause.text? with
    | some text => .fault cause.name text
    | none => .refused .numberTooLong

/-- The memory at the start of a program. -/
def ofProgram (program : List Int) (inputs : List Cell) : Hollow :=
  { cells := (program.map .value).toArray, pc := .value 0, steps := 0, pending := inputs,
    outputs := 0, printed := "", trace := #[] }

/-! ### Access to cells -/

/-- The address of a cell, which has to be a number in bounds. -/
def locate (m : Hollow) : Cell → Except Halt Nat
  | .blank => .error (.broken .blankUsed)
  | .value n =>
    if 0 ≤ n ∧ n < m.cells.size then .ok n.toNat
    else .error (.ofStop (Cause.outOfBounds n (some m.cells.size)).raised)

/-- Reads the cell at an address. -/
def read (m : Hollow) (address : Cell) : Except Halt Cell := do
  let i ← m.locate address
  return m.cells[i]?.getD .blank

/-- Writes the cell at an address. -/
def write (m : Hollow) (address value : Cell) : Except Halt Hollow := do
  let i ← m.locate address
  return { m with cells := m.cells.setIfInBounds i value }

/-- The value of an operand. -/
def load (m : Hollow) : Operand Cell → Except Halt Cell
  | .immediate value => .ok value
  | .position address => m.read address

/-- Stores a value through an operand, which has to be an address. -/
def store (m : Hollow) (operand : Operand Cell) (value : Cell) : Except Halt Hollow :=
  match operand with
  | .position address => m.write address value
  | .immediate (.value n) => .error (.ofStop (Cause.writeToImmediate n).raised)
  | .immediate .blank =>
    .error (.fault (Cause.writeToImmediate 0).name "Write through immediate operand []")

/-! ### Steps -/

/-- Whether a blank may be repeated as often as a number says. -/
def isCount (n : Int) : Bool := -Int.pow 2 63 ≤ n && n < Int.pow 2 63

/-- The cell that an operation computes. -/
def apply : Operation → Cell → Cell → Except Halt Cell
  | op, .value a, .value b => .ok (.value (op.apply a b))
  | .add, .blank, .blank => .ok .blank
  | .multiply, .value n, .blank | .multiply, .blank, .value n =>
    if isCount n then .ok .blank else .error (.broken .countTooLarge)
  | .lessThan, .blank, .blank => .ok (.value 0)
  | .equal, .blank, .blank => .ok (.value 1)
  | .equal, _, _ => .ok (.value 0)
  | _, _, _ => .error (.broken .blankUsed)

/-- The instruction word in a cell. -/
def word : Cell → Except Halt Word
  | .value n => (Word.decode n).mapError .ofStop
  | .blank => .error (.fault (Cause.malformedWord .null).name "Malformed instruction word []")

/-- The cells from an address on, at most `count` of them. -/
def window (m : Hollow) (address count : Nat) : List Cell :=
  (m.cells.extract address (address + count)).toList

/-- The instruction at the program counter, and its address. -/
def fetch (m : Hollow) (maxSteps : Option Int) : Except Halt (Nat × Command Cell) :=
  match maxSteps.filter fun (limit : Int) => limit ≤ m.steps, m.pc with
  | some limit, _ => .error (.ofStop (Cause.stepLimit limit).raised)
  | none, .blank => .error (.broken .blankUsed)
  | none, .value pc =>
    match if 0 ≤ pc then m.window pc.toNat 4 else [] with
    | [] => .error (.ofStop (Cause.counterOutOfBounds m.cells.size).raised)
    | first :: rest => do
      let w ← word first
      let command ← (Command.ofWord w rest).mapError .ofStop
      return (pc.toNat, command)

/-- The line of the trace for an instruction at an address. -/
def traceLine? (m : Hollow) (pc : Nat) (command : Command Cell) : Option String := do
  let raw ← (m.window pc command.length).mapM cellText?
  let text ← command.textBy? cellText?
  return Text.padLeft 5 (Nat.repr pc) ++ ": " ++ Text.padRight 24 (",".intercalate raw) ++ " " ++
    text

/-- Carries out an instruction: the memory afterwards, and where to go on unless it ends there. -/
def perform (m : Hollow) (pc : Nat) (command : Command Cell) : Except Halt (Hollow × Option Cell) :=
  let next : Cell := .value (pc + command.length)
  match command with
  | .compute op a b dest => do
    let x ← m.load a
    let y ← m.load b
    return (← m.store dest (← apply op x y), some next)
  | .jump expected cond target => do
    let x ← m.load cond
    if (x != .value 0) == expected then return (m, some (← m.load target))
    else return (m, some next)
  | .input dest => do
    let i ← m.locate dest
    match m.pending with
    | [] => .error (.ofStop (Cause.port (some .exhausted) "input script exhausted").raised)
    | value :: rest =>
      return ({ m with pending := rest, cells := m.cells.setIfInBounds i value }, some next)
  | .output source => do
    let value ← m.read source
    match cellText? value with
    | none => .error (.refused .numberTooLong)
    | some text =>
      return ({ m with outputs := m.outputs + 1, printed := m.printed ++ text ++ "\n" }, some next)
  | .halt => .ok (m, none)

/-- How a step ends. -/
inductive Progress where
  | running
  | halted
  | stopped (why : Halt)
  deriving DecidableEq, Repr

/-- The memory with a line more in its trace, if there is one. -/
def record (m : Hollow) (tracing : Bool) (pc : Nat) (command : Command Cell) :
    Except Halt Hollow :=
  if tracing then
    match m.traceLine? pc command with
    | some line => .ok { m with trace := m.trace.push line }
    | none => .error (.refused .numberTooLong)
  else .ok m

/-- One step. -/
def step (maxSteps : Option Int) (tracing : Bool) (m : Hollow) : Hollow × Progress :=
  match m.fetch maxSteps with
  | .error why => (m, .stopped why)
  | .ok (pc, command) =>
    match m.record tracing pc command with
    | .error why => (m, .stopped why)
    | .ok m =>
      match m.perform pc command with
      | .error why => (m, .stopped why)
      | .ok (m, some pc) => ({ m with pc, steps := m.steps + 1 }, .running)
      | .ok (m, none) => ({ m with steps := m.steps + 1 }, .halted)

/-- A run to the end, within `fuel` steps. -/
def run (maxSteps : Option Int) (tracing : Bool) : Nat → Hollow → Option (Hollow × Progress)
  | 0, _ => none
  | fuel + 1, m =>
    match m.step maxSteps tracing with
    | (m, .running) => run maxSteps tracing fuel m
    | ended => some ended

/-- The cells, if none is blank. -/
def numbers? (m : Hollow) : Option (List Int) :=
  m.cells.toList.mapM Given.value?

end Hollow

end Intcode.Toolkit
