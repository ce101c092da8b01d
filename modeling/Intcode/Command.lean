import Intcode.Text.Columns
import Intcode.Word

/-!
# Commands

An instruction, made out of the cells from the program counter on: an operation with its operands,
each tagged with what it means. The cells after the instruction do not matter. `IN` and `OUT` take
an address whatever their mode digit says. What an operand holds is left open here: in a machine
it is an integer.

## Main definitions

* `Operand` — a value or an address
* `Command` — an instruction
* `Command.ofWindow` — the instruction at the start of some cells
* `Command.ofScalars` — the instruction at the start of some scalars
* `Command.text?` — an instruction in a listing
* `Command.encode` — cells that an instruction can be made out of
-/

namespace Intcode

/-- An operand of an instruction. -/
inductive Operand (α : Type) where
  /-- The value itself. -/
  | immediate (value : α)
  /-- The cell at an address. -/
  | position (address : α)
  deriving DecidableEq, Repr

namespace Operand

variable {α : Type}

/-- The operand that a raw cell is in a mode. -/
def ofRaw : Mode → α → Operand α
  | .immediate, raw => immediate raw
  | .position, raw => position raw

/-- The mode of an operand. -/
def mode : Operand α → Mode
  | immediate _ => .immediate
  | position _ => .position

/-- The raw cell of an operand. -/
def raw : Operand α → α
  | immediate value => value
  | position address => address

/-- An operand in a listing, whose raw cell `write` puts into words. -/
def textBy? (write : α → Option String) : Operand α → Option String
  | immediate value => do return "#" ++ (← write value)
  | position address => do return "[" ++ (← write address) ++ "]"

/-- An operand of a machine in a listing. -/
def text? (o : Operand Int) : Option String := o.textBy? Numeral.write?

end Operand

/-- The operations that compute a value from two operands and store it. -/
inductive Operation where
  | add
  | multiply
  | lessThan
  | equal
  deriving DecidableEq, Repr

namespace Operation

/-- The value that an operation computes. -/
def apply : Operation → Int → Int → Int
  | add, a, b => a + b
  | multiply, a, b => a * b
  | lessThan, a, b => if a < b then 1 else 0
  | equal, a, b => if a = b then 1 else 0

/-- The opcode of an operation. -/
def opcode : Operation → Opcode
  | add => .add
  | multiply => .multiply
  | lessThan => .lessThan
  | equal => .equal

end Operation

/-- An instruction. -/
inductive Command (α : Type) where
  /-- Stores the value of an operation on `a` and `b` through `dest`. -/
  | compute (op : Operation) (a b dest : Operand α)
  /-- Stores an input value at the address `dest`. -/
  | input (dest : α)
  /-- Outputs the cell at the address `source`. -/
  | output (source : α)
  /-- Jumps to `target` if the test `cond ≠ 0` comes out as `expected`. -/
  | jump (expected : Bool) (cond target : Operand α)
  /-- Halts the machine. -/
  | halt
  deriving DecidableEq, Repr

namespace Command

variable {α : Type}

/-- The operation of an instruction. -/
def opcode : Command α → Opcode
  | compute op .. => op.opcode
  | input _ => .input
  | output _ => .output
  | jump true .. => .jumpIfTrue
  | jump false .. => .jumpIfFalse
  | halt => .halt

/-- The operands of an instruction, in order. -/
def operands : Command α → List (Operand α)
  | compute _ a b dest => [a, b, dest]
  | input dest => [.position dest]
  | output source => [.position source]
  | jump _ cond target => [cond, target]
  | halt => []

/-- The number of cells of an instruction. -/
def length (c : Command α) : Nat := c.opcode.length

/-- The name of an instruction in a listing. -/
def mnemonic (c : Command α) : String := c.opcode.mnemonic

/-- An instruction in a listing: its name in four columns and its operands, whose raw cells `write`
puts into words, without the blanks at its end. -/
def textBy? (write : α → Option String) (c : Command α) : Option String := do
  let texts ← c.operands.mapM (Operand.textBy? write)
  let text := Text.padRight 4 c.mnemonic ++ " " ++ ", ".intercalate texts
  return String.ofList (Text.trimEnd Text.isBlank text.toList)

/-- An instruction of a machine in a listing. -/
def text? (c : Command Int) : Option String := c.textBy? Numeral.write?

/-- An instruction made of scalars in a listing. -/
def scalarText? (c : Command Scalar) : Option String := c.textBy? Scalar.plainText?

/-- The instruction of an operation on the first three cells. -/
def compute? (op : Operation) (w : Word) : List α → Option (Command α)
  | a :: b :: dest :: _ =>
    some (compute op (.ofRaw w.first a) (.ofRaw w.second b) (.ofRaw w.third dest))
  | _ => none

/-- The jump on the first two cells. -/
def jump? (expected : Bool) (w : Word) : List α → Option (Command α)
  | cond :: target :: _ =>
    some (jump expected (.ofRaw w.first cond) (.ofRaw w.second target))
  | _ => none

/-- The instruction that a word and the cells after it make, or `none` if these are too few. -/
def ofWord? (w : Word) (cells : List α) : Option (Command α) :=
  match w.opcode with
  | .add => compute? .add w cells
  | .multiply => compute? .multiply w cells
  | .lessThan => compute? .lessThan w cells
  | .equal => compute? .equal w cells
  | .jumpIfTrue => jump? true w cells
  | .jumpIfFalse => jump? false w cells
  | .input => cells.head?.map input
  | .output => cells.head?.map output
  | .halt => some halt

/-- The instruction that a word and the cells after it make. -/
def ofWord (w : Word) (cells : List α) : Except Stop (Command α) :=
  match ofWord? w cells with
  | some c => .ok c
  | none =>
    .error (Cause.truncated w.opcode.code w.opcode.length (cells.length + 1)).raised

/-- The instruction at the start of some cells. -/
def ofWindow : List Int → Except Stop (Command Int)
  | [] => .error (Cause.truncated (-1) 1 0).raised
  | word :: cells => do ofWord (← Word.decode word) cells

/-- The instruction at the start of some scalars, of which the first has to be an integer. -/
def ofScalars : List Scalar → Except Stop (Command Scalar)
  | [] => .error (Cause.truncated (-1) 1 0).raised
  | word :: cells => do ofWord (← Word.decodeScalar word) cells

/-- The mode of the operand at an index, and `position` where there is none. -/
def modeAt (c : Command α) (i : Nat) : Mode :=
  (c.operands[i]?.map Operand.mode).getD .position

/-- The instruction word of an instruction. -/
def word (c : Command α) : Word :=
  { opcode := c.opcode, first := c.modeAt 0, second := c.modeAt 1, third := c.modeAt 2 }

/-- Cells that an instruction can be made out of. -/
def encode (c : Command Int) : List Int :=
  c.word.encode :: c.operands.map Operand.raw

end Command

end Intcode
