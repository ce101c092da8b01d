/-!
# Operations

The nine operations of the machine, with the numbers, names and sizes of their instructions.
-/

namespace Intcode

/-- The operations. -/
inductive Opcode where
  | add
  | multiply
  | input
  | output
  | jumpIfTrue
  | jumpIfFalse
  | lessThan
  | equal
  | halt
  deriving DecidableEq, Repr

namespace Opcode

/-- All operations, in the order of their numbers. -/
def all : List Opcode :=
  [add, multiply, input, output, jumpIfTrue, jumpIfFalse, lessThan, equal, halt]

/-- The number that stands for an operation in an instruction word. -/
def code : Opcode → Nat
  | add => 1
  | multiply => 2
  | input => 3
  | output => 4
  | jumpIfTrue => 5
  | jumpIfFalse => 6
  | lessThan => 7
  | equal => 8
  | halt => 99

/-- The operation that a number stands for. -/
def ofCode? (n : Int) : Option Opcode :=
  all.find? fun op => (op.code : Int) == n

/-- The name of an operation in a listing. -/
def mnemonic : Opcode → String
  | add => "ADD"
  | multiply => "MUL"
  | input => "IN"
  | output => "OUT"
  | jumpIfTrue => "JT"
  | jumpIfFalse => "JF"
  | lessThan => "LT"
  | equal => "EQ"
  | halt => "HALT"

/-- The number of operands of an operation. -/
def arity : Opcode → Nat
  | add | multiply | lessThan | equal => 3
  | jumpIfTrue | jumpIfFalse => 2
  | input | output => 1
  | halt => 0

/-- The number of cells of an instruction. -/
def length : Opcode → Nat
  | add | multiply | lessThan | equal => 4
  | jumpIfTrue | jumpIfFalse => 3
  | input | output => 2
  | halt => 1

/-- An instruction has a cell for its word and one for each operand. -/
theorem length_eq (op : Opcode) : op.length = op.arity + 1 := by
  cases op <;> rfl

theorem length_pos (op : Opcode) : 0 < op.length := by
  rw [length_eq]
  exact Nat.succ_pos _

theorem length_le_four (op : Opcode) : op.length ≤ 4 := by
  cases op <;> decide

theorem ofCode?_code (op : Opcode) : ofCode? op.code = some op := by
  cases op <;> decide

end Opcode

end Intcode
