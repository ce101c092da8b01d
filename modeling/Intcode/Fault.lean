import Intcode.Port.Failure
import Intcode.Refusal
import Intcode.Scalar

/-!
# Faults

Whatever stops a machine before it halts. A fault has a cause and, once the machine has recorded
it, the program counter of the instruction at fault.

A cause that names a number with too many digits cannot be worded, and then no fault arises:
`Cause.raised` is the refusal to write the number instead.

## Main definitions

* `Cause` — the causes of faults
* `Cause.name`, `Cause.family?`, `Cause.text?` — name, family and wording of a cause
* `Fault`, `Fault.message?` — a fault and its wording
* `Stop` — why an instruction does not complete: a fault or a refusal
* `Cause.raised` — the stop that a cause gives rise to
-/

namespace Intcode

/-- The two families of faults. -/
inductive Family where
  /-- The instruction could not be made out. -/
  | decode
  /-- The instruction could not be carried out. -/
  | runtime
  deriving DecidableEq, Repr

/-- The cause of a fault. -/
inductive Cause where
  /-- A cause reported in words only, perhaps of one of the families. -/
  | general (family : Option Family) (text : String)
  /-- An instruction word that is no number of one to five digits. -/
  | malformedWord (word : Scalar)
  /-- An opcode that no operation has. -/
  | unknownOpcode (opcode : Int)
  /-- A mode digit other than `0` and `1`. -/
  | invalidMode (digit : String)
  /-- Fewer cells than the opcode needs. -/
  | truncated (opcode needed available : Int)
  /-- An address that the memory does not have. -/
  | outOfBounds (address : Int) (size : Option Int)
  /-- A write through an operand that is a value. -/
  | writeToImmediate (value : Int)
  /-- The program counter is no address of the memory. -/
  | counterOutOfBounds (size : Int)
  /-- The budget of steps is used up. -/
  | stepLimit (limit : Int)
  /-- The port failed, in the way given if it named one. -/
  | port (kind : Option Port.FailureKind) (reason : String)
  deriving DecidableEq, Repr

namespace Cause

/-- The name of a cause. -/
def name : Cause → String
  | general none _ => "IntcodeFault"
  | general (some .decode) _ => "DecodeFault"
  | general (some .runtime) _ => "RuntimeFault"
  | malformedWord _ => "MalformedWord"
  | unknownOpcode _ => "UnknownOpcode"
  | invalidMode _ => "InvalidAddressingMode"
  | truncated .. => "TruncatedInstruction"
  | outOfBounds .. => "OutOfBounds"
  | writeToImmediate _ => "WriteToImmediate"
  | counterOutOfBounds _ => "ProgramCounterOutOfBounds"
  | stepLimit _ => "StepLimitExceeded"
  | port .. => "IOFault"

/-- The family of a cause. -/
def family? : Cause → Option Family
  | general family _ => family
  | malformedWord _ | unknownOpcode _ | invalidMode _ | truncated .. => some .decode
  | outOfBounds .. | writeToImmediate _ | counterOutOfBounds _ | stepLimit _ | port .. =>
    some .runtime

/-- The wording of a cause, or `none` when a number in it cannot be written. -/
def text? : Cause → Option String
  | general _ text => some text
  | malformedWord word => do return "Malformed instruction word " ++ (← word.text?)
  | unknownOpcode opcode => do return "Unknown opcode " ++ (← Numeral.write? opcode)
  | invalidMode digit => some ("Invalid addressing mode digit " ++ Text.quote digit)
  | truncated opcode needed available => do
    return "Truncated instruction: opcode " ++ (← Numeral.write? opcode) ++ " needs " ++
      (← Numeral.write? needed) ++ " cells, " ++ (← Numeral.write? available) ++ " available"
  | outOfBounds address none => do
    return "Address " ++ (← Numeral.write? address) ++ " out of bounds"
  | outOfBounds address (some size) => do
    return "Address " ++ (← Numeral.write? address) ++ " out of bounds [0, " ++
      (← Numeral.write? size) ++ ")"
  | writeToImmediate value => do
    return "Write through immediate operand " ++ (← Numeral.write? value)
  | counterOutOfBounds size => do
    return "Program counter left memory [0, " ++ (← Numeral.write? size) ++ ")"
  | stepLimit limit => do
    return "Step limit of " ++ (← Numeral.write? limit) ++ " instructions exceeded"
  | port _ reason => some ("I/O port error: " ++ reason)

end Cause

/-- A fault: its cause, and the program counter of the instruction at fault when it is known. -/
structure Fault where
  cause : Cause
  pc : Option Int
  deriving DecidableEq, Repr

/-- The wording of a fault, or `none` when a number in it cannot be written. -/
def Fault.message? (f : Fault) : Option String := do
  let text ← f.cause.text?
  match f.pc with
  | none => return text
  | some pc => return text ++ " (pc=" ++ (← Numeral.write? pc) ++ ")"

/-- Why an instruction does not complete. -/
inductive Stop where
  /-- A fault, which stops the machine. -/
  | fault (cause : Cause)
  /-- A refusal, which leaves it running. -/
  | refused (why : Refusal)
  deriving DecidableEq, Repr

/-- What a caller is told of a stop that comes when the machine records no more faults. -/
def Stop.refusal : Stop → Refusal
  | fault cause => .unrecorded cause.name (cause.text?.getD "")
  | refused why => why

/-- The stop that a cause gives rise to: a fault, unless the cause cannot be worded. -/
def Cause.raised (c : Cause) : Stop :=
  if c.text?.isSome then .fault c else .refused .numberTooLong

end Intcode
