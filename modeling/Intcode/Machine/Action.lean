import Intcode.Machine

/-!
# Actions

An instruction works on a bench: the memory, the outputs and the port of its machine. It takes one
action after the other, and any of them may fail. What was done to the bench by then stays done;
that an instruction which fails has changed nothing is up to the order of its actions.

## Main definitions

* `Bench` — what an instruction works on
* `Action` — something done to a bench that may fail
* `Action.ofCommand` — what an instruction does
-/

namespace Intcode

/-- What an instruction works on. -/
structure Bench (σ : Type) where
  memory : Memory
  outputs : Array Int
  port : σ
  /-- What the port noted for a log. -/
  notes : List String

/-- Something done to a bench that may fail, and then leaves the bench as it is at that point. -/
abbrev Action (σ α : Type) := EStateM Stop (Bench σ) α

namespace Action

variable {σ α : Type}

/-- Reads the value of an operand. -/
def load (operand : Operand Int) : Action σ Int := fun bench =>
  match bench.memory.load operand with
  | .ok value => .ok value bench
  | .error stop => .error stop bench

/-- Stores a value through an operand. -/
def store (operand : Operand Int) (value : Int) : Action σ Unit := fun bench =>
  match bench.memory.store operand value with
  | .ok memory => .ok () { bench with memory }
  | .error stop => .error stop bench

/-- Makes sure that an address is one of a cell. -/
def check (address : Int) : Action σ Unit := fun bench =>
  if bench.memory.inBounds address then .ok () bench
  else .error (bench.memory.outOfBounds address) bench

/-- Asks the port for one of its services. -/
def ask (service : σ → Port.Reply σ α) : Action σ α := fun bench =>
  let reply := service bench.port
  let bench := { bench with port := reply.port, notes := bench.notes ++ reply.notes }
  match reply.answer with
  | .ok value => .ok value bench
  | .error trouble => .error trouble.stop bench

/-- Adds a value to the outputs. -/
def putOut (value : Int) : Action σ Unit := fun bench =>
  .ok () { bench with outputs := bench.outputs.push value }

/-! ### Instructions

Each answers where the program goes on, and `none` at its end. -/

/-- Reads two values and stores what an operation makes of them. -/
def compute (op : Operation) (a b dest : Operand Int) (next : Int) : Action σ (Option Int) := do
  let x ← load a
  let y ← load b
  store dest (op.apply x y)
  return some next

/-- Jumps on a condition: the target is read only if the jump is taken. -/
def jump (expected : Bool) (cond target : Operand Int) (next : Int) : Action σ (Option Int) := do
  let x ← load cond
  if (x != 0) == expected then return some (← load target)
  else return some next

variable [Port σ]

/-- Stores an input: the address is checked before the port is asked. -/
def input (dest next : Int) : Action σ (Option Int) := do
  check dest
  let value ← ask Port.request
  store (.position dest) value
  return some next

/-- Puts a value out: it counts as put out once the port has it. -/
def output (source next : Int) : Action σ (Option Int) := do
  let value ← load (.position source)
  ask (Port.deliver value)
  putOut value
  return some next

/-- What an instruction does that has the next one after it at `next`. -/
def ofCommand (command : Command Int) (next : Int) : Action σ (Option Int) :=
  match command with
  | .compute op a b dest => compute op a b dest next
  | .jump expected cond target => jump expected cond target next
  | .input dest => input dest next
  | .output source => output source next
  | .halt => return none

end Action

end Intcode
