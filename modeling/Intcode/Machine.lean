import Intcode.Memory
import Intcode.Port

/-!
# Machines

A machine is a memory, a program counter and a port, together with what it has done so far. It runs
until it has halted or faulted, and its outcome is for good: it holds the memory, the outputs and
the number of steps at the moment the machine stopped.

## Main definitions

* `Outcome` — how a run ended, and with what
* `State` — running, halted or faulted
* `Machine` — a machine on a port with states `σ`
* `Machine.create` — a machine at the start of a program
-/

namespace Intcode

/-- How a run ended. -/
inductive Ending where
  /-- At a `HALT`, with the value of the first cell. -/
  | halted (finalValue : Int)
  /-- With a fault of the instruction at `pc`. -/
  | faulted (fault : Fault) (pc : Int)
  deriving DecidableEq, Repr

/-- How a run ended, and with what memory, outputs and number of steps. -/
structure Outcome where
  ending : Ending
  memory : Memory
  outputs : Array Int
  steps : Nat
  deriving DecidableEq, Repr

/-- The states of a machine. -/
inductive State where
  | running
  | halted
  | faulted
  deriving DecidableEq, Repr

/-- The name of a state. -/
def State.name : State → String
  | running => "RUNNING"
  | halted => "HALTED"
  | faulted => "FAULTED"

/-- The state of a machine with an outcome. -/
def Outcome.state (o : Outcome) : State :=
  match o.ending with
  | .halted _ => .halted
  | .faulted .. => .faulted

/-- A machine on a port with states `σ`. -/
structure Machine (σ : Type) where
  memory : Memory
  port : σ
  /-- The budget of steps, if there is one. -/
  maxSteps : Option Int
  /-- Whether each instruction leaves a line in the trace. -/
  tracing : Bool
  pc : Int
  /-- The number of instructions completed. -/
  steps : Nat
  outputs : Array Int
  state : State
  /-- The outcome, once the machine has stopped. -/
  outcome : Option Outcome
  trace : Array String

namespace Machine

variable {σ : Type}

/-- A machine at the start of a program, which must not be empty. -/
def create (program : Array Int) (port : σ) (maxSteps : Option Int) (tracing : Bool) :
    Except Refusal (Machine σ) :=
  let start : Machine σ :=
    { memory := ⟨program⟩, port, maxSteps, tracing, pc := 0, steps := 0, outputs := #[],
      state := .running, outcome := none, trace := #[] }
  if program.isEmpty then .error .emptyProgram
  else
    match maxSteps with
    | none => .ok start
    | some limit =>
      if limit < 0 then .error (Refusal.negativeStepLimit limit).orTooLong else .ok start

/-- The lines of the trace. -/
def traceText (m : Machine σ) : String :=
  "\n".intercalate m.trace.toList

/-- Forgets the trace so far. -/
def clearTrace (m : Machine σ) : Machine σ :=
  { m with trace := #[] }

end Machine

end Intcode
