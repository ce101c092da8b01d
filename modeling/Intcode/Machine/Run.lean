import Intcode.Machine.Step
import Intcode.Port.Scripted

/-!
# Runs of a machine

A run takes steps until the machine has an outcome or a step is refused. A program need not end,
so a run is given the number of steps that it may take; `none` means that these were not enough.

## Main definitions

* `Machine.stepTimes` — a fixed number of steps
* `Machine.run` — a run to the outcome
* `runProgram` — a run of a program on a scripted port
-/

namespace Intcode

namespace Machine

variable {σ : Type} [Port σ]

/-- Takes a number of steps after the events and the answer so far, and stops early when a step is
refused. -/
def stepsFrom : Nat → Array Event → Option Outcome → Machine σ → Report σ
  | 0, events, answer, m => { machine := m, events := events.toList, answer := .ok answer }
  | times + 1, events, _, m =>
    let report := m.step
    let events := events ++ report.events
    match report.answer with
    | .ok answer => stepsFrom times events answer report.machine
    | .error _ => { report with events := events.toList }

/-- Takes a number of steps. The answer is that of the last step taken, and `none` without any. -/
def stepTimes (times : Nat) (m : Machine σ) : Report σ :=
  stepsFrom times #[] none m

/-- Takes steps, at most `fuel`, until there is an outcome or a refusal, after the events so far. -/
def runFrom : Nat → Array Event → Machine σ → Option (Report σ)
  | 0, _, _ => none
  | fuel + 1, events, m =>
    let report := m.step
    let events := events ++ report.events
    match report.answer with
    | .ok none => runFrom fuel events report.machine
    | _ => some { report with events := events.toList }

/-- Runs a machine to its outcome, or to a refusal, within `fuel` steps. -/
def run (fuel : Nat) (m : Machine σ) : Option (Report σ) :=
  runFrom fuel #[] m

/-- Whether the next step asks the port for a value. -/
def awaitsInput (m : Machine σ) : Bool :=
  match m.state, m.fetch with
  | .running, .ok (.input dest) => m.memory.inBounds dest
  | _, _ => false

end Machine

/-- Runs a program with the given inputs to its outcome, within `fuel` steps. -/
def runProgram (fuel : Nat) (program : Array Int) (inputs : List Int) (maxSteps : Option Int)
    (tracing : Bool) : Option (Except Refusal (Option Outcome)) :=
  match Machine.create program (Port.Scripted.ofInputs inputs) maxSteps tracing with
  | .error why => some (.error why)
  | .ok m => (m.run fuel).map (·.answer)

end Intcode
