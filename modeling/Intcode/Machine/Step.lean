import Intcode.Machine.Action

/-!
# Steps of a machine

One step executes one instruction: it checks the budget and the program counter, makes out the
instruction, writes it to the trace, and carries it out. What an instruction has done to memory,
outputs and port stays done if it does not complete. A fault then becomes the outcome of the
machine, and a refusal goes back to the caller.

## Main definitions

* `Event` — what a step reports to a log
* `Machine.fetch` — the instruction at the program counter
* `Machine.perform` — carrying out an instruction
* `Machine.step` — one step
-/

namespace Intcode

/-- What a step reports to a log. -/
inductive Event where
  /-- An instruction was traced. -/
  | traced (line : String)
  /-- The port made a note. -/
  | noted (text : String)
  /-- The machine halted. -/
  | halted (pc : Int) (steps : Nat) (finalValue : Int) (outputs : Nat)
  /-- The machine stopped with a fault. -/
  | faulted (steps : Nat) (fault : Fault)
  deriving DecidableEq, Repr

/-- The effect of an instruction: the bench afterwards, and where the program goes on if the
instruction completes. -/
structure Effect (σ : Type) extends Bench σ where
  next : Except Stop (Option Int)

/-- The effect of an action that has been taken. -/
def Effect.ofResult {σ : Type} : EStateM.Result Stop (Bench σ) (Option Int) → Effect σ
  | .ok next bench => { bench with next := .ok next }
  | .error stop bench => { bench with next := .error stop }

/-- The result of a step or a run: the machine afterwards, what it reports, and its outcome if it
has one. -/
structure Report (σ : Type) where
  machine : Machine σ
  events : List Event
  answer : Except Refusal (Option Outcome)

namespace Machine

variable {σ : Type}

/-- Stops the machine with the value of its first cell. -/
def haltWith (m : Machine σ) (finalValue : Int) (events : List Event) : Report σ :=
  let outcome : Outcome :=
    { ending := .halted finalValue, memory := m.memory, outputs := m.outputs, steps := m.steps }
  { machine := { m with state := .halted, outcome := some outcome }
    events := events ++ [.halted m.pc m.steps finalValue m.outputs.size]
    answer := .ok (some outcome) }

/-- Stops the machine at a `HALT`. It counts as halted before its first cell is read. -/
def halt (m : Machine σ) (events : List Event) : Report σ :=
  match m.memory.read 0 with
  | .ok finalValue => m.haltWith finalValue events
  | .error stop => { machine := { m with state := .halted }, events, answer := .error stop.refusal }

/-- Stops the machine with a fault of the instruction at its program counter. -/
def fail (m : Machine σ) (cause : Cause) (events : List Event) : Report σ :=
  let fault : Fault := ⟨cause, some m.pc⟩
  let outcome : Outcome :=
    { ending := .faulted fault m.pc, memory := m.memory, outputs := m.outputs, steps := m.steps }
  { machine := { m with state := .faulted, outcome := some outcome }
    events := events ++ [.faulted m.steps fault]
    answer := .ok (some outcome) }

/-- What becomes of a machine whose instruction does not complete. -/
def abort (m : Machine σ) (stop : Stop) (events : List Event) : Report σ :=
  match stop with
  | .fault cause => m.fail cause events
  | .refused why => { machine := m, events, answer := .error why }

/-- Whether the budget of steps is used up, and which it was. -/
def exhausted? (m : Machine σ) : Option Int :=
  m.maxSteps.filter fun limit => limit ≤ m.steps

/-- The instruction at the program counter. -/
def fetch (m : Machine σ) : Except Stop (Command Int) :=
  match m.exhausted? with
  | some limit => .error (Cause.stepLimit limit).raised
  | none =>
    if m.memory.inBounds m.pc then do
      Command.ofWindow (← m.memory.window m.pc Memory.windowSize)
    else .error (Cause.counterOutOfBounds m.memory.size).raised

/-- The line of the trace for an instruction at the program counter. -/
def traceLine? (m : Machine σ) (command : Command Int) : Option String := do
  let cells := m.memory.slice m.pc (m.pc + command.length)
  let raw ← cells.mapM Numeral.write?
  let label ← Numeral.write? m.pc
  let text ← command.text?
  return Text.padLeft 5 label ++ ": " ++ Text.padRight 24 (",".intercalate raw) ++ " " ++ text

/-- What is to be written to the trace for an instruction: a line, or nothing without a trace. -/
def traceEntry (m : Machine σ) (command : Command Int) : Except Refusal (Option String) :=
  if m.tracing then
    match m.traceLine? command with
    | some line => .ok (some line)
    | none => .error .numberTooLong
  else .ok none

/-- Writes a line to the trace. -/
def record (m : Machine σ) (line : String) : Machine σ :=
  { m with trace := m.trace.push line }

/-- The bench of a machine. -/
def bench (m : Machine σ) : Bench σ :=
  { memory := m.memory, outputs := m.outputs, port := m.port, notes := [] }

variable [Port σ]

/-- The effect of an instruction at the program counter. -/
def perform (m : Machine σ) (command : Command Int) : Effect σ :=
  .ofResult (Action.ofCommand command (m.pc + command.length) m.bench)

/-- The machine after the effect of an instruction. -/
def conclude (m : Machine σ) (effect : Effect σ) (events : List Event) : Report σ :=
  let events := events ++ effect.notes.map .noted
  let m : Machine σ :=
    { m with memory := effect.memory, outputs := effect.outputs, port := effect.port }
  match effect.next with
  | .error stop => m.abort stop events
  | .ok (some pc) => { machine := { m with steps := m.steps + 1, pc }, events, answer := .ok none }
  | .ok none => halt { m with steps := m.steps + 1 } events

/-- One step of a running machine. -/
def execute (m : Machine σ) : Report σ :=
  match m.fetch with
  | .error stop => m.abort stop []
  | .ok command =>
    match m.traceEntry command with
    | .error why => { machine := m, events := [], answer := .error why }
    | .ok none => m.conclude (m.perform command) []
    | .ok (some line) =>
      let m := m.record line
      m.conclude (m.perform command) [.traced line]

/-- One step of a machine. A machine that has stopped answers its outcome again. -/
def step (m : Machine σ) : Report σ :=
  match m.state with
  | .running => m.execute
  | .halted | .faulted => { machine := m, events := [], answer := .ok m.outcome }

end Machine

end Intcode
