import Intcode.Listing
import Intcode.Log.Ledger
import Intcode.Machine.Journal
import Intcode.Machine.Run
import Intcode.Memory.Dump
import Intcode.Port.Console
import Intcode.Port.Echo
import Intcode.Program.Load
import Intcode.Toolkit.Hollow
import Intcode.Toolkit.Request

/-!
# Sessions of the toolkit

A session answers one command line. It starts from the files and the input stream, and ends with a
status, the text on the two output streams, and what was logged. The status is `0` when all went
well, `2` when the machine stopped with a fault, and `1` for anything else that went wrong; a
command line that cannot be understood ends with `2` as well.

A session does not say how its machines are run. They may be run within a number of steps, or while
somebody types and reads.

## Main definitions

* `Toolkit.World` — what a session reads and writes
* `Toolkit.Ending` — how a session ends
* `Toolkit.Runner` — how the machines of a session are run
* `Toolkit.runJob`, `Toolkit.disasmJob`, `Toolkit.infoJob` — the three commands
* `Toolkit.session` — a whole session
-/

namespace Intcode.Toolkit

/-- What a session reads and writes. -/
structure World where
  ledger : Log.Ledger
  /-- The input stream. -/
  input : String
  /-- Whether the input stream is a terminal. -/
  terminal : Bool
  output : String
  errors : String

/-- How a session ends. -/
inductive Ending where
  /-- With a status, after its work. -/
  | finished (status : Nat)
  /-- With a status, before there was any work to do. -/
  | dismissed (status : Nat)
  /-- With a breakdown. -/
  | broken (why : Breakdown)
  deriving DecidableEq, Repr

namespace World

/-- Prints a text and the end of a line. -/
def print (w : World) (text : String) : World :=
  { w with output := w.output ++ text ++ "\n" }

/-- Prints a text and the end of a line on the stream for errors. -/
def printError (w : World) (text : String) : World :=
  { w with errors := w.errors ++ text ++ "\n" }

/-- Logs records. -/
def log (w : World) (records : List Log.Record) : World :=
  { w with ledger := w.ledger.writeAll records }

/-- Whether the console hears a machine at a level. -/
def hears (w : World) (level : Int) : Bool :=
  w.ledger.isHeard machineLogger level

/-- Ends a session with an error message. -/
def giveUp (w : World) (message : String) : Ending × World :=
  (.finished 1, w.printError ("Error: " ++ message))

/-- Ends a session with a refusal. -/
def refuse (w : World) (why : Refusal) : Ending × World :=
  w.giveUp why.message

end World

/-! ### Runs -/

/-- How the machines of a session are run to their ends: those on a console, those on an echoing
port, and those with blanks. -/
structure Runner (M : Type → Type) where
  console : Machine Port.Console → M (Report Port.Console)
  echo : Machine Port.Echo → M (Report Port.Echo)
  hollow : Option Int → Bool → Hollow → M (Hollow × Hollow.Progress)

/-- Runs within `fuel` steps. -/
def Runner.within (fuel : Nat) : Runner Option where
  console m := m.run fuel
  echo m := m.run fuel
  hollow maxSteps tracing m := m.run maxSteps tracing fuel

variable {M : Type → Type} [Applicative M]

/-- Loads a program and goes on with it, or gives up. -/
def withProgram {α : Type} (w : World) (path : String) (giveUp : Ending × World → α)
    (goOn : World → List Int → α) : α :=
  match Program.load w.ledger.files path with
  | .error e => giveUp (w.giveUp e.message)
  | .ok program => goOn (w.log [Program.loadRecord path program]) program

/-- Reports a fault by its name and its wording, which is `none` when it cannot be written. -/
def reportFault (w : World) (name : String) (message? : Option String) : Ending × World :=
  match message? with
  | none => w.refuse .numberTooLong
  | some message => (.finished 2, w.printError ("Fault: " ++ name ++ ": " ++ message))

/-- Reports a halt after some steps with the text of the first cell, if it can be written. -/
def reportHalt (w : World) (steps : Nat) (value? : Option String) : Ending × World :=
  match Numeral.write? steps, value? with
  | some steps, some value =>
    (.finished 0, w.print ("Halted after " ++ steps ++ " steps; memory[0] = " ++ value))
  | _, _ => w.refuse .numberTooLong

/-- Reports the outcome of a run. -/
def reportOutcome (w : World) (outcome : Outcome) : Ending × World :=
  match outcome.ending with
  | .faulted fault _ => reportFault w fault.cause.name fault.message?
  | .halted value => reportHalt w outcome.steps (Numeral.write? value)

/-- Shows what was asked for after a run: the trace, the memory, and the outcome. -/
def reportRun {σ : Type} (w : World) (options : RunOptions) (m : Machine σ) (outcome : Outcome) :
    Ending × World :=
  let w := if options.trace then w.printError m.traceText else w
  if options.dump then
    match m.memory.dump 0 none Memory.rowLength with
    | .error why => w.refuse why
    | .ok text => reportOutcome (w.print text) outcome
  else reportOutcome w outcome

/-- The log record of a run that begins. -/
def runRecord (path : String) (program : List Int) : Log.Record :=
  { level := Log.Level.info
    logger := "intcode_vm.cli"
    origin := "cmd_run"
    message := "Running " ++ path ++ " (" ++ Nat.repr program.length ++ " cells)" }

/-- What becomes of a session when the machine has run: `printed` is the text on its port. -/
def concludeRun {σ : Type} (w : World) (options : RunOptions) (printed : σ → String)
    (report : Report σ) : Ending × World :=
  let w := w.log (Event.records report.events)
  let w := { w with output := w.output ++ printed report.machine.port }
  match (report.heardBy w.hears).answer with
  | .error why => w.refuse why
  | .ok none => (.finished 1, w)
  | .ok (some outcome) => reportRun w options report.machine outcome

/-- Runs a program on a port. -/
def runOn {σ : Type} (run : Machine σ → M (Report σ)) (w : World) (options : RunOptions)
    (maxSteps : Option Int) (path : String) (program : List Int) (port : σ)
    (printed : σ → String) : M (Ending × World) :=
  match Machine.create program.toArray port maxSteps options.trace with
  | .error why => pure (w.refuse why)
  | .ok m =>
    let w := w.log [runRecord path program]
    concludeRun w options printed <$> run m

/-! ### Runs with blanks -/

/-- Shows what was asked for after a run with blanks, and goes on to the outcome. A memory that
holds a blank cannot be dumped. -/
def reportHollow (w : World) (options : RunOptions) (m : Hollow)
    (goOn : World → Ending × World) : Ending × World :=
  let w := if options.trace then w.printError ("\n".intercalate m.trace.toList) else w
  if options.dump then
    match m.cells.toList.mapM cellText?, m.numbers? with
    | none, _ => w.refuse .numberTooLong
    | some _, none => (.broken .blankUsed, w)
    | some _, some cells =>
      match Memory.dump ⟨cells.toArray⟩ 0 none Memory.rowLength with
      | .error why => w.refuse why
      | .ok text => goOn (w.print text)
  else goOn w

/-- What becomes of a session when a run with blanks has come to a `HALT`. -/
def concludeHollowHalt (w : World) (options : RunOptions) (m : Hollow) : Ending × World :=
  let value := m.cells[0]?.getD .blank
  let record? :=
    match m.pc, value with
    | .value pc, .value n => (Event.halted pc m.steps n m.outputs).record?
    | _, _ => none
  let goOn (w : World) := reportHollow w options m fun w => reportHalt w m.steps (cellText? value)
  match record?, value with
  | some record, _ => goOn (w.log [record])
  | none, .value _ => if w.hears Log.Level.info then w.refuse .numberTooLong else goOn w
  | none, .blank => if w.hears Log.Level.info then (.broken .blankUsed, w) else goOn w

/-- What becomes of a session when a run with blanks has come to a fault. -/
def concludeHollowFault (w : World) (options : RunOptions) (m : Hollow) (name text : String) :
    Ending × World :=
  let message? := (cellText? m.pc).map fun pc => text ++ " (pc=" ++ pc ++ ")"
  let goOn (w : World) := reportHollow w options m fun w => reportFault w name message?
  match message? with
  | some message => goOn (w.log [faultRecord (Nat.repr m.steps) name message])
  | none => if w.hears Log.Level.warning then w.refuse .numberTooLong else goOn w

/-- What becomes of a session when a run with blanks has ended. -/
def concludeHollow (w : World) (options : RunOptions) (m : Hollow) (how : Hollow.Progress) :
    Ending × World :=
  let w := w.log (Event.records (m.trace.toList.map .traced))
  let w := { w with output := w.output ++ m.printed }
  match how with
  | .running => (.finished 1, w)
  | .halted => concludeHollowHalt w options m
  | .stopped (.fault name text) => concludeHollowFault w options m name text
  | .stopped (.refused why) => w.refuse why
  | .stopped (.broken why) => (.broken why, w)

/-- Runs a program whose inputs may be blanks. -/
def runHollow (runner : Runner M) (w : World) (options : RunOptions) (maxSteps : Option Int)
    (path : String) (program : List Int) : M (Ending × World) :=
  match Machine.create program.toArray () maxSteps options.trace with
  | .error why => pure (w.refuse why)
  | .ok _ =>
    let w := w.log [runRecord path program]
    let start := Hollow.ofProgram program options.inputs
    (fun (m, how) => concludeHollow w options m how) <$> runner.hollow maxSteps options.trace start

/-! ### The three commands -/

/-- The prompt of a console. -/
def prompt (terminal : Bool) : String :=
  if terminal then "> " else ""

/-- Runs a program that was loaded. -/
def runLoaded (runner : Runner M) (w : World) (options : RunOptions) (maxSteps : Option Int)
    (path : String) (program : List Int) : M (Ending × World) :=
  if options.console then
    let port := Port.Console.ofText w.input (prompt w.terminal)
    runOn runner.console w options maxSteps path program port fun port => port.output
  else
    match options.inputs.mapM Given.value? with
    | some inputs =>
      let port := Port.Echo.ofInputs inputs
      runOn runner.echo w options maxSteps path program port fun port => port.printed
    | none => runHollow runner w options maxSteps path program

/-- The command that runs a program. -/
def runJob (runner : Runner M) (w : World) (options : RunOptions) (path : String) :
    M (Ending × World) :=
  withProgram w path pure fun w program =>
    match options.maxSteps with
    | none => runLoaded runner w options none path program
    | some (.value limit) => runLoaded runner w options (some limit) path program
    | some .blank => pure (.broken .blankUsed, w)

/-- Lists a program from an address on, at most `count` lines if a count is given. -/
def listProgram (w : World) (program : List Int) (start : Int) (count : Option (Given Int)) :
    Ending × World :=
  let memory : Memory := ⟨program.toArray⟩
  let listed (count : Option Int) :=
    match Listing.text memory start count with
    | .error why => w.refuse why
    | .ok text => (.finished 0, w.print text)
  if memory.inBounds start then
    match count with
    | none => listed none
    | some (.value count) => listed (some count)
    | some .blank => (.broken .blankUsed, w)
  else
    match Numeral.write? start with
    | none => w.refuse .numberTooLong
    | some start =>
      w.giveUp ("--start " ++ start ++ " outside program of " ++ Nat.repr memory.size ++ " cells")

/-- The command that lists a program. -/
def disasmJob (w : World) (options : DisasmOptions) (path : String) : Ending × World :=
  withProgram w path id fun w program =>
    match options.start with
    | .value start => listProgram w program start options.count
    | .blank => (.broken .blankUsed, w)

/-- The order of names in a summary: the most frequent first, and by name among equals. -/
def comesBefore (a b : String × Nat) : Bool :=
  b.2 < a.2 || (a.2 == b.2 && a.1 ≤ b.1)

/-- The smallest and the largest cell of a program. -/
def range (program : List Int) : Int × Int :=
  (program.foldl min (program.headD 0), program.foldl max (program.headD 0))

/-- The command that summarises a program. -/
def infoJob (w : World) (path : String) : Ending × World :=
  withProgram w path id fun w program =>
    match Listing.histogram ⟨program.toArray⟩ with
    | .error why => w.refuse why
    | .ok counts =>
      let w := (w.print ("File:   " ++ path)).print ("Cells:  " ++ Nat.repr program.length)
      let (least, greatest) := range program
      match Numeral.write? least, Numeral.write? greatest with
      | some least, some greatest =>
        let w := w.print ("Range:  " ++ least ++ " .. " ++ greatest)
        let w := w.print "Linear-sweep decode:"
        let rows := counts.mergeSort comesBefore
        (.finished 0, rows.foldl (fun w row =>
          w.print ("  " ++ Text.padRight 5 row.1 ++ " " ++ Nat.repr row.2)) w)
      | _, _ => w.refuse .numberTooLong

/-! ### Whole sessions -/

/-- The name of the logger of the toolkit. -/
def logName : String := "intcode_vm"

/-- Sets up the log that the options ask for. A blank is no file, which matters if the log was not
set up before. -/
def setUpLog (w : World) (globals : Globals) : World × Option Breakdown :=
  let options : Log.Ledger.Options :=
    { consoleLevel := Log.levelOf globals.verbose globals.quiet
      file := globals.logFile.bind Given.value?
      directory := none }
  let (ledger, error) := w.ledger.setUp logName options
  let unset := (w.ledger.logger logName).handlers.isEmpty
  let why := if unset ∧ globals.logFile = some .blank then some .blankUsed else error.map .file
  ({ w with ledger }, why)

/-- Carries out a command. -/
def perform (runner : Runner M) (w : World) : Job → M (Ending × World)
  | .run options path => runJob runner w options path
  | .disasm options path => pure (disasmJob w options path)
  | .info path => pure (infoJob w path)

/-- Answers a request. -/
def serve (runner : Runner M) (w : World) : Request → M (Ending × World)
  | .help topic => pure (.dismissed 0, { w with output := w.output ++ topic.help })
  | .version => pure (.dismissed 0, w.print version)
  | .mistake topic message =>
    pure (.dismissed 2, { w with errors := w.errors ++ topic.complaint message })
  | .nothing => pure (.finished 1, { w with output := w.output ++ Topic.toolkit.help })
  | .job globals job =>
    match setUpLog w globals with
    | (w, some why) => pure (.broken why, w)
    | (w, none) => perform runner w job

/-- A whole session for a command line, within `fuel` steps of a machine. -/
def session (fuel : Nat) (arguments : List String) (w : World) : Option (Ending × World) :=
  serve (.within fuel) w (Request.ofArguments arguments)

end Intcode.Toolkit
