import Intcode.CommandLine.Scan
import Intcode.Numeral
import Intcode.Toolkit.Given
import Intcode.Toolkit.Usage

/-!
# Requests

What a command line asks of the toolkit. Switches count in the order in which they stand, so that a
call for help is heard before any mistake that comes after it.

## Main definitions

* `Toolkit.Globals`, `Toolkit.RunOptions`, `Toolkit.DisasmOptions` — the options
* `Toolkit.Job` — a command with its options
* `Toolkit.Request` — what a command line asks for
* `Request.ofArguments` — the request of a command line
-/

namespace Intcode.Toolkit

open CommandLine

/-- The options of the toolkit as a whole. -/
structure Globals where
  verbose : Nat
  quiet : Bool
  logFile : Option (Given String)
  deriving DecidableEq, Repr

/-- The options of a run. -/
structure RunOptions where
  inputs : List (Given Int)
  console : Bool
  maxSteps : Option (Given Int)
  trace : Bool
  dump : Bool
  deriving DecidableEq, Repr

/-- The options of a listing. -/
structure DisasmOptions where
  start : Given Int
  count : Option (Given Int)
  deriving DecidableEq, Repr

/-- A command for a program file. -/
inductive Job where
  | run (options : RunOptions) (program : String)
  | disasm (options : DisasmOptions) (program : String)
  | info (program : String)
  deriving DecidableEq, Repr

/-- The program file of a command. -/
def Job.program : Job → String
  | run _ program | disasm _ program | info program => program

/-- What a command line asks for. -/
inductive Request where
  /-- The help on a topic. -/
  | help (topic : Topic)
  /-- The version. -/
  | version
  /-- Nothing that can be understood. -/
  | mistake (topic : Topic) (message : String)
  /-- No command. -/
  | nothing
  /-- A command. -/
  | job (globals : Globals) (job : Job)
  deriving DecidableEq, Repr

/-! ### Reading switches -/

/-- What ends the reading of switches early. -/
inductive Interruption where
  | help
  | version
  | mistake (message : String)
  deriving DecidableEq, Repr

/-- The request that an interruption comes to. -/
def Interruption.request (topic : Topic) : Interruption → Request
  | help => .help topic
  | version => .version
  | mistake message => .mistake topic message

/-- Options read so far, with the plain arguments and those that nothing takes. -/
structure Reading (α : Type) where
  options : α
  words : List String
  extras : List String

/-- The complaint about a switch. -/
def switchMistake {κ : Type} (s : Switch κ) (message : String) : Interruption :=
  .mistake ("argument " ++ s.label ++ ": " ++ message)

/-- The integer given to a switch, or a blank. -/
def intValue {κ : Type} (s : Switch κ) (value : Option String) :
    Except Interruption (Given Int) :=
  let text := value.getD ""
  if text = Given.blankText then .ok .blank
  else
    match Numeral.read? text.toList with
    | some n => .ok (.value n)
    | none => .error (switchMistake s ("invalid int value: " ++ Text.quote text))

/-- The text given to a switch, or a blank. -/
def textValue (text : String) : Given String :=
  if text = Given.blankText then .blank else .value text

/-- Reads tokens in order, each switch by `act`. -/
def readTokens {κ α : Type} (act : α → Switch κ → Option String → Except Interruption α) :
    Reading α → List (Token κ) → Except Interruption (Reading α)
  | r, [] => .ok r
  | r, .use s value :: tokens => do
    let options ← act r.options s value
    readTokens act { r with options } tokens
  | r, .word text :: tokens => readTokens act { r with words := r.words ++ [text] } tokens
  | r, .extra text :: tokens => readTokens act { r with extras := r.extras ++ [text] } tokens
  | _, .wrong s problem :: _ => .error (switchMistake s problem.message)

/-! ### The switches -/

/-- The switches of the toolkit as a whole. -/
inductive GlobalKey where
  | help
  | version
  | verbose
  | quiet
  | logFile
  deriving DecidableEq, Repr

/-- The switches of the toolkit as a whole, with their names. -/
def globalSwitches : List (Switch GlobalKey) :=
  [⟨.help, ["-h", "--help"], false⟩,
    ⟨.version, ["--version"], false⟩,
    ⟨.verbose, ["-v", "--verbose"], false⟩,
    ⟨.quiet, ["-q", "--quiet"], false⟩,
    ⟨.logFile, ["--log-file"], true⟩]

/-- The effect of a switch of the toolkit as a whole. -/
def globalSwitch (o : Globals) (s : Switch GlobalKey) (value : Option String) :
    Except Interruption Globals :=
  match s.key with
  | .help => .error .help
  | .version => .error .version
  | .verbose => .ok { o with verbose := o.verbose + 1 }
  | .quiet => .ok { o with quiet := true }
  | .logFile => .ok { o with logFile := value.map textValue }

/-- The switches of a run. -/
inductive RunKey where
  | help
  | input
  | console
  | maxSteps
  | trace
  | dump
  deriving DecidableEq, Repr

/-- The switches of a run, with their names. -/
def runSwitches : List (Switch RunKey) :=
  [⟨.help, ["-h", "--help"], false⟩,
    ⟨.input, ["-i", "--input"], true⟩,
    ⟨.console, ["--console"], false⟩,
    ⟨.maxSteps, ["--max-steps"], true⟩,
    ⟨.trace, ["--trace"], false⟩,
    ⟨.dump, ["--dump"], false⟩]

/-- The effect of a switch of a run. -/
def runSwitch (o : RunOptions) (s : Switch RunKey) (value : Option String) :
    Except Interruption RunOptions :=
  match s.key with
  | .help => .error .help
  | .input => do return { o with inputs := o.inputs ++ [← intValue s value] }
  | .console => .ok { o with console := true }
  | .maxSteps => do return { o with maxSteps := some (← intValue s value) }
  | .trace => .ok { o with trace := true }
  | .dump => .ok { o with dump := true }

/-- The switches of a listing. -/
inductive DisasmKey where
  | help
  | start
  | count
  deriving DecidableEq, Repr

/-- The switches of a listing, with their names. -/
def disasmSwitches : List (Switch DisasmKey) :=
  [⟨.help, ["-h", "--help"], false⟩,
    ⟨.start, ["--start"], true⟩,
    ⟨.count, ["--count"], true⟩]

/-- The effect of a switch of a listing. -/
def disasmSwitch (o : DisasmOptions) (s : Switch DisasmKey) (value : Option String) :
    Except Interruption DisasmOptions :=
  match s.key with
  | .help => .error .help
  | .start => do return { o with start := ← intValue s value }
  | .count => do return { o with count := some (← intValue s value) }

/-- The switches of a summary: help only. -/
def infoSwitches : List (Switch Unit) :=
  [⟨(), ["-h", "--help"], false⟩]

/-- The effect of a switch of a summary. -/
def infoSwitch (_ : Unit) (_ : Switch Unit) (_ : Option String) : Except Interruption Unit :=
  .error .help

/-! ### Requests -/

/-- The complaint about arguments that nothing takes. -/
def unrecognized (extras : List String) : Request :=
  .mistake .toolkit ("unrecognized arguments: " ++ " ".intercalate extras)

/-- The request of a command with its own arguments, which take one program. -/
def commandRequest {κ α : Type} (topic : Topic) (switches : List (Switch κ))
    (act : α → Switch κ → Option String → Except Interruption α) (options : α)
    (job : α → String → Job) (globals : Reading Globals) (arguments : List String) : Request :=
  match Arguments.ofList switches arguments with
  | .error ambiguous => .mistake topic ambiguous.message
  | .ok arguments =>
    let tokens := scanOne switches arguments.after true arguments.shaped
    match readTokens act ⟨options, [], []⟩ tokens with
    | .error i => i.request topic
    | .ok r =>
      match r.words with
      | [] => .mistake topic "the following arguments are required: program"
      | program :: _ =>
        match globals.extras ++ r.extras with
        | [] => .job globals.options (job r.options program)
        | extras => unrecognized extras

/-- The request of a command by its name. -/
def namedRequest (globals : Reading Globals) (invocation : Invocation) : Request :=
  let arguments := invocation.arguments
  match invocation.name with
  | "run" =>
    commandRequest .run runSwitches runSwitch ⟨[], false, none, false, false⟩ .run globals
      arguments
  | "disasm" =>
    commandRequest .disasm disasmSwitches disasmSwitch ⟨.value 0, none⟩ .disasm globals arguments
  | "info" =>
    commandRequest .info infoSwitches infoSwitch () (fun _ => .info) globals arguments
  | name =>
    .mistake .toolkit ("argument command: invalid choice: " ++ Text.quote name ++
      " (choose from 'run', 'disasm', 'info')")

/-- The request of a command line. -/
def Request.ofArguments (arguments : List String) : Request :=
  match Arguments.ofList globalSwitches arguments with
  | .error ambiguous => .mistake .toolkit ambiguous.message
  | .ok arguments =>
    let (tokens, invocation) := scanCommand globalSwitches arguments.after arguments.shaped
    match readTokens globalSwitch ⟨⟨0, false, none⟩, [], []⟩ tokens with
    | .error i => i.request .toolkit
    | .ok r =>
      match invocation, r.extras with
      | some invocation, _ => namedRequest r invocation
      | none, [] => .nothing
      | none, extras => unrecognized extras

end Intcode.Toolkit
