import Intcode.Toolkit.Session
import Std.Time.Format

/-!
# The toolkit as a program

The outer layer of the toolkit: it copies the files that a command line names into a tree, lets the
session run while it passes on what is printed and typed, and writes the log back.
-/

namespace Intcode.Toolkit

/-- Copies into a tree what the names lead to from a directory on. -/
def survey (t : Files.Tree) (here : List String) : List String → IO Files.Tree
  | [] => return t
  | ".." :: names => survey t here.dropLast names
  | name :: names => do
    let place := here ++ [name]
    let path := (← IO.currentDir) / ("/" ++ "/".intercalate place)
    if name.toList.contains (Char.ofNat 0) then return t
    else if ← path.isDir then survey (t.put place .directory) place names
    else if ← path.pathExists then return t.put place (.file (← IO.FS.readBinFile path))
    else return t

/-- Copies into a tree what a path leads to. -/
def surveyPath (t : Files.Tree) (text : String) : IO Files.Tree :=
  let path := Files.Path.ofString text
  survey t (if path.anchor = .relative then t.working else []) path.names

/-- The files that a request is about. -/
def Request.paths : Request → List String
  | .job globals work => (globals.logFile.bind Given.value?).toList ++ [work.program]
  | _ => []

/-- Writes back what is new in a tree. -/
def writeBack (before after : Files.Tree) : IO Unit := do
  for (place, entry) in after.entries.reverse do
    let path := (← IO.currentDir) / ("/" ++ "/".intercalate place)
    match entry, before.find? place with
    | .directory, none => IO.FS.createDirAll path
    | .file content, some (.file old) =>
      if content.size ≠ old.size then IO.FS.writeBinFile path content
    | .file content, none => IO.FS.writeBinFile path content
    | _, _ => pure ()

/-- The world that a request meets. -/
def worldFor (request : Request) : IO World := do
  let now ← Std.Time.PlainDateTime.now
  let clock : Log.Clock :=
    { time := now.format "uuuu-MM-dd HH:mm:ss", line := "0", stamp := now.format "uuuuMMdd_HHmmss" }
  let working := ((← IO.currentDir).toString.splitOn "/").filter (· ≠ "")
  let files ← request.paths.foldlM surveyPath (Files.Tree.empty working)
  return { ledger := .ofFiles files clock, input := "", terminal := ← (← IO.getStdin).isTty
           output := "", errors := "" }

/-- What is done while somebody types and reads. It keeps track of how much of the output has been
printed. -/
abbrev Live := StateT Nat IO

/-- Steps a machine to its end and prints what its port prints, as it comes. Before a step that
asks for a value, `feed` may supply one; it also says how much of the text it has printed. -/
partial def drive {σ : Type} [Port σ] (printed : σ → String)
    (feed : Machine σ → Nat → IO (Machine σ × Nat)) (m : Machine σ) (events : Array Event)
    (shown : Nat) : IO (Report σ × Nat) := do
  let (m, shown) ← if m.awaitsInput then feed m shown else pure (m, shown)
  let report := m.step
  let text := ((printed report.machine.port).drop shown).toString
  IO.print text
  let shown := shown + text.length
  let events := events ++ report.events
  match report.answer with
  | .ok none => drive printed feed report.machine events shown
  | _ => return ({ report with events := events.toList }, shown)

/-- Shows the prompt of a console and reads the line that is typed. -/
def feedConsole (m : Machine Port.Console) (shown : Nat) : IO (Machine Port.Console × Nat) := do
  IO.print m.port.prompt
  (← IO.getStdout).flush
  let line ← (← IO.getStdin).getLine
  return ({ m with port := { m.port with input := line.toList } }, shown + m.port.prompt.length)

/-- Steps a program with blanks to its end. -/
partial def driveHollow (maxSteps : Option Int) (tracing : Bool) (m : Hollow) :
    IO (Hollow × Hollow.Progress) :=
  match m.step maxSteps tracing with
  | (m, .running) => driveHollow maxSteps tracing m
  | ended => return ended

/-- Runs while somebody types and reads. -/
def Runner.live : Runner Live where
  console m := drive (·.output) feedConsole m #[]
  echo m := drive (·.printed) (fun m shown => return (m, shown)) m #[]
  hollow maxSteps tracing m := driveHollow maxSteps tracing m

end Intcode.Toolkit

open Intcode.Toolkit in
/-- Runs the toolkit on a command line. -/
def main (arguments : List String) : IO UInt32 := do
  let request := Request.ofArguments arguments
  let before ← worldFor request
  let ((ending, after), shown) ← (serve .live before request).run 0
  writeBack before.ledger.files after.ledger.files
  for record in after.ledger.console do
    IO.eprintln (Intcode.Log.Level.name record.level ++ " " ++ record.message)
  IO.print (after.output.drop shown).toString
  IO.eprint after.errors
  match ending with
  | .finished status | .dismissed status => return status.toUInt32
  | .broken why =>
    IO.eprintln why.message
    return 1
