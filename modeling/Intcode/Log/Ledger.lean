import Intcode.Files.Tree
import Intcode.Log.Record
import Intcode.Log.Register
import Intcode.Refusal

/-!
# Loggers

A record given to a logger reaches the handlers of that logger and of those above it, up to one that
does not pass records on. A logger that was set up has a console, perhaps a file, hears everything
from the level of details on, and passes nothing on. It is set up once: a second attempt changes
nothing, even when the first failed half-way.

A logger works out once whether it hears a level, and remembers the answer until some logger is
given a level of its own.

## Main definitions

* `Log.Logger`, `Log.Handler` — a logger and where it sends records
* `Log.Ledger` — the loggers that are known, and what they have written
* `Ledger.hears`, `Ledger.ask` — whether a logger hears a level, and has it remember
* `Ledger.receivers` — the handlers that a record reaches
* `Ledger.write` — takes a record down
* `Ledger.log` — takes a record of any level down, or refuses to
* `Ledger.setUp` — sets up a logger
-/

namespace Intcode.Log

/-- Where records go. -/
inductive Sink where
  /-- To the console. -/
  | console
  /-- To the file at a place. -/
  | file (place : List String)
  deriving DecidableEq, Repr

/-- A sink that takes the records from a level on. -/
structure Handler where
  sink : Sink
  level : Int
  deriving DecidableEq, Repr

/-- A logger: the level it hears from, `0` for that of the logger above, whether it passes records
on, and its handlers. -/
structure Logger where
  level : Int
  propagates : Bool
  handlers : List Handler
  deriving DecidableEq, Repr

/-- The texts that stand for moments and places in a log. -/
structure Clock where
  /-- The time of a record. -/
  time : String
  /-- The line that a record came from. -/
  line : String
  /-- The time in the name of a file. -/
  stamp : String
  deriving DecidableEq, Repr

/-- The names that were entered, the loggers that were changed, what loggers have answered when they
were asked whether they hear a level, what the consoles have received, and the files. -/
structure Ledger where
  names : Register
  loggers : List (String × Logger)
  answers : List ((String × Int) × Bool)
  console : List Record
  files : Files.Tree
  clock : Clock

namespace Ledger

/-- A ledger without any logger. -/
def ofFiles (files : Files.Tree) (clock : Clock) : Ledger :=
  { names := .empty, loggers := [], answers := [], console := [], files, clock }

/-- Enters a name. -/
def enter (l : Ledger) (name : String) : Ledger :=
  { l with names := l.names.enter name }

/-- The logger of a name. One that was not set up hears from the level of the logger above it, and
the root from warnings on. -/
def logger (l : Ledger) (name : String) : Logger :=
  match l.loggers.find? fun item => item.1 = name with
  | some item => item.2
  | none => ⟨if name = rootName then Level.warning else 0, true, []⟩

/-- Changes the logger of a name. -/
def putLogger (l : Ledger) (name : String) (logger : Logger) : Ledger :=
  { l with loggers := (name, logger) :: l.loggers.filter fun item => item.1 ≠ name }

/-- Gives the logger of a name a level and handlers of its own. All loggers forget what they have
answered. -/
def configure (l : Ledger) (name : String) (logger : Logger) : Ledger :=
  { l.putLogger name logger with answers := [] }

/-- The level that the logger of a name hears from: its own, or that of the nearest logger above it
that has one. -/
def effectiveLevel (l : Ledger) (name : String) : Int :=
  ((l.names.lineage name).map fun n => (l.logger n).level).find? (· ≠ 0) |>.getD 0

/-- Whether the logger of a name hears a level, by what it remembers or else by where it stands. -/
def hears (l : Ledger) (name : String) (level : Int) : Bool :=
  (l.answers.lookup (name, level)).getD (l.effectiveLevel name ≤ level)

/-- Asks the logger of a name whether it hears a level, which it then remembers. -/
def ask (l : Ledger) (name : String) (level : Int) : Ledger :=
  match l.answers.lookup (name, level) with
  | some _ => l
  | none => { l with answers := ((name, level), l.hears name level) :: l.answers }

/-- The handlers of some loggers, up to one that does not pass records on. -/
def handlersAlong (l : Ledger) : List String → List Handler
  | [] => []
  | name :: above =>
    let logger := l.logger name
    logger.handlers ++ if logger.propagates then l.handlersAlong above else []

/-- The handlers that a record of a level reaches from the logger of a name. -/
def receivers (l : Ledger) (name : String) (level : Int) : List Handler :=
  if l.hears name level then
    (l.handlersAlong (l.names.lineage name)).filter fun h => h.level ≤ level
  else []

/-- Whether a record of a level reaches a console from the logger of a name. -/
def isHeard (l : Ledger) (name : String) (level : Int) : Bool :=
  ((l.enter name).receivers name level).any fun h => h.sink = .console

/-- The name of a level in seven columns. -/
def levelColumn (level : Int) : String :=
  let name := Level.name level
  name ++ String.ofList (List.replicate (7 - name.length) ' ')

/-- The line of a file for a record. -/
def line (l : Ledger) (r : Record) : String :=
  l.clock.time ++ " | " ++ levelColumn r.level ++ " | " ++ r.logger ++ " | " ++ r.origin ++ ":" ++
    l.clock.line ++ " | " ++ r.message ++ "\n"

/-- Takes a record down where one handler sends it. -/
def send (r : Record) (l : Ledger) (h : Handler) : Ledger :=
  match h.sink with
  | .console => { l with console := l.console ++ [r] }
  | .file place => { l with files := l.files.append place (l.line r).toUTF8 }

/-- Takes a record down wherever it reaches. -/
def write (l : Ledger) (r : Record) : Ledger :=
  let l := (l.enter r.logger).ask r.logger r.level
  (l.receivers r.logger r.level).foldl (send r) l

/-- Takes a record of any level down. One that is heard must have a level with a name. -/
def log (l : Ledger) (r : Record) : Ledger × Option Refusal :=
  let l := (l.enter r.logger).ask r.logger r.level
  if l.hears r.logger r.level && !Level.isNameable r.level then (l, some .numberTooLong)
  else (l.write r, none)

/-- Takes records down, one after the other. -/
def writeAll (l : Ledger) (rs : List Record) : Ledger :=
  rs.foldl write l

/-- How a logger is to be set up: the level of its console, and its file, or else the directory
for a file named after the logger and the time. -/
structure Options where
  consoleLevel : Int
  file : Option String
  directory : Option String
  deriving DecidableEq, Repr

/-- The file that a logger is to write. -/
def filePath? (l : Ledger) (name : String) (options : Options) : Option Files.Path :=
  match options.file, options.directory with
  | some file, _ => some (.ofString file)
  | none, some directory =>
    some ((Files.Path.ofString directory).join
      (.ofString (name ++ "_" ++ l.clock.stamp ++ ".log")))
  | none, none => none

/-- Adds a handler to the logger of a name. -/
def addHandler (l : Ledger) (name : String) (h : Handler) : Ledger :=
  let logger := l.logger name
  l.putLogger name { logger with handlers := logger.handlers ++ [h] }

/-- Gives the logger of a name a file, in a directory that is made if need be. The file is opened by
its path from the root. -/
def openFile (l : Ledger) (name : String) (path : Files.Path) : Ledger × Option Files.Error :=
  match l.files.makeDirectories path.parent with
  | (files, some e) => ({ l with files }, some e)
  | (files, none) =>
    match files.openAppend (files.absolute path) with
    | .error e => ({ l with files }, some e)
    | .ok (files, place) =>
      let l := addHandler { l with files } name ⟨.file place, Level.debug⟩
      (l.write ⟨Level.info, name, "setup_logging", "Log file: " ++ path.text⟩, none)

/-- Sets up the logger of a name, unless it has handlers. -/
def setUp (l : Ledger) (name : String) (options : Options) : Ledger × Option Files.Error :=
  let known := canonical name
  let l := l.enter known
  if (l.logger known).handlers.isEmpty then
    let l := l.configure known ⟨Level.debug, false, [⟨.console, options.consoleLevel⟩]⟩
    match l.filePath? name options with
    | none => (l, none)
    | some path => l.openFile known path
  else (l, none)

end Ledger

end Intcode.Log
