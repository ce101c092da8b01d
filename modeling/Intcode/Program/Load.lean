import Intcode.Files.Tree
import Intcode.Log.Record
import Intcode.Program
import Intcode.Text.Utf8

/-!
# Program files

A program file is a program text in UTF-8, whose carriage returns count as line feeds.

## Main definitions

* `Program.LoadError` — why a file gives no program
* `Program.load` — the program in a file
-/

namespace Intcode.Program

/-- Why a file gives no program. -/
inductive LoadError where
  /-- The file cannot be read. -/
  | file (e : Files.Error)
  /-- Its bytes are no text. -/
  | encoding (e : Utf8.Malformed)
  /-- Its text is no program. -/
  | format (e : FormatError)
  deriving DecidableEq, Repr

/-- The wording of a load error. -/
def LoadError.message : LoadError → String
  | file e => e.message
  | encoding e => e.message
  | format e => e.message

/-- The program in the bytes of a file. -/
def ofBytes (bytes : List UInt8) : Except LoadError (List Int) := do
  let text ← (Utf8.decode bytes).mapError .encoding
  (parse (Text.unifyBreaks text)).mapError .format

/-- The program in a file. -/
def load (files : Files.Tree) (path : String) : Except LoadError (List Int) := do
  let content ← (files.read (.ofString path)).mapError .file
  ofBytes content.toList

/-- The log record of a program that was loaded. -/
def loadRecord (path : String) (program : List Int) : Log.Record :=
  { level := Log.Level.debug
    logger := "intcode_vm.loader"
    origin := "load_program"
    message := "Loaded " ++ Nat.repr program.length ++ " cells from " ++
      (Files.Path.ofString path).text }

end Intcode.Program
