import Intcode.Numeral

/-!
# Log records

A record of a log has a level, the name of the logger it was given to, the routine it came from,
and a message.

## Main definitions

* `Log.Level.name` — the name of a level
* `Log.Record` — a record
* `Log.levelOf` — the level that a user asks for
-/

namespace Intcode.Log

namespace Level

/-- The level of details. -/
def debug : Int := 10

/-- The level of ordinary events. -/
def info : Int := 20

/-- The level of faults. -/
def warning : Int := 30

/-- The level of errors. -/
def error : Int := 40

/-- The level of failures that cannot be mended. -/
def critical : Int := 50

/-- The name of a level. -/
def name (level : Int) : String :=
  if level = debug then "DEBUG"
  else if level = info then "INFO"
  else if level = warning then "WARNING"
  else if level = error then "ERROR"
  else if level = critical then "CRITICAL"
  else "Level " ++ Numeral.decimal level

/-- Whether a level has a name that can be written. -/
def isNameable (level : Int) : Bool := Numeral.Writable level

end Level

/-- A record of a log. -/
structure Record where
  level : Int
  logger : String
  origin : String
  message : String
  deriving DecidableEq, Repr

/-- The level of a console whose user asked to hear more `verbose` times, or only of errors. -/
def levelOf (verbose : Int) (quiet : Bool) : Int :=
  if quiet then Level.error
  else if verbose ≤ 0 then Level.warning
  else if verbose = 1 then Level.info
  else Level.debug

end Intcode.Log
