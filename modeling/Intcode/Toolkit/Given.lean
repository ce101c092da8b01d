import Intcode.Files.Tree

/-!
# Values of switches

A switch that takes a value may be given a blank instead: a double dash joined to its name. A blank
is accepted everywhere, and a session breaks down only when it has to use one as a number or a text.
So it is up to release 3.11.8 of the conventions; later ones take the double dash for the value.

## Main definitions

* `Toolkit.Given` — a value or a blank
* `Toolkit.Breakdown` — why a session breaks down
-/

namespace Intcode.Toolkit

/-- What a switch is given. -/
inductive Given (α : Type) where
  | value (a : α)
  | blank
  deriving DecidableEq, Repr

namespace Given

variable {α : Type}

/-- The value, if it is no blank. -/
def value? : Given α → Option α
  | value a => some a
  | blank => none

/-- The blank as it is written. -/
def blankText : String := "--"

end Given

/-- Why a session breaks down. -/
inductive Breakdown where
  /-- The log file cannot be written. -/
  | file (e : Files.Error)
  /-- A blank stands where a number or a text is needed. -/
  | blankUsed
  /-- A blank is to be repeated more often than can be counted. -/
  | countTooLarge
  deriving DecidableEq, Repr

/-- The wording of a breakdown. -/
def Breakdown.message : Breakdown → String
  | file e => e.message
  | blankUsed => "a blank is no value"
  | countTooLarge => "a blank cannot be repeated so often"

end Intcode.Toolkit
