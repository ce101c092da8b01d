import Intcode.Numeral
import Intcode.Text.Lines
import Intcode.Text.Quoted

/-!
# Program texts

A program is written as integers with commas between them, on any number of lines. Blanks may
stand around an integer and around a line, a line may end with a comma, and a line without anything
else is skipped.

## Main definitions

* `Program.FormatError` — why a text is no program
* `Program.tokens` — the pieces of a text that should be integers
* `Program.parse` — the program that a text stands for
-/

namespace Intcode.Program

/-- Why a text is no program. -/
inductive FormatError where
  /-- A piece of the text, the one after `index` others, is no integer. -/
  | badValue (token : String) (index : Nat)
  /-- There is no piece at all. -/
  | noValues
  deriving DecidableEq, Repr

/-- The wording of a format error. -/
def FormatError.message : FormatError → String
  | badValue token index => "Bad value " ++ Text.quote token ++ " at index " ++ Nat.repr index
  | noValues => "Program contains no values"

/-- A line without the comma at its end. -/
def dropComma (line : List Char) : List Char :=
  if line.getLast? = some ',' then line.dropLast else line

/-- The pieces of a line between its commas. -/
def lineTokens (line : List Char) : List (List Char) :=
  match dropComma (Text.trim Text.isBlank line) with
  | [] => []
  | body => (body.splitOn ',').map (Text.trim Text.isBlank)

/-- The pieces of a text that should be integers. -/
def tokens (text : List Char) : List (List Char) :=
  (Text.lines text).flatMap lineTokens

/-- The integers that pieces of text stand for, the first of them after `index` others. -/
def readTokens : Nat → List (List Char) → Except FormatError (List Int)
  | _, [] => .ok []
  | index, token :: rest =>
    match Numeral.read? token with
    | none => .error (.badValue (String.ofList token) index)
    | some value => do return value :: (← readTokens (index + 1) rest)

/-- The program that a text stands for. -/
def parse (text : List Char) : Except FormatError (List Int) := do
  match ← readTokens 0 (tokens text) with
  | [] => .error .noValues
  | program => return program

end Intcode.Program
