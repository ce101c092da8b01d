import Intcode.Numeral.Digit
import Intcode.Text.Blank

/-!
# Decimal numerals

Integers are unbounded, but their decimal texts are not: a number of more than `digitLimit` digits
is neither written nor read. Everything that shows a number therefore has an `Option` result, and
everything that reads one treats a numeral that is too long as no numeral at all.

A numeral is an optional sign and one or more decimal digits of any script, with single underscores
between digits only, and blanks around the whole.

## Main definitions

* `Numeral.digitLimit` — the most digits a numeral has
* `Numeral.decimal` — the decimal text of an integer, of any length
* `Numeral.write?` — the decimal text of an integer within the limit
* `Numeral.digits?` — the digits of an unsigned numeral
* `Numeral.digitCount?` — how many digits a numeral has
* `Numeral.read?` — the integer that a numeral stands for

## Main results

* `Numeral.write?_isSome_iff` — the numbers that can be written
-/

namespace Intcode.Numeral

/-- The most digits a numeral has. -/
def digitLimit : Nat := 4300

/-- The text of an integer in decimal notation. -/
def decimal (n : Int) : String :=
  if n < 0 then "-" ++ Nat.repr n.natAbs else Nat.repr n.natAbs

/-- Whether an integer has at most `digitLimit` digits. -/
def Writable (n : Int) : Prop := n.natAbs < Nat.pow 10 digitLimit

instance (n : Int) : Decidable (Writable n) := inferInstanceAs (Decidable (_ < _))

/-- The text of an integer in decimal notation, or `none` when it has too many digits. -/
def write? (n : Int) : Option String :=
  if Writable n then some (decimal n) else none

theorem write?_of_writable {n : Int} (h : Writable n) : write? n = some (decimal n) := if_pos h

theorem write?_isSome_iff {n : Int} : (write? n).isSome ↔ Writable n := by
  unfold write?
  split <;> simp [*]

/-- The values of the digits of an unsigned numeral: digits, and single underscores between them. -/
def digits? : List Char → Option (List Nat)
  | [] => none
  | [c] => (digit? c).map ([·])
  | c :: '_' :: text => do
    let d ← digit? c
    let ds ← digits? text
    return d :: ds
  | c :: text => do
    let d ← digit? c
    let ds ← digits? text
    return d :: ds

/-- The number with the given decimal digits, the most significant first. -/
def value (ds : List Nat) : Nat :=
  ds.foldl (fun n d => 10 * n + d) 0

/-- The number that an unsigned numeral of at most `digitLimit` digits stands for. -/
def unsigned? (text : List Char) : Option Nat := do
  let ds ← digits? text
  if ds.length ≤ digitLimit then some (value ds) else none

/-- A numeral without its sign and the blanks around it. -/
def unsignedPart (text : List Char) : List Char :=
  match Text.trim Text.isNumeralBlank text with
  | '-' :: body => body
  | '+' :: body => body
  | body => body

/-- How many digits a numeral of any length has. -/
def digitCount? (text : List Char) : Option Nat :=
  (digits? (unsignedPart text)).map List.length

/-- The integer that a numeral stands for. -/
def read? (text : List Char) : Option Int :=
  match Text.trim Text.isNumeralBlank text with
  | '-' :: body => (unsigned? body).map fun n => -(n : Int)
  | '+' :: body => (unsigned? body).map fun n => (n : Int)
  | body => (unsigned? body).map fun n => (n : Int)

end Intcode.Numeral
