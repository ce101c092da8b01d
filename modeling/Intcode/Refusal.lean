import Intcode.Numeral
import Intcode.Text.Quoted

/-!
# Refusals

A request that the library turns down, as against a fault of the machine that runs: the machine
records a fault and stops, while a refusal goes back to the caller and leaves the machine running.
The commonest one is that a number has too many digits to be written.

## Main definitions

* `Refusal` — the requests turned down
* `Refusal.message` — the wording of each
* `Refusal.orTooLong` — what becomes of a refusal whose own wording cannot be written
-/

namespace Intcode

/-- A request that the library turns down. -/
inductive Refusal where
  /-- A number has more digits than a numeral may have. -/
  | numberTooLong
  /-- A wait for less than no time. -/
  | negativeTimeout
  /-- A time that should be a whole number. -/
  | notWhole (text : String)
  /-- A time that should be a real number. -/
  | notReal (text : String)
  /-- A time given by a numeral of too many digits. -/
  | numeralTooLong (digits : Nat)
  /-- A time of whole seconds beyond all binary64 numbers. -/
  | timeoutTooLarge
  /-- A wait of more nanoseconds than 63 bits can count. -/
  | waitTooLong
  /-- A wait that nothing can end. -/
  | endlessWait
  /-- A machine without any memory. -/
  | emptyProgram
  /-- A budget of fewer than no steps. -/
  | negativeStepLimit (limit : Int)
  /-- A listing line at an address that the program does not have. -/
  | addressOutside (address : Int) (size : Nat)
  /-- A sweep that begins at an address that the program does not have. -/
  | startOutside (start : Int) (size : Nat)
  /-- Rows of no cells. -/
  | emptyRows
  /-- A column of more places than 63 bits can count. -/
  | columnTooWide
  /-- A fault that no machine records, given by its name and in words. -/
  | unrecorded (fault text : String)
  deriving DecidableEq, Repr

namespace Refusal

/-- The wording for a number that has too many digits. -/
def tooLongText : String :=
  "Exceeds the limit (4300 digits) for integer string conversion; " ++
    "use sys.set_int_max_str_digits() to increase the limit"

/-- The wording of a refusal, or `none` when a number in it cannot be written. -/
def text? : Refusal → Option String
  | numberTooLong => some tooLongText
  | negativeTimeout => some "'timeout' must be a non-negative number"
  | notWhole text =>
    some ("invalid literal for int() with base 10: " ++
      String.ofList ((Text.quote text).toList.take 200))
  | notReal text => some ("could not convert string to float: " ++ Text.quote text)
  | numeralTooLong digits => do
    return "Exceeds the limit (4300 digits) for integer string conversion: value has " ++
      (← Numeral.write? digits) ++
      " digits; use sys.set_int_max_str_digits() to increase the limit"
  | timeoutTooLarge => some "int too large to convert to float"
  | waitTooLong => some "timestamp too large to convert to C _PyTime_t"
  | endlessWait => some "no value can arrive"
  | emptyProgram => some "program must be a non-empty sequence of integers"
  | negativeStepLimit limit => do
    return "max_steps must be >= 0, got " ++ (← Numeral.write? limit)
  | addressOutside address size => do
    return "Address " ++ (← Numeral.write? address) ++ " outside program of " ++
      (← Numeral.write? size) ++ " cells"
  | startOutside start size => do
    return "Start " ++ (← Numeral.write? start) ++ " outside program of " ++
      (← Numeral.write? size) ++ " cells"
  | emptyRows => some "range() arg 3 must not be zero"
  | columnTooWide => some "Python int too large to convert to C ssize_t"
  | unrecorded _ text => some text

/-- The refusal itself, or `numberTooLong` when its wording cannot be written. -/
def orTooLong (r : Refusal) : Refusal :=
  if r.text?.isSome then r else numberTooLong

/-- The wording of a refusal. -/
def message (r : Refusal) : String :=
  r.text?.getD tooLongText

/-- The text that was asked for, or the refusal to write it. -/
def ofText? (text : Option String) : Except Refusal String :=
  match text with
  | some s => .ok s
  | none => .error numberTooLong

end Refusal

end Intcode
