import Intcode.Fault
import Intcode.Opcode

/-!
# Instruction words

An instruction word is a number of at most five digits, read from the right: two digits for the
opcode, then one mode digit for each of three operands. Digits left out are zeros. All three mode
digits are checked, the first operand's first, whether the operation has these operands or not.

## Main definitions

* `Mode` — how the raw cell of an operand is meant
* `Word` — an opcode and three modes
* `Word.decode` — the word that a number stands for
* `Word.encode` — the number that stands for a word
-/

namespace Intcode

/-- How the raw cell of an operand is meant. -/
inductive Mode where
  /-- The cell is an address. -/
  | position
  /-- The cell is the value itself. -/
  | immediate
  deriving DecidableEq, Repr

namespace Mode

/-- The mode that a number stands for: only `1` is immediate. -/
def ofNumber (n : Int) : Mode :=
  if n = 1 then immediate else position

/-- The digit that stands for a mode. -/
def digit : Mode → Nat
  | position => 0
  | immediate => 1

/-- The mode that a digit of an instruction word stands for. -/
def ofDigit (d : Char) : Except Stop Mode :=
  if d = '0' then .ok position
  else if d = '1' then .ok immediate
  else .error (Cause.invalidMode (String.ofList [d])).raised

end Mode

/-- A decoded instruction word. -/
structure Word where
  opcode : Opcode
  first : Mode
  second : Mode
  third : Mode
  deriving DecidableEq, Repr

namespace Word

/-- The number of digits of a full instruction word. -/
def width : Nat := 5

/-- The opcode that two digits stand for. -/
def opcodeOfDigits (tens units : Char) : Except Stop Opcode :=
  let n := Nat.ofDigitChars 10 [tens, units] 0
  match Opcode.ofCode? n with
  | some op => .ok op
  | none => .error (Cause.unknownOpcode n).raised

/-- The digits of a word, with zeros before them up to the full width. -/
def fillDigits (digits : List Char) : List Char :=
  List.replicate (width - digits.length) '0' ++ digits

/-- The word that a number stands for. -/
def decode (n : Int) : Except Stop Word :=
  if n < 0 then .error (Cause.malformedWord (.int n)).raised
  else
    match Numeral.write? n with
    | none => .error (.refused .numberTooLong)
    | some text =>
      match fillDigits text.toList with
      | [mode3, mode2, mode1, tens, units] => do
        let first ← Mode.ofDigit mode1
        let second ← Mode.ofDigit mode2
        let third ← Mode.ofDigit mode3
        let opcode ← opcodeOfDigits tens units
        return { opcode, first, second, third }
      | _ => .error (Cause.malformedWord (.int n)).raised

/-- The word that a scalar stands for. Nothing but an integer is a word. -/
def decodeScalar : Scalar → Except Stop Word
  | .int n => decode n
  | s => .error (Cause.malformedWord s).raised

/-- The number that stands for a word. -/
def encode (w : Word) : Int :=
  w.opcode.code + 100 * w.first.digit + 1000 * w.second.digit + 10000 * w.third.digit

end Word

end Intcode
