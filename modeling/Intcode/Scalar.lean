import Intcode.Numeral
import Intcode.Numeral.Shortest
import Intcode.Text.Quoted

/-!
# Scalars

A cell of memory is an integer, but the decoder may be offered anything that a data file can hold
in one place: it turns down an instruction word that is no integer and says what it was offered,
while operands may be anything.

## Main definitions

* `Scalar` — an integer, a truth value, a real number, a text, or nothing
* `Scalar.text?` — a scalar as a message shows it
* `Scalar.plainText?` — a scalar as a listing shows it
-/

namespace Intcode

/-- A value that may be offered to the decoder. A real number is given by the bits of its
binary64 form. -/
inductive Scalar where
  | int (n : Int)
  | bool (b : Bool)
  | real (bits : UInt64)
  | text (s : String)
  | null
  deriving DecidableEq, Repr

/-- A scalar as a message shows it. -/
def Scalar.text? : Scalar → Option String
  | .int n => Numeral.write? n
  | .bool true => some "True"
  | .bool false => some "False"
  | .real bits => some (Binary64.text bits)
  | .text s => some (Text.quote s)
  | .null => some "None"

/-- A scalar as a listing shows it: a text stands without quotes. -/
def Scalar.plainText? : Scalar → Option String
  | .text s => some s
  | s => s.text?

end Intcode
