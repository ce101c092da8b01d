import Intcode.Port
import Intcode.Text.Lines

/-!
# Console ports

A console port reads its input values from a stream of text, one on each line, and writes each
output value on a line of another. A prompt, if it has one, is written before each line is read.
Both streams are open: the input is a text that can be read to its end, and the output takes
whatever is written to it.
-/

namespace Intcode.Port

/-- A port on streams that can be read and written, with the text still to be read, the text written
so far, and the prompt. -/
structure Console where
  input : List Char
  output : String
  prompt : String
  deriving DecidableEq, Repr

namespace Console

/-- A port on a stream of input, with nothing written yet. -/
def ofText (input prompt : String) : Console := ⟨input.toList, "", prompt⟩

/-- Reads a line and the number on it. -/
def request (p : Console) : Reply Console Int :=
  let (line, rest) := Text.takeLine p.input
  let after := { p with input := rest, output := p.output ++ p.prompt }
  if line.isEmpty then .fail after .exhausted "end of input stream"
  else
    let entry := Text.trim Text.isBlank line
    match Numeral.read? entry with
    | some value => .serve after value
    | none => .fail after .other ("not an integer: " ++ Text.quote (String.ofList entry))

/-- Writes a number on a line. -/
def deliver (value : Int) (p : Console) : Reply Console Unit :=
  match Numeral.write? value with
  | some text => .serve { p with output := p.output ++ text ++ "\n" } ()
  | none => .refuse p .numberTooLong

instance : Port Console := ⟨request, deliver⟩

end Console

end Intcode.Port
