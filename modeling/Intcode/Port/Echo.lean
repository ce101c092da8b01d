import Intcode.Port.Scripted

/-!
# Echoing ports

An echoing port is a scripted one that also prints each output value on a line of its own. A value
with too many digits to be printed has been kept all the same when the port refuses.
-/

namespace Intcode.Port

/-- A scripted port and the text printed so far. -/
structure Echo where
  script : Scripted
  printed : String
  deriving DecidableEq, Repr

namespace Echo

/-- A port with the given input values, nothing kept or printed yet. -/
def ofInputs (inputs : List Int) : Echo := ⟨Scripted.ofInputs inputs, ""⟩

/-- Takes the next input value. -/
def request (p : Echo) : Reply Echo Int :=
  let reply := p.script.request
  ⟨{ p with script := reply.port }, reply.notes, reply.answer⟩

/-- Keeps an output value and prints it. -/
def deliver (value : Int) (p : Echo) : Reply Echo Unit :=
  let script := (p.script.deliver value).port
  match Numeral.write? value with
  | some text => .serve ⟨script, p.printed ++ text ++ "\n"⟩ ()
  | none => .refuse { p with script } .numberTooLong

instance : Port Echo := ⟨request, deliver⟩

end Echo

end Intcode.Port
