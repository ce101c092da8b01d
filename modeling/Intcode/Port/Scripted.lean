import Intcode.Port

/-!
# Scripted ports

A scripted port takes its input values from a list and keeps the output values in another.
-/

namespace Intcode.Port

/-- A port with the input values still to come and the output values so far. -/
structure Scripted where
  pending : List Int
  outputs : Array Int
  deriving DecidableEq, Repr

namespace Scripted

/-- A port with the given input values and no output yet. -/
def ofInputs (inputs : List Int) : Scripted := ⟨inputs, #[]⟩

/-- Adds input values at the end. -/
def push (values : List Int) (p : Scripted) : Scripted :=
  { p with pending := p.pending ++ values }

/-- Takes the next input value. -/
def request (p : Scripted) : Reply Scripted Int :=
  match p.pending with
  | [] => .fail p .exhausted "input script exhausted"
  | value :: rest => .serve { p with pending := rest } value

/-- Keeps an output value. -/
def deliver (value : Int) (p : Scripted) : Reply Scripted Unit :=
  .serve { p with outputs := p.outputs.push value } ()

instance : Port Scripted := ⟨request, deliver⟩

end Scripted

end Intcode.Port
