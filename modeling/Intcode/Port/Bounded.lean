import Intcode.Port

/-!
# Bounded ports

A bounded port has a list of input values, room for a number of output values, and one complaint
that it makes when either runs out. A request that fails does not change it.
-/

namespace Intcode.Port

/-- A port with the input values still to come, the room left for output values, and its
complaint. -/
structure Bounded where
  pending : List Int
  room : Int
  complaint : String
  deriving DecidableEq, Repr

namespace Bounded

/-- Takes the next input value. -/
def request (p : Bounded) : Reply Bounded Int :=
  match p.pending with
  | [] => .fail p .other p.complaint
  | value :: rest => .serve { p with pending := rest } value

/-- Takes an output value, which needs room. -/
def deliver (_ : Int) (p : Bounded) : Reply Bounded Unit :=
  if 0 < p.room then .serve { p with room := p.room - 1 } ()
  else .fail p .other p.complaint

instance : Port Bounded := ⟨request, deliver⟩

end Bounded

end Intcode.Port
