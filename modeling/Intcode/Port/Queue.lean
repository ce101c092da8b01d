import Intcode.Numeral.Nearest
import Intcode.Numeral.Shortest
import Intcode.Port

/-!
# Queue ports

A queue port stands between a machine and another party, who sends input values and receives output
values. Whoever finds a queue empty waits for as long as a timeout says; here no time passes, so a
wait that begins at an empty queue ends at an empty queue.

## Main definitions

* `Port.Timeout` — how long to wait
* `Queue.take` — takes a value, or says why there is none
* `Port.Queue` — a port with its two queues
* `Queue.send`, `Queue.receive` — the other party's side
-/

namespace Intcode.Port

/-- A time to wait in seconds: a whole number, or a real one given by the bits of its binary64
form. -/
inductive Timeout where
  | whole (n : Int)
  | real (bits : UInt64)
  deriving DecidableEq, Repr

namespace Timeout

/-- The time that a text stands for: a real number if it has a point, and a whole one otherwise.
Only a whole one has a limit to its digits. -/
def read (text : String) : Except Refusal Timeout :=
  if text.contains '.' then
    match Binary64.read? text.toList with
    | some bits => .ok (real bits)
    | none => .error (.notReal text)
  else
    match Numeral.read? text.toList, Numeral.digitCount? text.toList with
    | some n, _ => .ok (whole n)
    | none, some count => .error (.numeralTooLong count)
    | none, none => .error (.notWhole text)

/-- A time as messages show it. -/
def text : Timeout → String
  | whole n => Numeral.decimal n
  | real bits => Binary64.text bits

/-- Whether a time is below zero. A zero is not, whatever its sign. -/
def isNegative : Timeout → Bool
  | whole n => n < 0
  | real bits => Nat.pow 2 63 < bits.toNat

/-- The bits of the binary64 number nearest to a time that is not negative. -/
def seconds : Timeout → Nat
  | whole n => Binary64.nearest n.toNat 1
  | real bits => bits.toNat % Nat.pow 2 63

/-- Whether a time is a whole number beyond all binary64 numbers. -/
def isUncountable (t : Timeout) : Bool :=
  match t with
  | whole _ => t.seconds = Binary64.infinity
  | real _ => false

/-- The bits of the shortest time that has too many nanoseconds for 63 bits. -/
def waitLimit : Nat := Binary64.nearest (Nat.pow 2 63) (Nat.pow 10 9)

/-- Whether a time that is not negative has too many nanoseconds for 63 bits. -/
def isTooLong (t : Timeout) : Bool := waitLimit ≤ t.seconds

end Timeout

/-- A port with the values sent and not yet taken in, and the values put out and not yet received.
Without a timeout it waits for ever. -/
structure Queue where
  timeout : Option Timeout
  inbox : List Int
  outbox : List Int
  deriving DecidableEq, Repr

/-- Why no value was received. -/
inductive NotReceived where
  /-- There was none in time. -/
  | empty
  /-- The wait was refused. -/
  | refused (why : Refusal)
  deriving DecidableEq, Repr

namespace Queue

/-- A port with the given input values sent beforehand. -/
def ofInputs (timeout : Option Timeout) (inputs : List Int) : Queue := ⟨timeout, inputs, []⟩

/-- Sends an input value. -/
def send (value : Int) (p : Queue) : Queue :=
  { p with inbox := p.inbox ++ [value] }

/-- Takes the first value of a queue within a timeout. A negative timeout and an uncountable one are
refused even when a value is there, and one that is too long when it is needed. -/
def take (timeout : Option Timeout) (queue : List Int) : Except NotReceived (Int × List Int) :=
  match timeout, queue with
  | none, [] => .error (.refused .endlessWait)
  | none, value :: rest => .ok (value, rest)
  | some t, values =>
    if t.isNegative then .error (.refused .negativeTimeout)
    else if t.isUncountable then .error (.refused .timeoutTooLarge)
    else
      match values with
      | [] => .error (if t.isTooLong then .refused .waitTooLong else .empty)
      | value :: rest => .ok (value, rest)

/-- Receives an output value within a timeout. -/
def receive (timeout : Option Timeout) (p : Queue) : Except NotReceived (Int × Queue) := do
  let (value, rest) ← take timeout p.outbox
  return (value, { p with outbox := rest })

/-- A timeout as messages show it. -/
def timeoutText (p : Queue) : String :=
  match p.timeout with
  | some t => t.text
  | none => "None"

/-- Takes in the next value that was sent. -/
def request (p : Queue) : Reply Queue Int :=
  match take p.timeout p.inbox with
  | .ok (value, rest) => .serve { p with inbox := rest } value
  | .error .empty =>
    { port := p
      notes := ["QueueIO input timed out after " ++ p.timeoutText ++ "s"]
      answer := .error (.failure ⟨.exhausted, "no input within " ++ p.timeoutText ++ "s"⟩) }
  | .error (.refused why) => .refuse p why

/-- Puts out a value. -/
def deliver (value : Int) (p : Queue) : Reply Queue Unit :=
  .serve { p with outbox := p.outbox ++ [value] } ()

instance : Port Queue := ⟨request, deliver⟩

end Queue

end Intcode.Port
