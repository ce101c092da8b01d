import Intcode.Fault

/-!
# Ports

A machine meets the outside world only through its port, which serves two requests: an input value
for `IN`, and an output value to be taken from `OUT`. A port is a state with these two services;
each reply holds the state afterwards, whether the request was served or not.

## Main definitions

* `Port.Trouble` — why a request was not served
* `Port.Reply` — the answer to a request and the state of the port after it
* `Port` — the two services of a port
-/

namespace Intcode

namespace Port

/-- Why a request was not served. -/
inductive Trouble where
  /-- The port failed, which is a fault of the machine. -/
  | failure (f : Failure)
  /-- The port was asked for something it does not do, which is no concern of the machine. -/
  | refused (why : Refusal)
  deriving DecidableEq, Repr

/-- The stop that a trouble of the port gives rise to. -/
def Trouble.stop : Trouble → Stop
  | failure f => (Cause.port (some f.kind) f.reason).raised
  | refused why => .refused why

/-- The answer to a request: the state of the port after it, what the port notes for a log, and
the value served. -/
structure Reply (σ α : Type) where
  port : σ
  notes : List String
  answer : Except Trouble α

namespace Reply

variable {σ α : Type}

/-- The reply of a port that serves a request. -/
def serve (port : σ) (value : α) : Reply σ α := ⟨port, [], .ok value⟩

/-- The reply of a port that fails. -/
def fail (port : σ) (kind : FailureKind) (reason : String) : Reply σ α :=
  ⟨port, [], .error (.failure ⟨kind, reason⟩)⟩

/-- The reply of a port that refuses. -/
def refuse (port : σ) (why : Refusal) : Reply σ α := ⟨port, [], .error (.refused why)⟩

end Reply

end Port

/-- The services of a port with states `σ`. -/
class Port (σ : Type) where
  /-- Asks for an input value. -/
  request : σ → Port.Reply σ Int
  /-- Hands over an output value. -/
  deliver : Int → σ → Port.Reply σ Unit

end Intcode
