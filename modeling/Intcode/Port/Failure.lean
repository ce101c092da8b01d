/-!
# Failures of a port

A port that cannot serve a request says so, and whether it is because its input is exhausted.
-/

namespace Intcode.Port

/-- The kinds of failure of a port. -/
inductive FailureKind where
  /-- No more input will come. -/
  | exhausted
  /-- Any other failure. -/
  | other
  deriving DecidableEq, Repr

/-- A failure of a port, with the reason it gives. -/
structure Failure where
  kind : FailureKind
  reason : String
  deriving DecidableEq, Repr

end Intcode.Port
