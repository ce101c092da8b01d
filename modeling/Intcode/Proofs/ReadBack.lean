import Intcode.Proofs.Interchange
import Intcode.Proofs.ProgramText

/-!
# Written output reads back

A console writes each value that it is handed on a line of its own. Another console that has this
text for its input serves the same values in the same order, one for each request, and is exhausted
from then on. The same text is also that of a program, with one cell on each line.

## Main definitions

* `Port.deliverAll` — a port after it was handed some values
* `Port.requests` — the answers to a number of requests

## Main results

* `Port.Console.deliverAll_of_writable` — what a console writes
* `Port.Console.requests_onLines` — what a console reads
* `Program.parse_onLines` — numbers on lines of their own are a program
* `Port.Console.output_reads_back` — what a console writes is read back in both ways
-/

namespace Intcode

theorem Numeral.onLines_cons (x : Int) (xs : List Int) :
    onLines (x :: xs) = decimal x ++ "\n" ++ onLines xs := by
  simp [onLines]

/-! ### Programs with one number on each line -/

namespace Program

theorem lines_onLines (xs : List Int) :
    Text.lines (Numeral.onLines xs).toList = (xs.map ([·])).map row := by
  induction xs with
  | nil => rfl
  | cons x xs ih =>
    have single : row [x] = (Numeral.decimal x).toList := by simp [row]
    rw [Numeral.toList_onLines_cons, ← single, Text.lines, Text.linesFrom_append (unbroken_row [x])]
    exact congrArg _ ih

/-- Numbers on lines of their own are a program. -/
theorem parse_onLines {xs : List Int} (present : xs ≠ []) (short : ∀ x ∈ xs, Numeral.Writable x) :
    parse (Numeral.onLines xs).toList = .ok xs := by
  have read := parse_of_lines (lines_onLines xs) (by simpa using present) (by simp)
    (by simpa using short)
  rw [read, ← List.flatMap_def, List.flatMap_singleton']

end Program

namespace Port

variable {σ : Type} [Port σ]

/-- The port after it was handed some values in order, unless it did not take one of them. -/
def deliverAll : List Int → σ → Except Trouble σ
  | [], p => .ok p
  | value :: values, p => do
    let _ ← (Port.deliver value p).answer
    deliverAll values (Port.deliver value p).port

/-- The answers to a number of requests for a value, one after the other. -/
def requests : Nat → σ → List (Except Trouble Int)
  | 0, _ => []
  | k + 1, p => (Port.request p).answer :: requests k (Port.request p).port

namespace Console

/-- The answer of a console that has no input left. -/
def atEnd : Except Trouble Int := .error (.failure ⟨.exhausted, "end of input stream"⟩)

/-- A console writes the values that it is handed on lines of their own. -/
theorem deliverAll_of_writable {values : List Int} (short : ∀ v ∈ values, Numeral.Writable v)
    (q : Console) :
    deliverAll values q = .ok { q with output := q.output ++ Numeral.onLines values } := by
  induction values generalizing q with
  | nil => simp [deliverAll, Numeral.onLines]
  | cons value values ih =>
    obtain ⟨first, others⟩ := List.forall_mem_cons.mp short
    rw [deliverAll, deliver_of_writable first]
    change deliverAll values { q with output := q.output ++ Numeral.decimal value ++ "\n" } = _
    rw [ih others, Numeral.onLines_cons]
    simp only [String.append_assoc]

/-- A console without any input left stays so. -/
theorem requests_of_nil {q : Console} (input : q.input = []) (k : Nat) :
    requests k q = List.replicate k atEnd := by
  induction k generalizing q with
  | zero => rfl
  | succ k ih =>
    rw [requests, request_nil input, List.replicate_succ]
    exact congrArg _ (ih rfl)

/-- A console serves the numbers that are on the lines of its input, and is exhausted from then on.
-/
theorem requests_onLines {values : List Int} (short : ∀ v ∈ values, Numeral.Writable v) {q : Console}
    (input : q.input = (Numeral.onLines values).toList) (k : Nat) :
    requests (values.length + k) q = values.map .ok ++ List.replicate k atEnd := by
  induction values generalizing q with
  | nil =>
    rw [List.length_nil, Nat.zero_add]
    exact requests_of_nil input k
  | cons value values ih =>
    obtain ⟨first, others⟩ := List.forall_mem_cons.mp short
    rw [List.length_cons, Nat.add_right_comm, requests, request_onLines first input]
    exact congrArg _ (ih others rfl)

/-- A console takes any values that can be written, in order. Another console that has the text
written so for its input, whatever the prompts of the two, serves exactly these values in order and
then answers every request that it is exhausted. If there are any values, the text is also a program
of them. -/
theorem output_reads_back (values : List Int) (short : ∀ v ∈ values, Numeral.Writable v)
    (input prompt prompt' : String) :
    ∃ q, deliverAll values (Console.ofText input prompt) = .ok q ∧
      (∀ k, requests (values.length + k) (Console.ofText q.output prompt') =
        values.map .ok ++ List.replicate k atEnd) ∧
      (values ≠ [] → Program.parse q.output.toList = .ok values) := by
  refine ⟨_, deliverAll_of_writable short _, ?_, ?_⟩
  · intro k
    refine requests_onLines short ?_ k
    simp [ofText]
  · intro present
    have text :
        (ofText input prompt).output ++ Numeral.onLines values = Numeral.onLines values := by
      simp [ofText]
    dsimp only
    rw [text]
    exact Program.parse_onLines present short

/-- Three values on consoles with prompts, of which the first also has input that is not read. -/
theorem output_reads_back_signs :
    ∃ q, deliverAll [-7, 0, 12] (Console.ofText "5\n" "> ") = .ok q ∧
      requests 5 (Console.ofText q.output "? ") = [.ok (-7), .ok 0, .ok 12, atEnd, atEnd] ∧
      Program.parse q.output.toList = .ok [-7, 0, 12] := by
  obtain ⟨q, delivered, served, program⟩ :=
    output_reads_back [-7, 0, 12] (by decide +kernel) "5\n" "> " "? "
  exact ⟨q, delivered, served 2, program (by decide)⟩

end Console

end Port

end Intcode
