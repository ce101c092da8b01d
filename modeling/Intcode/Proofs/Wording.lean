import Intcode.Proofs.Command
import Intcode.Proofs.Word

/-!
# Causes that can be put into words

A cause that names a number of too many digits cannot be worded, and what is raised in its place is
no fault. Nothing else keeps a fault from arising: as long as the cells can be written, whatever is
wrong with an instruction is a fault, because everything else that a cause names has few digits.

## Main definitions

* `Stop.IsFault` — a stop that is a fault and no refusal
* `Cause.numbers` — the numbers that the wording of a cause names

## Main results

* `Cause.text?_isSome_iff` — a cause can be worded exactly if its numbers can be written
* `Word.isFault_of_decode`, `Command.isFault_of_ofWindow` — what goes wrong in making out an
  instruction is a fault if its word can be written
-/

namespace Intcode

/-- A stop that is a fault and no refusal. -/
def Stop.IsFault (stop : Stop) : Prop := ∃ cause, stop = .fault cause

namespace Cause

/-- The numbers that the wording of a cause names. -/
def numbers : Cause → List Int
  | malformedWord (.int n) => [n]
  | unknownOpcode n | writeToImmediate n | counterOutOfBounds n | stepLimit n => [n]
  | truncated opcode needed available => [opcode, needed, available]
  | outOfBounds address size => address :: size.toList
  | _ => []

/-- A cause can be worded exactly if the numbers that it names can be written. -/
theorem text?_isSome_iff {c : Cause} : c.text?.isSome ↔ ∀ n ∈ c.numbers, Numeral.Writable n := by
  simp only [← Numeral.write?_isSome_iff]
  cases c with
  | general | invalidMode | port => simp [text?, numbers]
  | malformedWord word =>
    cases word with
    | int n => cases written : Numeral.write? n <;> simp [text?, Scalar.text?, numbers, written]
    | bool b => cases b <;> simp [text?, Scalar.text?, numbers]
    | real | text | null => simp [text?, Scalar.text?, numbers]
  | unknownOpcode n | writeToImmediate n | counterOutOfBounds n | stepLimit n =>
    cases written : Numeral.write? n <;> simp [text?, numbers, written]
  | truncated opcode needed available =>
    cases first : Numeral.write? opcode <;> cases second : Numeral.write? needed <;>
      cases third : Numeral.write? available <;> simp [text?, numbers, first, second, third]
  | outOfBounds address size =>
    cases size with
    | none => cases written : Numeral.write? address <;> simp [text?, numbers, written]
    | some size =>
      cases first : Numeral.write? address <;> cases second : Numeral.write? size <;>
        simp [text?, numbers, first, second]

/-- A cause that names no number of too many digits is raised as a fault. -/
theorem raised_of_writable {c : Cause} (short : ∀ n ∈ c.numbers, Numeral.Writable n) :
    c.raised = .fault c :=
  if_pos (text?_isSome_iff.mpr short)

/-- A cause that names a number of too many digits is not raised. -/
theorem raised_of_not_writable {c : Cause} (long : ¬ ∀ n ∈ c.numbers, Numeral.Writable n) :
    c.raised = .refused .numberTooLong :=
  if_neg (mt text?_isSome_iff.mp long)

theorem isFault_raised {c : Cause} (short : ∀ n ∈ c.numbers, Numeral.Writable n) :
    c.raised.IsFault :=
  ⟨c, raised_of_writable short⟩

end Cause

/-! ### Making out an instruction -/

/-- What is wrong with a number as a word names that number or a shorter one. -/
theorem Word.isFault_of_decode {n : Int} {stop : Stop} (short : Numeral.Writable n)
    (h : Word.decode n = .error stop) : stop.IsFault := by
  rw [Word.decode_eq_ofNumber] at h
  cases number : Word.ofNumber n with
  | ok w =>
    rw [number] at h
    cases h
  | error cause =>
    rw [number] at h
    rw [← Except.error.inj h]
    apply Cause.isFault_raised
    -- Only a malformed word is named whole; of others, no more than two digits are.
    unfold Word.ofNumber at number
    split at number
    · cases number
      simpa [Cause.numbers] using short
    · split at number
      · cases number
        simp [Cause.numbers]
      · split at number
        · cases number
          simpa [Cause.numbers] using Numeral.writable_of_lt (n := n % 100) (by omega)
        · cases number

/-- What goes wrong in making out an instruction is a fault, if the word of the instruction can be
written. -/
theorem Command.isFault_of_ofWindow {cells : List Int} {stop : Stop}
    (short : ∀ word ∈ cells.head?, Numeral.Writable word)
    (h : Command.ofWindow cells = .error stop) : stop.IsFault := by
  cases cells with
  | nil =>
    rw [← Except.error.inj h]
    exact Cause.isFault_raised (by decide +kernel)
  | cons word rest =>
    rw [ofWindow] at h
    cases decoded : Word.decode word with
    | error stop' =>
      rw [decoded] at h
      rw [← Except.error.inj h]
      exact Word.isFault_of_decode (short word rfl) decoded
    | ok w =>
      rw [decoded] at h
      change ofWord w rest = _ at h
      by_cases enough : w.opcode.arity ≤ rest.length
      · obtain ⟨c, made⟩ := Option.isSome_iff_exists.mp (ofWord?_isSome_iff.mpr enough)
        rw [ofWord_of_some made] at h
        cases h
      · -- The fault counts cells, and there are fewer of them than of operands.
        have few := w.opcode.arity_le_three
        have code : w.opcode.code < 100 := by cases w.opcode <;> decide
        rw [ofWord_of_lt (by omega)] at h
        rw [← Except.error.inj h]
        apply Cause.isFault_raised
        simp only [Cause.numbers, Opcode.length_eq, List.forall_mem_cons]
        refine ⟨Numeral.writable_of_lt ?_, Numeral.writable_of_lt ?_, Numeral.writable_of_lt ?_, ?_⟩
        · omega
        · omega
        · omega
        · simp

end Intcode
