import Intcode.Proofs.Decoding
import Intcode.Proofs.Memory

/-!
# Windows and encodings

An instruction is made out of its own cells and of nothing else. The window of four cells that a
machine fetches therefore shows as much as the whole rest of the memory would, and wherever the same
cells stand, the same instruction is found.

Which cells these are can be said exactly: the raw cells of the operands, after a word that names
the operation and gives the operands their modes. A word has three mode digits whatever its
operation, and those that no operand needs are checked but not heeded, so an instruction has as many
encodings as there are ways to fill them. Input and output heed none, because their operand is an
address in any mode.

## Main definitions

* `Opcode.heeded` — how many mode digits an operation heeds
* `Word.Spells` — a word that says of an instruction what a word can say

## Main results

* `Word.decode_eq_ok_iff` — the numbers of words
* `Command.ofWord?_eq_some_iff` — the words and cells that make an instruction
* `Command.window_suffices` — four cells show as much as all, and only an instruction's own cells
  matter
* `Command.ofWindow_encodings` — the cells that an instruction can be made out of
-/

namespace Intcode

/-- How many mode digits an operation heeds, from the first operand's on: one for each operand, but
none where the operand is an address in any mode. -/
def Opcode.heeded : Opcode → Nat
  | .input | .output => 0
  | op => op.arity

namespace Word

variable {α : Type} {n : Int} {w : Word}

/-- The modes of a word, in the order of the operands. -/
def modes (w : Word) : List Mode := [w.first, w.second, w.third]

/-- Whether a word says of an instruction what a word can say: its operation, and the modes of its
operands as far as they are heeded. -/
structure Spells (w : Word) (c : Command α) : Prop where
  opcode : w.opcode = c.opcode
  modes : w.modes.take c.opcode.heeded = c.word.modes.take c.opcode.heeded

theorem spells_word (c : Command α) : c.word.Spells c := ⟨rfl, rfl⟩

/-! ### The numbers of words -/

theorem decoded_encode (w : Word) : Decoded w.encode (.ok w) := by
  have code := w.opcode.isCode_code
  have first := w.first.digit_eq
  have second := w.second.digit_eq
  have third := w.third.digit_eq
  unfold Opcode.IsCode at code
  refine .word ⟨?_, ?_⟩ ⟨?_, ?_, ?_, ?_⟩ <;> unfold encode <;> omega

/-- Each word has one number, and the decoder finds the word of no other. -/
theorem decode_eq_ok_iff : decode n = .ok w ↔ n = w.encode := by
  rw [decode_eq_iff]
  constructor
  · rintro (_ | _ | _ | _ | ⟨-, digits⟩)
    exact digits.eq_sum
  · rintro rfl
    exact w.decoded_encode

end Word

namespace Operand

variable {α : Type}

@[simp] theorem ofRaw_mode_raw (o : Operand α) : ofRaw o.mode o.raw = o := by
  cases o <;> rfl

@[simp] theorem mode_ofRaw (mode : Mode) (cell : α) : (ofRaw mode cell).mode = mode := by
  cases mode <;> rfl

end Operand

namespace Command

variable {α : Type} {w : Word} {cells other : List α} {c : Command α}

/-! ### The cells of the operands -/

theorem length_operands (c : Command α) : c.operands.length = c.opcode.arity := by
  cases c with
  | compute op => cases op <;> rfl
  | jump expected => cases expected <;> rfl
  | input | output | halt => rfl

/-- The modes that an operation heeds are those of the operands. -/
theorem modes_of_ofWord? (h : ofWord? w cells = some c) :
    w.modes.take c.opcode.heeded = c.word.modes.take c.opcode.heeded := by
  cases composed_of_ofWord? h with
  | compute => simp [word, Word.modes, modeAt, operands]
  | @jump expected =>
    -- The third digit is not heeded, and the instruction does not say what it was.
    cases expected <;>
      simp [word, Word.modes, modeAt, operands, opcode, Opcode.heeded, Opcode.arity]
  | input | output | halt => rfl

/-- An instruction is made out of its raw cells, after any word that spells it. -/
theorem ofWord?_raws (h : w.Spells c) : ofWord? w (c.operands.map Operand.raw) = some c := by
  obtain ⟨opcode, modes⟩ := h
  unfold ofWord?
  rw [opcode]
  cases c with
  | compute op a b dest =>
    have all : w.modes = [a.mode, b.mode, dest.mode] := by cases op <;> exact modes
    simp only [Word.modes, List.cons.injEq, and_true] at all
    obtain ⟨first, second, third⟩ := all
    cases op <;> simp [Command.opcode, Operation.opcode, compute?, operands, first, second, third]
  | jump expected cond target =>
    have both : [w.first, w.second] = [cond.mode, target.mode] := by cases expected <;> exact modes
    simp only [List.cons.injEq, and_true] at both
    obtain ⟨first, second⟩ := both
    cases expected <;> simp [Command.opcode, jump?, operands, first, second]
  -- No mode digit is heeded, so the modes of the word do not come in.
  | input | output | halt => rfl

/-- A word and the cells after it make an instruction exactly if the word spells it and its operands
stand first among the cells. -/
theorem ofWord?_eq_some_iff :
    ofWord? w cells = some c ↔
      w.Spells c ∧ cells.take c.opcode.arity = c.operands.map Operand.raw := by
  constructor
  · intro h
    have opcode := (opcode_of_ofWord? h).symm
    refine ⟨⟨opcode, modes_of_ofWord? h⟩, ?_⟩
    rw [← opcode]
    exact (raws_of_ofWord? h).symm
  · rintro ⟨spelled, raws⟩
    rw [← ofWord?_take, spelled.opcode, raws]
    exact ofWord?_raws spelled

/-! ### Windows -/

/-- Whatever reads the word, the cells of an instruction give the same one before any others. -/
theorem bind_ofWord_of_take {decode : α → Except Stop Word} {word : α}
    (h : (decode word >>= fun w => ofWord w cells) = .ok c)
    (same : other.take c.length = (word :: cells).take c.length) :
    ∃ others, other = word :: others ∧ (decode word >>= fun w => ofWord w others) = .ok c := by
  cases decoded : decode word with
  | error stop =>
    rw [decoded] at h
    cases h
  | ok w =>
    rw [decoded] at h
    change ofWord w cells = .ok c at h
    have made : ofWord? w cells = some c := ofWord?_of_ok h
    -- The cells that agree are the word and those of the operands of its operation.
    rw [length, opcode_of_ofWord? made, Opcode.length_eq, List.take_succ_cons] at same
    cases other with
    | nil => cases same
    | cons first others =>
      rw [List.take_succ_cons] at same
      obtain ⟨rfl, taken⟩ := List.cons.inj same
      refine ⟨others, rfl, ofWord_of_some ?_⟩
      rw [← ofWord?_take, taken, ofWord?_take, made]

theorem ofWindow_of_take {window other : List Int} {c : Command Int} (h : ofWindow window = .ok c)
    (same : other.take c.length = window.take c.length) : ofWindow other = .ok c := by
  cases window with
  | nil => cases h
  | cons word cells =>
    obtain ⟨others, rfl, resolved⟩ := bind_ofWord_of_take h same
    exact resolved

theorem ofScalars_of_take {window other : List Scalar} {c : Command Scalar}
    (h : ofScalars window = .ok c) (same : other.take c.length = window.take c.length) :
    ofScalars other = .ok c := by
  cases window with
  | nil => cases h
  | cons word cells =>
    obtain ⟨others, rfl, resolved⟩ := bind_ofWord_of_take h same
    exact resolved

/-- The window at an address shows as much as all the cells from there on: the same instruction, or
the same fault with the same counts of cells. And an instruction is found in any window that begins
with its cells, also where a window may hold other things than integers. -/
theorem window_suffices (m : Memory) :
    (∀ pc : Int, 0 ≤ pc → pc < m.size → ∃ window, m.window pc Memory.windowSize = .ok window ∧
      ofWindow window = ofWindow (m.cells.toList.drop pc.toNat)) ∧
    (∀ (window other : List Int) (c : Command Int), ofWindow window = .ok c →
      other.take c.length = window.take c.length → ofWindow other = .ok c) ∧
    ∀ (window other : List Scalar) (c : Command Scalar), ofScalars window = .ok c →
      other.take c.length = window.take c.length → ofScalars other = .ok c := by
  refine ⟨?_, ?_, ?_⟩
  · intro pc nonneg below
    have inside : m.inBounds pc := Memory.inBounds_iff.mpr ⟨nonneg, below⟩
    exact ⟨_, Memory.window_eq inside, ofWindow_take _⟩
  · intro window other c h same
    exact ofWindow_of_take h same
  · intro window other c h same
    exact ofScalars_of_take h same

/-- An instruction at the start of a memory, the same without the cells after it, and one whose
operand is a text. -/
theorem window_suffices_output :
    let m : Memory := ⟨#[104, 5, 99, 0, 7, 8]⟩
    (∃ window, m.window 0 Memory.windowSize = .ok window ∧
      ofWindow window = ofWindow [104, 5, 99, 0, 7, 8]) ∧
    (ofWindow [104, 5, 99, 0] = .ok (.output 5) ∧ ofWindow [104, 5] = .ok (.output 5)) ∧
    (ofScalars [.int 3, .text "x", .null] = .ok (.input (.text "x")) ∧
      ofScalars [.int 3, .text "x"] = .ok (.input (.text "x"))) := by
  intro m
  obtain ⟨enough, own, ownScalars⟩ := window_suffices m
  have output : ofWindow [104, 5, 99, 0] = .ok (.output 5) := by
    have word : Word.decode 104 = .ok ⟨.output, .immediate, .position, .position⟩ :=
      Word.decode_eq_ok_iff.mpr (by decide)
    rw [ofWindow, word]
    rfl
  have input : ofScalars [.int 3, .text "x", .null] = .ok (.input (.text "x")) := by
    have word : Word.decode 3 = .ok ⟨.input, .position, .position, .position⟩ :=
      Word.decode_eq_ok_iff.mpr (by decide)
    rw [ofScalars, Word.decodeScalar, word]
    rfl
  exact ⟨enough 0 (by decide) (by decide), ⟨output, own _ _ _ output rfl⟩, input,
    ownScalars _ _ _ input rfl⟩

/-! ### Encodings -/

variable {window : List Int} {c : Command Int}

theorem ofWindow_eq_ok_iff :
    ofWindow window = .ok c ↔
      ∃ w : Word, w.Spells c ∧ window.take c.length = w.encode :: c.operands.map Operand.raw := by
  constructor
  · intro h
    obtain ⟨word, rest, w, rfl, decoded, made⟩ := ofWindow_eq_ok h
    obtain ⟨spelled, raws⟩ := ofWord?_eq_some_iff.mp made
    refine ⟨w, spelled, ?_⟩
    rw [length, Opcode.length_eq, List.take_succ_cons, raws, Word.decode_eq_ok_iff.mp decoded]
  · rintro ⟨w, spelled, cells⟩
    have shown : ofWindow (w.encode :: c.operands.map Operand.raw) = .ok c := by
      rw [ofWindow, Word.decode_eq_ok_iff.mpr rfl]
      exact ofWord_of_some (ofWord?_raws spelled)
    -- The window begins with these cells, and they are all that matters.
    apply ofWindow_of_take shown
    rw [cells, List.take_of_length_le]
    simp [length, Opcode.length_eq, length_operands]

/-- An instruction is found in its encoding, whatever follows it. And the cells in which it is found
are its encoding, except that a mode digit that the operation does not heed may be either digit. -/
theorem ofWindow_encodings (c : Command Int) :
    (∀ rest, ofWindow (c.encode ++ rest) = .ok c) ∧
    ∀ window, ofWindow window = .ok c ↔
      ∃ w : Word, w.Spells c ∧ window.take c.length = w.encode :: c.operands.map Operand.raw := by
  refine ⟨?_, fun window => ofWindow_eq_ok_iff⟩
  intro rest
  refine ofWindow_eq_ok_iff.mpr ⟨c.word, Word.spells_word c, ?_⟩
  have whole : c.encode.length = c.length := by
    simp [encode, length, Opcode.length_eq, length_operands]
  rw [← whole, List.take_left]
  rfl

/-- Output heeds no mode digit, so that all of them may be ones. -/
example : (ofWindow [11104, 5, 99]).toOption = some (.output 5) := by decide +kernel

end Command

end Intcode
