import Intcode.Command

/-!
# The cells of an instruction

An instruction is made out of as many cells as its operation has operands, after the word: it does
not matter what comes after them, and with fewer there is no instruction.

## Main definitions

* `Command.Composed` — what a word makes out of the cells after it

## Main results

* `Command.ofWord?_take` — only the cells of the operands matter
* `Command.ofWord?_isSome_iff` — there are enough cells for the operands
* `Command.composed_of_ofWord?` — how an instruction was made out
* `Command.opcode_of_ofWord?` — the instruction has the operation of its word
* `Command.ofWindow_take` — four cells are always enough
* `Command.ofWindow_append` — the cells after an instruction do not matter
-/

namespace Intcode

theorem Opcode.arity_le_three (op : Opcode) : op.arity ≤ 3 := by
  cases op <;> decide

namespace Command

variable {α : Type} {w : Word} {cells : List α} {c : Command α}

theorem ofWord?_take (w : Word) (cells : List α) :
    ofWord? w (cells.take w.opcode.arity) = ofWord? w cells := by
  unfold ofWord?
  cases w.opcode with
  | add | multiply | lessThan | equal =>
    rcases cells with _ | ⟨a, _ | ⟨b, _ | ⟨dest, rest⟩⟩⟩ <;> rfl
  | jumpIfTrue | jumpIfFalse => rcases cells with _ | ⟨cond, _ | ⟨target, rest⟩⟩ <;> rfl
  | input | output => cases cells <;> rfl
  | halt => rfl

theorem ofWord?_isSome_iff : (ofWord? w cells).isSome ↔ w.opcode.arity ≤ cells.length := by
  unfold ofWord?
  cases w.opcode with
  | add | multiply | lessThan | equal =>
    rcases cells with _ | ⟨a, _ | ⟨b, _ | ⟨dest, rest⟩⟩⟩ <;> simp [compute?, Opcode.arity]
  | jumpIfTrue | jumpIfFalse =>
    rcases cells with _ | ⟨cond, _ | ⟨target, rest⟩⟩ <;> simp [jump?, Opcode.arity]
  | input | output => cases cells <;> simp [Opcode.arity]
  | halt => simp [Opcode.arity]

/-- What a word makes out of the cells after it, for each kind of operation. -/
inductive Composed (w : Word) : List α → Command α → Prop
  | compute {op : Operation} (opcode : w.opcode = op.opcode) (a b dest : α) (rest : List α) :
    Composed w (a :: b :: dest :: rest)
      (.compute op (.ofRaw w.first a) (.ofRaw w.second b) (.ofRaw w.third dest))
  | jump {expected : Bool}
    (opcode : w.opcode = if expected then .jumpIfTrue else .jumpIfFalse)
    (cond target : α) (rest : List α) :
    Composed w (cond :: target :: rest)
      (.jump expected (.ofRaw w.first cond) (.ofRaw w.second target))
  | input (opcode : w.opcode = .input) (dest : α) (rest : List α) :
    Composed w (dest :: rest) (.input dest)
  | output (opcode : w.opcode = .output) (source : α) (rest : List α) :
    Composed w (source :: rest) (.output source)
  | halt (opcode : w.opcode = .halt) (rest : List α) : Composed w rest .halt

theorem composed_of_ofWord? (h : ofWord? w cells = some c) : Composed w cells c := by
  unfold ofWord? at h
  cases op : w.opcode with
  | add | multiply | lessThan | equal =>
    rw [op] at h
    rcases cells with _ | ⟨a, _ | ⟨b, _ | ⟨dest, rest⟩⟩⟩ <;> cases h
    exact .compute op a b dest rest
  | jumpIfTrue | jumpIfFalse =>
    rw [op] at h
    rcases cells with _ | ⟨cond, _ | ⟨target, rest⟩⟩ <;> cases h
    exact .jump op cond target rest
  | input =>
    rw [op] at h
    rcases cells with _ | ⟨dest, rest⟩ <;> cases h
    exact .input op dest rest
  | output =>
    rw [op] at h
    rcases cells with _ | ⟨source, rest⟩ <;> cases h
    exact .output op source rest
  | halt =>
    rw [op] at h
    cases h
    exact .halt op cells

theorem opcode_of_ofWord? (h : ofWord? w cells = some c) : c.opcode = w.opcode := by
  cases composed_of_ofWord? h with
  | compute opcode | input opcode | output opcode | halt opcode => exact opcode.symm
  | @jump expected opcode => cases expected <;> exact opcode.symm

theorem raw_ofRaw (mode : Mode) (cell : α) : (Operand.ofRaw mode cell).raw = cell := by
  cases mode <;> rfl

/-- The raw cells of the operands are the cells after the word. -/
theorem raws_of_ofWord? (h : ofWord? w cells = some c) :
    c.operands.map Operand.raw = cells.take w.opcode.arity := by
  cases composed_of_ofWord? h with
  | @compute op opcode =>
    rw [opcode]
    cases op <;> simp [operands, raw_ofRaw, Operation.opcode, Opcode.arity]
  | @jump expected opcode =>
    rw [opcode]
    cases expected <;> simp [operands, raw_ofRaw, Opcode.arity]
  | input opcode | output opcode | halt opcode =>
    rw [opcode]
    rfl

/-- Cells after those of the operands do not matter. -/
theorem ofWord?_append (h : w.opcode.arity ≤ cells.length) (more : List α) :
    ofWord? w (cells ++ more) = ofWord? w cells := by
  rw [← ofWord?_take w (cells ++ more), List.take_append_of_le_length h, ofWord?_take]

theorem ofWord_of_some (h : ofWord? w cells = some c) : ofWord w cells = .ok c := by
  rw [ofWord, h]

theorem ofWord?_of_ok (h : ofWord w cells = .ok c) : ofWord? w cells = some c := by
  unfold ofWord at h
  cases made : ofWord? w cells with
  | none =>
    rw [made] at h
    cases h
  | some d =>
    rw [made] at h
    rw [Except.ok.inj h]

theorem ofWord_of_lt (h : cells.length < w.opcode.arity) :
    ofWord w cells =
      .error (Cause.truncated w.opcode.code w.opcode.length (cells.length + 1)).raised := by
  have none : ofWord? w cells = none := by
    rw [← Option.not_isSome_iff_eq_none, ofWord?_isSome_iff]
    omega
  rw [ofWord, none]

/-- With as many cells as the longest instruction has, none that matters is left out. -/
theorem ofWord_take (w : Word) (cells : List α) {n : Nat} (h : w.opcode.arity ≤ n) :
    ofWord w (cells.take n) = ofWord w cells := by
  have same : ofWord? w (cells.take n) = ofWord? w cells := by
    rw [← ofWord?_take w (cells.take n), List.take_take, Nat.min_eq_left h, ofWord?_take]
  by_cases enough : w.opcode.arity ≤ cells.length
  -- With too few cells the whole list is taken, so that the fault counts the same cells.
  · obtain ⟨c, hc⟩ := Option.isSome_iff_exists.mp (ofWord?_isSome_iff.mpr enough)
    rw [ofWord_of_some hc, ofWord_of_some (same.trans hc)]
  · rw [List.take_of_length_le (by omega)]

/-- The instruction at the start of some cells is made out of the first four. -/
theorem ofWindow_take (cells : List Int) : ofWindow (cells.take 4) = ofWindow cells := by
  cases cells with
  | nil => rfl
  | cons word cells =>
    rw [List.take_succ_cons, ofWindow, ofWindow]
    cases Word.decode word with
    | error stop => rfl
    | ok w => exact ofWord_take w cells w.opcode.arity_le_three

theorem ofWindow_eq_ok {cells : List Int} {c : Command Int} (h : ofWindow cells = .ok c) :
    ∃ word rest w, cells = word :: rest ∧ Word.decode word = .ok w ∧ ofWord? w rest = some c := by
  cases cells with
  | nil => cases h
  | cons word rest =>
    rw [ofWindow] at h
    cases decoded : Word.decode word with
    | error stop =>
      rw [decoded] at h
      cases h
    | ok w =>
      rw [decoded] at h
      change ofWord w rest = .ok c at h
      exact ⟨word, rest, w, rfl, decoded, ofWord?_of_ok h⟩

/-- Cells after those of an instruction do not matter. -/
theorem ofWindow_append {cells : List Int} {c : Command Int} (h : ofWindow cells = .ok c)
    (more : List Int) : ofWindow (cells ++ more) = .ok c := by
  obtain ⟨word, rest, w, rfl, decoded, made⟩ := ofWindow_eq_ok h
  have enough : w.opcode.arity ≤ rest.length := ofWord?_isSome_iff.mp (by rw [made]; rfl)
  have made' : ofWord? w (rest ++ more) = some c := (ofWord?_append enough more).trans made
  rw [List.cons_append, ofWindow, decoded]
  exact ofWord_of_some made'

/-- An instruction is no longer than the cells that it was made out of. -/
theorem length_le_of_ofWindow {cells : List Int} {c : Command Int} (h : ofWindow cells = .ok c) :
    c.length ≤ cells.length := by
  obtain ⟨word, rest, w, rfl, decoded, made⟩ := ofWindow_eq_ok h
  have enough : w.opcode.arity ≤ rest.length := ofWord?_isSome_iff.mp (by rw [made]; rfl)
  rw [length, opcode_of_ofWord? made, Opcode.length_eq, List.length_cons]
  exact Nat.succ_le_succ enough

end Command

end Intcode
