import Intcode.Proofs.Wording

/-!
# What the decoder answers

The decoder works on the decimal text of a number, but each of its answers can be foretold from the
number: whether it has too many digits to be written, whether it has more than five, the first of
the three mode digits that is no mode, and the opcode in the last two digits. A word that is
accepted has the digits of its number, so no two numbers stand for the same word.

## Main definitions

* `Opcode.IsCode` — the numbers of operations
* `Word.modeDigits` — the mode digits of a number
* `Word.HasDigits` — a word made up of the digits of a number
* `Word.Decoded` — the answers of the decoder, each with the numbers that get it

## Main results

* `Word.HasDigits.eq_sum` — the digits of a word make up its number
* `Word.decode_eq_iff` — the decoder gives exactly these answers
* `Word.decode_by_arithmetic` — which numbers get which answer
-/

namespace Intcode

/-! ### Opcodes and modes by their numbers -/

namespace Opcode

/-- The numbers of operations: one to eight, and ninety-nine. -/
def IsCode (n : Int) : Prop := 1 ≤ n ∧ n ≤ 8 ∨ n = 99

theorem isCode_code (op : Opcode) : IsCode op.code := by
  cases op <;> simp [IsCode, code]

theorem ofCode?_eq_none_iff {n : Int} : ofCode? n = none ↔ ¬ IsCode n := by
  simp only [ofCode?, all, List.find?_eq_none, List.forall_mem_cons, code, beq_iff_eq, IsCode,
    List.not_mem_nil, false_implies, implies_true, and_true]
  omega

theorem code_injective {a b : Opcode} (h : a.code = b.code) : a = b := by
  have same := ofCode?_code a
  rw [h, ofCode?_code b] at same
  exact (Option.some.inj same).symm

end Opcode

namespace Mode

theorem digit_injective {a b : Mode} (h : a.digit = b.digit) : a = b := by
  cases a <;> cases b <;> simp_all [digit]

theorem digit_eq (m : Mode) : m.digit = 0 ∨ m.digit = 1 := by
  cases m <;> simp [digit]

theorem digit_ofNumber {d : Int} (h : d = 0 ∨ d = 1) : ((ofNumber d).digit : Int) = d := by
  rcases h with rfl | rfl <;> rfl

end Mode

namespace Word

/-! ### The answers -/

/-- The mode digits of a number, in the order of the operands. The third is all that stands before
the other two, which is a digit if the number has no more than five. -/
def modeDigits (n : Int) : List Int := [n / 100 % 10, n / 1000 % 10, n / 10000]

/-- Whether a word is made up of the digits of a number. -/
structure HasDigits (w : Word) (n : Int) : Prop where
  opcode : w.opcode.code = n % 100
  first : w.first.digit = n / 100 % 10
  second : w.second.digit = n / 1000 % 10
  third : w.third.digit = n / 10000

/-- The answers of the decoder, each with the numbers that get it. -/
inductive Decoded (n : Int) : Except Stop Word → Prop
  | tooLong : 10 ^ Numeral.digitLimit ≤ n.natAbs → Decoded n (.error (.refused .numberTooLong))
  | malformed : n.natAbs < 10 ^ Numeral.digitLimit → n < 0 ∨ 99999 < n →
    Decoded n (.error (.fault (.malformedWord (.int n))))
  | stray {d : Int} : 0 ≤ n ∧ n ≤ 99999 → (modeDigits n).find? isStray = some d →
    Decoded n (.error (.fault (.invalidMode (Numeral.decimal d))))
  | unknown : 0 ≤ n ∧ n ≤ 99999 → (∀ d ∈ modeDigits n, d = 0 ∨ d = 1) →
    ¬ Opcode.IsCode (n % 100) → Decoded n (.error (.fault (.unknownOpcode (n % 100))))
  | word {w : Word} : 0 ≤ n ∧ n ≤ 99999 → w.HasDigits n → Decoded n (.ok w)

variable {n : Int} {w v : Word} {a b : Except Stop Word}

theorem find?_isStray_eq_none_iff {ds : List Int} :
    ds.find? isStray = none ↔ ∀ d ∈ ds, d = 0 ∨ d = 1 := by
  simp only [List.find?_eq_none, isStray, decide_eq_true_eq]
  grind

/-- A number is the sum of the opcode and the mode digits of its word. -/
theorem HasDigits.eq_sum (h : w.HasDigits n) :
    n = w.opcode.code + 100 * w.first.digit + 1000 * w.second.digit + 10000 * w.third.digit := by
  obtain ⟨opcode, first, second, third⟩ := h
  omega

theorem HasDigits.modes (h : w.HasDigits n) : ∀ d ∈ modeDigits n, d = 0 ∨ d = 1 := by
  have first := w.first.digit_eq
  have second := w.second.digit_eq
  have third := w.third.digit_eq
  simp only [modeDigits, ← h.first, ← h.second, ← h.third, List.forall_mem_cons]
  refine ⟨by omega, by omega, by omega, by simp⟩

theorem HasDigits.isCode (h : w.HasDigits n) : Opcode.IsCode (n % 100) :=
  h.opcode ▸ w.opcode.isCode_code

theorem HasDigits.unique (h : w.HasDigits n) (h' : v.HasDigits n) : w = v := by
  have opcode := Opcode.code_injective (Int.ofNat.inj (h.opcode.trans h'.opcode.symm))
  have first := Mode.digit_injective (Int.ofNat.inj (h.first.trans h'.first.symm))
  have second := Mode.digit_injective (Int.ofNat.inj (h.second.trans h'.second.symm))
  have third := Mode.digit_injective (Int.ofNat.inj (h.third.trans h'.third.symm))
  cases w
  cases v
  simp_all

/-! ### The decoder gives these answers -/

/-- A number without stray digits and with the number of an operation makes up a word. -/
theorem exists_hasDigits (modes : ∀ d ∈ modeDigits n, d = 0 ∨ d = 1)
    (code : Opcode.IsCode (n % 100)) : ∃ w : Word, w.HasDigits n := by
  cases found : Opcode.ofCode? (n % 100) with
  | none => exact absurd code (Opcode.ofCode?_eq_none_iff.mp found)
  | some op =>
    simp only [modeDigits, List.forall_mem_cons] at modes
    obtain ⟨first, second, third, -⟩ := modes
    exact ⟨⟨op, .ofNumber (n / 100 % 10), .ofNumber (n / 1000 % 10), .ofNumber (n / 10000)⟩,
      ⟨(Opcode.code_of_ofCode? found).symm, Mode.digit_ofNumber first, Mode.digit_ofNumber second,
        Mode.digit_ofNumber third⟩⟩

/-- What is raised for a malformed word depends on whether the word can be written. -/
theorem decoded_malformed (wide : n < 0 ∨ 99999 < n) :
    Decoded n (.error (Cause.malformedWord (.int n)).raised) := by
  by_cases long : 10 ^ Numeral.digitLimit ≤ n.natAbs
  · rw [Cause.raised_of_not_writable (by simpa [Cause.numbers, Numeral.writable_iff] using long)]
    exact .tooLong long
  · rw [Cause.raised_of_writable (by simpa [Cause.numbers, Numeral.writable_iff] using long)]
    exact .malformed (Nat.lt_of_not_le long) wide

/-- Every answer of the decoder is one of these. -/
theorem decoded (n : Int) : Decoded n (decode n) := by
  rw [decode_eq_ofNumber, ofNumber]
  by_cases wide : n < 0 ∨ 99999 < n
  · rw [if_pos wide]
    exact decoded_malformed wide
  have inside : 0 ≤ n ∧ n ≤ 99999 := by omega
  have third : n / 10000 % 10 = n / 10000 := by omega
  have same : strayDigit? n = (modeDigits n).find? isStray := by
    rw [strayDigit?, modeDigits, third]
  rw [if_neg wide]
  cases found : strayDigit? n with
  | some d => exact .stray inside (same ▸ found)
  | none =>
    have modes := find?_isStray_eq_none_iff.mp (same ▸ found)
    cases op : Opcode.ofCode? (n % 100) with
    | none =>
      -- Two digits can be written, so that this fault arises.
      have short : Numeral.Writable (n % 100) := Numeral.writable_of_lt (by omega)
      have raised := Cause.raised_of_writable (c := .unknownOpcode (n % 100))
        (by simpa [Cause.numbers] using short)
      change Decoded n (.error (Cause.raised _))
      rw [raised]
      exact .unknown inside modes (Opcode.ofCode?_eq_none_iff.mp op)
    | some op' =>
      simp only [modeDigits, List.forall_mem_cons] at modes
      obtain ⟨h₁, h₂, h₃, -⟩ := modes
      refine .word inside ⟨(Opcode.code_of_ofCode? op).symm, Mode.digit_ofNumber h₁,
        Mode.digit_ofNumber h₂, ?_⟩
      rw [third]
      exact Mode.digit_ofNumber h₃

theorem natAbs_lt_of_inside (inside : 0 ≤ n ∧ n ≤ 99999) : n.natAbs < 10 ^ Numeral.digitLimit :=
  Numeral.writable_iff.mp (Numeral.writable_of_lt (by omega))

/-- No number gets two answers: each condition leaves out the numbers of those before it. -/
theorem Decoded.unique (h : Decoded n a) (h' : Decoded n b) : a = b := by
  have few := natAbs_lt_of_inside (n := n)
  have strays : (modeDigits n).find? isStray = none ↔ ∀ d ∈ modeDigits n, d = 0 ∨ d = 1 :=
    find?_isStray_eq_none_iff
  cases h with
  | tooLong long => cases h' with
    | tooLong => rfl
    | malformed | stray | unknown | word => grind
  | malformed short wide => cases h' with
    | malformed => rfl
    | tooLong | stray | unknown | word => grind
  | stray inside found => cases h' with
    | stray _ found' => rw [Option.some.inj (found.symm.trans found')]
    | word _ digits => have := digits.modes; grind
    | tooLong | malformed | unknown => grind
  | unknown inside modes code => cases h' with
    | unknown => rfl
    | word _ digits => exact absurd digits.isCode code
    | tooLong | malformed | stray => grind
  | word inside digits => cases h' with
    | word _ digits' => rw [digits.unique digits']
    | stray => have := digits.modes; grind
    | unknown _ _ code => exact absurd digits.isCode code
    | tooLong | malformed => grind

/-- The decoder gives exactly these answers. -/
theorem decode_eq_iff : decode n = a ↔ Decoded n a :=
  ⟨fun h => h ▸ decoded n, fun h => (decoded n).unique h⟩

/-- Decoding the text of a number is arithmetic on the number. It is refused exactly if the number
has too many digits. Otherwise the word is malformed exactly if the number is negative or has more
than five digits; otherwise the first mode digit that is neither `0` nor `1` is reported; otherwise
the opcode is unknown exactly if no operation has it; and otherwise the word has the digits of the
number, which it determines. -/
theorem decode_by_arithmetic (n : Int) :
    (∀ why, decode n = .error (.refused why) ↔
      10 ^ Numeral.digitLimit ≤ n.natAbs ∧ why = .numberTooLong) ∧
    (∀ s, decode n = .error (.fault (.malformedWord s)) ↔
      n.natAbs < 10 ^ Numeral.digitLimit ∧ (n < 0 ∨ 99999 < n) ∧ s = .int n) ∧
    (∀ text, decode n = .error (.fault (.invalidMode text)) ↔
      (0 ≤ n ∧ n ≤ 99999) ∧
        ∃ d, (modeDigits n).find? isStray = some d ∧ text = Numeral.decimal d) ∧
    (∀ code, decode n = .error (.fault (.unknownOpcode code)) ↔
      (0 ≤ n ∧ n ≤ 99999) ∧ (∀ d ∈ modeDigits n, d = 0 ∨ d = 1) ∧
        ¬ Opcode.IsCode (n % 100) ∧ code = n % 100) ∧
    ((∃ w, decode n = .ok w) ↔
      (0 ≤ n ∧ n ≤ 99999) ∧ (∀ d ∈ modeDigits n, d = 0 ∨ d = 1) ∧ Opcode.IsCode (n % 100)) ∧
    (∀ w, decode n = .ok w →
      w.opcode.code = n % 100 ∧
      [(w.first.digit : Int), w.second.digit, w.third.digit] = modeDigits n ∧
      n = w.opcode.code + 100 * w.first.digit + 1000 * w.second.digit + 10000 * w.third.digit) ∧
    ∀ m w, decode n = .ok w → decode m = .ok w → n = m := by
  simp only [decode_eq_iff]
  refine ⟨fun why => ⟨?_, ?_⟩, fun s => ⟨?_, ?_⟩, fun text => ⟨?_, ?_⟩, fun code => ⟨?_, ?_⟩,
    ⟨?_, ?_⟩, ?_, ?_⟩
  · rintro ⟨long⟩
    exact ⟨long, rfl⟩
  · rintro ⟨long, rfl⟩
    exact .tooLong long
  · rintro (_ | ⟨short, wide⟩)
    exact ⟨short, wide, rfl⟩
  · rintro ⟨short, wide, rfl⟩
    exact .malformed short wide
  · rintro (_ | _ | ⟨inside, found⟩)
    exact ⟨inside, _, found, rfl⟩
  · rintro ⟨inside, d, found, rfl⟩
    exact .stray inside found
  · rintro (_ | _ | _ | ⟨inside, modes, code⟩)
    exact ⟨inside, modes, code, rfl⟩
  · rintro ⟨inside, modes, code, rfl⟩
    exact .unknown inside modes code
  · rintro ⟨w, _ | _ | _ | _ | ⟨inside, digits⟩⟩
    exact ⟨inside, digits.modes, digits.isCode⟩
  · rintro ⟨inside, modes, code⟩
    obtain ⟨w, digits⟩ := exists_hasDigits modes code
    exact ⟨w, .word inside digits⟩
  · rintro w (_ | _ | _ | _ | ⟨inside, digits⟩)
    refine ⟨digits.opcode, ?_, digits.eq_sum⟩
    rw [digits.first, digits.second, digits.third, modeDigits]
  · rintro m w (_ | _ | _ | _ | ⟨-, digits⟩) (_ | _ | _ | _ | ⟨-, digits'⟩)
    exact digits.eq_sum.trans digits'.eq_sum.symm

/-- Of two digits that are no modes the first operand's is reported; and a word with an immediate
second operand. -/
theorem decode_by_arithmetic_multiply :
    decode 20302 = .error (.fault (.invalidMode "3")) ∧
      ∃ w, decode 1002 = .ok w ∧ w.opcode.code = 2 ∧ w.second.digit = 1 ∧
        ∀ m, decode m = .ok w → 1002 = m := by
  obtain ⟨-, -, stray, -⟩ := decode_by_arithmetic 20302
  obtain ⟨-, -, -, -, accepted, digits, injective⟩ := decode_by_arithmetic 1002
  obtain ⟨w, eq⟩ := accepted.mpr ⟨by decide, by decide, .inl (by decide)⟩
  obtain ⟨code, modes, -⟩ := digits w eq
  simp only [modeDigits, List.cons.injEq] at modes
  refine ⟨(stray "3").mpr ⟨by decide, 3, by decide, by decide⟩, w, eq, by omega, by omega, ?_⟩
  intro m same
  exact injective m w eq same

end Word

end Intcode
