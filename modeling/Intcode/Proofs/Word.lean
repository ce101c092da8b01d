import Mathlib.Algebra.Group.Nat.Defs
import Intcode.Proofs.Numeral
import Intcode.Word

/-!
# Instruction words by arithmetic

`Word.decode` works on the decimal text of a number. The same word can be read off the number by
division and remainder, with no text in between: the last two digits are the opcode, and the three
digits before them are the modes.

## Main definitions

* `Word.lastDigits` — the last digits of a number, as characters
* `Word.strayDigit?` — the first mode digit that is no mode
* `Word.ofNumber` — the word that a number stands for, by arithmetic

## Main results

* `Word.decode_eq_ofNumber` — decoding the text is reading the number
-/

namespace Intcode

theorem Opcode.code_of_ofCode? {n : Int} {op : Opcode} (h : ofCode? n = some op) : n = op.code := by
  have := List.find?_some h
  exact (beq_iff_eq.mp this).symm

namespace Word

/-! ### The text of an instruction word -/

/-- The last `k` decimal digits of a number, the most significant first. -/
def lastDigits : Nat → Nat → List Char
  | 0, _ => []
  | k + 1, n => lastDigits k (n / 10) ++ [(n % 10).digitChar]

theorem lastDigits_zero (k : Nat) : lastDigits k 0 = List.replicate k '0' := by
  induction k with
  | zero => rfl
  | succ k ih =>
    rw [List.replicate_succ', ← ih]
    rfl

/-- The digits of a number of at most `k + 1` digits, with zeros before them, are its last ones. -/
theorem replicate_append_toDigits (k n : Nat) (h : n < 10 ^ (k + 1)) :
    List.replicate (k + 1 - (Nat.toDigits 10 n).length) '0' ++ Nat.toDigits 10 n =
      lastDigits (k + 1) n := by
  induction k generalizing n with
  | zero =>
    have small : n < 10 := h
    rw [Nat.toDigits_of_lt_base small]
    simp [lastDigits, Nat.mod_eq_of_lt small]
  | succ k ih =>
    by_cases hn : n < 10
    · rw [Nat.toDigits_of_lt_base hn]
      simp [lastDigits, Nat.div_eq_of_lt hn, lastDigits_zero, Nat.mod_eq_of_lt hn,
        List.replicate_succ']
    · -- The last digit comes off, and what stands before it is padded as much.
      have hdiv : n / 10 < 10 ^ (k + 1) := by
        rw [Nat.pow_succ] at h
        omega
      rw [Nat.toDigits_of_base_le (by decide) (by omega), List.length_append,
        List.length_singleton, Nat.add_sub_add_right, ← List.append_assoc, ih _ hdiv]
      rfl

theorem fillDigits_toDigits {n : Nat} (h : n < 100000) :
    fillDigits (Nat.toDigits 10 n) =
      [(n / 10000 % 10).digitChar, (n / 1000 % 10).digitChar, (n / 100 % 10).digitChar,
        (n / 10 % 10).digitChar, (n % 10).digitChar] := by
  have key := replicate_append_toDigits 4 n h
  simpa [fillDigits, width, lastDigits, Nat.div_div_eq_div_mul] using key

theorem length_fillDigits_of_le {n : Nat} (h : 100000 ≤ n) :
    5 < (fillDigits (Nat.toDigits 10 n)).length := by
  have hlong : ¬ (Nat.toDigits 10 n).length ≤ 5 := by
    rw [Nat.length_toDigits_le_iff (by decide) (by decide)]
    omega
  simp only [fillDigits, List.length_append, List.length_replicate]
  omega

/-! ### Digits as modes and opcodes -/

theorem ofDigit_digitChar {d : Nat} (h : d < 10) :
    Mode.ofDigit d.digitChar =
      if d = 0 ∨ d = 1 then .ok (Mode.ofNumber d)
      else .error (Cause.invalidMode (Numeral.decimal d)).raised := by
  rw [Numeral.decimal_natCast, Nat.repr_eq_ofList_toDigits, Nat.toDigits_of_lt_base h]
  by_cases h0 : d = 0
  · subst h0
    rfl
  by_cases h1 : d = 1
  · subst h1
    rfl
  simp [Mode.ofDigit, h0, h1]

theorem opcodeOfDigits_digitChar {a b : Nat} (ha : a < 10) (hb : b < 10) :
    opcodeOfDigits a.digitChar b.digitChar =
      match Opcode.ofCode? (10 * a + b : Nat) with
      | some op => .ok op
      | none => .error (Cause.unknownOpcode (10 * a + b : Nat)).raised := by
  have value : Nat.ofDigitChars 10 [a.digitChar, b.digitChar] 0 = 10 * a + b := by
    simp [Nat.ofDigitChars_cons_digitChar_of_lt_ten, ha, hb]
  unfold opcodeOfDigits
  dsimp only
  cases found : Opcode.ofCode? (10 * a + b : Nat) with
  | none => rw [value, found]
  | some op => rw [value, found]

/-! ### Reading the number -/

/-- Whether a digit is no mode. -/
def isStray (d : Int) : Bool := d ≠ 0 ∧ d ≠ 1

/-- The first mode digit of a number that is no mode, the first operand's first. -/
def strayDigit? (n : Int) : Option Int :=
  [n / 100 % 10, n / 1000 % 10, n / 10000 % 10].find? isStray

/-- The word that a number stands for, by arithmetic on its digits. -/
def ofNumber (n : Int) : Except Cause Word :=
  if n < 0 ∨ 99999 < n then .error (.malformedWord (.int n))
  else
    match strayDigit? n with
    | some d => .error (.invalidMode (Numeral.decimal d))
    | none =>
      match Opcode.ofCode? (n % 100) with
      | none => .error (.unknownOpcode (n % 100))
      | some opcode =>
        .ok { opcode, first := .ofNumber (n / 100 % 10), second := .ofNumber (n / 1000 % 10),
              third := .ofNumber (n / 10000 % 10) }

/-- A number of more than five digits is malformed, whether or not its text can be written. -/
theorem decode_of_gt {n : Int} (h : 99999 < n) :
    decode n = .error (Cause.malformedWord (.int n)).raised := by
  have hneg : ¬ n < 0 := by omega
  have hlong := length_fillDigits_of_le (n := n.natAbs) (by omega)
  unfold decode
  rw [if_neg hneg]
  by_cases hw : Numeral.Writable n
  · rw [Numeral.write?_of_writable hw]
    simp only [Numeral.decimal, hneg, if_false, Nat.toList_repr]
    split
    · rename_i heq
      rw [heq] at hlong
      simp at hlong
    · rfl
  · simp [Numeral.write?, hw, Cause.raised, Cause.text?, Scalar.text?]

/-- A number of at most five digits is decoded digit by digit. -/
theorem decode_of_le {k : Nat} (h : k ≤ 99999) :
    decode k = do
      let first ← Mode.ofDigit (k / 100 % 10).digitChar
      let second ← Mode.ofDigit (k / 1000 % 10).digitChar
      let third ← Mode.ofDigit (k / 10000 % 10).digitChar
      let opcode ← opcodeOfDigits (k / 10 % 10).digitChar (k % 10).digitChar
      return { opcode, first, second, third } := by
  have hw : Numeral.Writable k := Numeral.writable_of_lt (by
    rw [Int.natAbs_natCast]
    omega)
  unfold decode
  rw [if_neg (by omega), Numeral.write?_of_writable hw, Numeral.decimal_natCast]
  simp only [Nat.toList_repr, fillDigits_toDigits (Nat.lt_succ_of_le h)]

theorem opcodeOfDigits_natCast (k : Nat) :
    opcodeOfDigits (k / 10 % 10).digitChar (k % 10).digitChar =
      match Opcode.ofCode? ((k : Int) % 100) with
      | some op => .ok op
      | none => .error (Cause.unknownOpcode ((k : Int) % 100)).raised := by
  have code : ((10 * (k / 10 % 10) + k % 10 : Nat) : Int) = (k : Int) % 100 := by omega
  rw [opcodeOfDigits_digitChar (by omega) (by omega), code]

/-- Checking one digit more before a word that is `r` unless one of the digits `ds` is stray. -/
private theorem ofDigit_bind {d : Nat} (h : d < 10) {f : Mode → Except Stop Word} {ds : List Int}
    {r : Except Cause Word}
    (ih : f (Mode.ofNumber d) = Except.mapError Cause.raised
      (match ds.find? isStray with
      | some d => .error (.invalidMode (Numeral.decimal d))
      | none => r)) :
    (Mode.ofDigit d.digitChar >>= f) = Except.mapError Cause.raised
      (match ((d : Int) :: ds).find? isStray with
      | some d => .error (.invalidMode (Numeral.decimal d))
      | none => r) := by
  rw [ofDigit_digitChar h]
  by_cases hd : d = 0 ∨ d = 1
  · have mode : ¬ isStray d := by
      simp only [isStray, decide_eq_true_eq]
      omega
    rw [if_pos hd, List.find?_cons_of_neg mode, ← ih]
    rfl
  · have stray : isStray d := by
      simp only [isStray, decide_eq_true_eq]
      omega
    rw [if_neg hd, List.find?_cons_of_pos stray]
    rfl

/-- Decoding the text of a number is reading the number. -/
theorem decode_eq_ofNumber (n : Int) : decode n = (ofNumber n).mapError Cause.raised := by
  unfold ofNumber
  by_cases hneg : n < 0
  · rw [if_pos (Or.inl hneg), decode, if_pos hneg]
    rfl
  by_cases hbig : 99999 < n
  · rw [if_pos (Or.inr hbig), decode_of_gt hbig]
    rfl
  obtain ⟨k, rfl⟩ := Int.eq_ofNat_of_zero_le (Int.not_lt.mp hneg)
  have e₁ : (k : Int) / 100 % 10 = (k / 100 % 10 : Nat) := by omega
  have e₂ : (k : Int) / 1000 % 10 = (k / 1000 % 10 : Nat) := by omega
  have e₃ : (k : Int) / 10000 % 10 = (k / 10000 % 10 : Nat) := by omega
  rw [if_neg (by omega), decode_of_le (by omega), opcodeOfDigits_natCast, strayDigit?, e₁, e₂, e₃]
  -- The digits are checked in the order of the operands, and the opcode after all of them.
  refine ofDigit_bind (Nat.mod_lt _ (by decide)) ?_
  refine ofDigit_bind (Nat.mod_lt _ (by decide)) ?_
  refine ofDigit_bind (Nat.mod_lt _ (by decide)) ?_
  cases Opcode.ofCode? ((k : Int) % 100) <;> rfl

end Word

end Intcode
