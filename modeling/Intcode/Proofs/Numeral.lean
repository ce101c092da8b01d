import Mathlib.Algebra.Group.Nat.Defs
import Intcode.Numeral
import Intcode.Text.Lines

/-!
# Decimal texts read back

The decimal text of an integer is a minus sign, if it has one, and digits. None of these characters
is a blank, a comma or a line break, so such a text can be put on a line or between commas and cut
out again unharmed. Reading it gives the integer back, whatever its sign, as long as it is short
enough to be written at all.

## Main definitions

* `Numeral.isPlain` — the characters of decimal texts
* `Numeral.onLines` — decimal texts on lines of their own

## Main results

* `Text.trim_of_forall_not`, `Text.trim_append_singleton` — trimming takes no more than blanks
* `Text.takeLine_append` — the first line of a stream
* `Numeral.isPlain_of_mem_decimal` — what a decimal text is made of
* `Numeral.read?_decimal` — the decimal text of an integer is read as that integer
-/

namespace Intcode

namespace Text

variable {p : Char → Bool} {text : List Char}

theorem dropWhile_of_forall_not (h : ∀ c ∈ text, ¬ p c) : text.dropWhile p = text := by
  cases text with
  | nil => rfl
  | cons c text => exact List.dropWhile_cons_of_neg (h c List.mem_cons_self)

theorem trimEnd_of_forall_not (h : ∀ c ∈ text, ¬ p c) : trimEnd p text = text := by
  have reversed : ∀ c ∈ text.reverse, ¬ p c := by simpa using h
  rw [trimEnd, dropWhile_of_forall_not reversed, List.reverse_reverse]

/-- A text without blanks is not trimmed. -/
theorem trim_of_forall_not (h : ∀ c ∈ text, ¬ p c) : trim p text = text := by
  rw [trim, dropWhile_of_forall_not h, trimEnd_of_forall_not h]

/-- Of a text with a single blank after it, the text remains. -/
theorem trim_append_singleton (h : ∀ c ∈ text, ¬ p c) {c : Char} (blank : p c) :
    trim p (text ++ [c]) = text := by
  have front : (text ++ [c]).dropWhile p = if text = [] then [] else text ++ [c] := by
    rw [List.dropWhile_append, dropWhile_of_forall_not h]
    cases text <;> simp [blank]
  rw [trim, front]
  by_cases empty : text = []
  · simp [empty, trimEnd]
  · rw [if_neg empty, trimEnd, List.reverse_append, List.reverse_singleton, List.singleton_append,
      List.dropWhile_cons_of_pos blank]
    exact trimEnd_of_forall_not h

/-- The first line of a stream reaches to its first line feed. -/
theorem takeLine_append (h : '\n' ∉ text) (rest : List Char) :
    takeLine (text ++ '\n' :: rest) = (text ++ ['\n'], rest) := by
  have inside : ∀ c ∈ text, (decide (c ≠ '\n')) = true := by
    intro c found
    simpa using ne_of_mem_of_not_mem found h
  unfold takeLine
  rw [List.dropWhile_append_of_pos inside, List.takeWhile_append_of_pos inside]
  simp

end Text

namespace Numeral

variable {n : Int} {c : Char} {text : List Char}

/-- A number with few digits can be written. -/
theorem writable_iff : Writable n ↔ n.natAbs < 10 ^ digitLimit := by
  rw [Writable, Nat.pow_eq]

theorem writable_of_lt (h : n.natAbs < 10 ^ 20) : Writable n :=
  writable_iff.mpr (Nat.lt_of_lt_of_le h (Nat.pow_le_pow_right (by decide) (by decide)))

theorem decimal_natCast (n : Nat) : decimal n = Nat.repr n := by
  simp [decimal]

theorem eq_decimal_of_write? {text : String} (h : write? n = some text) : text = decimal n := by
  unfold write? at h
  split at h
  · exact (Option.some.inj h).symm
  · cases h

/-! ### The characters of a decimal text -/

/-- The characters of decimal texts: the minus sign and the digits. -/
def isPlain (c : Char) : Bool := c == '-' || c.isDigit

theorem toNat_of_isPlain (h : isPlain c) : c.toNat = 45 ∨ 48 ≤ c.toNat ∧ c.toNat ≤ 57 := by
  rcases Bool.or_eq_true_iff.mp h with minus | digit
  · rw [eq_of_beq minus]
    exact .inl rfl
  · exact .inr (Char.isDigit_iff_toNat.mp digit)

theorem not_isBlank_of_isPlain (h : isPlain c) : ¬ Text.isBlank c := by
  have place := toNat_of_isPlain h
  simp only [Text.isBlank, Text.isNumeralBlank, Text.isWideBlank, Bool.or_eq_true,
    Bool.and_eq_true, decide_eq_true_eq, beq_iff_eq]
  omega

theorem not_isNumeralBlank_of_isPlain (h : isPlain c) : ¬ Text.isNumeralBlank c :=
  mt Text.isBlank_of_isNumeralBlank (not_isBlank_of_isPlain h)

theorem not_isLineBreak_of_isPlain (h : isPlain c) : ¬ Text.isLineBreak c := by
  have place := toNat_of_isPlain h
  simp only [Text.isLineBreak, Bool.or_eq_true, Bool.and_eq_true, decide_eq_true_eq, beq_iff_eq]
  omega

theorem toList_decimal (n : Int) :
    (decimal n).toList =
      if n < 0 then '-' :: Nat.toDigits 10 n.natAbs else Nat.toDigits 10 n.natAbs := by
  unfold decimal
  split <;> simp

theorem isDigit_of_mem_toDigits {k : Nat} : ∀ c ∈ Nat.toDigits 10 k, c.isDigit := by
  intro c found
  exact Nat.isDigit_of_mem_toDigits (by decide) (by decide) found

/-- A decimal text is made of a minus sign and digits. -/
theorem isPlain_of_mem_decimal (h : c ∈ (decimal n).toList) : isPlain c := by
  rw [toList_decimal] at h
  split at h
  · rcases List.mem_cons.mp h with rfl | digit
    · rfl
    · simp [isPlain, isDigit_of_mem_toDigits c digit]
  · simp [isPlain, isDigit_of_mem_toDigits c h]

theorem toList_decimal_ne_nil (n : Int) : (decimal n).toList ≠ [] := by
  rw [toList_decimal]
  split
  · simp
  · exact Nat.toDigits_ne_nil

/-! ### Numbers on lines of their own -/

/-- The decimal texts of integers, each on a line of its own. -/
def onLines (xs : List Int) : String := String.join (xs.map fun x => decimal x ++ "\n")

theorem toList_onLines_cons (x : Int) (xs : List Int) :
    (onLines (x :: xs)).toList = (decimal x).toList ++ '\n' :: (onLines xs).toList := by
  simp [onLines]

theorem onLines_append_singleton (xs : List Int) (x : Int) :
    onLines (xs ++ [x]) = onLines xs ++ decimal x ++ "\n" := by
  simp [onLines, String.append_assoc]

/-! ### Reading a decimal text -/

theorem digit?_of_isDigit (h : c.isDigit) : digit? c = some (c.toNat - '0'.toNat) := by
  obtain ⟨low, high⟩ := Char.isDigit_iff_toNat.mp h
  have ascii : zeros = 48 :: zeros.tail := rfl
  have found : zeros.find? (fun first => first ≤ c.toNat && c.toNat < first + 10) = some 48 := by
    rw [ascii]
    apply List.find?_cons_of_pos
    simp only [Bool.and_eq_true, decide_eq_true_eq]
    exact ⟨low, Nat.lt_succ_of_le high⟩
  rw [digit?, found]
  rfl

theorem digits?_cons_of_isDigit (h : ∀ d ∈ c :: text, d.isDigit) :
    digits? (c :: text) = some ((c :: text).map fun d => d.toNat - '0'.toNat) := by
  induction text generalizing c with
  | nil => simp [digits?, digit?_of_isDigit (h c List.mem_cons_self)]
  | cons d text ih =>
    obtain ⟨first, rest⟩ := List.forall_mem_cons.mp h
    -- A digit is no underscore, so the digits are read one by one.
    have underscore : d ≠ '_' := by
      rintro rfl
      exact absurd (rest _ List.mem_cons_self) (by decide)
    rw [digits?, ih rest, digit?_of_isDigit first]
    · rfl
    · simp
    · simpa using underscore

theorem digits?_of_isDigit (h : ∀ d ∈ text, d.isDigit) (full : text ≠ []) :
    digits? text = some (text.map fun d => d.toNat - '0'.toNat) := by
  obtain ⟨c, rest, rfl⟩ := List.exists_cons_of_ne_nil full
  exact digits?_cons_of_isDigit h

theorem unsigned?_toDigits {k : Nat} (h : k < 10 ^ digitLimit) :
    unsigned? (Nat.toDigits 10 k) = some k := by
  have short : (Nat.toDigits 10 k).length ≤ digitLimit :=
    (Nat.length_toDigits_le_iff (by decide) (by decide)).mpr h
  have total : value ((Nat.toDigits 10 k).map fun d => d.toNat - '0'.toNat) = k := by
    rw [value, List.foldl_map, ← Nat.ofDigitChars_eq_foldl, Nat.ofDigitChars_ten_toDigits]
  rw [unsigned?, digits?_of_isDigit isDigit_of_mem_toDigits Nat.toDigits_ne_nil, Option.bind_eq_bind,
    Option.bind_some, List.length_map, if_pos short, total]

/-- Digits without a sign stand for the number itself. -/
theorem read?_of_isDigit (h : ∀ d ∈ text, d.isDigit) {k : Nat} (digits : unsigned? text = some k) :
    read? text = some (k : Int) := by
  have unblank : ∀ d ∈ text, ¬ Text.isNumeralBlank d := by
    intro d found
    exact not_isNumeralBlank_of_isPlain (by simp [isPlain, h d found])
  rw [read?, Text.trim_of_forall_not unblank]
  split
  · exact absurd (h '-' List.mem_cons_self) (by decide)
  · exact absurd (h '+' List.mem_cons_self) (by decide)
  · rw [digits]
    rfl

/-- The decimal text of an integer is read as that integer. -/
theorem read?_decimal (h : Writable n) : read? (decimal n).toList = some n := by
  have digits := unsigned?_toDigits (writable_iff.mp h)
  rw [toList_decimal]
  by_cases negative : n < 0
  · have unblank : ∀ d ∈ '-' :: Nat.toDigits 10 n.natAbs, ¬ Text.isNumeralBlank d := by
      intro d found
      refine not_isNumeralBlank_of_isPlain (isPlain_of_mem_decimal (n := n) ?_)
      rwa [toList_decimal, if_pos negative]
    have whole : -(n.natAbs : Int) = n := by omega
    rw [if_pos negative, read?, Text.trim_of_forall_not unblank]
    change (unsigned? (Nat.toDigits 10 n.natAbs) >>= fun k => pure (k : Int)).map (fun k => -k) = _
    rw [digits]
    exact congrArg some whole
  · have whole : (n.natAbs : Int) = n := by omega
    rw [if_neg negative, read?_of_isDigit isDigit_of_mem_toDigits digits, whole]

end Numeral

end Intcode
