import Mathlib.Data.List.TakeWhile
import Mathlib.Data.Nat.Digits.Defs
import Intcode.Proofs.Numeral

/-!
# Integer literals

What an integer looks like, as rules of a grammar: an optional sign, and decimal digits of any
script with single underscores between them, not more than the limit. No character of a literal is a
blank or a comma, so a literal with blanks around it is found again when the blanks are trimmed.

The reader of numerals accepts exactly these literals, once it has trimmed the blanks that it knows.
It knows fewer than those at the ends of a line, which makes no difference to a text that was
trimmed before.

## Main definitions

* `Text.Blank` — a text of blanks only
* `Text.Tight` — a text that neither begins nor ends with a character of a class
* `Numeral.Digits` — digits with single underscores between them, and their values
* `Numeral.Literal` — a literal and its value

## Main results

* `Text.exists_trim`, `Text.trim_append` — trimming takes blanks off both ends, and all of them
* `Numeral.read?_eq_some_iff` — what is read is a literal
* `Numeral.read?_trim_eq_some_iff` — a text trimmed at the ends of a line is read as the literal it
  is
-/

namespace Intcode

/-! ### Trimming -/

namespace Text

variable {p q : Char → Bool} {text a b : List Char}

/-- A text of blanks only. -/
def Blank (text : List Char) : Prop := ∀ c ∈ text, isBlank c

/-- A text that neither begins nor ends with a character of class `p`. -/
def Tight (p : Char → Bool) (text : List Char) : Prop :=
  (∀ c ∈ text.head?, ¬ p c) ∧ ∀ c ∈ text.getLast?, ¬ p c

theorem not_of_mem_head?_dropWhile (text : List Char) {c : Char}
    (h : c ∈ (text.dropWhile p).head?) : ¬ p c := by
  have first := List.head?_dropWhile_not p text
  rw [Option.mem_def.mp h] at first
  simpa using first

theorem trimEnd_append (h : ∀ c ∈ b, p c) : trimEnd p (text ++ b) = trimEnd p text := by
  rw [trimEnd, List.reverse_append, List.dropWhile_append_of_pos (by simpa using h), trimEnd]

theorem exists_trimEnd (p : Char → Bool) (text : List Char) :
    ∃ b, (∀ c ∈ b, p c) ∧ text = trimEnd p text ++ b := by
  refine ⟨(text.reverse.takeWhile p).reverse, ?_, ?_⟩
  · intro c found
    exact List.mem_takeWhile_imp (List.mem_reverse.mp found)
  · rw [trimEnd, ← List.reverse_append, List.takeWhile_append_dropWhile, List.reverse_reverse]

/-- Trimming takes a part off either end, of nothing but the class. -/
theorem exists_trim (p : Char → Bool) (text : List Char) :
    ∃ a b, (∀ c ∈ a, p c) ∧ (∀ c ∈ b, p c) ∧ text = a ++ trim p text ++ b := by
  obtain ⟨b, blank, eq⟩ := exists_trimEnd p (text.dropWhile p)
  refine ⟨text.takeWhile p, b, fun c found => List.mem_takeWhile_imp found, blank, ?_⟩
  rw [trim, List.append_assoc, ← eq, List.takeWhile_append_dropWhile]

/-- What is added at the ends, of nothing but the class, is trimmed again. -/
theorem trim_append (text : List Char) (left : ∀ c ∈ a, p c) (right : ∀ c ∈ b, p c) :
    trim p (a ++ text ++ b) = trim p text := by
  rw [trim, List.append_assoc, List.dropWhile_append_of_pos left, List.dropWhile_append]
  split
  · next empty =>
    rw [List.isEmpty_iff] at empty
    rw [List.dropWhile_eq_nil_iff.mpr right, trim, empty]
  · rw [trimEnd_append right, trim]

/-- A trimmed text neither begins nor ends with a character of the class. -/
theorem tight_trim (p : Char → Bool) (text : List Char) : Tight p (trim p text) := by
  constructor
  · -- The end is taken off last, so the beginning is still that of the text after the blanks.
    intro c found
    obtain ⟨b, -, eq⟩ := exists_trimEnd p (text.dropWhile p)
    apply not_of_mem_head?_dropWhile text
    rw [eq, List.head?_append]
    exact Option.or_eq_some_iff.mpr (.inl found)
  · intro c found
    rw [trim, trimEnd, List.getLast?_reverse] at found
    exact not_of_mem_head?_dropWhile _ found

theorem Tight.dropWhile (h : ∀ c ∈ text.head?, ¬ p c) : text.dropWhile p = text := by
  cases text with
  | nil => rfl
  | cons c text => exact List.dropWhile_cons_of_neg (h c rfl)

theorem Tight.trim (h : Tight p text) : trim p text = text := by
  rw [Text.trim, Tight.dropWhile h.1, trimEnd, Tight.dropWhile (by simpa using h.2),
    List.reverse_reverse]

theorem Tight.mono (h : Tight p text) (le : ∀ c, q c → p c) : Tight q text :=
  ⟨fun c found => mt (le c) (h.1 c found), fun c found => mt (le c) (h.2 c found)⟩

theorem trim_eq_nil_iff : trim p text = [] ↔ ∀ c ∈ text, p c := by
  constructor
  · intro empty
    obtain ⟨a, b, left, right, eq⟩ := exists_trim p text
    rw [eq, empty, List.append_nil]
    exact List.forall_mem_append.mpr ⟨left, right⟩
  · intro blank
    rw [trim, List.dropWhile_eq_nil_iff.mpr blank]
    rfl

end Text

/-! ### Digits -/

namespace Numeral

variable {c : Char} {d k : Nat} {n : Int} {text : List Char} {ds : List Nat}

/-- The runs of decimal digits avoid the blanks and the signs. -/
theorem place_of_digit? (h : digit? c = some d) :
    48 ≤ c.toNat ∧ c.toNat ≤ 57 ∨ 0x660 ≤ c.toNat ∧ c.toNat < 0x1680 ∨
      0x1680 < c.toNat ∧ c.toNat < 0x2000 ∨ 0x3000 < c.toNat := by
  have runs : ∀ first ∈ zeros, first = 48 ∨ 0x660 ≤ first ∧ first + 10 ≤ 0x1680 ∨
      0x1680 < first ∧ first + 10 ≤ 0x2000 ∨ 0x3000 < first := by decide
  obtain ⟨first, found, -⟩ := Option.map_eq_some_iff.mp h
  have within := List.find?_some found
  have run := runs first (List.mem_of_find?_eq_some found)
  simp only [Bool.and_eq_true, decide_eq_true_eq] at within
  omega

theorem not_isBlank_of_digit? (h : digit? c = some d) : ¬ Text.isBlank c := by
  have place := place_of_digit? h
  simp only [Text.isBlank, Text.isNumeralBlank, Text.isWideBlank, Bool.or_eq_true,
    Bool.and_eq_true, decide_eq_true_eq, beq_iff_eq]
  omega

theorem ne_of_digit? (h : digit? c = some d) {s : Char} (low : s.toNat < 48 ∨ s.toNat = 95) :
    c ≠ s := by
  rintro rfl
  have place := place_of_digit? h
  omega

/-- Digits of any script with single underscores between them, and the values of the digits. -/
inductive Digits : List Char → List Nat → Prop
  | last {c : Char} {d : Nat} : digit? c = some d → Digits [c] [d]
  | next {c : Char} {d : Nat} {text : List Char} {ds : List Nat} :
    digit? c = some d → Digits text ds → Digits (c :: text) (d :: ds)
  | spaced {c : Char} {d : Nat} {text : List Char} {ds : List Nat} :
    digit? c = some d → Digits text ds → Digits (c :: '_' :: text) (d :: ds)

/-- Digits begin with a digit. -/
theorem Digits.exists_cons (h : Digits text ds) :
    ∃ c d rest, text = c :: rest ∧ digit? c = some d := by
  cases h with
  | last digit | next digit | spaced digit => exact ⟨_, _, _, rfl, digit⟩

theorem digits?_of_next (digit : digit? c = some d) (rest : Digits text ds)
    (h : digits? text = some ds) : digits? (c :: text) = some (d :: ds) := by
  obtain ⟨c', d', tail, rfl, digit'⟩ := rest.exists_cons
  -- The character after the first is a digit, so it is no underscore that could be skipped.
  have underscore : c' ≠ '_' := ne_of_digit? digit' (.inr rfl)
  rw [digits?, h, digit]
  · rfl
  · simp
  · simpa using underscore

/-- The digits that are read are those of the grammar. -/
theorem digits?_eq_some_iff : digits? text = some ds ↔ Digits text ds := by
  constructor
  · intro h
    fun_induction digits? text generalizing ds with
    | case1 => cases h
    | case2 c =>
      obtain ⟨d, digit, rfl⟩ := Option.map_eq_some_iff.mp h
      exact .last digit
    | case3 c text ih =>
      obtain ⟨d, digit, h⟩ := Option.bind_eq_some_iff.mp h
      obtain ⟨ds, rest, h⟩ := Option.bind_eq_some_iff.mp h
      cases h
      exact .spaced digit (ih rest)
    | case4 c text _ _ ih =>
      obtain ⟨d, digit, h⟩ := Option.bind_eq_some_iff.mp h
      obtain ⟨ds, rest, h⟩ := Option.bind_eq_some_iff.mp h
      cases h
      exact .next digit (ih rest)
  · intro h
    induction h with
    | last digit => simp [digits?, digit]
    | next digit rest ih => exact digits?_of_next digit rest ih
    | spaced digit rest ih => simp [digits?, digit, ih]

theorem value_eq_ofDigits (ds : List Nat) : value ds = Nat.ofDigits 10 ds.reverse := by
  simp [value, Nat.ofDigits_eq_foldr, List.foldr_reverse, Nat.add_comm]

theorem unsigned?_eq_some_iff :
    unsigned? text = some k ↔
      ∃ ds, Digits text ds ∧ ds.length ≤ digitLimit ∧ Nat.ofDigits 10 ds.reverse = k := by
  simp only [unsigned?, Option.bind_eq_bind, Option.bind_eq_some_iff, digits?_eq_some_iff,
    value_eq_ofDigits]
  refine exists_congr fun ds => and_congr_right fun _ => ?_
  split <;> simp [*]

/-- The number that digits stand for, as an integer. -/
theorem natCast_unsigned?_eq_some_iff :
    (do return ((← unsigned? text : Nat) : Int)) = some n ↔
      ∃ ds, Digits text ds ∧ ds.length ≤ digitLimit ∧ (Nat.ofDigits 10 ds.reverse : Nat) = n := by
  simp only [Option.bind_eq_bind, Option.bind_eq_some_iff, unsigned?_eq_some_iff]
  constructor
  · rintro ⟨k, ⟨ds, digits, short, rfl⟩, eq⟩
    exact ⟨ds, digits, short, Option.some.inj eq⟩
  · rintro ⟨ds, digits, short, rfl⟩
    exact ⟨_, ⟨ds, digits, short, rfl⟩, rfl⟩

/-! ### Literals -/

/-- Integer literals and their values: an optional sign, and no more digits than the limit. -/
inductive Literal : List Char → Int → Prop
  | unsigned {text : List Char} {ds : List Nat} : Digits text ds → ds.length ≤ digitLimit →
    Literal text (Nat.ofDigits 10 ds.reverse : Nat)
  | plus {text : List Char} {ds : List Nat} : Digits text ds → ds.length ≤ digitLimit →
    Literal ('+' :: text) (Nat.ofDigits 10 ds.reverse : Nat)
  | minus {text : List Char} {ds : List Nat} : Digits text ds → ds.length ≤ digitLimit →
    Literal ('-' :: text) (-(Nat.ofDigits 10 ds.reverse : Nat))

/-- What is read is a literal, apart from blanks around it. -/
theorem read?_eq_some_iff :
    read? text = some n ↔ Literal (Text.trim Text.isNumeralBlank text) n := by
  unfold read?
  generalize Text.trim Text.isNumeralBlank text = body
  constructor
  · intro h
    split at h <;> obtain ⟨k, read, rfl⟩ := Option.map_eq_some_iff.mp h <;>
      obtain ⟨ds, digits, short, rfl⟩ := natCast_unsigned?_eq_some_iff.mp read
    · exact .minus digits short
    · exact .plus digits short
    · exact .unsigned digits short
  · intro h
    cases h with
    | unsigned digits short =>
      have read := natCast_unsigned?_eq_some_iff.mpr ⟨_, digits, short, rfl⟩
      -- A digit is no sign, so that what is read is the whole of the literal.
      obtain ⟨c, d, rest, rfl, digit⟩ := digits.exists_cons
      split
      · next eq => exact absurd (List.cons.inj eq).1 (ne_of_digit? digit (.inl (by decide)))
      · next eq => exact absurd (List.cons.inj eq).1 (ne_of_digit? digit (.inl (by decide)))
      · exact Option.map_eq_some_iff.mpr ⟨_, read, rfl⟩
    | plus digits short =>
      exact Option.map_eq_some_iff.mpr
        ⟨_, natCast_unsigned?_eq_some_iff.mpr ⟨_, digits, short, rfl⟩, rfl⟩
    | minus digits short =>
      exact Option.map_eq_some_iff.mpr
        ⟨_, natCast_unsigned?_eq_some_iff.mpr ⟨_, digits, short, rfl⟩, rfl⟩

theorem Digits.forall_mem (h : Digits text ds) : ∀ c ∈ text, ¬ Text.isBlank c ∧ c ≠ ',' := by
  have each {c : Char} {d : Nat} (digit : digit? c = some d) : ¬ Text.isBlank c ∧ c ≠ ',' :=
    ⟨not_isBlank_of_digit? digit, ne_of_digit? digit (.inl (by decide))⟩
  induction h with
  | last digit => exact List.forall_mem_singleton.mpr (each digit)
  | next digit _ ih => exact List.forall_mem_cons.mpr ⟨each digit, ih⟩
  | spaced digit _ ih =>
    exact List.forall_mem_cons.mpr ⟨each digit, List.forall_mem_cons.mpr ⟨by decide, ih⟩⟩

/-- A literal has neither blanks nor commas in it. -/
theorem Literal.forall_mem (h : Literal text n) : ∀ c ∈ text, ¬ Text.isBlank c ∧ c ≠ ',' := by
  cases h with
  | unsigned digits => exact digits.forall_mem
  | plus digits => exact List.forall_mem_cons.mpr ⟨by decide, digits.forall_mem⟩
  | minus digits => exact List.forall_mem_cons.mpr ⟨by decide, digits.forall_mem⟩

theorem Literal.ne_nil (h : Literal text n) : text ≠ [] := by
  cases h with
  | unsigned digits =>
    obtain ⟨c, d, rest, rfl, -⟩ := digits.exists_cons
    exact List.cons_ne_nil _ _
  | plus | minus => exact List.cons_ne_nil _ _

/-- A text that was trimmed at the ends of a line is read as the literal that it is. -/
theorem read?_trim_eq_some_iff :
    read? (Text.trim Text.isBlank text) = some n ↔ Literal (Text.trim Text.isBlank text) n := by
  have tight := (Text.tight_trim Text.isBlank text).mono fun _ => Text.isBlank_of_isNumeralBlank
  rw [read?_eq_some_iff, tight.trim]

end Numeral

end Intcode
