import Mathlib.Algebra.Group.Nat.Defs
import Mathlib.Tactic.SplitIfs
import Intcode.Text.Utf8

/-!
# Reading UTF-8 inverts writing it

The bytes of a code point are a first byte, which tells how many follow, and bytes of six bits each.
A character under way can become the code points that go on from its bits, as long as the next six
are in its range. For the lead bytes these are the code points that are characters, begin with the
lead byte, and need no fewer bytes. So one character is read from the bytes that are written for it,
and from no others; neither does a text have another reading.

## Main definitions

* `Utf8.bytesOf` — the bytes of a code point
* `Pending.Finishes`, `Pending.Covers` — the bytes that finish a character under way, and the code
  points that it can become
* `Utf8.Lead` — the lead bytes
* `Utf8.Spells` — the bytes from which one character is read

## Main results

* `Utf8.Pending.finishes_iff` — a character is finished by the bytes for its missing bits
* `Utf8.Lead.covers_iff` — the code points that a lead byte lets through
* `Utf8.spells_iff` — a character is read from the bytes that are written for it only
* `Utf8.decode_eq_ok_iff` — a text is read from the bytes that are written for it only
-/

namespace Intcode.Utf8

variable {position n : Nat} {p : Pending} {byte : UInt8} {bytes tail word : List UInt8}
  {c : Char} {text done : List Char}

/-! ### The bytes of a code point -/

/-- The number of bytes after the first one. -/
def tailLength (n : Nat) : Nat :=
  if n < 0x80 then 0 else if n < 0x800 then 1 else if n < 0x10000 then 2 else 3

/-- The bits of a first byte that tell how many bytes come after it. -/
def mark : Nat → Nat
  | 0 => 0
  | 1 => 0xc0
  | 2 => 0xe0
  | _ => 0xf0

/-- The bytes for the lowest bits of a code point, six bits each. -/
def tailOf : Nat → Nat → List Nat
  | 0, _ => []
  | k + 1, n => (0x80 + n / 64 ^ k % 64) :: tailOf k n

/-- The bytes of a code point. -/
def bytesOf (n : Nat) : List Nat :=
  (mark (tailLength n) + n / 64 ^ tailLength n) :: tailOf (tailLength n) n

theorem tailLength_cases (n : Nat) :
    (n < 0x80 ∧ tailLength n = 0) ∨ ((0x80 ≤ n ∧ n < 0x800) ∧ tailLength n = 1) ∨
      ((0x800 ≤ n ∧ n < 0x10000) ∧ tailLength n = 2) ∨ (0x10000 ≤ n ∧ tailLength n = 3) := by
  unfold tailLength
  split_ifs <;> omega

/-- The first byte of a code point tells how many come after it. -/
theorem first_cases {b : Nat} (valid : n.isValidChar)
    (first : b = mark (tailLength n) + n / 64 ^ tailLength n) :
    (b < 0x80 ∧ tailLength n = 0) ∨ ((0xc2 ≤ b ∧ b < 0xe0) ∧ tailLength n = 1) ∨
      ((0xe0 ≤ b ∧ b < 0xf0) ∧ tailLength n = 2) ∨ ((0xf0 ≤ b ∧ b < 0xf5) ∧ tailLength n = 3) := by
  rcases tailLength_cases n with ⟨size, eq⟩ | ⟨size, eq⟩ | ⟨size, eq⟩ | ⟨size, eq⟩ <;>
    rw [eq] at first <;> simp only [mark] at first <;> omega

theorem bytesOf_of_lt (small : n < 0x80) : bytesOf n = [n] := by
  simp [bytesOf, tailLength, small, mark, tailOf]

theorem map_toNat_utf8EncodeChar (c : Char) :
    (String.utf8EncodeChar c).map UInt8.toNat = bytesOf c.toNat := by
  have valid : c.toNat.isValidChar := c.valid
  have same : c.val.toNat = c.toNat := rfl
  simp only [String.utf8EncodeChar, bytesOf, tailLength, same]
  split_ifs <;> simp [tailOf, mark] <;> omega

theorem toNat_ofNat (valid : n.isValidChar) : (Char.ofNat n).toNat = n := by
  rw [Char.ofNat, dif_pos valid]
  rfl

/-! ### The character under way -/

namespace Pending

/-- A byte that may come next. -/
def Takes (p : Pending) (byte : UInt8) : Prop := p.low ≤ byte.toNat ∧ byte.toNat ≤ p.high

instance (p : Pending) (byte : UInt8) : Decidable (p.Takes byte) :=
  inferInstanceAs (Decidable (_ ∧ _))

/-- The bits with those of one more byte. -/
def bitsWith (p : Pending) (byte : UInt8) : Nat := 64 * p.bits + (byte.toNat - 0x80)

/-- The character under way after one more byte. Only the first byte after the lead has a range of
its own. -/
def advance (p : Pending) (byte : UInt8) : Pending :=
  { p with missing := p.missing - 1, low := 0x80, high := 0xbf, bits := p.bitsWith byte }

/-- The bytes that are missing of a character under way, and the character that they make of it. -/
inductive Finishes : Pending → List UInt8 → Char → Prop where
  | last {p : Pending} {byte : UInt8} (due : p.missing ≤ 1) (takes : p.Takes byte) :
    Finishes p [byte] (Char.ofNat (p.bitsWith byte))
  | more {p : Pending} {byte : UInt8} {tail : List UInt8} {c : Char} (due : 1 < p.missing)
    (takes : p.Takes byte) (rest : Finishes (p.advance byte) tail c) :
    Finishes p (byte :: tail) c

/-- The code points that a character under way can become: they go on from its bits, and their next
six bits are in its range. -/
def Covers (p : Pending) (n : Nat) : Prop :=
  n / 64 ^ p.missing = p.bits ∧ p.low ≤ 0x80 + n / 64 ^ (p.missing - 1) % 64 ∧
    0x80 + n / 64 ^ (p.missing - 1) % 64 ≤ p.high

/-- One more byte adds six bits to those read before. -/
theorem takes_and_eq_bitsWith_iff (low : 0x80 ≤ p.low) (high : p.high ≤ 0xbf) :
    (p.Takes byte ∧ n = p.bitsWith byte) ↔
      (n / 64 = p.bits ∧ p.low ≤ 0x80 + n % 64 ∧ 0x80 + n % 64 ≤ p.high) ∧
        byte.toNat = 0x80 + n % 64 := by
  unfold Takes bitsWith
  omega

/-- One more byte leaves the code points that have its six bits next. -/
theorem takes_and_covers_advance_iff {k : Nat} (due : p.missing = k + 1 + 1) (low : 0x80 ≤ p.low)
    (high : p.high ≤ 0xbf) :
    (p.Takes byte ∧ (p.advance byte).Covers n) ↔
      p.Covers n ∧ byte.toNat = 0x80 + n / 64 ^ (k + 1) % 64 := by
  have full : 0x80 ≤ 0x80 + n / 64 ^ k % 64 ∧ 0x80 + n / 64 ^ k % 64 ≤ 0xbf := by omega
  have halves : n / 64 ^ (k + 1 + 1) = n / 64 ^ (k + 1) / 64 := by
    rw [Nat.pow_succ, Nat.div_div_eq_div_mul]
  simp only [Covers, advance, due, Nat.add_sub_cancel, and_iff_left full, halves]
  exact takes_and_eq_bitsWith_iff low high

/-- A character under way is finished by the bytes for the missing bits of a code point. -/
theorem finishes_iff {k : Nat} (due : p.missing = k + 1) (low : 0x80 ≤ p.low)
    (high : p.high ≤ 0xbf) :
    p.Finishes tail c ↔
      ∃ n, p.Covers n ∧ tail.map UInt8.toNat = tailOf (k + 1) n ∧ c = Char.ofNat n := by
  induction k generalizing p tail with
  | zero =>
    have narrow {byte : UInt8} {n : Nat} :
        (p.Takes byte ∧ n = p.bitsWith byte) ↔ p.Covers n ∧ byte.toNat = 0x80 + n % 64 := by
      simpa [Covers, due] using takes_and_eq_bitsWith_iff low high
    simp only [tailOf, Nat.pow_zero, Nat.div_one]
    constructor
    · rintro (⟨_, takes⟩ | ⟨more, _⟩)
      · obtain ⟨covers, six⟩ := narrow.mp ⟨takes, rfl⟩
        exact ⟨_, covers, by rw [List.map_singleton, six], rfl⟩
      · omega
    · rintro ⟨n, covers, eq, rfl⟩
      obtain ⟨byte, rfl, six⟩ := List.map_eq_singleton_iff.mp eq
      obtain ⟨takes, eq⟩ := narrow.mpr ⟨covers, six⟩
      rw [eq]
      exact .last (by omega) takes
  | succ k ih =>
    have next (byte : UInt8) : (p.advance byte).missing = k + 1 := by
      rw [advance, due]
      rfl
    constructor
    · rintro (⟨one, _⟩ | ⟨_, takes, rest⟩)
      · omega
      · obtain ⟨n, covers, digits, rfl⟩ := (ih (next _) (Nat.le_refl _) (Nat.le_refl _)).mp rest
        obtain ⟨covers, six⟩ := (takes_and_covers_advance_iff due low high).mp ⟨takes, covers⟩
        exact ⟨n, covers, congrArg₂ List.cons six digits, rfl⟩
    · rintro ⟨n, covers, eq, rfl⟩
      obtain ⟨byte, rest, rfl, six, digits⟩ := List.map_eq_cons_iff.mp eq
      obtain ⟨takes, covers⟩ := (takes_and_covers_advance_iff due low high).mpr ⟨covers, six⟩
      refine .more (by omega) takes ?_
      exact (ih (next byte) (Nat.le_refl _) (Nat.le_refl _)).mpr ⟨n, covers, digits, rfl⟩

end Pending

open Pending

/-! ### Lead bytes -/

/-- The lead bytes, with the number of bytes that follow and the range of the first of these. The
ranges that are not full leave out the code points that fewer bytes are enough for, the surrogates,
and what is past the last code point. -/
inductive Lead : Nat → Nat → Nat → Nat → Prop where
  | pair {b : Nat} (above : 0xc2 ≤ b) (below : b < 0xe0) : Lead b 1 0x80 0xbf
  | firstTriple : Lead 0xe0 2 0xa0 0xbf
  | surrogates : Lead 0xed 2 0x80 0x9f
  | triple {b : Nat} (above : 0xe0 < b) (below : b < 0xf0) (other : b ≠ 0xed) : Lead b 2 0x80 0xbf
  | firstQuad : Lead 0xf0 3 0x90 0xbf
  | lastQuad : Lead 0xf4 3 0x80 0x8f
  | quad {b : Nat} (above : 0xf0 < b) (below : b < 0xf4) : Lead b 3 0x80 0xbf

/-- A byte between characters is a character, begins one, or is out of place. -/
theorem begin?_cases (position : Nat) (byte : UInt8) :
    (byte.toNat < 0x80 ∧ begin? position byte = some (.inl (Char.ofNat byte.toNat))) ∨
      (∃ missing low high, Lead byte.toNat missing low high ∧
        begin? position byte =
          some (.inr ⟨position, byte, missing, low, high, byte.toNat - mark missing⟩)) ∨
      ((0x80 ≤ byte.toNat ∧ byte.toNat < 0xc2 ∨ 0xf5 ≤ byte.toNat) ∧
        begin? position byte = none) := by
  unfold begin?
  dsimp only
  generalize byte.toNat = b
  -- The rows are gone through in order: each holds for what those before it leave over.
  by_cases single : b < 0x80
  · exact .inl ⟨single, if_pos single⟩
  rw [if_neg single]
  right
  by_cases stray : b < 0xc2
  · exact .inr ⟨.inl ⟨by omega, stray⟩, if_pos stray⟩
  rw [if_neg stray]
  by_cases pair : b < 0xe0
  · exact .inl ⟨_, _, _, .pair (by omega) pair, if_pos pair⟩
  rw [if_neg pair]
  by_cases firstTriple : b = 0xe0
  · subst firstTriple
    exact .inl ⟨_, _, _, .firstTriple, if_pos rfl⟩
  rw [if_neg firstTriple]
  by_cases surrogates : b = 0xed
  · subst surrogates
    exact .inl ⟨_, _, _, .surrogates, if_pos rfl⟩
  rw [if_neg surrogates]
  by_cases triple : b < 0xf0
  · exact .inl ⟨_, _, _, .triple (by omega) triple surrogates, if_pos triple⟩
  rw [if_neg triple]
  by_cases firstQuad : b = 0xf0
  · subst firstQuad
    exact .inl ⟨_, _, _, .firstQuad, if_pos rfl⟩
  rw [if_neg firstQuad]
  by_cases lastQuad : b = 0xf4
  · subst lastQuad
    exact .inl ⟨_, _, _, .lastQuad, if_pos rfl⟩
  rw [if_neg lastQuad]
  by_cases quad : b < 0xf4
  · exact .inl ⟨_, _, _, .quad (by omega) quad, if_pos quad⟩
  · exact .inr ⟨.inr (by omega), if_neg quad⟩

namespace Lead

variable {b missing low high : Nat}

theorem ranges (lead : Lead b missing low high) :
    (∃ k, missing = k + 1) ∧ 0x80 ≤ low ∧ high ≤ 0xbf := by
  cases lead <;> exact ⟨⟨_, rfl⟩, by decide, by decide⟩

theorem tailLength_eq (lead : Lead b missing low high) (valid : n.isValidChar)
    (first : b = mark (tailLength n) + n / 64 ^ tailLength n) : tailLength n = missing := by
  have size := first_cases valid first
  cases lead <;> omega

/-- A lead byte lets through the code points that it begins, and none that needs fewer bytes. -/
theorem covers_iff (lead : Lead byte.toNat missing low high) :
    Covers ⟨position, byte, missing, low, high, byte.toNat - mark missing⟩ n ↔
      n.isValidChar ∧ tailLength n = missing ∧
        byte.toNat = mark missing + n / 64 ^ missing := by
  have size := tailLength_cases n
  simp only [Covers]
  generalize byte.toNat = b at lead ⊢
  cases lead <;> simp only [mark] <;> omega

/-- What a lead byte began is finished by the other bytes of a code point that it begins. -/
theorem finishes_iff (lead : Lead byte.toNat missing low high) :
    Finishes ⟨position, byte, missing, low, high, byte.toNat - mark missing⟩ tail c ↔
      tailLength c.toNat = missing ∧ byte.toNat = mark missing + c.toNat / 64 ^ missing ∧
        tail.map UInt8.toNat = tailOf missing c.toNat := by
  obtain ⟨⟨k, rfl⟩, above, below⟩ := lead.ranges
  rw [Pending.finishes_iff rfl above below]
  constructor
  · rintro ⟨n, covers, digits, rfl⟩
    obtain ⟨valid, size, first⟩ := lead.covers_iff.mp covers
    rw [toNat_ofNat valid]
    exact ⟨size, first, digits⟩
  · rintro ⟨size, first, digits⟩
    exact ⟨c.toNat, lead.covers_iff.mpr ⟨c.valid, size, first⟩, digits, (Char.ofNat_toNat c).symm⟩

end Lead

/-! ### One character -/

/-- The bytes from which one character is read: a byte that is a character by itself, or a lead byte
and the bytes that are missing after it. -/
inductive Spells (position : Nat) : List UInt8 → Char → Prop where
  | short {byte : UInt8} {c : Char} (single : begin? position byte = some (.inl c)) :
    Spells position [byte] c
  | long {byte : UInt8} {p : Pending} {tail : List UInt8} {c : Char}
    (start : begin? position byte = some (.inr p)) (rest : p.Finishes tail c) :
    Spells position (byte :: tail) c

theorem Spells.ne_nil (spells : Spells position word c) : word ≠ [] := by
  cases spells <;> simp

theorem Spells.map_toNat (spells : Spells position word c) :
    word.map UInt8.toNat = bytesOf c.toNat := by
  cases spells with
  | @short byte _ single =>
    rcases begin?_cases position byte with ⟨small, eq⟩ | ⟨_, _, _, _, eq⟩ | ⟨_, eq⟩ <;>
      rw [eq] at single <;> cases single
    rw [toNat_ofNat (by omega), bytesOf_of_lt small]
    rfl
  | @long byte p tail _ start rest =>
    rcases begin?_cases position byte with ⟨_, eq⟩ | ⟨missing, low, high, lead, eq⟩ | ⟨_, eq⟩ <;>
      rw [eq] at start <;> cases start
    obtain ⟨rfl, first, digits⟩ := lead.finishes_iff.mp rest
    rw [List.map_cons, bytesOf, first, digits]

theorem spells_of_map_toNat (eq : word.map UInt8.toNat = bytesOf c.toNat) :
    Spells position word c := by
  have valid : c.toNat.isValidChar := c.valid
  obtain ⟨byte, tail, rfl, first, digits⟩ := List.map_eq_cons_iff.mp eq
  have size := first_cases valid first
  rcases begin?_cases position byte with
    ⟨small, start⟩ | ⟨missing, low, high, lead, start⟩ | ⟨out, _⟩
  · have single : tailLength c.toNat = 0 := by omega
    rw [single] at first digits
    obtain rfl := List.map_eq_nil_iff.mp digits
    have same : byte.toNat = c.toNat := by simpa [mark] using first
    rw [same, Char.ofNat_toNat] at start
    exact .short start
  · obtain rfl := lead.tailLength_eq valid first
    exact .long start (lead.finishes_iff.mpr ⟨rfl, first, digits⟩)
  · omega

/-- A character is read from the bytes that are written for it, and from no others. -/
theorem spells_iff : Spells position word c ↔ word = String.utf8EncodeChar c := by
  rw [← List.map_inj_right fun _ _ => UInt8.toNat_inj.mp, map_toNat_utf8EncodeChar]
  exact ⟨Spells.map_toNat, spells_of_map_toNat⟩

/-! ### Texts -/

theorem decodeFrom_last (due : p.missing ≤ 1) (takes : p.Takes byte) :
    decodeFrom position (some p) done (byte :: bytes) =
      decodeFrom (position + 1) none (Char.ofNat (p.bitsWith byte) :: done) bytes := by
  have inside : (p.low ≤ byte.toNat && byte.toNat ≤ p.high) = true := by
    simpa [Takes] using takes
  rw [decodeFrom, if_pos inside]
  exact if_pos due

theorem decodeFrom_more (due : 1 < p.missing) (takes : p.Takes byte) :
    decodeFrom position (some p) done (byte :: bytes) =
      decodeFrom (position + 1) (some (p.advance byte)) done bytes := by
  have inside : (p.low ≤ byte.toNat && byte.toNat ≤ p.high) = true := by
    simpa [Takes] using takes
  rw [decodeFrom, if_pos inside]
  exact if_neg (Nat.not_le.mpr due)

/-- What is read with a character under way is that character first. -/
theorem decodeFrom_some_eq_ok_iff :
    decodeFrom position (some p) done bytes = .ok text ↔
      ∃ tail rest c, bytes = tail ++ rest ∧ p.Finishes tail c ∧
        decodeFrom (position + tail.length) none (c :: done) rest = .ok text := by
  constructor
  · intro read
    induction bytes generalizing position p with
    | nil => simp [decodeFrom] at read
    | cons byte bytes ih =>
      by_cases takes : p.Takes byte
      · rcases Nat.lt_or_ge 1 p.missing with due | due
        · rw [decodeFrom_more due takes] at read
          obtain ⟨tail, rest, c, rfl, finishes, read⟩ := ih read
          refine ⟨byte :: tail, rest, c, rfl, .more due takes finishes, ?_⟩
          rwa [List.length_cons, Nat.add_comm tail.length, ← Nat.add_assoc]
        · rw [decodeFrom_last due takes] at read
          exact ⟨[byte], bytes, _, rfl, .last due takes, read⟩
      · have outside : ¬ (p.low ≤ byte.toNat ∧ byte.toNat ≤ p.high) := takes
        simp [decodeFrom, outside] at read
  · rintro ⟨tail, rest, c, rfl, finishes, read⟩
    induction finishes generalizing position with
    | last due takes => exact (decodeFrom_last due takes).trans read
    | more due takes _ ih =>
      rw [List.cons_append, decodeFrom_more due takes]
      apply ih
      rwa [List.length_cons, Nat.add_comm _ 1, ← Nat.add_assoc] at read

/-- What is read between characters is nothing at all, or one character first. -/
theorem decodeFrom_none_eq_ok_iff :
    decodeFrom position none done bytes = .ok text ↔
      (bytes = [] ∧ text = done.reverse) ∨
        ∃ word rest c, bytes = word ++ rest ∧ Spells position word c ∧
          decodeFrom (position + word.length) none (c :: done) rest = .ok text := by
  constructor
  · intro read
    cases bytes with
    | nil => exact .inl ⟨rfl, (Except.ok.inj read).symm⟩
    | cons byte bytes =>
      right
      rw [decodeFrom] at read
      cases start : begin? position byte with
      | none => simp [start] at read
      | some begun =>
        cases begun with
        | inl c => exact ⟨[byte], bytes, c, rfl, .short start, by simpa [start] using read⟩
        | inr p =>
          simp only [start] at read
          obtain ⟨tail, rest, c, rfl, finishes, read⟩ := decodeFrom_some_eq_ok_iff.mp read
          refine ⟨byte :: tail, rest, c, rfl, .long start finishes, ?_⟩
          rwa [List.length_cons, Nat.add_comm tail.length, ← Nat.add_assoc]
  · rintro (⟨rfl, rfl⟩ | ⟨word, rest, c, rfl, spells, read⟩)
    · rfl
    · cases spells with
      | short single => simpa [decodeFrom, single] using read
      | long start finishes =>
        rw [List.cons_append, decodeFrom, start]
        refine decodeFrom_some_eq_ok_iff.mpr ⟨_, rest, c, rfl, finishes, ?_⟩
        rwa [List.length_cons, Nat.add_comm _ 1, ← Nat.add_assoc] at read

theorem decodeFrom_encode (position : Nat) (done text : List Char) :
    decodeFrom position none done (encode text) = .ok (done.reverse ++ text) := by
  induction text generalizing position done with
  | nil => simp [encode, decodeFrom]
  | cons c text ih =>
    refine decodeFrom_none_eq_ok_iff.mpr (.inr ⟨_, encode text, c, rfl, spells_iff.mpr rfl, ?_⟩)
    rw [ih]
    simp

theorem eq_encode_of_decodeFrom (read : decodeFrom position none done bytes = .ok text) :
    ∃ more, bytes = encode more ∧ text = done.reverse ++ more := by
  -- A character takes at least one byte, so what is left to read gets shorter.
  induction size : bytes.length using Nat.strongRecOn generalizing position done bytes with
  | _ count ih =>
    rcases decodeFrom_none_eq_ok_iff.mp read with
      ⟨rfl, rfl⟩ | ⟨word, rest, c, rfl, spells, read⟩
    · exact ⟨[], rfl, by simp⟩
    · have shorter : rest.length < count := by
        have present := List.length_pos_iff.mpr spells.ne_nil
        rw [List.length_append] at size
        omega
      obtain ⟨more, rfl, rfl⟩ := ih _ shorter read rfl
      obtain rfl := spells_iff.mp spells
      exact ⟨c :: more, rfl, by simp⟩

/-- A text is read from the bytes that are written for it, and from no others. -/
theorem decode_eq_ok_iff : decode bytes = .ok text ↔ bytes = encode text := by
  constructor
  · intro read
    obtain ⟨more, rfl, rfl⟩ := eq_encode_of_decodeFrom read
    rfl
  · rintro rfl
    exact decodeFrom_encode 0 [] text

end Intcode.Utf8
