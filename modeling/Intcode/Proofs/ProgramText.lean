import Intcode.Program
import Intcode.Proofs.Numeral

/-!
# Programs read back from their texts

A program can be written in rows: decimal numbers with commas between them, and the rows on lines of
their own. Such a text is cut again at its line feeds and commas, since no decimal text has one in
it, and each of its pieces is read as the number that was written. How the numbers are divided into
rows does not matter.

## Main definitions

* `Program.row` — numbers with commas between them
* `Program.inRows` — rows of numbers on lines of their own

## Main results

* `Text.lines_intercalate` — lines joined by line feeds are cut apart again
* `Text.exists_intercalate_eq_append` — joined texts end with the last of them
* `Program.lineTokens_row`, `Program.readTokens_decimal` — a row is cut and read
* `Program.parse_of_lines` — a text whose lines are rows is read as a program
* `Program.parse_inRows` — a program in rows is read back
-/

namespace Intcode

/-! ### Lines -/

namespace Text

variable {text : List Char} {rows : List (List Char)}

/-- A text in one line. -/
def Unbroken (text : List Char) : Prop := ∀ c ∈ text, ¬ isLineBreak c

instance (text : List Char) : Decidable (Unbroken text) := List.decidableBAll _ text

theorem linesFrom_cons {c : Char} (whole : ¬ isLineBreak c) (line text : List Char) :
    linesFrom line (c :: text) = linesFrom (c :: line) text := by
  -- A carriage return is a break itself, so it cannot be the first of a pair here.
  have other : c ≠ '\r' := by
    rintro rfl
    exact whole (by decide)
  rw [linesFrom]
  · rw [if_neg whole]
  · intro _ same
    exact absurd same other

/-- What has no break in it is added to the line that was begun. -/
theorem linesFrom_unbroken_append (whole : Unbroken text) (line rest : List Char) :
    linesFrom line (text ++ rest) = linesFrom (text.reverse ++ line) rest := by
  -- What was read of the line is kept in reverse, and grows while the text is used up.
  induction text generalizing line with
  | nil => rfl
  | cons c text ih =>
    obtain ⟨first, others⟩ := List.forall_mem_cons.mp whole
    rw [List.cons_append, linesFrom_cons first, ih others]
    simp

/-- A break that is not followed by its second half ends a line. -/
theorem linesFrom_break {c : Char} {rest : List Char} (broken : isLineBreak c)
    (alone : ¬ (c = '\r' ∧ rest.head? = some '\n')) (line : List Char) :
    linesFrom line (c :: rest) = line.reverse :: linesFrom [] rest := by
  rw [linesFrom]
  · rw [if_pos broken]
  · rintro tail rfl rfl
    exact alone ⟨rfl, rfl⟩

theorem linesFrom_append (whole : Unbroken text) (line rest : List Char) :
    linesFrom line (text ++ '\n' :: rest) = (line.reverse ++ text) :: linesFrom [] rest := by
  rw [linesFrom_unbroken_append whole, linesFrom_break (by decide) (by simp)]
  simp

theorem linesFrom_unbroken (whole : Unbroken text) {line : List Char} (full : line ++ text ≠ []) :
    linesFrom line text = [line.reverse ++ text] := by
  have begun : text.reverse ++ line ≠ [] := by simpa [and_comm] using full
  obtain ⟨c, rest, eq⟩ := List.exists_cons_of_ne_nil begun
  rw [← text.append_nil, linesFrom_unbroken_append whole, eq, linesFrom, ← eq]
  simp

/-- Lines joined by line feeds are cut apart again. -/
theorem lines_intercalate (present : rows ≠ []) (whole : ∀ row ∈ rows, Unbroken row)
    (full : ∀ row ∈ rows, row ≠ []) : lines (['\n'].intercalate rows) = rows := by
  induction rows with
  | nil => exact absurd rfl present
  | cons row rows ih =>
    obtain ⟨first, others⟩ := List.forall_mem_cons.mp whole
    obtain ⟨firstFull, othersFull⟩ := List.forall_mem_cons.mp full
    -- No line feed follows the last row, which therefore must not be empty.
    cases rows with
    | nil =>
      rw [List.intercalate_singleton]
      exact linesFrom_unbroken first (by simpa using firstFull)
    | cons next rows =>
      rw [List.intercalate_cons_cons, List.append_assoc, List.singleton_append, lines,
        linesFrom_append first]
      exact congrArg _ (ih (by simp) others othersFull)

/-- Joined texts end with the last of them. -/
theorem exists_intercalate_eq_append (glue : List Char) (present : rows ≠ []) :
    ∃ before, ∃ last ∈ rows, glue.intercalate rows = before ++ last := by
  induction rows with
  | nil => exact absurd rfl present
  | cons row rows ih =>
    cases rows with
    | nil => exact ⟨[], row, List.mem_cons_self, by simp⟩
    | cons next rows =>
      obtain ⟨before, last, found, eq⟩ := ih (List.cons_ne_nil next rows)
      refine ⟨row ++ glue ++ before, last, List.mem_cons_of_mem _ found, ?_⟩
      rw [List.intercalate_cons_cons, eq, ← List.append_assoc]

end Text

/-! ### Rows of numbers -/

namespace Program

variable {xs : List Int} {c : Char}

/-- Numbers with commas between them. -/
def row (xs : List Int) : List Char :=
  [','].intercalate (xs.map fun x => (Numeral.decimal x).toList)

/-- Rows of numbers, each on a line of its own. -/
def inRows (rows : List (List Int)) : List Char := ['\n'].intercalate (rows.map row)

/-- A row has nothing in it but decimal numbers and commas. -/
theorem isPlain_or_eq_of_mem_row (h : c ∈ row xs) : Numeral.isPlain c ∨ c = ',' := by
  induction xs with
  | nil => cases h
  | cons x xs ih =>
    cases xs with
    | nil =>
      rw [row, List.map_singleton, List.intercalate_singleton] at h
      exact .inl (Numeral.isPlain_of_mem_decimal h)
    | cons y xs =>
      rw [row, List.map_cons, List.map_cons, List.intercalate_cons_cons, List.append_assoc,
        List.mem_append, List.singleton_append, List.mem_cons] at h
      rcases h with number | comma | others
      · exact .inl (Numeral.isPlain_of_mem_decimal number)
      · exact .inr comma
      · exact ih others

/-- A row ends with a number. -/
theorem row_eq_append (present : xs ≠ []) :
    ∃ before x, row xs = before ++ (Numeral.decimal x).toList := by
  have texts : xs.map (fun x => (Numeral.decimal x).toList) ≠ [] := by simpa using present
  obtain ⟨before, last, found, eq⟩ := Text.exists_intercalate_eq_append [','] texts
  obtain ⟨x, -, rfl⟩ := List.mem_map.mp found
  exact ⟨before, x, eq⟩

theorem row_ne_nil (present : xs ≠ []) : row xs ≠ [] := by
  obtain ⟨before, x, eq⟩ := row_eq_append present
  rw [eq]
  exact List.append_ne_nil_of_right_ne_nil before (Numeral.toList_decimal_ne_nil x)

/-- A row does not end with a comma. -/
theorem getLast?_row (present : xs ≠ []) : (row xs).getLast? ≠ some ',' := by
  obtain ⟨before, x, eq⟩ := row_eq_append present
  rw [eq, List.getLast?_append,
    Option.or_of_isSome (List.getLast?_isSome.mpr (Numeral.toList_decimal_ne_nil x))]
  intro last
  exact absurd (Numeral.isPlain_of_mem_decimal (List.mem_of_getLast? last)) (by decide)

theorem not_isBlank_of_mem_row (h : c ∈ row xs) : ¬ Text.isBlank c := by
  rcases isPlain_or_eq_of_mem_row h with plain | rfl
  · exact Numeral.not_isBlank_of_isPlain plain
  · decide

theorem unbroken_row (xs : List Int) : Text.Unbroken (row xs) := by
  intro c found
  rcases isPlain_or_eq_of_mem_row found with plain | rfl
  · exact Numeral.not_isLineBreak_of_isPlain plain
  · decide

/-- A row is cut into the decimal texts that it was made of. -/
theorem lineTokens_row (present : xs ≠ []) :
    lineTokens (row xs) = xs.map fun x => (Numeral.decimal x).toList := by
  have whole : dropComma (Text.trim Text.isBlank (row xs)) = row xs := by
    rw [Text.trim_of_forall_not fun c found => not_isBlank_of_mem_row found, dropComma,
      if_neg (getLast?_row present)]
  -- No decimal text has a comma in it, and none has blanks to be trimmed.
  have cut : (row xs).splitOn ',' = xs.map fun x => (Numeral.decimal x).toList := by
    refine List.splitOn_intercalate ',' ?_ (by simpa using present)
    intro text found comma
    obtain ⟨x, -, rfl⟩ := List.mem_map.mp found
    exact absurd (Numeral.isPlain_of_mem_decimal comma) (by decide)
  have untrimmed : ∀ x : Int,
      Text.trim Text.isBlank (Numeral.decimal x).toList = (Numeral.decimal x).toList := by
    intro x
    apply Text.trim_of_forall_not
    intro c found
    exact Numeral.not_isBlank_of_isPlain (Numeral.isPlain_of_mem_decimal found)
  obtain ⟨c, text, eq⟩ := List.exists_cons_of_ne_nil (row_ne_nil present)
  rw [lineTokens, whole, eq]
  dsimp only
  rw [← eq, cut, List.map_map]
  exact List.map_congr_left fun x _ => untrimmed x

/-! ### Programs in rows -/

/-- Decimal texts are read as the numbers that they stand for. -/
theorem readTokens_decimal (short : ∀ x ∈ xs, Numeral.Writable x) (index : Nat) :
    readTokens index (xs.map fun x => (Numeral.decimal x).toList) = .ok xs := by
  induction xs generalizing index with
  | nil => rfl
  | cons x xs ih =>
    obtain ⟨first, others⟩ := List.forall_mem_cons.mp short
    rw [List.map_cons, readTokens, Numeral.read?_decimal first, ih others]
    rfl

/-- A text whose lines are rows of numbers is read as the program of these numbers. -/
theorem parse_of_lines {text : List Char} {rows : List (List Int)}
    (lines : Text.lines text = rows.map row) (present : rows ≠ []) (full : ∀ xs ∈ rows, xs ≠ [])
    (short : ∀ xs ∈ rows, ∀ x ∈ xs, Numeral.Writable x) : parse text = .ok rows.flatten := by
  have pieces : tokens text = rows.flatten.map fun x => (Numeral.decimal x).toList := by
    rw [tokens, lines, List.flatMap_map, List.map_flatten, List.flatMap_def]
    exact congrArg _ (List.map_congr_left fun xs member => lineTokens_row (full xs member))
  have numbers : ∀ x ∈ rows.flatten, Numeral.Writable x := by
    intro x found
    obtain ⟨xs, member, inside⟩ := List.mem_flatten.mp found
    exact short xs member x inside
  -- The first row has a number in it, so there is a program.
  obtain ⟨xs, rows, rfl⟩ := List.exists_cons_of_ne_nil present
  obtain ⟨x, xs, rfl⟩ := List.exists_cons_of_ne_nil (full xs List.mem_cons_self)
  rw [parse, pieces, readTokens_decimal numbers]
  rfl

/-- A program in rows is read back. -/
theorem parse_inRows {rows : List (List Int)} (present : rows ≠ []) (full : ∀ xs ∈ rows, xs ≠ [])
    (short : ∀ xs ∈ rows, ∀ x ∈ xs, Numeral.Writable x) :
    parse (inRows rows) = .ok rows.flatten := by
  refine parse_of_lines (Text.lines_intercalate (by simpa using present) ?_ ?_) present full short
  · intro text found
    obtain ⟨xs, -, rfl⟩ := List.mem_map.mp found
    exact unbroken_row xs
  · intro text found
    obtain ⟨xs, member, rfl⟩ := List.mem_map.mp found
    exact row_ne_nil (full xs member)

end Program

end Intcode
