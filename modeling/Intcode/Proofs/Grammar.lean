import Mathlib.Data.List.Forall2
import Intcode.Proofs.Literal
import Intcode.Proofs.ProgramText

/-!
# The grammar of program texts

A program text is a sequence of lines. A line is skipped if there is nothing on it but blanks and
perhaps one comma; any other line has literals on it, with commas between them and perhaps one after
the last, and with blanks around each. These are rules of a grammar, stated without the reader of
programs, which trims, cuts and drops a comma before it looks at anything.

The reader accepts exactly the texts of this grammar that have a literal in them. In any other text
it names the first piece that is no literal, and counts the pieces before it, which all are.

## Main definitions

* `Text.Divided` — a text and its lines
* `Program.SkipLine`, `Program.ValueLine` — the two kinds of lines
* `Program.Written` — lines and the numbers on them
* `Program.Cut` — a line and its pieces

## Main results

* `Text.divided_iff` — the lines of a text
* `Program.cut_iff` — the pieces of a line
* `Program.valueLine_iff`, `Program.written_iff` — lines of literals by their pieces
* `Program.readTokens_eq_ok_iff`, `Program.readTokens_eq_error_iff` — reading pieces
* `Program.parse_by_grammar` — the reader of programs and the grammar
-/

namespace Intcode

/-! ### Lines of a text -/

namespace Text

variable {text line : List Char} {rows : List (List Char)}

/-- A text and its lines: a line ends with a break, and the last one may end with the text. A
carriage return and the line feed after it are one break. -/
inductive Divided : List Char → List (List Char) → Prop
  | nil : Divided [] []
  | last {line : List Char} : line ≠ [] → Unbroken line → Divided line [line]
  | pair {line rest : List Char} {rows : List (List Char)} :
    Unbroken line → Divided rest rows → Divided (line ++ '\r' :: '\n' :: rest) (line :: rows)
  | single {line rest : List Char} {c : Char} {rows : List (List Char)} :
    Unbroken line → isLineBreak c → ¬ (c = '\r' ∧ rest.head? = some '\n') → Divided rest rows →
    Divided (line ++ c :: rest) (line :: rows)

/-- What is cut into lines is divided into them. -/
theorem divided_linesFrom (line text : List Char) (whole : Unbroken line.reverse) :
    Divided (line.reverse ++ text) (linesFrom line text) := by
  -- Between breaks, the reversed beginning of the line and the rest of the text make up the same
  -- text.
  fun_induction linesFrom line text with
  | case1 => exact .nil
  | case2 c line => simpa using Divided.last (by simp) whole
  | case3 line text ih => exact .pair whole (ih (by simp [Unbroken]))
  | case4 line c text alone broken ih =>
    refine .single whole broken ?_ (ih (by simp [Unbroken]))
    rintro ⟨rfl, feed⟩
    obtain ⟨rest, rfl⟩ := List.head?_eq_some_iff.mp feed
    exact alone rest rfl rfl
  | case5 line c text alone unbroken ih =>
    have longer : Unbroken (c :: line).reverse := by
      rw [List.reverse_cons]
      exact List.forall_mem_append.mpr ⟨whole, List.forall_mem_singleton.mpr unbroken⟩
    simpa using ih longer

/-- A text is divided into its lines in one way. -/
theorem divided_iff : Divided text rows ↔ lines text = rows := by
  constructor
  · intro h
    induction h with
    | nil => rfl
    | last full whole => exact linesFrom_unbroken whole (by simpa using full)
    | pair whole _ ih =>
      rw [lines, linesFrom_unbroken_append whole, linesFrom, ← ih, lines]
      simp
    | single whole broken alone _ ih =>
      rw [lines, linesFrom_unbroken_append whole, linesFrom_break broken alone, ← ih, lines]
      simp
  · rintro rfl
    exact divided_linesFrom [] text (by simp [Unbroken])

end Text

namespace Program

/-! ### The grammar -/

/-- A literal with blanks around it, and its value. -/
inductive Item : List Char → Int → Prop
  | mk {a text b : List Char} {n : Int} :
    Text.Blank a → Numeral.Literal text n → Text.Blank b → Item (a ++ text ++ b) n

/-- A line that is skipped: blanks only, or a single comma with blanks around it. -/
inductive SkipLine : List Char → Prop
  | blank {line : List Char} : Text.Blank line → SkipLine line
  | comma {a b : List Char} : Text.Blank a → Text.Blank b → SkipLine (a ++ ',' :: b)

/-- A line of literals, with commas between them and perhaps one after the last, and their values.
-/
inductive ValueLine : List Char → List Int → Prop
  | bare {items : List (List Char)} {values : List Int} :
    items ≠ [] → List.Forall₂ Item items values → ValueLine ([','].intercalate items) values
  | closed {items : List (List Char)} {values : List Int} {b : List Char} :
    items ≠ [] → List.Forall₂ Item items values → Text.Blank b →
    ValueLine ([','].intercalate items ++ ',' :: b) values

/-- Lines, each skipped or of literals, and the values of the literals in their order. -/
inductive Written : List (List Char) → List Int → Prop
  | nil : Written [] []
  | skip {line : List Char} {lines : List (List Char)} {values : List Int} :
    SkipLine line → Written lines values → Written (line :: lines) values
  | row {line : List Char} {lines : List (List Char)} {row values : List Int} :
    ValueLine line row → Written lines values → Written (line :: lines) (row ++ values)

/-! ### The pieces of a line -/

/-- A line with a comma at its end, apart from blanks. -/
def EndsWithComma (line : List Char) : Prop :=
  ∃ body b, Text.Blank b ∧ line = body ++ ',' :: b

/-- A line and the pieces that should be literals: a line that is skipped has none, and any other is
cut at its commas, without one that ends it. -/
inductive Cut : List Char → List (List Char) → Prop
  | skip {line : List Char} : SkipLine line → Cut line []
  | bare {line : List Char} : ¬ Text.Blank line → ¬ EndsWithComma line →
    Cut line ((line.splitOn ',').map (Text.trim Text.isBlank))
  | closed {body b : List Char} : ¬ Text.Blank body → Text.Blank b →
    Cut (body ++ ',' :: b) ((body.splitOn ',').map (Text.trim Text.isBlank))

variable {line body a b text : List Char} {pieces : List (List Char)} {values : List Int}

theorem not_mem_of_blank (h : Text.Blank text) : ',' ∉ text :=
  fun found => absurd (h ',' found) (by decide)

/-- Blanks before a text are trimmed off the first of its pieces. -/
theorem map_trim_splitOn_append_left (blank : Text.Blank a) :
    ((a ++ text).splitOn ',').map (Text.trim Text.isBlank) =
      (text.splitOn ',').map (Text.trim Text.isBlank) := by
  have trimmed (text : List Char) :
      Text.trim Text.isBlank (a ++ text) = Text.trim Text.isBlank text := by
    simpa using Text.trim_append text (b := []) blank (by simp)
  have single {text : List Char} (h : ',' ∉ text) : (a ++ text).splitOn ',' = [a ++ text] :=
    List.splitOn_eq_singleton (by simpa [not_mem_of_blank blank] using h)
  by_cases comma : ',' ∈ text
  · obtain ⟨before, after, rfl, free⟩ := List.eq_append_cons_of_mem comma
    rw [← List.append_assoc, List.splitOn_append_cons_self, List.splitOn_append_cons_self,
      single free, List.splitOn_eq_singleton free]
    simp [trimmed]
  · rw [single comma, List.splitOn_eq_singleton comma]
    simp [trimmed]

/-- Blanks after a text are trimmed off the last of its pieces. -/
theorem map_trim_splitOn_append_right (blank : Text.Blank b) :
    ((text ++ b).splitOn ',').map (Text.trim Text.isBlank) =
      (text.splitOn ',').map (Text.trim Text.isBlank) := by
  have trimmed (text : List Char) :
      Text.trim Text.isBlank (text ++ b) = Text.trim Text.isBlank text := by
    simpa using Text.trim_append text (a := []) (by simp) blank
  have single {text : List Char} (h : ',' ∉ text) : (text ++ b).splitOn ',' = [text ++ b] :=
    List.splitOn_eq_singleton (by simpa [not_mem_of_blank blank] using h)
  by_cases comma : ',' ∈ text
  · -- The last comma of the text is the first of the reversed one.
    obtain ⟨after, before, eq, free⟩ := List.eq_append_cons_of_mem (List.mem_reverse.mpr comma)
    obtain rfl : text = before.reverse ++ ',' :: after.reverse := by
      rw [← List.reverse_reverse text, eq]
      simp
    have free : ',' ∉ after.reverse := mt List.mem_reverse.mp free
    rw [List.append_assoc, List.cons_append, List.splitOn_append_cons_self,
      List.splitOn_append_cons_self, single free, List.splitOn_eq_singleton free]
    simp [trimmed]
  · rw [single comma, List.splitOn_eq_singleton comma]
    simp [trimmed]

/-- Trimming a line that ends with a comma leaves the comma at its end. -/
theorem trim_append_comma (body : List Char) (blank : Text.Blank b) :
    Text.trim Text.isBlank (body ++ ',' :: b) = body.dropWhile Text.isBlank ++ [','] := by
  have comma : Text.isBlank ',' = false := by decide
  have front : (body ++ [',']).dropWhile Text.isBlank =
      body.dropWhile Text.isBlank ++ [','] := by
    rw [List.dropWhile_append]
    split
    · next empty => simp_all
    · rfl
  calc Text.trim Text.isBlank (body ++ ',' :: b)
      = Text.trim Text.isBlank (body ++ [',']) := by
        simpa using Text.trim_append (body ++ [',']) (a := []) (by simp) blank
    _ = Text.trimEnd Text.isBlank (body.dropWhile Text.isBlank ++ [',']) := by
        rw [Text.trim, front]
    _ = body.dropWhile Text.isBlank ++ [','] := by
        simp [Text.trimEnd, comma]

theorem dropComma_append_comma (text : List Char) : dropComma (text ++ [',']) = text := by
  simp [dropComma]

theorem dropComma_trim_of_endsWithComma (body : List Char) (blank : Text.Blank b) :
    dropComma (Text.trim Text.isBlank (body ++ ',' :: b)) = body.dropWhile Text.isBlank := by
  rw [trim_append_comma body blank, dropComma_append_comma]

theorem dropComma_trim_of_not_endsWithComma (h : ¬ EndsWithComma line) :
    dropComma (Text.trim Text.isBlank line) = Text.trim Text.isBlank line := by
  rw [dropComma, if_neg]
  intro last
  obtain ⟨body, eq⟩ := List.getLast?_eq_some_iff.mp last
  obtain ⟨a, b, -, blank, whole⟩ := Text.exists_trim Text.isBlank line
  exact h ⟨a ++ body, b, blank, by rw [whole, eq]; simp⟩

theorem lineTokens_of_eq_nil (h : dropComma (Text.trim Text.isBlank line) = []) :
    lineTokens line = [] := by
  rw [lineTokens, h]

theorem lineTokens_of_ne_nil (h : dropComma (Text.trim Text.isBlank line) ≠ []) :
    lineTokens line =
      ((dropComma (Text.trim Text.isBlank line)).splitOn ',').map (Text.trim Text.isBlank) := by
  unfold lineTokens
  split
  · next empty => exact absurd empty h
  · rfl

theorem SkipLine.lineTokens_eq (h : SkipLine line) : lineTokens line = [] := by
  apply lineTokens_of_eq_nil
  cases h with
  | blank h => rw [Text.trim_eq_nil_iff.mpr h, dropComma, if_neg (by simp)]
  | comma left right =>
    rw [dropComma_trim_of_endsWithComma _ right]
    exact List.dropWhile_eq_nil_iff.mpr left

/-- The pieces of a line are those that it is cut into. -/
theorem Cut.lineTokens_eq (h : Cut line pieces) : lineTokens line = pieces := by
  cases h with
  | skip skipped => exact skipped.lineTokens_eq
  | bare full unended =>
    have whole := dropComma_trim_of_not_endsWithComma unended
    have present : Text.trim Text.isBlank line ≠ [] := mt Text.trim_eq_nil_iff.mp full
    obtain ⟨a, b, left, right, eq⟩ := Text.exists_trim Text.isBlank line
    calc lineTokens line
        = ((Text.trim Text.isBlank line).splitOn ',').map (Text.trim Text.isBlank) := by
          rw [lineTokens_of_ne_nil (by rwa [whole]), whole]
      _ = ((a ++ Text.trim Text.isBlank line ++ b).splitOn ',').map (Text.trim Text.isBlank) := by
          rw [map_trim_splitOn_append_right right, map_trim_splitOn_append_left left]
      _ = (line.splitOn ',').map (Text.trim Text.isBlank) := by rw [← eq]
  | @closed body b full blank =>
    have dropped := dropComma_trim_of_endsWithComma body blank
    have present : body.dropWhile Text.isBlank ≠ [] := mt List.dropWhile_eq_nil_iff.mp full
    have left : Text.Blank (body.takeWhile Text.isBlank) := fun c => List.mem_takeWhile_imp
    rw [lineTokens_of_ne_nil (by rwa [dropped]), dropped, ← map_trim_splitOn_append_left left,
      List.takeWhile_append_dropWhile]

/-- Every line is cut into pieces. -/
theorem exists_cut (line : List Char) : ∃ pieces, Cut line pieces := by
  by_cases ended : EndsWithComma line
  · obtain ⟨body, b, blank, rfl⟩ := ended
    by_cases empty : Text.Blank body
    · exact ⟨_, .skip (.comma empty blank)⟩
    · exact ⟨_, .closed empty blank⟩
  · by_cases empty : Text.Blank line
    · exact ⟨_, .skip (.blank empty)⟩
    · exact ⟨_, .bare empty ended⟩

theorem cut_iff : Cut line pieces ↔ lineTokens line = pieces := by
  constructor
  · exact Cut.lineTokens_eq
  · rintro rfl
    obtain ⟨pieces, cut⟩ := exists_cut line
    rwa [cut.lineTokens_eq]

/-- The lines without any piece are those that are skipped. -/
theorem lineTokens_eq_nil_iff : lineTokens line = [] ↔ SkipLine line := by
  constructor
  · intro empty
    obtain ⟨pieces, cut⟩ := exists_cut line
    rw [cut.lineTokens_eq] at empty
    -- A line that is not skipped is cut at its commas, which leaves one piece at least.
    cases cut with
    | skip skipped => exact skipped
    | bare | closed => exact absurd (List.map_eq_nil_iff.mp empty) (List.splitOn_ne_nil _ _)
  · exact SkipLine.lineTokens_eq

/-- Every piece was trimmed. -/
theorem exists_trim_of_mem_lineTokens {piece : List Char} (h : piece ∈ lineTokens line) :
    ∃ text, piece = Text.trim Text.isBlank text := by
  unfold lineTokens at h
  split at h
  · cases h
  · obtain ⟨text, -, rfl⟩ := List.mem_map.mp h
    exact ⟨text, rfl⟩

/-! ### Lines of literals -/

theorem Item.not_blank {n : Int} (h : Item text n) : ¬ Text.Blank text := by
  cases h with
  | mk left literal right =>
    intro blank
    obtain ⟨c, rest, rfl⟩ := List.exists_cons_of_ne_nil literal.ne_nil
    exact (literal.forall_mem c List.mem_cons_self).1 (blank c (by simp))

theorem Item.not_mem {n : Int} (h : Item text n) : ',' ∉ text := by
  cases h with
  | mk left literal right =>
    simp only [List.mem_append, not_or]
    exact ⟨⟨not_mem_of_blank left, fun found => (literal.forall_mem _ found).2 rfl⟩,
      not_mem_of_blank right⟩

/-- A text is an item exactly if a literal remains when it is trimmed. -/
theorem item_iff {n : Int} : Item text n ↔ Numeral.Literal (Text.trim Text.isBlank text) n := by
  constructor
  · intro h
    cases h with
    | mk left literal right =>
      rw [Text.trim_append _ left right,
        Text.trim_of_forall_not fun c found => (literal.forall_mem c found).1]
      exact literal
  · intro literal
    obtain ⟨a, b, left, right, eq⟩ := Text.exists_trim Text.isBlank text
    rw [eq]
    exact .mk left literal right

theorem forall_mem_of_items {items : List (List Char)} (each : List.Forall₂ Item items values) :
    ∀ item ∈ items, ¬ Text.Blank item ∧ ',' ∉ item := by
  have both : List.Forall₂ (fun item n => (¬ Text.Blank item ∧ ',' ∉ item) ∧ Item item n)
      items values := each.imp fun item n h => ⟨⟨h.not_blank, h.not_mem⟩, h⟩
  exact ((List.forall₂_and_left _ _).mp both).1

/-- Items with commas between them are cut apart at these. -/
theorem splitOn_items {items : List (List Char)} (present : items ≠ [])
    (each : List.Forall₂ Item items values) : ([','].intercalate items).splitOn ',' = items :=
  List.splitOn_intercalate ',' (fun item found => (forall_mem_of_items each item found).2) present

theorem not_blank_items {items : List (List Char)} (present : items ≠ [])
    (each : List.Forall₂ Item items values) : ¬ Text.Blank ([','].intercalate items) := by
  intro blank
  have cut := splitOn_items present each
  -- Blanks have no comma, so they would be the only item.
  rw [List.splitOn_eq_singleton (not_mem_of_blank blank)] at cut
  have only := List.mem_singleton_self ([','].intercalate items)
  rw [cut] at only
  exact (forall_mem_of_items each _ only).1 blank

theorem not_endsWithComma_items {items : List (List Char)} (present : items ≠ [])
    (each : List.Forall₂ Item items values) : ¬ EndsWithComma ([','].intercalate items) := by
  rintro ⟨body, b, blank, eq⟩
  have cut := splitOn_items present each
  -- What follows the last comma would be an item of blanks.
  rw [eq, List.splitOn_append_cons_self, List.splitOn_eq_singleton (not_mem_of_blank blank)] at cut
  exact (forall_mem_of_items each b (by simp [← cut])).1 blank

theorem forall₂_literal_iff {items : List (List Char)} :
    List.Forall₂ Numeral.Literal (items.map (Text.trim Text.isBlank)) values ↔
      List.Forall₂ Item items values := by
  rw [List.forall₂_map_left_iff]
  exact ⟨fun h => h.imp fun _ _ => item_iff.mpr, fun h => h.imp fun _ _ => item_iff.mp⟩

/-- A line of literals is one that is cut into literals, and into one at least. -/
theorem valueLine_iff :
    ValueLine line values ↔
      lineTokens line ≠ [] ∧ List.Forall₂ Numeral.Literal (lineTokens line) values := by
  constructor
  · intro h
    cases h with
    | bare present each =>
      have cut := Cut.bare (not_blank_items present each) (not_endsWithComma_items present each)
      rw [splitOn_items present each] at cut
      rw [cut.lineTokens_eq, forall₂_literal_iff]
      exact ⟨by simpa using present, each⟩
    | closed present each blank =>
      have cut := Cut.closed (not_blank_items present each) blank
      rw [splitOn_items present each] at cut
      rw [cut.lineTokens_eq, forall₂_literal_iff]
      exact ⟨by simpa using present, each⟩
  · rintro ⟨present, each⟩
    obtain ⟨pieces, cut⟩ := exists_cut line
    rw [cut.lineTokens_eq] at present each
    cases cut with
    | skip => exact absurd rfl present
    | bare =>
      have value := ValueLine.bare (List.splitOn_ne_nil _ _) (forall₂_literal_iff.mp each)
      rwa [List.intercalate_splitOn] at value
    | closed _ blank =>
      have value := ValueLine.closed (List.splitOn_ne_nil _ _) (forall₂_literal_iff.mp each) blank
      rwa [List.intercalate_splitOn] at value

theorem forall₂_append_left {α β : Type} {R : α → β → Prop} {l₁ l₂ : List α} {u : List β}
    (h : List.Forall₂ R (l₁ ++ l₂) u) :
    ∃ u₁ u₂, List.Forall₂ R l₁ u₁ ∧ List.Forall₂ R l₂ u₂ ∧ u = u₁ ++ u₂ := by
  induction l₁ generalizing u with
  | nil => exact ⟨[], u, .nil, h, rfl⟩
  | cons a l₁ ih =>
    obtain ⟨b, u, first, rest, rfl⟩ := List.forall₂_cons_left_iff.mp h
    obtain ⟨u₁, u₂, left, right, rfl⟩ := ih rest
    exact ⟨b :: u₁, u₂, .cons first left, right, rfl⟩

/-- Lines are written by the grammar exactly if all of their pieces are literals. -/
theorem written_iff {lines : List (List Char)} :
    Written lines values ↔ List.Forall₂ Numeral.Literal (lines.flatMap lineTokens) values := by
  constructor
  · intro h
    induction h with
    | nil => exact .nil
    | skip skipped _ ih => rwa [List.flatMap_cons, skipped.lineTokens_eq, List.nil_append]
    | row value _ ih =>
      rw [List.flatMap_cons]
      exact List.rel_append (valueLine_iff.mp value).2 ih
  · intro h
    induction lines generalizing values with
    | nil =>
      obtain rfl := List.forall₂_nil_left_iff.mp h
      exact .nil
    | cons line lines ih =>
      rw [List.flatMap_cons] at h
      obtain ⟨row, others, left, right, rfl⟩ := forall₂_append_left h
      by_cases empty : lineTokens line = []
      · rw [empty] at left
        obtain rfl := List.forall₂_nil_left_iff.mp left
        exact .skip (lineTokens_eq_nil_iff.mp empty) (ih right)
      · exact .row (valueLine_iff.mpr ⟨empty, left⟩) (ih right)

/-! ### Reading -/

variable {piece : List Char} {index : Nat} {n : Int}

theorem readTokens_cons_of_none (h : Numeral.read? piece = none) (index : Nat)
    (pieces : List (List Char)) :
    readTokens index (piece :: pieces) = .error (.badValue (String.ofList piece) index) := by
  rw [readTokens, h]

theorem readTokens_cons_of_some (h : Numeral.read? piece = some n) (index : Nat)
    (pieces : List (List Char)) :
    readTokens index (piece :: pieces) = (readTokens (index + 1) pieces).map (n :: ·) := by
  rw [readTokens, h]
  rfl

/-- Pieces are read as integers exactly if each of them is. -/
theorem readTokens_eq_ok_iff :
    readTokens index pieces = .ok values ↔
      List.Forall₂ (fun piece n => Numeral.read? piece = some n) pieces values := by
  induction pieces generalizing index values with
  | nil => simp [readTokens, eq_comm]
  | cons piece pieces ih =>
    rw [List.forall₂_cons_left_iff]
    cases read : Numeral.read? piece with
    | none => simp [readTokens_cons_of_none read]
    | some n =>
      rw [readTokens_cons_of_some read]
      constructor
      · intro h
        cases rest : readTokens (index + 1) pieces with
        | error e =>
          rw [rest] at h
          cases h
        | ok others =>
          rw [rest] at h
          cases h
          exact ⟨n, others, rfl, ih.mp rest, rfl⟩
      · rintro ⟨m, others, same, each, rfl⟩
        rw [ih.mpr each, Option.some.inj same]
        rfl

/-- The first piece that is no integer is named, with the number of pieces before it. -/
theorem readTokens_eq_error_iff {e : FormatError} :
    readTokens index pieces = .error e ↔
      ∃ before bad after, pieces = before ++ bad :: after ∧
        (∀ piece ∈ before, (Numeral.read? piece).isSome) ∧ Numeral.read? bad = none ∧
        e = .badValue (String.ofList bad) (index + before.length) := by
  induction pieces generalizing index with
  | nil => simp [readTokens]
  | cons piece pieces ih =>
    cases read : Numeral.read? piece with
    | none =>
      rw [readTokens_cons_of_none read]
      constructor
      · intro h
        cases h
        exact ⟨[], piece, pieces, rfl, by simp, read, rfl⟩
      · rintro ⟨before, bad, after, eq, each, -, rfl⟩
        -- The first piece is no integer, so nothing can come before the bad one.
        cases before with
        | nil =>
          cases eq
          rfl
        | cons first before =>
          cases eq
          simp [read] at each
    | some n =>
      rw [readTokens_cons_of_some read]
      constructor
      · intro h
        cases rest : readTokens (index + 1) pieces with
        | ok others =>
          rw [rest] at h
          cases h
        | error e' =>
          rw [rest] at h
          cases h
          obtain ⟨before, bad, after, rfl, each, none, rfl⟩ := ih.mp rest
          refine ⟨piece :: before, bad, after, rfl, ?_, none, ?_⟩
          · exact List.forall_mem_cons.mpr ⟨by simp [read], each⟩
          · simp [Nat.add_right_comm, Nat.add_assoc]
      · rintro ⟨before, bad, after, eq, each, none, rfl⟩
        cases before with
        | nil =>
          cases eq
          simp [read] at none
        | cons first before =>
          cases eq
          have others := (List.forall_mem_cons.mp each).2
          have shifted : index + (piece :: before).length = index + 1 + before.length := by
            rw [List.length_cons, Nat.add_assoc, Nat.add_comm 1]
          rw [ih.mpr ⟨before, bad, after, rfl, others, none, by rw [shifted]⟩]
          rfl

/-! ### Programs -/

/-- The pieces of a text are literals where they are read. -/
theorem read?_of_mem_tokens (h : piece ∈ tokens text) :
    Numeral.read? piece = some n ↔ Numeral.Literal piece n := by
  obtain ⟨line, -, found⟩ := List.mem_flatMap.mp h
  obtain ⟨whole, rfl⟩ := exists_trim_of_mem_lineTokens found
  exact Numeral.read?_trim_eq_some_iff

theorem isSome_read?_of_mem_tokens (h : piece ∈ tokens text) :
    (Numeral.read? piece).isSome ↔ ∃ n, Numeral.Literal piece n := by
  simp only [Option.isSome_iff_exists, read?_of_mem_tokens h]

theorem tokens_eq_nil_iff : tokens text = [] ↔ ∀ line ∈ Text.lines text, SkipLine line := by
  simp only [tokens, List.flatMap_eq_nil_iff, lineTokens_eq_nil_iff]

theorem forall₂_of_mem {α β : Type} {R S : α → β → Prop} {l : List α} {u : List β}
    (h : ∀ a ∈ l, ∀ b, R a b → S a b) (each : List.Forall₂ R l u) : List.Forall₂ S l u := by
  have members : List.Forall₂ (fun a b => a ∈ l ∧ R a b) l u :=
    (List.forall₂_and_left _ _).mpr ⟨fun _ found => found, each⟩
  exact members.imp fun a b both => h a both.1 b both.2

/-- All pieces of a text are read exactly if its lines are written by the grammar. -/
theorem readTokens_tokens_eq_ok_iff :
    readTokens 0 (tokens text) = .ok values ↔ Written (Text.lines text) values := by
  rw [readTokens_eq_ok_iff, written_iff, ← tokens]
  exact ⟨forall₂_of_mem fun piece found n => (read?_of_mem_tokens found).mp,
    forall₂_of_mem fun piece found n => (read?_of_mem_tokens found).mpr⟩

theorem parse_of_ok {value : Int} {others : List Int}
    (h : readTokens 0 (tokens text) = .ok (value :: others)) :
    parse text = .ok (value :: others) := by
  rw [parse, h]
  rfl

theorem parse_of_nil (h : readTokens 0 (tokens text) = .ok []) : parse text = .error .noValues := by
  rw [parse, h]
  rfl

theorem parse_of_error {e : FormatError} (h : readTokens 0 (tokens text) = .error e) :
    parse text = .error e := by
  rw [parse, h]
  rfl

theorem parse_eq_ok_iff :
    parse text = .ok values ↔ readTokens 0 (tokens text) = .ok values ∧ values ≠ [] := by
  cases read : readTokens 0 (tokens text) with
  | error e => simp [parse_of_error read]
  | ok program =>
    cases program with
    | nil =>
      rw [parse_of_nil read]
      simp +contextual [eq_comm]
    | cons n program =>
      rw [parse_of_ok read]
      simp only [Except.ok.injEq]
      constructor
      · rintro rfl
        exact ⟨rfl, List.cons_ne_nil _ _⟩
      · exact And.left

theorem parse_eq_noValues_iff : parse text = .error .noValues ↔ tokens text = [] := by
  cases read : readTokens 0 (tokens text) with
  | error e =>
    obtain ⟨before, bad, after, eq, -, -, rfl⟩ := readTokens_eq_error_iff.mp read
    rw [parse_of_error read]
    simp [eq]
  | ok program =>
    have each := readTokens_eq_ok_iff.mp read
    have same : tokens text = [] ↔ program = [] := by
      rw [← List.length_eq_zero_iff, each.length_eq, List.length_eq_zero_iff]
    cases program with
    | nil => simp [parse_of_nil read, same]
    | cons n program => simp [parse_of_ok read, same]

theorem parse_eq_badValue_iff {token : String} :
    parse text = .error (.badValue token index) ↔
      readTokens 0 (tokens text) = .error (.badValue token index) := by
  cases read : readTokens 0 (tokens text) with
  | error e => rw [parse_of_error read]
  | ok program =>
    cases program with
    | nil => simp [parse_of_nil read]
    | cons n program => simp [parse_of_ok read]

/-- Lines of the grammar have numbers on them exactly if not all of them are skipped. -/
theorem Written.exists_valueLine_iff {lines : List (List Char)} (h : Written lines values) :
    (∃ line ∈ lines, ∃ row, ValueLine line row) ↔ values ≠ [] := by
  constructor
  · rintro ⟨line, found, row, value⟩ rfl
    have none := List.forall₂_nil_right_iff.mp (written_iff.mp h)
    exact (valueLine_iff.mp value).1 (List.flatMap_eq_nil_iff.mp none line found)
  · intro present
    induction h with
    | nil => exact absurd rfl present
    | skip _ _ ih =>
      obtain ⟨line, found, value⟩ := ih present
      exact ⟨line, List.mem_cons_of_mem _ found, value⟩
    | row value => exact ⟨_, List.mem_cons_self, _, value⟩

/-- The wording for a text without values is that of no other error. -/
theorem FormatError.message_eq_iff {e : FormatError} :
    e.message = "Program contains no values" ↔ e = .noValues := by
  cases e with
  | noValues => simp [message]
  | badValue token index =>
    simp only [reduceCtorEq, iff_false]
    intro same
    have first := congrArg (fun s : String => s.toList.head?) same
    simp [message] at first

/-- The pieces of the lines, one after the other, are the pieces of the text. -/
theorem forall₂_cut_iff {lines : List (List Char)} {parts : List (List (List Char))} :
    List.Forall₂ Cut lines parts ↔ lines.map lineTokens = parts := by
  rw [← List.forall₂_eq_eq_eq, List.forall₂_map_left_iff]
  exact ⟨fun h => h.imp fun _ _ => cut_iff.mp, fun h => h.imp fun _ _ => cut_iff.mpr⟩

/-- The reader of programs accepts exactly the texts of the grammar that have a literal in them, and
gives the values of the literals in their order. It reports that there are no values exactly if all
lines are skipped; and it reports a bad value exactly if that is the first piece that is no literal,
with the number of pieces before it. -/
theorem parse_by_grammar (text : List Char) :
    ∃ lines, Text.Divided text lines ∧
      (∀ values, parse text = .ok values ↔
        Written lines values ∧ ∃ line ∈ lines, ∃ row, ValueLine line row) ∧
      ((∃ e, parse text = .error e ∧ e.message = "Program contains no values") ↔
        ∀ line ∈ lines, SkipLine line) ∧
      ∀ token index, parse text = .error (.badValue token index) ↔
        ∃ parts before bad after, List.Forall₂ Cut lines parts ∧
          parts.flatten = before ++ bad :: after ∧
          (∀ piece ∈ before, ∃ n, Numeral.Literal piece n) ∧ (¬ ∃ n, Numeral.Literal bad n) ∧
          token = String.ofList bad ∧ index = before.length := by
  refine ⟨Text.lines text, Text.divided_iff.mpr rfl, fun values => ?_, ?_, fun token index => ?_⟩
  · rw [parse_eq_ok_iff, readTokens_tokens_eq_ok_iff]
    exact and_congr_right fun written => written.exists_valueLine_iff.symm
  · simp only [FormatError.message_eq_iff, exists_eq_right, parse_eq_noValues_iff,
      tokens_eq_nil_iff]
  · have pieces : tokens text = ((Text.lines text).map lineTokens).flatten := List.flatMap_def
    rw [parse_eq_badValue_iff, readTokens_eq_error_iff]
    simp only [forall₂_cut_iff, FormatError.badValue.injEq, Nat.zero_add]
    constructor
    · rintro ⟨before, bad, after, eq, good, unread, token, index⟩
      have readable {piece : List Char} (found : piece ∈ before ++ bad :: after) :=
        isSome_read?_of_mem_tokens (eq ▸ found)
      refine ⟨_, before, bad, after, rfl, pieces ▸ eq, fun piece found => ?_, ?_, token, index⟩
      · exact (readable (List.mem_append_left _ found)).mp (good piece found)
      · rw [← readable (by simp), unread]
        simp
    · rintro ⟨_, before, bad, after, rfl, eq, good, bad', token, index⟩
      rw [← pieces] at eq
      have readable {piece : List Char} (found : piece ∈ before ++ bad :: after) :=
        isSome_read?_of_mem_tokens (eq ▸ found)
      refine ⟨before, bad, after, eq, fun piece found => ?_, ?_, token, index⟩
      · exact (readable (List.mem_append_left _ found)).mpr (good piece found)
      · rw [← readable (by simp)] at bad'
        simpa using bad'

end Program

end Intcode
