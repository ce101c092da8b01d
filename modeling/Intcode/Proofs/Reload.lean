import Intcode.Proofs.ProgramText
import Intcode.Proofs.Sweep
import Intcode.Proofs.Transparency

/-!
# Listings can be loaded back

A listing shows the raw cells of each line in a column of their own, between the colon after the
address and the next space. These columns, one below the other, are the text of a program, and it is
the program that was listed.

The column is found whatever its width: an address has no colon in it, the raw cells have no space,
and at least one space follows them, so padding never matters.

## Main definitions

* `Listing.rawColumn` — the raw cells of a line, cut out of its text
* `Listing.rawText` — the raw cells of a listing, line by line

## Main results

* `Listing.Line.text?_eq_shown` — the text of a line whose numbers can be written
* `Listing.rawColumn_shown` — the raw cells are cut out of it
* `Listing.listing_reloads` — the raw cells of a listing are the text of the program
-/

namespace Intcode

theorem mapM_eq_some_map {α β : Type} {f : α → Option β} {g : α → β} {l : List α}
    (h : ∀ a ∈ l, f a = some (g a)) : l.mapM f = some (l.map g) := by
  induction l with
  | nil => rfl
  | cons a l ih =>
    obtain ⟨first, others⟩ := List.forall_mem_cons.mp h
    rw [List.mapM_cons, first, ih others]
    rfl

theorem forall_mem_of_mapM {α β : Type} {f : α → Option β} {P : β → Prop} {l : List α} {bs : List β}
    (h : l.mapM f = some bs) (each : ∀ a b, f a = some b → P b) : ∀ b ∈ bs, P b := by
  induction l generalizing bs with
  | nil =>
    cases h
    simp
  | cons a l ih =>
    rw [List.mapM_cons] at h
    obtain ⟨b, first, h⟩ := Option.bind_eq_some_iff.mp h
    obtain ⟨others, rest, h⟩ := Option.bind_eq_some_iff.mp h
    cases h
    exact List.forall_mem_cons.mpr ⟨each a b first, ih rest⟩

/-! ### Texts in one line -/

namespace Text

theorem unbroken_append {a b : List Char} : Unbroken (a ++ b) ↔ Unbroken a ∧ Unbroken b :=
  List.forall_mem_append

theorem unbroken_cons {c : Char} {text : List Char} :
    Unbroken (c :: text) ↔ ¬ isLineBreak c ∧ Unbroken text :=
  List.forall_mem_cons

theorem unbroken_spaces (k : Nat) : Unbroken (List.replicate k ' ') := by
  intro c found
  rw [List.eq_of_mem_replicate found]
  decide

theorem unbroken_decimal (n : Int) : Unbroken (Numeral.decimal n).toList := by
  intro c found
  exact Numeral.not_isLineBreak_of_isPlain (Numeral.isPlain_of_mem_decimal found)

theorem toList_padLeft (width : Nat) (text : String) :
    (padLeft width text).toList = List.replicate (width - text.length) ' ' ++ text.toList := by
  simp [padLeft]

/-- Neither the padding of a number nor its digits are taken for a colon. -/
theorem colon_not_mem_padLeft (width : Nat) (n : Int) :
    ':' ∉ (padLeft width (Numeral.decimal n)).toList := by
  rw [toList_padLeft, List.mem_append]
  rintro (space | digit)
  · exact absurd (List.eq_of_mem_replicate space) (by decide)
  · exact absurd (Numeral.isPlain_of_mem_decimal digit) (by decide)

theorem Unbroken.trimEnd {text : List Char} (h : Unbroken text) :
    Unbroken (Text.trimEnd isBlank text) := by
  intro c found
  have kept := (List.dropWhile_sublist isBlank).subset (List.mem_reverse.mp found)
  exact h c (List.mem_reverse.mp kept)

theorem unbroken_intercalate {glue : List Char} {texts : List (List Char)} (joint : Unbroken glue)
    (each : ∀ text ∈ texts, Unbroken text) : Unbroken (glue.intercalate texts) := by
  induction texts with
  | nil => simp [Unbroken]
  | cons text texts ih =>
    obtain ⟨first, others⟩ := List.forall_mem_cons.mp each
    cases texts with
    | nil => rwa [List.intercalate_singleton]
    | cons next texts =>
      rw [List.intercalate_cons_cons, unbroken_append, unbroken_append]
      exact ⟨⟨first, joint⟩, ih others⟩

end Text

/-- An operand is shown in one line. -/
theorem Operand.unbroken_text? {o : Operand Int} {text : String} (h : o.text? = some text) :
    Text.Unbroken text.toList := by
  cases o with
  | immediate value =>
    rw [text?, textBy?] at h
    cases written : Numeral.write? value with
    | none =>
      rw [written] at h
      cases h
    | some digits =>
      rw [written] at h
      cases h
      rw [Numeral.eq_decimal_of_write? written, String.toList_append, Text.unbroken_append]
      exact ⟨by decide, Text.unbroken_decimal value⟩
  | position address =>
    rw [text?, textBy?] at h
    cases written : Numeral.write? address with
    | none =>
      rw [written] at h
      cases h
    | some digits =>
      rw [written] at h
      cases h
      rw [Numeral.eq_decimal_of_write? written, String.toList_append, String.toList_append,
        Text.unbroken_append, Text.unbroken_append]
      exact ⟨⟨by decide, Text.unbroken_decimal address⟩, by decide⟩

theorem Command.unbroken_mnemonic (c : Command Int) : Text.Unbroken c.mnemonic.toList := by
  unfold mnemonic
  cases c.opcode <;> decide

/-- An instruction is shown in one line. -/
theorem Command.unbroken_text? {c : Command Int} {text : String} (h : c.text? = some text) :
    Text.Unbroken text.toList := by
  change c.textBy? Numeral.write? = some text at h
  unfold textBy? at h
  obtain ⟨texts, written, h⟩ := Option.bind_eq_some_iff.mp h
  cases h
  have each := forall_mem_of_mapM written fun o text shown => Operand.unbroken_text? shown
  rw [String.toList_ofList]
  refine Text.Unbroken.trimEnd ?_
  rw [String.toList_append, String.toList_append, Text.padRight, String.toList_append,
    String.toList_ofList, String.toList_intercalate, Text.unbroken_append, Text.unbroken_append,
    Text.unbroken_append]
  refine ⟨⟨⟨c.unbroken_mnemonic, Text.unbroken_spaces _⟩, by decide⟩, ?_⟩
  refine Text.unbroken_intercalate (by decide) ?_
  simpa using each

namespace Listing

/-! ### The text of a line -/

namespace Line

variable {l : Line} {width : Nat}

/-- The text of a line, if all of its numbers can be written. -/
def shown (width : Nat) (l : Line) : String :=
  Text.padLeft 5 (Numeral.decimal l.address) ++ ": " ++
    Text.padRight width (",".intercalate (l.raw.map Numeral.decimal)) ++ " " ++ l.assembly?.getD ""

theorem text?_eq_shown (label : Numeral.Writable l.address)
    (cells : ∀ cell ∈ l.raw, Numeral.Writable cell) (assembled : l.assembly?.isSome) :
    l.text? width = some (l.shown width) := by
  obtain ⟨assembly, eq⟩ := Option.isSome_iff_exists.mp assembled
  have raw : l.raw.mapM Numeral.write? = some (l.raw.map Numeral.decimal) :=
    mapM_eq_some_map fun cell found => Numeral.write?_of_writable (cells cell found)
  rw [text?, raw, eq, Numeral.write?_of_writable label, shown, eq]
  rfl

theorem toList_shown (width : Nat) (l : Line) :
    (l.shown width).toList =
      List.replicate (5 - (Numeral.decimal l.address).length) ' ' ++
        (Numeral.decimal l.address).toList ++ ':' :: ' ' :: (Program.row l.raw ++
          (List.replicate (width - (",".intercalate (l.raw.map Numeral.decimal)).length) ' ' ++
            ' ' :: (l.assembly?.getD "").toList)) := by
  simp [shown, Text.padLeft, Text.padRight, Program.row, String.toList_intercalate,
    Function.comp_def]

/-- A line of a listing is one line. -/
theorem unbroken_shown (width : Nat) (l : Line) : Text.Unbroken (l.shown width).toList := by
  have assembly : Text.Unbroken (l.assembly?.getD "").toList := by
    unfold assembly?
    cases l.command with
    | some command =>
      dsimp only
      cases shown : command.text? with
      | none => decide
      | some text => exact Command.unbroken_text? shown
    | none =>
      dsimp only
      cases written : Numeral.write? l.cell with
      | none => decide
      | some digits =>
        change Text.Unbroken ("DATA " ++ digits).toList
        rw [Numeral.eq_decimal_of_write? written, String.toList_append, Text.unbroken_append]
        exact ⟨by decide, Text.unbroken_decimal l.cell⟩
  rw [toList_shown, Text.unbroken_append, Text.unbroken_append, Text.unbroken_cons,
    Text.unbroken_cons, Text.unbroken_append, Text.unbroken_append, Text.unbroken_cons]
  exact ⟨⟨Text.unbroken_spaces _, Text.unbroken_decimal _⟩, by decide, by decide,
    Program.unbroken_row _, Text.unbroken_spaces _, by decide, assembly⟩

end Line

/-! ### The column of raw cells -/

/-- What follows the first colon with a space after it. -/
def afterColon : List Char → List Char
  | [] => []
  | ':' :: ' ' :: rest => rest
  | _ :: rest => afterColon rest

/-- The raw cells in the text of a line: what is between the first colon with a space after it and
the next space. -/
def rawColumn (line : List Char) : List Char := (afterColon line).takeWhile (· ≠ ' ')

/-- The raw cells in the text of a listing, line by line. -/
def rawText (listing : List Char) : List Char :=
  ['\n'].intercalate ((Text.lines listing).map rawColumn)

theorem afterColon_append {before : List Char} (h : ':' ∉ before) (rest : List Char) :
    afterColon (before ++ ':' :: ' ' :: rest) = rest := by
  induction before with
  | nil => rfl
  | cons c before ih =>
    obtain ⟨other, others⟩ := not_or.mp (mt List.mem_cons.mpr h)
    rw [List.cons_append, afterColon, ih others]
    intro _ same
    exact absurd same.symm other

theorem rawColumn_shown (width : Nat) (l : Line) :
    rawColumn (l.shown width).toList = Program.row l.raw := by
  have colon := Text.colon_not_mem_padLeft 5 l.address
  rw [Text.toList_padLeft] at colon
  have spaceless : ∀ c ∈ Program.row l.raw, decide (c ≠ ' ') = true := by
    intro c found
    refine decide_eq_true fun space => Program.not_isBlank_of_mem_row found ?_
    rw [space]
    decide
  rw [rawColumn, l.toList_shown, afterColon_append colon, List.takeWhile_append_of_pos spaceless]
  -- A space follows the cells, that of the padding or the one after it.
  cases width - (",".intercalate (l.raw.map Numeral.decimal)).length <;> simp [List.replicate_succ]

/-! ### Listings -/

/-- Every line of cells that can be written has an instruction or a data cell to show. -/
theorem isSome_assembly?_lineOf {address : Nat} {cell : Int} {rest : List Int}
    (short : ∀ c ∈ cell :: rest, Numeral.Writable c) :
    (lineOf address cell rest).assembly?.isSome := by
  cases made : Command.ofWindow (cell :: rest) with
  | error stop =>
    have line : lineOf address cell rest = ⟨address, cell, [], none⟩ := by
      rw [lineOf, made]
      rfl
    rw [line, Line.assembly?]
    dsimp only
    rw [Numeral.write?_of_writable (short cell List.mem_cons_self)]
    rfl
  | ok command =>
    have line : (lineOf address cell rest).command = some command := by
      rw [lineOf, made]
      rfl
    obtain ⟨word, others, w, cells, -, resolved⟩ := Command.ofWindow_eq_ok made
    cases cells
    rw [Line.assembly?, line]
    refine Command.text?_isSome_iff.mpr fun c found => short c ?_
    rw [Command.raws_of_ofWord? resolved] at found
    exact List.mem_cons_of_mem _ (List.mem_of_mem_take found)

/-- A line that some cells are cut into has its text. -/
theorem text?_of_mem_linesOf {address width : Nat} {cells : List Int} {l : Line}
    (h : l ∈ linesOf address cells) (short : ∀ c ∈ cells, Numeral.Writable c)
    (small : address + cells.length ≤ 10 ^ Numeral.digitLimit) :
    l.text? width = some (l.shown width) := by
  obtain ⟨place, cell, rest, rfl, below, inside⟩ := mem_linesOf h
  have written : ∀ c ∈ cell :: rest, Numeral.Writable c := fun c found => short c (inside c found)
  refine Line.text?_eq_shown ?_ ?_ (isSome_assembly?_lineOf written)
  · rw [Numeral.writable_iff, Int.natAbs_natCast]
    exact Nat.lt_of_lt_of_le below small
  · intro c found
    refine written c ?_
    rw [← raw_append_drop place cell rest]
    exact List.mem_append_left _ found

/-- The raw cells of a listing are the text of a program in rows, a row for each line. -/
theorem rawText_shown {lines : List Line} (present : lines ≠ []) (width : Nat) :
    rawText ("\n".intercalate (lines.map (Line.shown width))).toList =
      Program.inRows (lines.map Line.raw) := by
  have feed : "\n".toList = ['\n'] := by decide
  have cut : Text.lines ("\n".intercalate (lines.map (Line.shown width))).toList =
      (lines.map (Line.shown width)).map String.toList := by
    rw [String.toList_intercalate, feed]
    refine Text.lines_intercalate (by simpa using present) ?_ ?_
    · simp only [List.forall_mem_map]
      intro l _
      exact l.unbroken_shown width
    · simp only [List.forall_mem_map]
      intro l _
      simp [Line.toList_shown]
  rw [rawText, cut, Program.inRows, List.map_map, List.map_map, List.map_map]
  refine congrArg _ (List.map_congr_left fun l _ => ?_)
  simp only [Function.comp_apply, rawColumn_shown]

/-- A listing can be loaded back: the raw cells in its lines are the text of a program, which is the
listed one from the start of the listing on. -/
theorem listing_reloads (program : Array Int) {start : Int}
    (short : ∀ cell ∈ program, Numeral.Writable cell)
    (small : program.size < 10 ^ Numeral.digitLimit) (nonneg : 0 ≤ start)
    (below : start < program.size) :
    ∃ listing, text ⟨program⟩ start none = .ok listing ∧
      Program.parse (rawText listing.toList) = .ok (program.toList.drop start.toNat) := by
  have inside : Memory.inBounds ⟨program⟩ start := Memory.inBounds_iff.mpr ⟨nonneg, below⟩
  have cells : ∀ c ∈ program.toList.drop start.toNat, Numeral.Writable c := by
    intro c found
    exact short c (Array.mem_toList_iff.mp (List.mem_of_mem_drop found))
  -- The listing has a row of raw cells for each line that the cells are cut into.
  let lines := linesOf start.toNat (program.toList.drop start.toNat)
  have swept : sweep ⟨program⟩ start none = .ok lines.toArray := sweep_eq short inside none
  have shown : lines.mapM (fun l => l.text? columnWidth) =
      some (lines.map (Line.shown columnWidth)) := by
    refine mapM_eq_some_map fun l found => text?_of_mem_linesOf found cells ?_
    rw [List.length_drop, Array.length_toList]
    omega
  have flattened : (lines.map Line.raw).flatten = program.toList.drop start.toNat :=
    flatten_linesOf ..
  have present : lines ≠ [] := by
    intro none
    rw [none] at flattened
    have length := congrArg List.length flattened
    simp at length
    omega
  refine ⟨"\n".intercalate (lines.map (Line.shown columnWidth)), ?_, ?_⟩
  · rw [text, swept]
    change Refusal.ofText? ((lines.mapM fun l : Line => l.text? columnWidth).map _) = _
    rw [shown]
    rfl
  · rw [rawText_shown present, Program.parse_inRows (by simpa using present), flattened]
    · intro xs found
      obtain ⟨l, -, rfl⟩ := List.mem_map.mp found
      exact List.cons_ne_nil _ _
    · intro xs found x member
      refine cells x ?_
      rw [← flattened]
      exact List.mem_flatten_of_mem found member

/-- A listing that begins inside an instruction, with a data cell and with a line whose cells are
wider than their column. -/
theorem listing_reloads_wide :
    let program : Array Int := #[1101, -7, 1101, 123456789012, -98765432101, 0, 99]
    (∀ cell ∈ program, Numeral.Writable cell) ∧
      ∃ listing, text ⟨program⟩ 1 none = .ok listing ∧
        Program.parse (rawText listing.toList) = .ok [-7, 1101, 123456789012, -98765432101, 0, 99] := by
  intro program
  have short : ∀ cell ∈ program, Numeral.Writable cell := by decide +kernel
  exact ⟨short, listing_reloads program short (by decide +kernel) (by decide) (by decide)⟩

end Listing

end Intcode
