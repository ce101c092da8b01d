import Mathlib.Algebra.Order.Floor.Div
import Intcode.Memory.Dump
import Intcode.Proofs.Literal
import Intcode.Proofs.Reload

/-!
# Dumps are complete and aligned

A row of a dump is the address of its first cell, a colon, and the cells in fields with one space
between them. A field is a number with spaces before it, so it ends where a space follows a digit,
and the fields of a row can be told apart without knowing how wide they are.

A dump that begins at an address of zero or more shows the cells from there up to its end, each once
and in order. Its fields all have the width of the longest number among these cells, and its rows
are labelled with the addresses at which they begin.

## Main definitions

* `Text.fields` — the fields of a text
* `Memory.label?`, `Memory.cellFields` — the address and the fields of a row
* `Memory.shownRow` — the text of a row, however many digits its numbers have

## Main results

* `Text.fields_intercalate` — fields with one space between them are told apart
* `Memory.dump_eq_ok_iff` — when there is a dump, and its text
* `Memory.dump_complete` — a dump is complete and aligned
-/

namespace Intcode

theorem mapM_eq_some_iff {α β : Type} {f : α → Option β} {P : α → Prop} {g : α → β}
    (h : ∀ a b, f a = some b ↔ P a ∧ b = g a) {l : List α} {bs : List β} :
    l.mapM f = some bs ↔ (∀ a ∈ l, P a) ∧ bs = l.map g := by
  constructor
  · intro found
    have each : ∀ a ∈ l, P a := by
      intro a member
      have some := isSome_mapM_iff.mp (Option.isSome_of_eq_some found) a member
      obtain ⟨b, eq⟩ := Option.isSome_iff_exists.mp some
      exact ((h a b).mp eq).1
    have all := mapM_eq_some_map fun a member => (h a (g a)).mpr ⟨each a member, rfl⟩
    exact ⟨each, Option.some.inj (found.symm.trans all)⟩
  · rintro ⟨each, rfl⟩
    exact mapM_eq_some_map fun a member => (h a (g a)).mpr ⟨each a member, rfl⟩

theorem Refusal.ofText?_eq_ok_iff {text? : Option String} {text : String} :
    ofText? text? = .ok text ↔ text? = some text := by
  cases text? <;> simp [ofText?]

/-! ### Fields -/

namespace Text

variable {word field : List Char}

/-- The fields of a text when the characters `field`, in reverse, have been read of the first. -/
def fieldsFrom : List Char → List Char → List (List Char)
  | [], [] => []
  | c :: field, [] => [(c :: field).reverse]
  | [], c :: text => fieldsFrom [c] text
  | d :: field, c :: text =>
    if c = ' ' ∧ d ≠ ' ' then (d :: field).reverse :: fieldsFrom [] text
    else fieldsFrom (c :: d :: field) text

/-- The fields of a text: words with the spaces before them. One space ends a field. -/
def fields (text : List Char) : List (List Char) := fieldsFrom [] text

/-- A word with spaces before it. -/
def IsField (field : List Char) : Prop :=
  ∃ k word, field = List.replicate k ' ' ++ word ∧ word ≠ [] ∧ ' ' ∉ word

theorem fieldsFrom_spaces (k n : Nat) (text : List Char) :
    fieldsFrom (List.replicate n ' ') (List.replicate k ' ' ++ text) =
      fieldsFrom (List.replicate (k + n) ' ') text := by
  induction k generalizing n with
  | zero => simp
  | succ k ih =>
    have next : fieldsFrom (List.replicate n ' ') (' ' :: (List.replicate k ' ' ++ text)) =
        fieldsFrom (List.replicate (n + 1) ' ') (List.replicate k ' ' ++ text) := by
      cases n with
      | zero => rfl
      | succ n => simp [List.replicate_succ, fieldsFrom]
    rw [List.replicate_succ, List.cons_append, next, ih, Nat.add_right_comm, Nat.add_assoc]

theorem fieldsFrom_word (whole : ' ' ∉ word) (field text : List Char) :
    fieldsFrom field (word ++ text) = fieldsFrom (word.reverse ++ field) text := by
  induction word generalizing field with
  | nil => rfl
  | cons c word ih =>
    obtain ⟨other, others⟩ := not_or.mp (mt List.mem_cons.mpr whole)
    have next :
        fieldsFrom field (c :: (word ++ text)) = fieldsFrom (c :: field) (word ++ text) := by
      -- Only a space can end a field.
      cases field with
      | nil => rfl
      | cons d field => rw [fieldsFrom, if_neg fun space => other space.1.symm]
    rw [List.cons_append, next, ih others]
    simp

/-- What was read of a field is the field, and it ends with a character that is no space. -/
theorem fieldsFrom_field (h : IsField field) (text : List Char) :
    ∃ c begun, c ≠ ' ' ∧ (c :: begun).reverse = field ∧
      fieldsFrom [] (field ++ text) = fieldsFrom (c :: begun) text := by
  obtain ⟨k, word, rfl, present, whole⟩ := h
  -- What has been read is kept in reverse, so the last character of the word comes first.
  obtain ⟨c, rest, eq⟩ := List.exists_cons_of_ne_nil (mt List.reverse_eq_nil_iff.mp present)
  refine ⟨c, rest ++ List.replicate k ' ', ?_, ?_, ?_⟩
  · rintro rfl
    exact whole (List.mem_reverse.mp (eq ▸ List.mem_cons_self))
  · rw [← List.cons_append, ← eq]
    simp
  · have spaces := fieldsFrom_spaces k 0 (word ++ text)
    rw [List.replicate_zero, Nat.add_zero] at spaces
    rw [List.append_assoc, spaces, fieldsFrom_word whole, eq, List.cons_append]

/-- Fields with one space between them are told apart. -/
theorem fields_intercalate {columns : List (List Char)} (h : ∀ field ∈ columns, IsField field) :
    fields ([' '].intercalate columns) = columns := by
  induction columns with
  | nil => rfl
  | cons field columns ih =>
    obtain ⟨first, others⟩ := List.forall_mem_cons.mp h
    cases columns with
    | nil =>
      obtain ⟨c, begun, -, rfl, read⟩ := fieldsFrom_field first []
      rw [List.append_nil] at read
      rw [List.intercalate_singleton, fields, read, fieldsFrom]
    | cons next columns =>
      obtain ⟨c, begun, ended, rfl, read⟩ :=
        fieldsFrom_field first (' ' :: [' '].intercalate (next :: columns))
      rw [List.intercalate_cons_cons, List.append_assoc, List.singleton_append, fields, read,
        fieldsFrom, if_pos ⟨rfl, ended⟩]
      exact congrArg _ (ih others)

/-! ### Padding -/

theorem length_padLeft {width : Nat} {text : String} (h : text.length ≤ width) :
    (padLeft width text).toList.length = width := by
  rw [toList_padLeft, List.length_append, List.length_replicate, String.length_toList]
  omega

theorem isField_padLeft (width : Nat) (n : Int) :
    IsField (padLeft width (Numeral.decimal n)).toList := by
  refine ⟨_, _, toList_padLeft .., Numeral.toList_decimal_ne_nil n, fun space => ?_⟩
  exact Numeral.not_isBlank_of_isPlain (Numeral.isPlain_of_mem_decimal space) (by decide)

theorem unbroken_padLeft (width : Nat) (n : Int) :
    Unbroken (padLeft width (Numeral.decimal n)).toList := by
  rw [toList_padLeft, unbroken_append]
  exact ⟨unbroken_spaces _, unbroken_decimal n⟩

end Text

namespace Numeral

variable {n : Int}

theorem write?_eq_some_iff {text : String} :
    write? n = some text ↔ Writable n ∧ text = decimal n := by
  rw [write?]
  split
  · next short => simp [short, eq_comm]
  · next long => simp [long]

/-- Spaces before a number do not matter. -/
theorem read?_padLeft (short : Writable n) (width : Nat) :
    read? (Text.padLeft width (decimal n)).toList = some n := by
  have blank : ∀ c ∈ List.replicate (width - (decimal n).length) ' ', Text.isNumeralBlank c := by
    intro c found
    rw [List.eq_of_mem_replicate found]
    decide
  have trimmed : Text.trim Text.isNumeralBlank (Text.padLeft width (decimal n)).toList =
      Text.trim Text.isNumeralBlank (decimal n).toList := by
    have := Text.trim_append (b := []) (decimal n).toList blank (by simp)
    rwa [List.append_nil, ← Text.toList_padLeft] at this
  rw [← read?_decimal short, read?, trimmed, read?]

end Numeral

namespace Memory

variable {m : Memory} {address start stop perRow : Int} {length : Option Int} {width : Nat}

/-! ### Rows -/

/-- The address at the start of a row. -/
def label? (line : List Char) : Option Int := Numeral.read? (line.takeWhile (· ≠ ':'))

/-- The fields of the cells in a row. -/
def cellFields (line : List Char) : List (List Char) := Text.fields (Listing.afterColon line)

/-- The field of a cell in a column. -/
def cellField (width : Nat) (cell : Int) : List Char :=
  (Text.padLeft width (Numeral.decimal cell)).toList

/-- The text of a row of cells, with any number of digits. -/
def shownRow (width : Nat) (address : Int) (cells : List Int) : String :=
  Text.padLeft 5 (Numeral.decimal address) ++ ": " ++
    " ".intercalate (cells.map fun cell => Text.padLeft width (Numeral.decimal cell))

theorem toList_shownRow (width : Nat) (address : Int) (cells : List Int) :
    (shownRow width address cells).toList =
      cellField 5 address ++ ':' :: ' ' :: [' '].intercalate (cells.map (cellField width)) := by
  have fields : cells.map (cellField width) =
      (cells.map fun cell => Text.padLeft width (Numeral.decimal cell)).map String.toList := by
    rw [List.map_map]
    rfl
  rw [fields]
  simp [shownRow, cellField, String.toList_intercalate]

/-- The address is read off a row. -/
theorem label?_shownRow (short : Numeral.Writable address) (width : Nat) (cells : List Int) :
    label? (shownRow width address cells).toList = some address := by
  have colon : ∀ c ∈ cellField 5 address, decide (c ≠ ':') = true := by
    intro c found
    exact decide_eq_true (ne_of_mem_of_not_mem found (Text.colon_not_mem_padLeft 5 address))
  rw [label?, toList_shownRow, List.takeWhile_append_of_pos colon, List.takeWhile_cons_of_neg (by simp),
    List.append_nil]
  exact Numeral.read?_padLeft short 5

/-- The fields are cut out of a row. -/
theorem cellFields_shownRow (width : Nat) (address : Int) (cells : List Int) :
    cellFields (shownRow width address cells).toList = cells.map (cellField width) := by
  have colon : ':' ∉ cellField 5 address := Text.colon_not_mem_padLeft 5 address
  rw [cellFields, toList_shownRow, Listing.afterColon_append colon]
  apply Text.fields_intercalate
  intro field found
  obtain ⟨cell, -, rfl⟩ := List.mem_map.mp found
  exact Text.isField_padLeft width cell

/-- The cells are read off a row. -/
theorem read?_shownRow {cells : List Int} (short : ∀ cell ∈ cells, Numeral.Writable cell) (width : Nat)
    (address : Int) :
    (cellFields (shownRow width address cells).toList).map Numeral.read? = cells.map some := by
  rw [cellFields_shownRow, List.map_map]
  refine List.map_congr_left fun cell found => ?_
  rw [Function.comp_apply, cellField, Numeral.read?_padLeft (short cell found)]

/-- A row of a dump is one line. -/
theorem unbroken_shownRow (width : Nat) (address : Int) (cells : List Int) :
    Text.Unbroken (shownRow width address cells).toList := by
  have cells : Text.Unbroken ([' '].intercalate (cells.map (cellField width))) := by
    refine Text.unbroken_intercalate (by decide) ?_
    intro field found
    obtain ⟨cell, -, rfl⟩ := List.mem_map.mp found
    exact Text.unbroken_padLeft width cell
  rw [toList_shownRow, Text.unbroken_append, Text.unbroken_cons, Text.unbroken_cons]
  exact ⟨Text.unbroken_padLeft 5 address, by decide, by decide, cells⟩

theorem row?_eq_some_iff {text : String} :
    m.row? width address stop = some text ↔
      ((∀ cell ∈ m.slice address stop, Numeral.Writable cell) ∧ Numeral.Writable address) ∧
        text = shownRow width address (m.slice address stop) := by
  rw [row?, Option.bind_eq_bind, Option.bind_eq_some_iff]
  constructor
  · rintro ⟨texts, cells, row⟩
    obtain ⟨short, rfl⟩ := (mapM_eq_some_iff fun _ _ => Numeral.write?_eq_some_iff).mp cells
    obtain ⟨label, written, row⟩ := Option.bind_eq_some_iff.mp row
    obtain ⟨place, rfl⟩ := Numeral.write?_eq_some_iff.mp written
    refine ⟨⟨short, place⟩, ?_⟩
    rw [← Option.some.inj row, shownRow, List.map_map]
    rfl
  · rintro ⟨⟨short, place⟩, rfl⟩
    refine ⟨_, (mapM_eq_some_iff fun _ _ => Numeral.write?_eq_some_iff).mpr ⟨short, rfl⟩, ?_⟩
    rw [Numeral.write?_of_writable place, shownRow, List.map_map]
    rfl

/-! ### Dumps -/

/-- The width of the columns of a dump. -/
def dumpWidth (m : Memory) (start stop : Int) : Nat :=
  columnWidth ((m.slice start stop).map Numeral.decimal)

/-- The text of the row of a dump at an address. -/
def dumpRow (m : Memory) (start stop perRow address : Int) : String :=
  shownRow (m.dumpWidth start stop) address (m.slice address (min (address + perRow) stop))

/-- There is a dump exactly if the numbers in it can be written, and then it is made of its rows. -/
theorem dump_eq_ok_iff {text : String} :
    m.dump start length perRow = .ok text ↔
      (∀ cell ∈ m.slice start (m.dumpEnd start length), Numeral.Writable cell) ∧ perRow ≠ 0 ∧
      (∀ address ∈ rowStarts start (m.dumpEnd start length) perRow,
        (∀ cell ∈ m.slice address (min (address + perRow) (m.dumpEnd start length)),
          Numeral.Writable cell) ∧ Numeral.Writable address) ∧
      text = "\n".intercalate ((rowStarts start (m.dumpEnd start length) perRow).map
        (m.dumpRow start (m.dumpEnd start length) perRow)) := by
  rw [dump]
  dsimp only
  generalize m.dumpEnd start length = stop
  cases cells : (m.slice start stop).mapM Numeral.write? with
  | none =>
    -- A number in the dump is too long, whichever way it is cut into rows.
    refine iff_of_false (by simp) ?_
    rintro ⟨short, -⟩
    rw [(mapM_eq_some_iff fun _ _ => Numeral.write?_eq_some_iff).mpr ⟨short, rfl⟩] at cells
    cases cells
  | some texts =>
    obtain ⟨short, rfl⟩ := (mapM_eq_some_iff fun _ _ => Numeral.write?_eq_some_iff).mp cells
    dsimp only
    by_cases empty : perRow = 0
    · rw [if_pos empty]
      exact iff_of_false (by simp) fun h => h.2.1 empty
    · rw [if_neg empty, Refusal.ofText?_eq_ok_iff, Option.map_eq_some_iff]
      simp only [mapM_eq_some_iff fun _ _ => row?_eq_some_iff]
      constructor
      · rintro ⟨rows, ⟨written, rfl⟩, rfl⟩
        exact ⟨short, empty, written, rfl⟩
      · rintro ⟨-, -, written, rfl⟩
        exact ⟨_, ⟨written, rfl⟩, rfl⟩

/-- The lines of a dump are its rows, with a line feed between them. -/
theorem lines_of_dump {text : String} (h : m.dump start length perRow = .ok text) :
    Text.lines text.toList = (rowStarts start (m.dumpEnd start length) perRow).map (fun address =>
        (m.dumpRow start (m.dumpEnd start length) perRow address).toList) ∧
      text.toList = ['\n'].intercalate (Text.lines text.toList) := by
  obtain ⟨-, -, -, rfl⟩ := dump_eq_ok_iff.mp h
  have feed : "\n".toList = ['\n'] := by decide
  have lines (addresses : List Int) :
      Text.lines (['\n'].intercalate (addresses.map fun address =>
        (m.dumpRow start (m.dumpEnd start length) perRow address).toList)) =
      addresses.map fun address =>
        (m.dumpRow start (m.dumpEnd start length) perRow address).toList := by
    cases addresses with
    | nil => rfl -- An empty text has no lines, not an empty one.
    | cons first others =>
      refine Text.lines_intercalate (by simp) ?_ ?_
      · intro row found
        obtain ⟨address, -, rfl⟩ := List.mem_map.mp found
        exact unbroken_shownRow _ _ _
      · intro row found
        obtain ⟨address, -, rfl⟩ := List.mem_map.mp found
        simp [dumpRow, toList_shownRow]
  rw [String.toList_intercalate, feed, List.map_map]
  exact ⟨lines _, congrArg _ (lines _).symm⟩

/-! ### The addresses of rows -/

/-- There are as many rows as it takes to hold the cells between the bounds. -/
theorem rowStarts_of_pos (positive : 0 < perRow) :
    rowStarts start stop perRow =
      (List.range ((stop - start).toNat ⌈/⌉ perRow.toNat)).map fun (i : Nat) => start + i * perRow := by
  obtain ⟨p, rfl⟩ := Int.eq_ofNat_of_zero_le positive.le
  have rows : ((stop - start + (p : Int).natAbs - 1) / (p : Int).natAbs).toNat =
      (stop - start).toNat ⌈/⌉ p := by
    rw [Int.natAbs_natCast, Nat.ceilDiv_eq_add_pred_div]
    rcases le_total 0 (stop - start) with some | none
    · obtain ⟨gap, eq⟩ := Int.eq_ofNat_of_zero_le some
      have whole : (gap : Int) + p - 1 = ((gap + p - 1 : Nat) : Int) := by omega
      rw [eq, Int.toNat_natCast, whole, ← Int.natCast_ediv, Int.toNat_natCast]
    · -- Division rounds down, so where nothing lies between the bounds the count is not positive.
      have few : (stop - start + p - 1) / (p : Int) < 1 := Int.ediv_lt_of_lt_mul positive (by omega)
      rw [Int.toNat_of_nonpos (by omega), Int.toNat_of_nonpos none, Nat.div_eq_of_lt (by omega)]
  rw [rowStarts, if_pos positive, rows, Int.toNat_natCast]

/-- Every row begins before the end. -/
theorem lt_of_lt_ceilDiv (positive : 0 < perRow) {i : Nat}
    (h : i < (stop - start).toNat ⌈/⌉ perRow.toNat) : start + i * perRow < stop := by
  obtain ⟨p, rfl⟩ := Int.eq_ofNat_of_zero_le positive.le
  rw [Int.toNat_natCast, ← not_le, ceilDiv_le_iff_le_mul (by omega), not_le] at h
  have product : ((p * i : Nat) : Int) = i * p := by rw [Nat.cast_mul, mul_comm]
  omega

/-! ### The cells of rows -/

/-- Pieces of the same length, one after the other, are put together again. -/
theorem flatMap_pieces {α : Type} (l : List α) (p k : Nat) :
    (List.range k).flatMap (fun i => (l.drop (i * p)).take p) = l.take (k * p) := by
  induction k with
  | zero => simp
  | succ k ih =>
    rw [List.range_succ, List.flatMap_append, ih, List.flatMap_singleton, Nat.succ_mul, List.take_add]

/-- The cells of a dump from an address on that is not counted from the end. -/
def dumpCells (m : Memory) (start stop : Int) : List Int :=
  (m.cells.toList.drop start.toNat).take (stop - start).toNat

/-- A row holds the next cells of the dump, and the last one what is left. -/
theorem slice_row (nonneg : 0 ≤ start) (positive : 0 < perRow) {i : Nat}
    (inside : start + i * perRow < stop) :
    m.slice (start + i * perRow) (min (start + i * perRow + perRow) stop) =
      ((m.dumpCells start stop).drop (i * perRow.toNat)).take perRow.toNat := by
  obtain ⟨p, rfl⟩ := Int.eq_ofNat_of_zero_le positive.le
  have product : (i : Int) * p = ((i * p : Nat) : Int) := (Nat.cast_mul i p).symm
  rw [product] at inside ⊢
  rw [dumpCells, slice_eq (by omega) (by omega), List.drop_take, List.drop_drop, List.take_take,
    Int.toNat_natCast]
  congr 1
  · omega
  · congr 1
    omega

theorem slice_eq_dumpCells (nonneg : 0 ≤ start) (nonneg' : 0 ≤ stop) :
    m.slice start stop = m.dumpCells start stop := by
  rw [slice_eq nonneg nonneg', dumpCells]
  congr 1
  omega

/-- The rows of a dump hold its cells. -/
theorem flatMap_slices (nonneg : 0 ≤ start) (positive : 0 < perRow) :
    (List.range ((stop - start).toNat ⌈/⌉ perRow.toNat)).flatMap (fun (i : Nat) =>
      m.slice (start + i * perRow) (min (start + i * perRow + perRow) stop)) =
      m.dumpCells start stop := by
  have rows : ∀ i ∈ List.range ((stop - start).toNat ⌈/⌉ perRow.toNat),
      m.slice (start + i * perRow) (min (start + i * perRow + perRow) stop) =
        ((m.dumpCells start stop).drop (i * perRow.toNat)).take perRow.toNat := by
    intro i found
    exact slice_row nonneg positive (lt_of_lt_ceilDiv positive (List.mem_range.mp found))
  -- There are enough rows for all cells.
  have enough : (m.dumpCells start stop).length ≤
      (stop - start).toNat ⌈/⌉ perRow.toNat * perRow.toNat := by
    have total := le_smul_ceilDiv (b := (stop - start).toNat) (a := perRow.toNat) (by omega)
    rw [smul_eq_mul, mul_comm] at total
    exact (List.length_take_le _ _).trans total
  rw [List.flatMap_congr rows, flatMap_pieces, List.take_of_length_le enough]

/-! ### The width of columns -/

/-- The columns are as wide as the longest text. -/
theorem columnWidth_spec {texts : List String} (present : texts ≠ []) :
    (∃ text ∈ texts, text.length = columnWidth texts) ∧
      ∀ text ∈ texts, text.length ≤ columnWidth texts := by
  have widths : texts.map String.length ≠ [] := by simpa using present
  have longest : columnWidth texts = (texts.map String.length).foldl max 0 := by
    obtain ⟨width, others, eq⟩ := List.exists_cons_of_ne_nil widths
    rw [columnWidth, eq]
  obtain ⟨width, eq⟩ := Option.isSome_iff_exists.mp (List.isSome_max?_of_ne_nil widths)
  rw [List.foldl_max, eq, Option.getD_some, Nat.zero_max] at longest
  obtain ⟨found, bound⟩ := List.max?_eq_some_iff.mp eq
  rw [longest]
  exact ⟨List.mem_map.mp found, List.forall_mem_map.mp bound⟩

/-- The columns of a dump are as wide as the longest number in it. -/
theorem dumpWidth_spec (nonneg : 0 ≤ start) (present : m.dumpCells start stop ≠ []) :
    (∃ cell ∈ m.dumpCells start stop,
        (Numeral.decimal cell).length = m.dumpWidth start stop) ∧
      ∀ cell ∈ m.dumpCells start stop, (Numeral.decimal cell).length ≤ m.dumpWidth start stop := by
  -- A dump that shows cells ends after its start, so the end is not counted from the end.
  have forward : 0 ≤ stop := by
    by_contra backward
    refine present ?_
    rw [dumpCells, Int.toNat_of_nonpos (by omega), List.take_zero]
  have texts : (m.dumpCells start stop).map Numeral.decimal ≠ [] := by simpa using present
  rw [dumpWidth, slice_eq_dumpCells nonneg forward]
  simpa using columnWidth_spec texts

theorem length_cellField (h : (Numeral.decimal address).length ≤ width) :
    (cellField width address).length = width :=
  Text.length_padLeft h

/-! ### Dumps that are not counted from the end -/

theorem dumpEnd_le (m : Memory) (start : Int) (length : Option Int) :
    m.dumpEnd start length ≤ m.size := by
  cases length with
  | none => exact le_rfl
  | some count => exact min_le_right _ _

/-- The addresses of the rows are those of cells, and can be written if the size can. -/
theorem writable_rowStart (small : m.size < 10 ^ Numeral.digitLimit) (nonneg : 0 ≤ start)
    (positive : 0 < perRow) (below : stop ≤ m.size) {i : Nat}
    (h : i < (stop - start).toNat ⌈/⌉ perRow.toNat) : Numeral.Writable (start + i * perRow) := by
  have before := lt_of_lt_ceilDiv positive h
  have after : 0 ≤ (i : Int) * perRow := Int.mul_nonneg i.cast_nonneg positive.le
  rw [Numeral.writable_iff]
  omega

/-- There is a dump if all numbers can be written. -/
theorem exists_dump (small : m.size < 10 ^ Numeral.digitLimit)
    (short : ∀ cell ∈ m.cells, Numeral.Writable cell) (nonneg : 0 ≤ start) (positive : 0 < perRow)
    (length : Option Int) : ∃ text, m.dump start length perRow = .ok text := by
  refine ⟨_, dump_eq_ok_iff.mpr ⟨?_, positive.ne', ?_, rfl⟩⟩
  · exact fun cell found => short cell (mem_of_mem_slice found)
  · rw [rowStarts_of_pos positive, List.forall_mem_map]
    intro i inside
    refine ⟨fun cell found => short cell (mem_of_mem_slice found), ?_⟩
    exact writable_rowStart small nonneg positive (m.dumpEnd_le start length)
      (List.mem_range.mp inside)

/-- A dump is complete and aligned. Whatever is asked for, from an address of zero or more on and in
rows of one cell or more, there is a dump of a memory whose numbers can be written. It has as many
lines as it takes to hold the cells from the start up to the end, and each is labelled with its
address. All fields are as wide as the longest number among these cells; and read in order, they are
these cells. -/
theorem dump_complete (m : Memory) (small : m.size < 10 ^ Numeral.digitLimit)
    (short : ∀ cell ∈ m.cells, Numeral.Writable cell) (start perRow : Int) (nonneg : 0 ≤ start)
    (positive : 1 ≤ perRow) (length : Option Int) :
    let stop : Int := length.elim (m.size : Int) fun count => min (start + count) m.size
    let shown := (m.cells.toList.drop start.toNat).take (stop - start).toNat
    ∃ text, m.dump start length perRow = .ok text ∧
      let lines := Text.lines text.toList
      text.toList = ['\n'].intercalate lines ∧
      lines.length = (stop - start).toNat ⌈/⌉ perRow.toNat ∧
      (∀ (i : Nat) line, lines[i]? = some line → label? line = some (start + i * perRow)) ∧
      (∀ line ∈ lines, ∀ field ∈ cellFields line,
        (∃ cell ∈ shown, (Numeral.decimal cell).length = field.length) ∧
          ∀ cell ∈ shown, (Numeral.decimal cell).length ≤ field.length) ∧
      (lines.flatMap cellFields).map Numeral.read? = shown.map some := by
  intro stop shown
  have dumpEnd : m.dumpEnd start length = stop := by cases length <;> rfl
  have below : stop ≤ m.size := dumpEnd ▸ m.dumpEnd_le start length
  obtain ⟨text, made⟩ := exists_dump small short nonneg positive length
  obtain ⟨lines, joined⟩ := lines_of_dump made
  rw [dumpEnd, rowStarts_of_pos positive, List.map_map] at lines
  -- What is shown in all rows together are the cells of the dump.
  have cells : (List.range ((stop - start).toNat ⌈/⌉ perRow.toNat)).flatMap (fun (i : Nat) =>
      m.slice (start + i * perRow) (min (start + i * perRow + perRow) stop)) = shown :=
    flatMap_slices nonneg positive
  refine ⟨text, made, joined, ?_, ?_, ?_, ?_⟩
  · rw [lines, List.length_map, List.length_range]
  · intro i line found
    rw [lines, List.getElem?_map] at found
    obtain ⟨j, inside, rfl⟩ := Option.map_eq_some_iff.mp found
    obtain ⟨bound, rfl⟩ := List.getElem?_eq_some_iff.mp inside
    rw [List.length_range] at bound
    rw [List.getElem_range]
    exact label?_shownRow (writable_rowStart small nonneg positive below bound) _ _
  · rw [lines, List.forall_mem_map]
    intro i inside field found
    rw [Function.comp_apply, dumpRow, cellFields_shownRow] at found
    obtain ⟨cell, member, rfl⟩ := List.mem_map.mp found
    have member : cell ∈ shown := by
      rw [← cells]
      exact List.mem_flatMap.mpr ⟨i, inside, member⟩
    obtain ⟨longest, bound⟩ := dumpWidth_spec nonneg (List.ne_nil_of_mem member)
    rw [length_cellField (bound cell member)]
    exact ⟨longest, bound⟩
  · have row (i : Nat) :
        (cellFields (m.dumpRow start stop perRow (start + i * perRow)).toList).map Numeral.read? =
          (m.slice (start + i * perRow) (min (start + i * perRow + perRow) stop)).map some :=
      read?_shownRow (fun cell found => short cell (mem_of_mem_slice found)) _ _
    rw [lines, List.map_flatMap, List.flatMap_map]
    simp only [Function.comp_apply, row]
    rw [← List.map_flatMap, cells]

/-- Three cells in two rows, of which the second is not full, and a length that goes past the end.
-/
theorem dump_complete_partial :
    let m : Memory := ⟨#[5, -12, 300, 7]⟩
    ∃ text, m.dump 1 (some 9) 2 = .ok text ∧ (Text.lines text.toList).length = 2 ∧
      ((Text.lines text.toList).flatMap cellFields).map Numeral.read? =
        [some (-12), some 300, some 7] := by
  intro m
  have short : ∀ cell ∈ m.cells, Numeral.Writable cell := by decide +kernel
  obtain ⟨text, made, -, count, -, -, cells⟩ :=
    dump_complete m (by decide +kernel) short 1 2 (by decide) (by decide) (some 9)
  exact ⟨text, made, count.trans (by decide), cells⟩

end Memory

end Intcode
