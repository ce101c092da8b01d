import Intcode.Memory

/-!
# Dumps of a memory

A dump shows cells in rows, each after the address of its first cell, all cells in columns of the
width of the longest one. The bounds of a row are those of a slice, so that a negative start counts
back from the end while the addresses shown go on from it; a row length below zero walks backwards.

## Main definitions

* `Memory.rowStarts` — the addresses at which rows begin
* `Memory.dump` — the text of a dump
-/

namespace Intcode.Memory

/-- The numbers from `start` on in steps of `step`, as long as they lie before `stop`. -/
def rowStarts (start stop step : Int) : List Int :=
  let gap := if 0 < step then stop - start else start - stop
  let rows := (gap + step.natAbs - 1) / step.natAbs
  (List.range rows.toNat).map fun (i : Nat) => start + i * step

/-- The width of the longest of some texts, and `1` if there is none. -/
def columnWidth (texts : List String) : Nat :=
  match texts.map String.length with
  | [] => 1
  | widths => widths.foldl max 0

/-- One row of a dump. -/
def row? (m : Memory) (width : Nat) (address stop : Int) : Option String := do
  let texts ← (m.slice address stop).mapM Numeral.write?
  let label ← Numeral.write? address
  return Text.padLeft 5 label ++ ": " ++ " ".intercalate (texts.map (Text.padLeft width))

/-- The end of a dump of `length` cells, or of all, from `start` on. -/
def dumpEnd (m : Memory) (start : Int) : Option Int → Int
  | none => m.size
  | some length => min (start + length) m.size

/-- The usual number of cells in a row. -/
def rowLength : Int := 8

/-- A dump of the memory: `length` cells from `start` on, or all of them, `perRow` in a row. -/
def dump (m : Memory) (start : Int) (length : Option Int) (perRow : Int) :
    Except Refusal String :=
  let stop := m.dumpEnd start length
  match (m.slice start stop).mapM Numeral.write? with
  | none => .error .numberTooLong
  | some texts =>
    if perRow = 0 then .error .emptyRows
    else
      let width := columnWidth texts
      let rows := (rowStarts start stop perRow).mapM fun address =>
        m.row? width address (min (address + perRow) stop)
      Refusal.ofText? (rows.map "\n".intercalate)

end Intcode.Memory
