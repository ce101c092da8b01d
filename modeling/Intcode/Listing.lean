import Intcode.Memory

/-!
# Listings

A listing shows a program as instructions. It sweeps over the cells from some address on: where an
instruction can be made out it has a line and the sweep goes on after it, and where none can, the
single cell is listed as data.

## Main definitions

* `Listing.Line` — an instruction or a data cell, with its address and its raw cells
* `Line.textWithin` — the text of a line, with a column of a given width
* `Listing.lineAt` — the line at an address
* `Listing.sweep` — the lines from an address on
* `Listing.text` — the text of a sweep
* `Listing.histogram` — how often each name occurs in a full sweep
-/

namespace Intcode.Listing

/-- A line of a listing: the cell at its address, the further cells of its instruction, and the
instruction if it is one. -/
structure Line where
  address : Nat
  cell : Int
  more : List Int
  command : Option (Command Int)
  deriving DecidableEq, Repr

namespace Line

/-- The cells of a line. -/
def raw (l : Line) : List Int := l.cell :: l.more

/-- The number of cells of a line. -/
def length (l : Line) : Nat := l.raw.length

/-- The name of the instruction of a line. -/
def mnemonic (l : Line) : String :=
  match l.command with
  | some command => command.mnemonic
  | none => "DATA"

/-- The instruction of a line, or its data cell. -/
def assembly? (l : Line) : Option String :=
  match l.command with
  | some command => command.text?
  | none => do return "DATA " ++ (← Numeral.write? l.cell)

/-- The text of a line, its raw cells in a column of the given width. -/
def text? (l : Line) (width : Nat) : Option String := do
  let raw ← l.raw.mapM Numeral.write?
  let assembly ← l.assembly?
  let label ← Numeral.write? l.address
  return Text.padLeft 5 label ++ ": " ++ Text.padRight width (",".intercalate raw) ++ " " ++
    assembly

/-- The text of a line, its raw cells in a column of a width that may be any integer. A width below
zero is as good as none. -/
def textWithin (l : Line) (width : Int) : Except Refusal String :=
  match l.text? 0 with
  | none => .error .numberTooLong
  | some _ =>
    if width < -Int.pow 2 63 ∨ Int.pow 2 63 ≤ width then .error .columnTooWide
    else Refusal.ofText? (l.text? width.toNat)

theorem length_pos (l : Line) : 0 < l.length := Nat.succ_pos _

end Line

/-- The line for the cells from an address on, of which there is a first. -/
def line (address : Nat) (cell : Int) (rest : List Int) : Except Refusal Line :=
  match Command.ofWindow (cell :: rest) with
  | .ok command => .ok ⟨address, cell, rest.take (command.length - 1), some command⟩
  | .error (.fault _) => .ok ⟨address, cell, [], none⟩
  | .error (.refused why) => .error why

/-- The number of cells that are looked at for a line. -/
def reach : Int := 4

/-- The line at an address of a program. -/
def lineAt (program : Memory) (address : Int) : Except Refusal Line :=
  match program.inBounds address, program.slice address (address + reach) with
  | true, cell :: rest => line address.toNat cell rest
  | _, _ => .error (Refusal.addressOutside address program.size).orTooLong

/-- The lines from an address on, at most `count` of them if a count is given, after those found
before. -/
def sweepFrom (program : Memory) (count : Option Nat) (found : Array Line) (address : Nat) :
    Except Refusal (Array Line) :=
  if _h : address < program.size ∧ count ≠ some 0 then
    match lineAt program address with
    | .error why => .error why
    | .ok line =>
      sweepFrom program (count.map (· - 1)) (found.push line) (address + line.length)
  else .ok found
termination_by program.size - address
decreasing_by
  have := line.length_pos
  omega

/-- The lines of a program from an address on, at most `count` of them if a count is given. -/
def sweep (program : Memory) (start : Int) (count : Option Int) : Except Refusal (Array Line) :=
  if program.inBounds start then sweepFrom program (count.map Int.toNat) #[] start.toNat
  else .error (Refusal.startOutside start program.size).orTooLong

/-- The width of the column of raw cells. -/
def columnWidth : Nat := 20

/-- The text of a sweep. -/
def text (program : Memory) (start : Int) (count : Option Int) : Except Refusal String := do
  let lines ← sweep program start count
  let texts := lines.toList.mapM fun line => line.text? columnWidth
  Refusal.ofText? (texts.map "\n".intercalate)

/-- Counts one more of a name. The names keep the order in which they first came. -/
def tally (counts : List (String × Nat)) (name : String) : List (String × Nat) :=
  match counts with
  | [] => [(name, 1)]
  | (key, n) :: rest => if key = name then (key, n + 1) :: rest else (key, n) :: tally rest name

/-- How often each name occurs among the lines of a full sweep. -/
def histogram (program : Memory) : Except Refusal (List (String × Nat)) := do
  let lines ← sweep program 0 none
  return lines.foldl (fun counts line => tally counts line.mnemonic) []

end Intcode.Listing
