import Intcode.Listing
import Intcode.Proofs.Memory
import Intcode.Proofs.Wording

/-!
# Sweeps over a program

As long as the cells of a program can be written, a sweep over it is not refused, and what it finds
depends on the cells alone. `linesOf` says it without a memory, by recursion on the cells: the cells
are cut into lines, one after the other, and every line is as long as its instruction.

## Main definitions

* `Listing.lineOf` — the line at the start of some cells
* `Listing.linesOf` — the lines that some cells are cut into
* `Listing.within` — the first lines, up to a count
* `Listing.swept` — the lines of a program from an address on

## Main results

* `Listing.lineAt_of_drop` — how many cells a line is made out of
* `Listing.lineAt_eq_lineOf` — the line at an address
* `Listing.flatten_linesOf` — the cells of the lines are the cells that were cut
* `Listing.mem_linesOf` — every line is at the start of some of the cells
* `Listing.swept_of_drop` — the lines from an address on, by the first of them
* `Listing.sweep_eq` — a sweep finds the lines that the cells are cut into
-/

namespace Intcode.Listing

variable {program : Memory} {count : Option Nat} {address : Nat} {cell : Int}
  {rest cells : List Int}

/-! ### Single lines -/

/-- The line for the cells from an address on: an instruction if one can be made out of them. -/
def lineOf (address : Nat) (cell : Int) (rest : List Int) : Line :=
  let command := (Command.ofWindow (cell :: rest)).toOption
  ⟨address, cell, rest.take (command.elim 0 fun c => c.length - 1), command⟩

/-- A cell that can be written has a line, whatever follows it. -/
theorem line_eq_lineOf (short : Numeral.Writable cell) (address : Nat) (rest : List Int) :
    line address cell rest = .ok (lineOf address cell rest) := by
  unfold line lineOf
  cases made : Command.ofWindow (cell :: rest) with
  | ok command => rfl
  | error stop =>
    obtain ⟨cause, rfl⟩ := Command.isFault_of_ofWindow (by simpa using short) made
    rfl

/-- Three cells after the first are as many as matter. -/
theorem lineOf_take (address : Nat) (cell : Int) (rest : List Int) :
    lineOf address cell (rest.take 3) = lineOf address cell rest := by
  have same : Command.ofWindow (cell :: rest.take 3) = Command.ofWindow (cell :: rest) :=
    Command.ofWindow_take (cell :: rest)
  unfold lineOf
  rw [same]
  dsimp only
  congr 1
  rw [List.take_take]
  congr 1
  apply Nat.min_eq_left
  cases Command.ofWindow (cell :: rest) with
  | error stop => exact Nat.zero_le 3
  | ok command => exact Nat.sub_le_of_le_add command.opcode.length_le_four

/-- The cells of a line are the first of the cells from its address on. -/
theorem raw_append_drop (address : Nat) (cell : Int) (rest : List Int) :
    (lineOf address cell rest).raw ++ rest.drop ((lineOf address cell rest).length - 1) =
      cell :: rest := by
  unfold Line.length Line.raw lineOf
  simp only [List.length_cons, List.length_take, Nat.add_sub_cancel, List.cons_append]
  generalize (Except.toOption _).elim 0 _ = taken
  -- Where fewer cells are left than the line would take, it takes all of them.
  rcases Nat.le_total taken rest.length with le | le
  · rw [Nat.min_eq_left le, List.take_append_drop]
  · rw [Nat.min_eq_right le, List.take_of_length_le le, List.drop_length, List.append_nil]

/-- A line is made out of the cell at its address and the three after it. -/
theorem lineAt_of_drop {address : Int} (inside : program.inBounds address)
    (h : program.cells.toList.drop address.toNat = cell :: rest) :
    lineAt program address = line address.toNat cell (rest.take 3) := by
  have nonneg := (Memory.inBounds_iff.mp inside).1
  have four : (address + reach).toNat - address.toNat = 3 + 1 := by
    simp only [reach]
    omega
  have cut : program.slice address (address + reach) = cell :: rest.take 3 := by
    rw [Memory.slice_eq nonneg (by simp only [reach]; omega), four, h, List.take_succ_cons]
  rw [lineAt, inside, cut]

/-- The line at an address of a program. -/
theorem lineAt_eq_lineOf (short : ∀ cell ∈ program.cells, Numeral.Writable cell)
    (h : program.cells.toList.drop address = cell :: rest) :
    lineAt program address = .ok (lineOf address cell rest) := by
  have below : address < program.size := by
    have shorter := congrArg List.length h
    rw [List.length_drop, Array.length_toList, List.length_cons] at shorter
    unfold Memory.size
    omega
  have inside : program.inBounds address := Memory.inBounds_iff.mpr (by omega)
  have found : cell ∈ program.cells := by
    refine Array.mem_toList_iff.mp (List.mem_of_mem_drop (i := address) ?_)
    rw [h]
    exact List.mem_cons_self
  rw [lineAt_of_drop inside h, line_eq_lineOf (short cell found), lineOf_take,
    Int.toNat_natCast]

/-! ### Cutting cells into lines -/

/-- The lines that the cells from an address on are cut into. -/
def linesOf (address : Nat) : List Int → List Line
  | [] => []
  | cell :: rest =>
    let line := lineOf address cell rest
    line :: linesOf (address + line.length) (rest.drop (line.length - 1))
termination_by cells => cells.length
decreasing_by
  rw [List.length_drop, List.length_cons]
  omega

/-- The first lines, up to a count if one is given. -/
def within (count : Option Nat) (lines : List Line) : List Line := count.elim lines lines.take

/-- The cells of the lines are the cells that were cut, in order. -/
theorem flatten_linesOf (address : Nat) (cells : List Int) :
    ((linesOf address cells).map Line.raw).flatten = cells := by
  fun_induction linesOf address cells with
  | case1 => rfl
  | case2 address cell rest line ih =>
    rw [List.map_cons, List.flatten_cons, ih]
    exact raw_append_drop address cell rest

/-- Every line is at the start of some of the cells. -/
theorem mem_linesOf {l : Line} (h : l ∈ linesOf address cells) :
    ∃ place cell rest, l = lineOf place cell rest ∧ place < address + cells.length ∧
      ∀ c ∈ cell :: rest, c ∈ cells := by
  fun_induction linesOf address cells with
  | case1 => cases h
  | case2 address cell rest line ih =>
    rcases List.mem_cons.mp h with rfl | later
    · exact ⟨address, cell, rest, rfl, by simp, fun c found => found⟩
    · -- The later lines are at the start of what the first line leaves over.
      obtain ⟨place, first, others, eq, below, inside⟩ := ih later
      refine ⟨place, first, others, eq, ?_, fun c found => ?_⟩
      · have fit := congrArg List.length (raw_append_drop address cell rest)
        rw [List.length_append] at fit
        change line.length + (rest.drop (line.length - 1)).length = (cell :: rest).length at fit
        omega
      · exact List.mem_cons_of_mem _ (List.mem_of_mem_drop (inside c found))

/-! ### Sweeps -/

/-- The lines of a program from an address on. -/
def swept (program : Memory) (address : Nat) : List Line :=
  linesOf address (program.cells.toList.drop address)

/-- There is a first cell from an address inside the program on. -/
theorem drop_of_lt (below : address < program.size) :
    ∃ cell rest, program.cells.toList.drop address = cell :: rest := by
  have inside : program.inBounds address := Memory.inBounds_iff.mpr (by omega)
  exact Memory.drop_eq_cons inside

theorem swept_of_le (past : program.size ≤ address) : swept program address = [] := by
  have none : program.cells.toList.drop address = [] := List.drop_eq_nil_of_le past
  rw [swept, none, linesOf]

/-- The first line is at the address itself, and the others begin where its cells end. -/
theorem swept_of_drop (h : program.cells.toList.drop address = cell :: rest) :
    swept program address = lineOf address cell rest ::
      swept program (address + (lineOf address cell rest).length) := by
  have next : program.cells.toList.drop (address + (lineOf address cell rest).length) =
      rest.drop ((lineOf address cell rest).length - 1) := by
    rw [← List.drop_drop, h]
    exact List.drop_cons (Line.length_pos _)
  rw [swept, swept, h, linesOf, next]

theorem within_cons {count : Option Nat} (more : count ≠ some 0) (l : Line) (lines : List Line) :
    within count (l :: lines) = l :: within (count.map (· - 1)) lines := by
  cases count with
  | none => rfl
  | some k =>
    obtain ⟨k, rfl⟩ := Nat.exists_eq_succ_of_ne_zero (mt (congrArg some) more)
    rfl

/-- A sweep from an address on finds the lines that the cells are cut into. -/
theorem sweepFrom_eq (short : ∀ cell ∈ program.cells, Numeral.Writable cell) (count : Option Nat)
    (found : Array Line) (address : Nat) :
    sweepFrom program count found address =
      .ok (found ++ (within count (swept program address)).toArray) := by
  fun_induction sweepFrom program count found address with
  | case1 count found address h why refused =>
    obtain ⟨cell, rest, cells⟩ := drop_of_lt h.1
    rw [lineAt_eq_lineOf short cells] at refused
    cases refused
  | case2 count found address h line listed ih =>
    obtain ⟨cell, rest, cells⟩ := drop_of_lt h.1
    rw [lineAt_eq_lineOf short cells] at listed
    cases listed
    rw [ih, swept_of_drop cells, within_cons h.2]
    simp
  | case3 count found address h =>
    have nothing : within count (swept program address) = [] := by
      by_cases below : address < program.size
      · have none : count = some 0 := Decidable.not_not.mp fun more => h ⟨below, more⟩
        rw [none]
        rfl
      · rw [swept_of_le (Nat.le_of_not_lt below)]
        cases count with
        | none => rfl
        | some k => exact List.take_nil
    rw [nothing]
    simp

/-- A sweep finds the lines that the cells from its start on are cut into. -/
theorem sweep_eq (short : ∀ cell ∈ program.cells, Numeral.Writable cell) {start : Int}
    (inside : program.inBounds start) (count : Option Int) :
    sweep program start count =
      .ok (within (count.map Int.toNat) (swept program start.toNat)).toArray := by
  rw [sweep, if_pos inside, sweepFrom_eq short, Array.empty_append]

end Intcode.Listing
