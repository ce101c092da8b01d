import Mathlib.Data.List.Chain
import Mathlib.Data.List.Infix
import Intcode.Proofs.Sweep

/-!
# Sweeps cut a program into lines

A sweep leaves out no cell and lists none twice: its lines follow one another without a gap, up to
the end of the program, and a cell that begins no instruction is a line of its own. A count only
ends the sweep sooner.

What a sweep lists from an address on depends on the address alone and not on how the sweep came
there. So a sweep can be broken off and taken up again where it ended, and two sweeps that begin
apart list the same from the first address at which both have a line.

## Main definitions

* `Listing.Partition` — lines that cut a program from an address on
* `Listing.after` — the address at which a sweep is taken up again

## Main results

* `Listing.partition_swept` — the lines of a program cut it
* `Listing.drop_swept` — later lines are the lines from a later address on
* `Listing.sweep_partitions` — a sweep cuts the program, and a count gives the first lines of it
* `Listing.sweeps_compose` — sweeps can be taken up again, and agree where they meet
-/

namespace Intcode

/-- The refusal of a start outside, which names the start and the size as long as both can be
written. -/
theorem Refusal.orTooLong_startOutside (start : Int) (size : Nat) :
    (startOutside start size).orTooLong =
      if Numeral.Writable start ∧ Numeral.Writable size then startOutside start size
      else numberTooLong := by
  have worded : (startOutside start size).text?.isSome ↔
      Numeral.Writable start ∧ Numeral.Writable size := by
    simp only [← Numeral.write?_isSome_iff, text?]
    cases Numeral.write? start <;> cases Numeral.write? size <;> simp
  unfold orTooLong
  simp only [worded]

namespace Listing

variable {program : Memory} {address : Nat} {cells : List Int} {l : Line}

/-! ### Single lines -/

/-- A line is as long as its instruction, and a data line has one cell. -/
theorem length_lineOf (address : Nat) (cell : Int) (rest : List Int) :
    (lineOf address cell rest).length =
      (lineOf address cell rest).command.elim 1 Command.length := by
  unfold Line.length Line.raw lineOf
  cases made : Command.ofWindow (cell :: rest) with
  | error stop => rfl
  | ok command =>
    -- The instruction was made out of these cells, so none of its cells is missing.
    have fits := Command.length_le_of_ofWindow made
    have pos : 0 < command.length := command.opcode.length_pos
    simp only [Except.toOption, Option.elim_some, List.length_cons, List.length_take] at fits ⊢
    omega

theorem length_of_mem_linesOf (h : l ∈ linesOf address cells) :
    l.length = l.command.elim 1 Command.length := by
  obtain ⟨place, cell, rest, rfl, -, -⟩ := mem_linesOf h
  exact length_lineOf place cell rest

/-- A line has no more cells than the longest instruction. -/
theorem Line.length_le_four (h : l.length = l.command.elim 1 Command.length) : l.length ≤ 4 := by
  rw [h]
  cases l.command with
  | none => decide
  | some command => exact command.opcode.length_le_four

/-! ### Neighbouring lines -/

theorem address_of_head? (h : l ∈ (linesOf address cells).head?) : l.address = address := by
  cases cells with
  | nil =>
    rw [linesOf] at h
    cases h
  | cons cell rest =>
    rw [linesOf] at h
    obtain rfl := Option.some.inj h
    rfl

theorem isChain_linesOf (address : Nat) (cells : List Int) :
    (linesOf address cells).IsChain fun a b => b.address = a.address + a.length := by
  fun_induction linesOf address cells with
  | case1 => exact .nil
  | case2 address cell rest line ih => exact ih.cons fun l head => address_of_head? head

/-! ### The lines of a program -/

theorem swept_ne_nil (below : address < program.size) : swept program address ≠ [] := by
  obtain ⟨cell, rest, h⟩ := drop_of_lt below
  rw [swept_of_drop h]
  exact List.cons_ne_nil _ _

/-- The address after the last of some lines, or the start where there is none. -/
def after (start : Nat) (lines : List Line) : Nat :=
  lines.getLast?.elim start fun l => l.address + l.length

theorem after_cons (start : Nat) (l : Line) (lines : List Line) :
    after start (l :: lines) = after (l.address + l.length) lines := by
  unfold after
  rw [List.getLast?_cons]
  cases lines.getLast? <;> rfl

/-- After the first lines come the lines from the address after them on. -/
theorem drop_swept (program : Memory) (address k : Nat) :
    (swept program address).drop k =
      swept program (after address ((swept program address).take k)) := by
  induction k generalizing address with
  | zero => rfl
  | succ k ih =>
    rcases Nat.lt_or_ge address program.size with below | past
    · -- One line less is taken from where the first line ends.
      obtain ⟨cell, rest, h⟩ := drop_of_lt below
      rw [swept_of_drop h, List.drop_succ_cons, List.take_succ_cons, after_cons]
      exact ih _
    · -- Past the end there is no line, and the address stays.
      rw [swept_of_le past]
      exact (swept_of_le past).symm

/-- As long as the lines end inside the program, there are as many as were asked for. -/
theorem length_take_swept {k : Nat}
    (inside : after address ((swept program address).take k) < program.size) :
    ((swept program address).take k).length = k := by
  have more : (swept program address).drop k ≠ [] := by
    rw [drop_swept]
    exact swept_ne_nil inside
  have longer : ¬ (swept program address).length ≤ k := mt List.drop_eq_nil_iff.mpr more
  rw [List.length_take]
  omega

/-- What is listed from a line on depends on the address of the line alone. -/
theorem drop_swept_of_getElem? {i : Nat} (h : (swept program address)[i]? = some l) :
    (swept program address).drop i = swept program l.address := by
  have later := drop_swept program address i
  -- The line is the first of those from that address on, so this is its address.
  have head : l ∈ (swept program (after address ((swept program address).take i))).head? := by
    rw [← later, List.head?_drop]
    exact h
  rw [later, ← address_of_head? head]

/-- Every line is the one at its address. -/
theorem lineAt_of_mem_swept (short : ∀ cell ∈ program.cells, Numeral.Writable cell)
    (h : l ∈ swept program address) : lineAt program l.address = .ok l := by
  -- From its place on, the lines are those from its own address on, and it is the first of them.
  obtain ⟨i, place⟩ := List.getElem?_of_mem h
  have first : (swept program l.address).head? = some l := by
    rw [← drop_swept_of_getElem? place, List.head?_drop, place]
  rcases Nat.lt_or_ge l.address program.size with below | past
  · obtain ⟨cell, rest, cells⟩ := drop_of_lt below
    rw [swept_of_drop cells] at first
    rw [lineAt_eq_lineOf short cells, Option.some.inj first]
  · rw [swept_of_le past] at first
    cases first

/-- Lines that cut a program from an address on: no cell is left out or listed twice, and every line
is the one at its address, with all the cells of its instruction. -/
structure Partition (program : Memory) (start : Nat) (lines : List Line) : Prop where
  cells : (lines.map Line.raw).flatten = program.cells.toList.drop start
  first : lines.head?.map Line.address = some start
  next : lines.IsChain fun a b => b.address = a.address + a.length
  length : ∀ l ∈ lines, l.length = l.command.elim 1 Command.length ∧ 1 ≤ l.length ∧ l.length ≤ 4
  line : ∀ l ∈ lines, lineAt program l.address = .ok l

theorem partition_swept (short : ∀ cell ∈ program.cells, Numeral.Writable cell)
    (below : address < program.size) : Partition program address (swept program address) where
  cells := flatten_linesOf ..
  first := by
    obtain ⟨cell, rest, h⟩ := drop_of_lt below
    rw [swept_of_drop h]
    rfl
  next := isChain_linesOf ..
  length := by
    intro l found
    have length := length_of_mem_linesOf found
    exact ⟨length, l.length_pos, Line.length_le_four length⟩
  line := fun _ found => lineAt_of_mem_swept short found

/-! ### Sweeps -/

/-- A sweep cuts the program from its start on into lines, and a sweep with a count gives the first
of these lines. A sweep or a listing from outside the program is refused. -/
theorem sweep_partitions (program : Memory) (start : Int) :
    ((∀ cell ∈ program.cells, Numeral.Writable cell) → 0 ≤ start → start < program.size →
      ∃ lines, sweep program start none = .ok lines.toArray ∧ Partition program start.toNat lines ∧
        ∀ count : Int, sweep program start (some count) = .ok (lines.take count.toNat).toArray) ∧
    (¬ (0 ≤ start ∧ start < program.size) → ∀ count,
      let why := if Numeral.Writable start ∧ Numeral.Writable program.size then
        Refusal.startOutside start program.size else .numberTooLong
      sweep program start count = .error why ∧ text program start count = .error why) := by
  constructor
  · intro short nonneg below
    have inside : program.inBounds start := Memory.inBounds_iff.mpr ⟨nonneg, below⟩
    refine ⟨swept program start.toNat, sweep_eq short inside none, ?_, ?_⟩
    · exact partition_swept short (by omega)
    · intro count
      exact sweep_eq short inside (some count)
  · intro outside count why
    have refused : sweep program start count = .error why := by
      rw [sweep, if_neg (mt Memory.inBounds_iff.mp outside), Refusal.orTooLong_startOutside]
    refine ⟨refused, ?_⟩
    rw [text, refused]
    rfl

/-- A program with a broken instruction at its end, and a start before its beginning. -/
theorem sweep_partitions_tail :
    let program : Memory := ⟨#[1002, 4, 3, 4, 99, 1, 0]⟩
    (∃ lines, sweep program 4 none = .ok lines.toArray ∧ Partition program 4 lines ∧
      sweep program 4 (some 2) = .ok (lines.take 2).toArray) ∧
    sweep program (-1) (some 2) = .error (.startOutside (-1) 7) ∧
      text program (-1) (some 2) = .error (.startOutside (-1) 7) := by
  intro program
  have short : ∀ cell ∈ program.cells, Numeral.Writable cell := by decide +kernel
  obtain ⟨lines, swept, cut, counted⟩ :=
    (sweep_partitions program 4).1 short (by decide) (by decide)
  have refused := (sweep_partitions program (-1)).2 (by decide) (some 2)
  rw [if_pos (by decide +kernel)] at refused
  exact ⟨⟨lines, swept, cut, counted 2⟩, refused⟩

theorem isPrefix_within (count : Option Nat) (lines : List Line) :
    within count lines <+: lines := by
  cases count with
  | none => exact List.prefix_rfl
  | some k => exact List.take_prefix k lines

/-- The lines of a sweep from one of them on are the first lines from its address on. -/
theorem drop_within_swept {count : Option Nat} {i : Nat}
    (h : (within count (swept program address))[i]? = some l) :
    (within count (swept program address)).drop i <+: swept program l.address := by
  have begins := isPrefix_within count (swept program address)
  have found : (swept program address)[i]? = some l := by
    obtain ⟨more, eq⟩ := begins
    rw [← eq, List.getElem?_append_left (List.getElem?_eq_some_iff.mp h).1, h]
  rw [← drop_swept_of_getElem? found]
  exact begins.drop i

/-- A sweep with a count that ends inside the program has all its lines. It can be taken up again at
the address after the last of them, and the two together are one longer sweep. Two sweeps that both
have a line at some address agree from there on, as far as both go, and without a count to the end.
-/
theorem sweeps_compose (program : Memory) (short : ∀ cell ∈ program.cells, Numeral.Writable cell)
    (start : Int) (nonneg : 0 ≤ start) (below : start < program.size) :
    (∀ k j : Nat, ∃ first, sweep program start (some k) = .ok first ∧
      (after start.toNat first.toList < program.size → first.size = k ∧
        ∃ second, sweep program (after start.toNat first.toList) (some j) = .ok second ∧
          sweep program start (some (k + j)) = .ok (first ++ second))) ∧
    ∀ other : Int, 0 ≤ other → other < program.size → ∀ count count' : Option Int,
      ∃ lines lines', sweep program start count = .ok lines ∧
        sweep program other count' = .ok lines' ∧
        ∀ i j l l', lines[i]? = some l → lines'[j]? = some l' → l.address = l'.address →
          (lines.toList.drop i <+: lines'.toList.drop j ∨
            lines'.toList.drop j <+: lines.toList.drop i) ∧
          (count = none → count' = none → lines.toList.drop i = lines'.toList.drop j) := by
  have sweeps {start : Int} (nonneg : 0 ≤ start) (below : start < program.size) (count : Option Int) :
      sweep program start count =
        .ok (within (count.map Int.toNat) (swept program start.toNat)).toArray :=
    sweep_eq short (Memory.inBounds_iff.mpr ⟨nonneg, below⟩) count
  constructor
  · intro k j
    refine ⟨_, sweeps nonneg below (some k), fun inside => ⟨length_take_swept inside, ?_⟩⟩
    refine ⟨_, sweeps (Int.natCast_nonneg _) (Int.ofNat_lt.mpr inside) (some j), ?_⟩
    rw [sweeps nonneg below, List.append_toArray]
    change Except.ok ((swept program start.toNat).take (k + j)).toArray = _
    rw [List.take_add, drop_swept]
    rfl
  · intro other nonneg' below' count count'
    refine ⟨_, _, sweeps nonneg below count, sweeps nonneg' below' count', ?_⟩
    intro i j l l' here there same
    rw [List.getElem?_toArray] at here there
    constructor
    · -- What each of them lists from here on begins the lines from one address on.
      have one := drop_within_swept here
      have two := drop_within_swept there
      rw [← same] at two
      exact List.prefix_or_prefix_of_prefix one two
    · rintro rfl rfl
      change (swept program start.toNat).drop i = (swept program other.toNat).drop j
      rw [drop_swept_of_getElem? here, drop_swept_of_getElem? there, same]

/-- A sweep that is taken up again, and one that begins inside its first line and meets it at the
next. -/
theorem sweeps_compose_meeting :
    let program : Memory := ⟨#[1, 2, 3, 4, 99, 7]⟩
    (∃ first second, sweep program 0 (some 1) = .ok first ∧ sweep program 4 (some 1) = .ok second ∧
      sweep program 0 (some 2) = .ok (first ++ second)) ∧
    ∃ lines lines', sweep program 0 none = .ok lines ∧ sweep program 2 none = .ok lines' ∧
      lines.toList.drop 1 = lines'.toList.drop 1 := by
  intro program
  have short : ∀ cell ∈ program.cells, Numeral.Writable cell := by decide +kernel
  obtain ⟨joined, meet⟩ := sweeps_compose program short 0 (by decide) (by decide)
  constructor
  · obtain ⟨first, (eq : sweep program 0 (some 1) = .ok first), taken⟩ := joined 1 1
    have ends : (sweep program 0 (some 1)).toOption.map (fun lines => after 0 lines.toList) =
        some 4 := by decide +kernel
    rw [eq] at ends
    have place : after 0 first.toList = 4 := Option.some.inj ends
    rw [Int.toNat_zero, place] at taken
    obtain ⟨-, second, eq', whole⟩ := taken (by decide)
    exact ⟨first, second, eq, eq', whole⟩
  · obtain ⟨lines, lines', eq, eq', agree⟩ := meet 2 (by decide) (by decide) none none
    have here : (sweep program 0 none).toOption.bind (·[1]?.map Line.address) = some 4 := by
      decide +kernel
    have there : (sweep program 2 none).toOption.bind (·[1]?.map Line.address) = some 4 := by
      decide +kernel
    rw [eq] at here
    rw [eq'] at there
    obtain ⟨l, found, place⟩ := Option.map_eq_some_iff.mp here
    obtain ⟨l', found', place'⟩ := Option.map_eq_some_iff.mp there
    have same : l.address = l'.address := place.trans place'.symm
    exact ⟨lines, lines', eq, eq', (agree 1 1 l l' found found' same).2 rfl rfl⟩

end Listing

end Intcode
