import Intcode.Proofs.Dump

/-!
# The cells that windows and dumps reach

A window begins at an address in bounds and should hold the cells from there on, and a row of a dump
those from its label on. Both are cut out as slices, and a bound of a slice that is below zero
counts back from the end. So there are windows and rows that hold other cells than those at their
addresses, although every access to a single cell takes an address below zero to be out of bounds.

When this happens can be said exactly. A window is wrong if its count is so far below zero that its
end is below zero too, but not so far that the end lies before the memory. A row is wrong if its
label is below zero, and its end, or its label counted back, falls into the memory: it then shows
cells at the end of the memory, or leaves out cells at the start of it. No other window or row is
wrong. In particular, none is wrong with a count or a start of zero or more.

## Main definitions

* `Memory.between` — the cells at the addresses between two bounds
* `Memory.CountsBack` — bounds that a slice takes for others

## Main results

* `Memory.between_eq` — these cells are a stretch of the memory
* `Memory.slice_eq_between_iff` — when a slice holds the cells between its bounds
* `Memory.windows_and_rows_reach` — which cells windows and rows hold
-/

namespace Intcode.Memory

variable {m : Memory} {low high address start perRow : Int} {length : Option Int}

/-- The cells at the addresses from `low` on and below `high`, as far as there are any. -/
def between (m : Memory) (low high : Int) : List Int :=
  (List.range m.size).filterMap fun (a : Nat) => if low ≤ a ∧ a < high then m.get? a else none

/-- The entries of a list at the places between two bounds are a stretch of it. -/
theorem filterMap_range_eq {α : Type} (l : List α) (low high : Nat) :
    (List.range l.length).filterMap (fun a => if low ≤ a ∧ a < high then l[a]? else none) =
      (l.drop low).take (high - low) := by
  induction l generalizing low high with
  | nil => simp
  | cons x l ih =>
    have next : (fun a => if low ≤ a ∧ a < high then (x :: l)[a]? else none) ∘ Nat.succ =
        fun a => if low - 1 ≤ a ∧ a < high - 1 then l[a]? else none := by
      funext a
      have same : (low ≤ a + 1 ∧ a + 1 < high) ↔ (low - 1 ≤ a ∧ a < high - 1) := by omega
      simp only [Function.comp_apply, Nat.succ_eq_add_one, List.getElem?_cons_succ, same]
    rw [List.length_cons, List.range_succ_eq_map, List.filterMap_cons, List.filterMap_map, next, ih]
    -- The first entry is taken if the stretch begins with it.
    cases low with
    | zero => cases high <;> simp
    | succ low =>
      have width : high - (low + 1) = high - 1 - low := by omega
      simp [width]

theorem between_eq (m : Memory) (low high : Int) :
    m.between low high = (m.cells.toList.drop low.toNat).take (high.toNat - low.toNat) := by
  have cells : (fun a : Nat => if low ≤ a ∧ a < high then m.get? a else none) =
      fun a => if low.toNat ≤ a ∧ a < high.toNat then m.cells.toList[a]? else none := by
    funext a
    have same : (low ≤ a ∧ (a : Int) < high) ↔ (low.toNat ≤ a ∧ a < high.toNat) := by omega
    simp [get?, same]
  rw [between, cells, size, ← Array.length_toList, filterMap_range_eq]

theorem length_between (m : Memory) (low high : Int) :
    (m.between low high).length = min (high.toNat - low.toNat) (m.size - low.toNat) := by
  rw [between_eq, List.length_take, List.length_drop, Array.length_toList, size]

/-- Nothing lies past the end. -/
theorem between_min_size (m : Memory) (low high : Int) :
    m.between low (min high m.size) = m.between low high := by
  rw [between_eq, between_eq, List.take_eq_take_iff, List.length_drop, Array.length_toList, size]
  omega

theorem between_place_min (m : Memory) (low high : Int) :
    m.between low (m.place (min high m.size)) = m.between low (m.place high) := by
  rcases lt_or_ge high 0 with below | nonneg
  · rw [min_eq_left (by omega)]
  · rw [place_of_nonneg nonneg, place_of_nonneg (le_min nonneg m.size.cast_nonneg), between_min_size]

/-- A slice holds the cells between the places that its bounds stand for. -/
theorem slice_eq_between (m : Memory) (low high : Int) :
    m.slice low high = m.between (m.place low) (m.place high) := by
  rw [slice_eq_drop_take, between_eq]

/-- Whether a slice takes its bounds for others: it ends below zero and has cells nevertheless, or
it begins below zero and leaves out the first cells. -/
def CountsBack (m : Memory) (low high : Int) : Prop :=
  (high < 0 ∧ 0 < m.place high ∧ m.place low < m.place high) ∨
    (low < 0 ∧ 0 < high ∧ 0 < m.place low)

/-- A slice holds the cells between its bounds exactly if it does not take them for others. -/
theorem slice_eq_between_iff : m.slice low high = m.between low high ↔ ¬ m.CountsBack low high := by
  rw [slice_eq_between]
  constructor
  · -- With other bounds there are more cells, or fewer.
    intro same back
    have lengths := congrArg List.length same
    rw [length_between, length_between] at lengths
    rcases back with ⟨below, inside, order⟩ | ⟨below, above, inside⟩
    · rw [place_of_neg below] at lengths inside order
      omega
    · rw [place_of_nonneg above.le] at lengths
      rw [place_of_neg below] at lengths inside
      omega
  · intro forward
    rw [CountsBack, not_or] at forward
    obtain ⟨ahead, whole⟩ := forward
    rw [between_eq, between_eq]
    by_cases below : high < 0
    · have none : (m.place high).toNat - (m.place low).toNat = 0 := by omega
      have none' : high.toNat - low.toNat = 0 := by omega
      rw [none, none', List.take_zero, List.take_zero]
    · rw [place_of_nonneg (not_lt.mp below)]
      by_cases empty : high = 0
      · simp [empty]
      · -- A label below zero that is counted back still lies before the memory.
        have first : (m.place low).toNat = low.toNat := by
          by_cases negative : low < 0
          · omega
          · rw [place_of_nonneg (not_lt.mp negative)]
        rw [first]

/-! ### Windows -/

/-- A window at an address in bounds is wrong exactly if its end is below zero but not before the
memory. -/
theorem slice_window_iff (inside : m.inBounds address) (count : Int) :
    m.slice address (address + count) = m.between address (address + count) ↔
      ¬ (-(m.size : Int) < count ∧ count < -address) := by
  have nonneg := (inBounds_iff.mp inside).1
  rw [slice_eq_between_iff, CountsBack, place_of_nonneg nonneg, not_iff_not]
  constructor
  · rintro (⟨below, -, order⟩ | ⟨below, -, -⟩)
    · rw [place_of_neg below] at order
      omega
    · omega
  · intro back
    have below : address + count < 0 := by omega
    rw [place_of_neg below]
    omega

/-! ### Rows -/

/-- A row is wrong exactly if it begins below zero, and its end or its beginning falls into the
memory when it is counted back. -/
theorem slice_row_iff (before : low < high) :
    m.slice low (min high m.size) = m.between low high ↔
      ¬ (low < 0 ∧ (high < 0 ∧ 0 < high + m.size ∨ 0 < high ∧ 0 < low + m.size)) := by
  rw [← between_min_size, slice_eq_between_iff, not_iff_not, CountsBack, place, place]
  split_ifs <;> omega

/-- The rows of a dump, each with its label and its cells. -/
theorem rows_of_dump {text : String} (positive : 0 < perRow)
    (made : m.dump start length perRow = .ok text) {line : List Char}
    (found : line ∈ Text.lines text.toList) :
    ∃ address, address < m.dumpEnd start length ∧ label? line = some address ∧
      (cellFields line).map Numeral.read? =
        (m.slice address (min (address + perRow) (m.dumpEnd start length))).map some := by
  obtain ⟨-, -, short, -⟩ := dump_eq_ok_iff.mp made
  rw [(lines_of_dump made).1] at found
  obtain ⟨address, starting, rfl⟩ := List.mem_map.mp found
  obtain ⟨cells, label⟩ := short address starting
  refine ⟨address, ?_, label?_shownRow label _ _, read?_shownRow cells _ _⟩
  rw [rowStarts_of_pos positive] at starting
  obtain ⟨i, inside, rfl⟩ := List.mem_map.mp starting
  exact lt_of_lt_ceilDiv positive (List.mem_range.mp inside)

/-- The end of a row is its own, or that of the dump, or that of the memory. -/
theorem min_dumpEnd (m : Memory) (start address perRow : Int) (length : Option Int) :
    min (address + perRow) (m.dumpEnd start length) =
      min (length.elim (address + perRow) fun count => min (address + perRow) (start + count))
        m.size := by
  cases length with
  | none => rfl
  | some count => exact (min_assoc _ _ _).symm

/-- Which cells windows and rows of dumps hold. A window that begins in bounds holds the cells from
its address up to the place that its end stands for, and these are the cells up to its end exactly
if its count is not one of those that lead back from the address past zero and still into the
memory. A row of a dump holds the cells from the place that its label stands for up to the place
that its end stands for, and these are the cells from the label up to the end exactly if it does not
begin below zero with its end, or else its beginning, in the memory when it is counted back. -/
theorem windows_and_rows_reach (m : Memory) :
    (∀ pc count : Int, 0 ≤ pc → pc < m.size → ∃ cells, m.window pc count = .ok cells ∧
      cells = m.between pc (m.place (pc + count)) ∧
      (cells = m.between pc (pc + count) ↔ ¬ (-(m.size : Int) < count ∧ count < -pc))) ∧
    ∀ (start : Int) (length : Option Int) (perRow : Int) (text : String), 1 ≤ perRow →
      m.dump start length perRow = .ok text → ∀ line ∈ Text.lines text.toList,
        ∃ address, label? line = some address ∧
          let high := length.elim (address + perRow) fun count =>
            min (address + perRow) (start + count)
          (cellFields line).map Numeral.read? =
            (m.between (m.place address) (m.place high)).map some ∧
          ((cellFields line).map Numeral.read? = (m.between address high).map some ↔
            ¬ (address < 0 ∧ (high < 0 ∧ 0 < high + m.size ∨ 0 < high ∧ 0 < address + m.size))) := by
  constructor
  · intro pc count nonneg below
    have inside : m.inBounds pc := inBounds_iff.mpr ⟨nonneg, below⟩
    refine ⟨m.slice pc (pc + count), if_pos inside, ?_, slice_window_iff inside count⟩
    rw [slice_eq_between, place_of_nonneg nonneg]
  · intro start length perRow text positive made line found
    obtain ⟨address, before, label, cells⟩ := rows_of_dump positive made found
    refine ⟨address, label, ?_⟩
    intro high
    have ahead : address < high := by
      cases length with
      | none => exact Int.lt_add_of_pos_right address positive
      | some count =>
        exact lt_min (Int.lt_add_of_pos_right address positive)
          (lt_of_lt_of_le before (min_le_left _ _))
    rw [min_dumpEnd] at cells
    constructor
    · rw [cells, slice_eq_between, between_place_min]
    · rw [cells, List.map_inj_right fun _ _ => Option.some.inj]
      exact slice_row_iff ahead

/-- A window with a count below zero that holds two cells instead of none, and a dump from below
zero whose only row shows the last cell instead of all. -/
theorem windows_and_rows_reach_back :
    let m : Memory := ⟨#[1, 2, 3, 4]⟩
    m.window 1 (-2) = .ok [2, 3] ∧ [2, 3] ≠ m.between 1 (1 + -2) ∧
      m.dump (-1) none 8 = .ok "   -1: 4" ∧
      (cellFields "   -1: 4".toList).map Numeral.read? ≠ (m.between (-1) (-1 + 8)).map some := by
  intro m
  obtain ⟨windows, rows⟩ := windows_and_rows_reach m
  obtain ⟨cells, window, reached, law⟩ := windows 1 (-2) (by decide) (by decide)
  have two : m.between 1 (m.place (1 + -2)) = [2, 3] := by decide
  rw [reached, two] at window law
  refine ⟨window, mt law.mp (by decide), ?_⟩
  cases made : m.dump (-1) none 8 with
  | error why =>
    have some : (m.dump (-1) none 8).toOption.isSome := by decide +kernel
    rw [made] at some
    cases some
  | ok text =>
    have shown : (m.dump (-1) none 8).toOption = some "   -1: 4" := by decide +kernel
    rw [made] at shown
    cases shown
    obtain ⟨address, label, -, law⟩ :=
      rows (-1) none 8 "   -1: 4" (by decide) made "   -1: 4".toList (by decide +kernel)
    have minus : label? "   -1: 4".toList = some (-1) := by decide +kernel
    cases label.symm.trans minus
    exact ⟨rfl, mt law.mp (by decide)⟩

end Intcode.Memory
