import Mathlib.Algebra.BigOperators.Group.List.Basic
import Mathlib.Algebra.GroupWithZero.Nat
import Mathlib.Data.List.Induction
import Mathlib.Data.List.Nodup
import Intcode.Proofs.Partition

/-!
# Histograms account for every cell

A histogram has one entry for each name that occurs in a full sweep, with the number of lines of
that name. Every weighted sum over its entries is the sum over the lines with the same weights: a
line that is counted adds the weight of its name, whether the name is new or not.

With a weight of one for each name this is the number of lines. With the number of cells that a name
stands for it is the size of the program, because the name of a line determines its length and the
lines cut the program.

## Main definitions

* `Opcode.ofMnemonic?` — the operation of a name
* `Listing.cellsNamed` — the number of cells that a name stands for
* `Listing.weigh` — the sum over a histogram with given weights
* `Listing.countNames` — the histogram of some names

## Main results

* `Listing.weigh_countNames` — the sum over a histogram is the sum over the names
* `Listing.count_of_mem_countNames` — an entry holds how often its name occurs
* `Listing.cellsNamed_mnemonic` — the name of a line determines its length
* `Listing.histogram_accounts` — a histogram accounts for every line and every cell
-/

namespace Intcode

/-- The operation of a name. -/
def Opcode.ofMnemonic? (name : String) : Option Opcode := all.find? fun op => op.mnemonic = name

theorem Opcode.ofMnemonic?_mnemonic (op : Opcode) : ofMnemonic? op.mnemonic = some op := by
  cases op <;> decide +kernel

theorem Opcode.mnemonic_ne_data (op : Opcode) : op.mnemonic ≠ "DATA" := by
  cases op <;> decide +kernel

namespace Listing

variable {counts : List (String × Nat)} {entry : String × Nat} {names : List String}

/-! ### Weighing -/

/-- The sum over the entries of a histogram, each name with its weight. -/
def weigh (weight : String → Nat) (counts : List (String × Nat)) : Nat :=
  (counts.map fun entry => entry.2 * weight entry.1).sum

@[simp] theorem weigh_nil (weight : String → Nat) : weigh weight [] = 0 := rfl

@[simp] theorem weigh_cons (weight : String → Nat) (entry : String × Nat)
    (counts : List (String × Nat)) :
    weigh weight (entry :: counts) = entry.2 * weight entry.1 + weigh weight counts := rfl

/-- With a weight of one, the counts are summed up. -/
theorem weigh_one (counts : List (String × Nat)) :
    weigh (fun _ => 1) counts = (counts.map Prod.snd).sum := by
  simp [weigh]

/-- A weight of one for a single name picks its count. -/
theorem weigh_single (once : (counts.map Prod.fst).Nodup) (found : entry ∈ counts) :
    weigh (fun name => if name = entry.1 then 1 else 0) counts = entry.2 := by
  -- No other entry has this name, and there is only one such entry.
  have others : ∀ other, other ≠ entry → other ∈ counts →
      other.2 * (if other.1 = entry.1 then 1 else 0) = 0 := by
    intro other differs member
    have name : other.1 ≠ entry.1 := mt (List.inj_on_of_nodup_map once member found) differs
    simp [name]
  have single : @List.count _ instBEqOfDecidableEq entry counts = 1 :=
    @List.count_eq_one_of_mem _ instBEqOfDecidableEq _ _ _ (List.Nodup.of_map _ once) found
  rw [weigh, List.sum_map_eq_nsmul_single entry _ others, single]
  simp

/-! ### Counting names -/

/-- Counting a name adds its weight, whether the name is new or not. -/
theorem weigh_tally (weight : String → Nat) (counts : List (String × Nat)) (name : String) :
    weigh weight (tally counts name) = weigh weight counts + weight name := by
  induction counts with
  | nil => simp [tally]
  | cons entry counts ih =>
    unfold tally
    by_cases same : entry.1 = name
    · rw [if_pos same, weigh_cons, weigh_cons, Nat.add_one_mul, same]
      omega
    · rw [if_neg same, weigh_cons, weigh_cons, ih, Nat.add_assoc]

/-- Only a name that is new gets an entry of its own, after the others. -/
theorem keys_tally (counts : List (String × Nat)) (name : String) :
    (tally counts name).map Prod.fst =
      if name ∈ counts.map Prod.fst then counts.map Prod.fst else counts.map Prod.fst ++ [name] := by
  induction counts with
  | nil => simp [tally]
  | cons entry counts ih =>
    unfold tally
    by_cases same : entry.1 = name
    · simp [same]
    · have later : name ∈ (entry :: counts).map Prod.fst ↔ name ∈ counts.map Prod.fst := by
        rw [List.map_cons, List.mem_cons]
        exact or_iff_right (Ne.symm same)
      simp only [later, if_neg same]
      rw [List.map_cons, ih]
      split <;> rfl

/-- The histogram of some names. -/
def countNames (names : List String) : List (String × Nat) := names.foldl tally []

theorem countNames_concat (names : List String) (name : String) :
    countNames (names ++ [name]) = tally (countNames names) name := by
  simp [countNames]

/-- The sum over a histogram is the sum over the names. -/
theorem weigh_countNames (weight : String → Nat) (names : List String) :
    weigh weight (countNames names) = (names.map weight).sum := by
  induction names using List.reverseRecOn with
  | nil => rfl
  | append_singleton names name ih => simp [countNames_concat, weigh_tally, ih]

theorem mem_keys_countNames {name : String} :
    name ∈ (countNames names).map Prod.fst ↔ name ∈ names := by
  induction names using List.reverseRecOn with
  | nil => rfl
  | append_singleton names last ih =>
    rw [countNames_concat, keys_tally]
    split
    · next known =>
      rw [ih, List.mem_append, List.mem_singleton]
      refine ⟨.inl, ?_⟩
      rintro (found | rfl)
      · exact found
      · exact ih.mp known
    · rw [List.mem_append, List.mem_append, ih]

theorem nodup_keys_countNames (names : List String) : ((countNames names).map Prod.fst).Nodup := by
  induction names using List.reverseRecOn with
  | nil => exact List.nodup_nil
  | append_singleton names last ih =>
    rw [countNames_concat, keys_tally]
    split
    · exact ih
    · next fresh => exact List.nodup_append_comm.mp (List.nodup_cons.mpr ⟨fresh, ih⟩)

/-- An entry holds how often its name occurs, which it does. -/
theorem count_of_mem_countNames (found : entry ∈ countNames names) :
    entry.2 = names.count entry.1 ∧ 0 < entry.2 := by
  have occurs : entry.1 ∈ names := mem_keys_countNames.mp (List.mem_map_of_mem found)
  have count : entry.2 = names.count entry.1 := by
    rw [← weigh_single (nodup_keys_countNames names) found, weigh_countNames,
      List.sum_map_eq_nsmul_single entry.1 _ fun name differs _ => if_neg differs]
    simp
  exact ⟨count, count ▸ List.count_pos_iff.mpr occurs⟩

/-! ### The names of lines -/

/-- The number of cells that a name in a listing stands for: one for data, and as many as the
operation of that name takes. -/
def cellsNamed (name : String) : Nat :=
  if name = "DATA" then 1 else (Opcode.ofMnemonic? name).elim 0 Opcode.length

/-- The name of a line determines its length. -/
theorem cellsNamed_mnemonic {l : Line} (whole : l.length = l.command.elim 1 Command.length) :
    cellsNamed l.mnemonic = l.length := by
  rw [whole]
  unfold Line.mnemonic
  cases l.command with
  | none => rfl
  | some command =>
    change cellsNamed command.opcode.mnemonic = command.opcode.length
    rw [cellsNamed, if_neg command.opcode.mnemonic_ne_data, Opcode.ofMnemonic?_mnemonic]
    rfl

/-! ### Histograms -/

/-- The lines of a program have as many cells as the program. -/
theorem sum_length_swept (program : Memory) :
    ((swept program 0).map Line.length).sum = program.size := by
  have cells := congrArg List.length (flatten_linesOf 0 (program.cells.toList.drop 0))
  rw [List.length_flatten, List.map_map] at cells
  exact cells

theorem histogram_eq {program : Memory} {lines : Array Line}
    (swept : sweep program 0 none = .ok lines) :
    histogram program = .ok (countNames (lines.toList.map Line.mnemonic)) := by
  rw [histogram, swept, countNames, List.foldl_map, Array.foldl_toList]
  rfl

/-- A histogram has one entry for each name, with the number of lines of that name, and there is at
least one. The counts add up to the number of lines of a full sweep, and with the number of cells
that each name stands for to the size of the program. -/
theorem histogram_accounts (program : Memory) (full : 0 < program.size)
    (short : ∀ cell ∈ program.cells, Numeral.Writable cell) :
    ∃ lines counts, sweep program 0 none = .ok lines ∧ histogram program = .ok counts ∧
      (counts.map Prod.fst).Nodup ∧
      (∀ entry ∈ counts, 0 < entry.2 ∧
        entry.2 = (lines.toList.map Line.mnemonic).count entry.1) ∧
      (counts.map fun entry => entry.2 * cellsNamed entry.1).sum = program.size ∧
      (counts.map Prod.snd).sum = lines.size := by
  have inside : program.inBounds 0 := Memory.inBounds_iff.mpr (by omega)
  have found : sweep program 0 none = .ok (swept program 0).toArray := sweep_eq short inside none
  refine ⟨_, _, found, histogram_eq found, nodup_keys_countNames _, ?_, ?_, ?_⟩
  · intro entry member
    exact (count_of_mem_countNames member).symm
  · calc
      weigh cellsNamed (countNames ((swept program 0).map Line.mnemonic))
          = ((swept program 0).map (cellsNamed ∘ Line.mnemonic)).sum := by
        rw [weigh_countNames, List.map_map]
      _ = ((swept program 0).map Line.length).sum := by
        apply congrArg
        apply List.map_congr_left
        intro l member
        exact cellsNamed_mnemonic (length_of_mem_linesOf member)
      _ = program.size := sum_length_swept program
  · rw [← weigh_one, weigh_countNames]
    simp [Function.comp_def]

/-- A program with a mode digit that does not exist and an instruction that is cut off at the end.
-/
theorem histogram_accounts_tail :
    let program : Memory := ⟨#[1002, 4, 3, 4, 99, 21101, 104, 5, 1, 0]⟩
    ∃ lines, sweep program 0 none = .ok lines ∧
      histogram program = .ok [("MUL", 1), ("HALT", 1), ("DATA", 3), ("OUT", 1)] ∧
      1 * 4 + 1 * 1 + 3 * 1 + 1 * 2 = program.size ∧ 1 + 1 + 3 + 1 = lines.size := by
  intro program
  have short : ∀ cell ∈ program.cells, Numeral.Writable cell := by decide +kernel
  obtain ⟨lines, counts, swept, counted, -, -, cells, entries⟩ :=
    histogram_accounts program (by decide) short
  have value : (histogram program).toOption =
      some [("MUL", 1), ("HALT", 1), ("DATA", 3), ("OUT", 1)] := by decide +kernel
  rw [counted] at value
  obtain rfl := Option.some.inj value
  have lengths : cellsNamed "MUL" = 4 ∧ cellsNamed "HALT" = 1 ∧ cellsNamed "DATA" = 1 ∧
      cellsNamed "OUT" = 2 := by decide +kernel
  simp only [List.map_cons, List.map_nil, lengths] at cells
  exact ⟨lines, swept, counted, cells, entries⟩

end Listing

end Intcode
