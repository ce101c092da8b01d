import Intcode.Command

/-!
# Memory

A memory is a row of cells of fixed length that holds program and data alike. Every access to a
single cell is checked: an address below zero or past the end is out of bounds. Parts of a memory
are cut out by `slice`, whose bounds may also be counted back from the end.

## Main definitions

* `Memory`, `Memory.get?`, `Memory.set?` — the cells, and one cell of them
* `Memory.read`, `Memory.write` — access to a cell, with a fault when there is none
* `Memory.load`, `Memory.store` — access through an operand
* `Memory.slice` — the cells between two bounds
* `Memory.window` — the cells from an address on
-/

namespace Intcode

/-- The memory of a machine. -/
structure Memory where
  cells : Array Int
  deriving DecidableEq, Repr

namespace Memory

/-- The number of cells. -/
def size (m : Memory) : Nat := m.cells.size

/-- Whether an address is one of a cell. -/
def inBounds (m : Memory) (address : Int) : Bool :=
  0 ≤ address && address < m.size

/-- The cell at an address. -/
def get? (m : Memory) (address : Int) : Option Int :=
  if 0 ≤ address then m.cells[address.toNat]? else none

/-- The memory with another value at an address. -/
def set? (m : Memory) (address value : Int) : Option Memory :=
  if m.inBounds address then some ⟨m.cells.setIfInBounds address.toNat value⟩ else none

/-- The fault of an access that is out of bounds. -/
def outOfBounds (m : Memory) (address : Int) : Stop :=
  (Cause.outOfBounds address (some m.size)).raised

/-- Reads the cell at an address. -/
def read (m : Memory) (address : Int) : Except Stop Int :=
  match m.get? address with
  | some value => .ok value
  | none => .error (m.outOfBounds address)

/-- Writes the cell at an address. -/
def write (m : Memory) (address value : Int) : Except Stop Memory :=
  match m.set? address value with
  | some memory => .ok memory
  | none => .error (m.outOfBounds address)

/-- The value of an operand. -/
def load (m : Memory) : Operand Int → Except Stop Int
  | .immediate value => .ok value
  | .position address => m.read address

/-- Stores a value through an operand, which has to be an address. -/
def store (m : Memory) (operand : Operand Int) (value : Int) : Except Stop Memory :=
  match operand with
  | .immediate v => .error (Cause.writeToImmediate v).raised
  | .position address => m.write address value

/-- The bound of a slice as a count of cells: a negative one is counted back from the end, and
none lies outside the memory. -/
def bound (m : Memory) (i : Int) : Nat :=
  if i < 0 then (i + m.size).toNat else min i.toNat m.size

/-- The cells from one bound up to another. -/
def slice (m : Memory) (start stop : Int) : List Int :=
  (m.cells.extract (m.bound start) (m.bound stop)).toList

/-- The number of cells of the longest instruction. -/
def windowSize : Int := 4

/-- The cells from an address on, at most `count` of them. -/
def window (m : Memory) (address : Int) (count : Int) : Except Stop (List Int) :=
  if m.inBounds address then .ok (m.slice address (address + count))
  else .error (m.outOfBounds address)

theorem length_set? {m memory : Memory} {address value : Int}
    (h : m.set? address value = some memory) : memory.size = m.size := by
  unfold set? at h
  split at h <;> simp_all [size]
  subst h
  simp

theorem get?_isSome_iff {m : Memory} {address : Int} :
    (m.get? address).isSome ↔ m.inBounds address := by
  unfold get? inBounds size
  split <;> simp <;> omega

end Memory

end Intcode
