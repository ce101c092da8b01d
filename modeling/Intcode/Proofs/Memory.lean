import Intcode.Memory

/-!
# Cells of a memory

The access to a memory in terms of the list of its cells, and what becomes of it when cells are
appended: whatever could be reached before is found and changed as before.

## Main definitions

* `Memory.place` — the place that a bound of a slice stands for
* `Memory.append` — the memory with more cells at its end

## Main results

* `Memory.get?_eq`, `Memory.slice_eq`, `Memory.window_eq` — cells by their places in the list
* `Memory.write_of_inBounds`, `Memory.get?_of_write` — a write in bounds succeeds and is found
* `Memory.get?_of_write_ne` — it leaves all other cells alone
* `Memory.load_eq_error`, `Memory.store_eq_error` — why an access through an operand fails
* `Memory.get?_append`, `Memory.set?_append` — appended cells change no access that succeeds
-/

namespace Intcode.Memory

variable {m memory : Memory} {address value : Int}

theorem inBounds_iff : m.inBounds address ↔ 0 ≤ address ∧ address < m.size := by
  simp [inBounds]

theorem get?_eq (m : Memory) (address : Int) :
    m.get? address =
      if 0 ≤ address ∧ address < m.size then some (m.cells.toList.getD address.toNat 0)
      else none := by
  unfold get? size
  by_cases h0 : 0 ≤ address
  · by_cases h1 : address < m.cells.size
    · have hlt : address.toNat < m.cells.size := by omega
      simp [h0, h1, hlt]
    · have hge : m.cells.size ≤ address.toNat := by omega
      simp [h1, hge]
  · simp [h0]

/-- There is a first cell from an address in bounds on. -/
theorem drop_eq_cons (h : m.inBounds address) :
    ∃ cell rest, m.cells.toList.drop address.toNat = cell :: rest := by
  obtain ⟨nonneg, below⟩ := inBounds_iff.mp h
  have place : address.toNat < m.cells.toList.length := by
    simp only [size, Array.length_toList] at below ⊢
    omega
  exact ⟨_, _, List.drop_eq_getElem_cons place⟩

theorem write_of_inBounds (h : m.inBounds address) (value : Int) :
    m.write address value = .ok ⟨m.cells.setIfInBounds address.toNat value⟩ := by
  rw [write, set?, if_pos h]

theorem read_eq_error {stop : Stop} (h : m.read address = .error stop) :
    stop = m.outOfBounds address := by
  unfold read at h
  cases found : m.get? address with
  | none =>
    rw [found] at h
    exact (Except.error.inj h).symm
  | some v =>
    rw [found] at h
    cases h

theorem load_eq_error {operand : Operand Int} {stop : Stop} (h : m.load operand = .error stop) :
    stop = m.outOfBounds operand.raw := by
  cases operand with
  | immediate v => cases h
  | position address => exact read_eq_error h

theorem write_eq_error {stop : Stop} (h : m.write address value = .error stop) :
    stop = m.outOfBounds address := by
  unfold write at h
  cases changed : m.set? address value with
  | none =>
    rw [changed] at h
    exact (Except.error.inj h).symm
  | some m' =>
    rw [changed] at h
    cases h

/-- A store fails because of where it goes, in one of two ways. -/
theorem store_eq_error {operand : Operand Int} {stop : Stop}
    (h : m.store operand value = .error stop) :
    stop = m.outOfBounds operand.raw ∨ stop = (Cause.writeToImmediate operand.raw).raised := by
  cases operand with
  | immediate v => exact .inr (Except.error.inj h).symm
  | position address => exact .inl (write_eq_error h)

theorem size_of_write (h : m.write address value = .ok memory) : memory.size = m.size := by
  unfold write at h
  cases changed : m.set? address value with
  | none =>
    rw [changed] at h
    cases h
  | some m' =>
    rw [changed] at h
    cases h
    exact length_set? changed

theorem size_of_store {operand : Operand Int} (h : m.store operand value = .ok memory) :
    memory.size = m.size := by
  cases operand with
  | immediate v => cases h
  | position address => exact size_of_write h

theorem get?_of_read (h : m.read address = .ok value) : m.get? address = some value := by
  unfold read at h
  cases found : m.get? address with
  | none =>
    rw [found] at h
    cases h
  | some v =>
    rw [found] at h
    cases h
    rfl

/-- A cell holds what was just written to it. -/
theorem get?_of_write (h : m.write address value = .ok memory) :
    memory.get? address = some value := by
  unfold write set? at h
  by_cases inside : m.inBounds address
  · rw [if_pos inside] at h
    cases h
    obtain ⟨nonneg, below⟩ := inBounds_iff.mp inside
    have place : address.toNat < m.cells.size := by
      simp only [size] at below
      omega
    simp [get?, nonneg, place]
  · rw [if_neg inside] at h
    cases h

/-- A write leaves all other cells alone. -/
theorem get?_of_write_ne (h : m.write address value = .ok memory) {other : Int}
    (apart : other ≠ address) : memory.get? other = m.get? other := by
  unfold write set? at h
  by_cases inside : m.inBounds address
  · rw [if_pos inside] at h
    cases h
    unfold get?
    by_cases nonneg : 0 ≤ other
    · have places : address.toNat ≠ other.toNat := by
        have := (inBounds_iff.mp inside).1
        omega
      rw [if_pos nonneg, if_pos nonneg, Array.getElem?_setIfInBounds_ne places]
    · rw [if_neg nonneg, if_neg nonneg]
  · rw [if_neg inside] at h
    cases h

theorem mem_of_mem_slice {start stop cell : Int} (h : cell ∈ m.slice start stop) :
    cell ∈ m.cells := by
  rw [slice, Array.toList_extract] at h
  exact Array.mem_toList_iff.mp (List.mem_of_mem_drop (List.mem_of_mem_take h))

/-- The place that a bound of a slice stands for: one below zero is counted back from the end. -/
def place (m : Memory) (i : Int) : Int := if i < 0 then i + m.size else i

theorem place_of_nonneg {i : Int} (h : 0 ≤ i) : m.place i = i := if_neg (Int.not_lt.mpr h)

theorem place_of_neg {i : Int} (h : i < 0) : m.place i = i + m.size := if_pos h

theorem bound_eq (m : Memory) (i : Int) : m.bound i = min (m.place i).toNat m.size := by
  unfold bound place
  split <;> omega

/-- The cells of a slice, by the places that its bounds stand for. -/
theorem slice_eq_drop_take (m : Memory) (start stop : Int) :
    m.slice start stop = (m.cells.toList.drop (m.place start).toNat).take
      ((m.place stop).toNat - (m.place start).toNat) := by
  rw [slice, bound_eq, bound_eq, Array.toList_extract, List.extract_eq_take_drop]
  -- Only a bound past the end is moved, and there is nothing after the end.
  by_cases hs : (m.place start).toNat ≤ m.size
  · rw [Nat.min_eq_left hs, List.take_eq_take_iff, List.length_drop, Array.length_toList]
    simp only [size] at hs ⊢
    omega
  · have past : m.cells.toList.length ≤ min (m.place start).toNat m.size := by
      simp only [size, Array.length_toList] at hs ⊢
      omega
    rw [List.drop_of_length_le past,
      List.drop_of_length_le (Nat.le_trans past (Nat.min_le_left ..))]
    simp

/-- The cells between two bounds that are not counted from the end. -/
theorem slice_eq {start stop : Int} (h0 : 0 ≤ start) (h1 : 0 ≤ stop) :
    m.slice start stop =
      (m.cells.toList.drop start.toNat).take (stop.toNat - start.toNat) := by
  rw [slice_eq_drop_take, place_of_nonneg h0, place_of_nonneg h1]

/-- The window at an address in bounds is a stretch of at most four cells. -/
theorem window_eq (h : m.inBounds address) :
    m.window address windowSize = .ok ((m.cells.toList.drop address.toNat).take 4) := by
  have h0 := (inBounds_iff.mp h).1
  have four : (address + windowSize).toNat - address.toNat = 4 := by
    simp only [windowSize]
    omega
  unfold window
  rw [if_pos h, slice_eq h0 (by simp only [windowSize]; omega), four]

/-! ### Appended cells -/

/-- The memory with more cells at its end. -/
def append (m : Memory) (more : Array Int) : Memory := ⟨m.cells ++ more⟩

@[simp] theorem cells_append (m : Memory) (more : Array Int) :
    (m.append more).cells = m.cells ++ more := rfl

@[simp] theorem size_append (m : Memory) (more : Array Int) :
    (m.append more).size = m.size + more.size := by
  simp [size]

theorem inBounds_append (h : m.inBounds address) (more : Array Int) :
    (m.append more).inBounds address := by
  rw [inBounds_iff] at h ⊢
  rw [size_append]
  omega

theorem get?_append (h : m.get? address = some value) (more : Array Int) :
    (m.append more).get? address = some value := by
  unfold get? at h ⊢
  split at h
  · rename_i h0
    rw [if_pos h0, cells_append]
    obtain ⟨hlt, rfl⟩ := Array.getElem?_eq_some_iff.mp h
    rw [Array.getElem?_append_left hlt, h]
  · cases h

theorem set?_append (h : m.set? address value = some memory) (more : Array Int) :
    (m.append more).set? address value = some (memory.append more) := by
  unfold set? at h ⊢
  split at h
  · rename_i hb
    cases h
    have hlt : address.toNat < m.cells.size := by
      have := inBounds_iff.mp hb
      simp only [size] at this
      omega
    rw [if_pos (inBounds_append hb more)]
    simp [append, Array.setIfInBounds_append_left, hlt]
  · cases h

theorem read_append (h : m.read address = .ok value) (more : Array Int) :
    (m.append more).read address = .ok value := by
  unfold read at h ⊢
  cases found : m.get? address with
  | none =>
    rw [found] at h
    cases h
  | some v =>
    rw [found] at h
    rw [get?_append found]
    exact h

theorem write_append (h : m.write address value = .ok memory) (more : Array Int) :
    (m.append more).write address value = .ok (memory.append more) := by
  unfold write at h ⊢
  cases changed : m.set? address value with
  | none =>
    rw [changed] at h
    cases h
  | some m' =>
    rw [changed] at h
    cases h
    rw [set?_append changed]

theorem load_append {operand : Operand Int} (h : m.load operand = .ok value) (more : Array Int) :
    (m.append more).load operand = .ok value := by
  cases operand with
  | immediate v => exact h
  | position address => exact read_append h more

theorem store_append {operand : Operand Int} (h : m.store operand value = .ok memory)
    (more : Array Int) : (m.append more).store operand value = .ok (memory.append more) := by
  cases operand with
  | immediate v => cases h
  | position address => exact write_append h more

/-- The cells between two bounds that lie in the memory are not affected by more cells. -/
theorem slice_append {start : Int} {count : Nat} (h0 : 0 ≤ start)
    (h : count ≤ (m.cells.toList.drop start.toNat).length) (more : Array Int) :
    (m.append more).slice start (start + count) = m.slice start (start + count) := by
  have stop : 0 ≤ start + count := by omega
  have width : (start + count).toNat - start.toNat = count := by omega
  rw [slice_eq h0 stop, slice_eq h0 stop, width, cells_append, Array.toList_append,
    List.drop_append, List.take_append_of_le_length h]

end Intcode.Memory
