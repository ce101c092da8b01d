import Intcode.Memory.Dump
import Intcode.Proofs.Memory

/-!
# A memory is a store of fixed size

A memory may be asked for anything in any order: for cells, for windows and dumps, for its size, and
to write. Whatever it is asked, it keeps its size, and what it refuses changes nothing. A cell holds
what was last written to it with success, or what it held at first.

All of this follows from what a single request can do: it leaves the memory alone, or it writes one
cell.

## Main definitions

* `Memory.Request`, `Memory.serve` — the requests to a memory and how they are served
* `Memory.after`, `Memory.history` — the memory after some requests, and how they were answered
* `Memory.lastStored` — the value that was last stored at an address

## Main results

* `Memory.serve_cases` — what a request does to a memory
* `Memory.get?_after` — the cells after any requests
* `Memory.fixed_size_store` — a memory is a store of fixed size
-/

namespace Intcode.Memory

/-- A request to a memory. -/
inductive Request where
  /-- Reads the cell at an address. -/
  | read (address : Int)
  /-- Reads the cell at an address that is given as an index. -/
  | item (address : Int)
  /-- Writes the cell at an address. -/
  | write (address value : Int)
  /-- Asks whether an address is one of a cell. -/
  | inBounds (address : Int)
  /-- Takes the value of an operand. -/
  | load (operand : Operand Int)
  /-- Stores a value through an operand. -/
  | store (operand : Operand Int) (value : Int)
  /-- Takes the cells from an address on. -/
  | window (address count : Int)
  /-- Asks for a dump. -/
  | dump (start : Int) (length : Option Int) (perRow : Int)
  /-- Asks for the number of cells. -/
  | size
  deriving DecidableEq, Repr

/-- What a memory answers. -/
inductive Answer where
  | done
  | number (n : Int)
  | truth (b : Bool)
  | cells (values : List Int)
  | text (text : String)
  deriving DecidableEq, Repr

/-- The memory after a request, and the answer to it. -/
structure Reply where
  memory : Memory
  answer : Except Stop Answer

/-- The reply to a request to change the memory. -/
def changed (m : Memory) : Except Stop Memory → Reply
  | .ok memory => ⟨memory, .ok .done⟩
  | .error stop => ⟨m, .error stop⟩

/-- Serves a request. -/
def serve (m : Memory) : Request → Reply
  | .read address | .item address => ⟨m, (m.read address).map .number⟩
  | .write address value => m.changed (m.write address value)
  | .inBounds address => ⟨m, .ok (.truth (m.inBounds address))⟩
  | .load operand => ⟨m, (m.load operand).map .number⟩
  | .store operand value => m.changed (m.store operand value)
  | .window address count => ⟨m, (m.window address count).map .cells⟩
  | .dump start length perRow => ⟨m, ((m.dump start length perRow).mapError .refused).map .text⟩
  | .size => ⟨m, .ok (.number m.size)⟩

/-- The memory after some requests in order. -/
def after (m : Memory) : List Request → Memory
  | [] => m
  | request :: requests => (m.serve request).memory.after requests

/-- Some requests in order, each with its answer. -/
def history (m : Memory) : List Request → List (Request × Except Stop Answer)
  | [] => []
  | request :: requests =>
    (request, (m.serve request).answer) :: (m.serve request).memory.history requests

/-- The value that a request stored at an address, if it did so with success. -/
def stored? (address : Int) : Request × Except Stop Answer → Option Int
  | (.write place value, .ok _) => if place = address then some value else none
  | (.store (.position place) value, .ok _) => if place = address then some value else none
  | _ => none

/-- The value that was last stored at an address. -/
def lastStored (address : Int) (history : List (Request × Except Stop Answer)) : Option Int :=
  history.reverse.findSome? (stored? address)

variable {m : Memory} {request : Request} {address value : Int}

/-! ### One request -/

/-- A write succeeds and is done, or fails and leaves the memory alone. -/
theorem changed_write (m : Memory) (place value : Int) :
    (m.write place value = .ok (m.changed (m.write place value)).memory ∧
      (m.changed (m.write place value)).answer = .ok .done) ∨
    ((m.changed (m.write place value)).memory = m ∧
      ∃ stop, (m.changed (m.write place value)).answer = .error stop) := by
  cases m.write place value with
  | ok memory => exact .inl ⟨rfl, rfl⟩
  | error stop => exact .inr ⟨rfl, stop, rfl⟩

/-- What a request does to a memory: nothing at all, or it writes a cell and says so. -/
theorem serve_cases (m : Memory) (request : Request) :
    ((m.serve request).memory = m ∧
      ∀ address, stored? address (request, (m.serve request).answer) = none) ∨
    ∃ place value, m.write place value = .ok (m.serve request).memory ∧
      (m.serve request).answer = .ok .done ∧
      ∀ address, stored? address (request, (m.serve request).answer) =
        if place = address then some value else none := by
  cases request with
  | write place value =>
    rcases m.changed_write place value with ⟨written, done⟩ | ⟨same, stop, failed⟩
    · refine .inr ⟨place, value, written, done, fun address => ?_⟩
      rw [serve, done, stored?]
    · refine .inl ⟨same, fun address => ?_⟩
      rw [serve, failed]
      rfl
  | store operand value =>
    cases operand with
    | immediate v => exact .inl ⟨rfl, fun _ => rfl⟩
    | position place =>
      -- What is stored through an address is written to it.
      rcases m.changed_write place value with ⟨written, done⟩ | ⟨same, stop, failed⟩
      · refine .inr ⟨place, value, written, done, fun address => ?_⟩
        rw [serve, store, done, stored?]
      · refine .inl ⟨same, fun address => ?_⟩
        rw [serve, store, failed]
        rfl
  | read | item | inBounds | load | window | dump | size => exact .inl ⟨rfl, fun _ => rfl⟩

/-- A request that is refused changes nothing. -/
theorem serve_of_error {stop : Stop} (h : (m.serve request).answer = .error stop) :
    (m.serve request).memory = m := by
  rcases m.serve_cases request with ⟨same, -⟩ | ⟨place, value, -, done, -⟩
  · exact same
  · rw [done] at h
    cases h

theorem size_serve (m : Memory) (request : Request) : (m.serve request).memory.size = m.size := by
  rcases m.serve_cases request with ⟨same, -⟩ | ⟨place, value, written, -, -⟩
  · rw [same]
  · exact size_of_write written

/-- After a request, a cell holds what the request stored there, or what it held before. -/
theorem get?_serve (m : Memory) (request : Request) (address : Int) :
    (m.serve request).memory.get? address =
      (stored? address (request, (m.serve request).answer)).or (m.get? address) := by
  rcases m.serve_cases request with ⟨same, stored⟩ | ⟨place, value, written, -, stored⟩
  · rw [stored, same, Option.none_or]
  · rw [stored]
    by_cases here : place = address
    · subst here
      rw [if_pos rfl, get?_of_write written, Option.some_or]
    · rw [if_neg here, get?_of_write_ne written (Ne.symm here), Option.none_or]

/-! ### Any number of requests -/

theorem size_after (m : Memory) (requests : List Request) : (m.after requests).size = m.size := by
  induction requests generalizing m with
  | nil => rfl
  | cons request requests ih => rw [after, ih, size_serve]

/-- After any requests, a cell holds what was last stored there, or what it held at first. -/
theorem get?_after (m : Memory) (requests : List Request) (address : Int) :
    (m.after requests).get? address =
      (lastStored address (m.history requests)).or (m.get? address) := by
  induction requests generalizing m with
  | nil => rfl
  | cons request requests ih =>
    -- The first request comes last in the reversed history, so it counts if no later one stored a
    -- value.
    rw [after, ih, get?_serve, history, lastStored, lastStored, List.reverse_cons,
      List.findSome?_append, List.findSome?_singleton, Option.or_assoc]

/-! ### The store -/

/-- The requests that read the cell at an address. -/
def readsAt (address : Int) : List Request :=
  [.read address, .item address, .load (.position address)]

/-- The requests that write a value to the cell at an address. -/
def writesAt (address value : Int) : List Request :=
  [.write address value, .store (.position address) value]

/-- All ways to read a cell answer alike. -/
theorem answer_of_mem_readsAt (h : request ∈ readsAt address) :
    (m.serve request).answer = (m.read address).map .number := by
  simp only [readsAt, List.mem_cons, List.not_mem_nil, or_false] at h
  rcases h with rfl | rfl | rfl <;> rfl

/-- All ways to write a cell do the same. -/
theorem serve_of_mem_writesAt (h : request ∈ writesAt address value) :
    m.serve request = m.changed (m.write address value) := by
  simp only [writesAt, List.mem_cons, List.not_mem_nil, or_false] at h
  rcases h with rfl | rfl <;> rfl

theorem read_of_get? (h : m.get? address = some value) : m.read address = .ok value := by
  rw [read, h]

theorem read_of_not_inBounds (h : ¬ m.inBounds address) :
    m.read address = .error (m.outOfBounds address) := by
  rw [← get?_isSome_iff, Option.not_isSome_iff_eq_none] at h
  rw [read, h]

theorem write_of_not_inBounds (h : ¬ m.inBounds address) (value : Int) :
    m.write address value = .error (m.outOfBounds address) := by
  rw [write, set?, if_neg h]

/-- A memory is a store of fixed size. After any requests, it has the size that it had at first, and
whatever it refuses then changes nothing. A cell is read with success exactly if its address is in
bounds, and its value is the one that was last stored there with success, or the first one. A write
succeeds exactly if its address is in bounds, and changes no other cell; and nothing is ever stored
through a value. -/
theorem fixed_size_store (m : Memory) (requests : List Request) :
    let now := m.after requests
    now.size = m.size ∧
    (∀ request stop, (now.serve request).answer = .error stop →
      (now.serve request).memory = now) ∧
    (∀ address, ∀ request ∈ readsAt address,
      (0 ≤ address ∧ address < m.size → (now.serve request).answer = .ok (.number
        ((lastStored address (m.history requests)).getD (m.cells.toList.getD address.toNat 0)))) ∧
      (¬ (0 ≤ address ∧ address < m.size) → ∃ stop, (now.serve request).answer = .error stop)) ∧
    (∀ address value, ∀ request ∈ writesAt address value,
      ((now.serve request).answer.isOk ↔ 0 ≤ address ∧ address < m.size) ∧
      ∀ other, other ≠ address → (now.serve request).memory.get? other = now.get? other) ∧
    ∀ literal value, ∃ stop,
      (now.serve (.store (.immediate literal) value)).answer = .error stop := by
  intro now
  have size : now.size = m.size := size_after m requests
  have inside (address : Int) : now.inBounds address ↔ 0 ≤ address ∧ address < m.size := by
    rw [inBounds_iff, size]
  refine ⟨size, fun request stop => serve_of_error, ?_, ?_, fun literal value => ⟨_, rfl⟩⟩
  · intro address request reading
    rw [answer_of_mem_readsAt reading, ← inside]
    constructor
    · intro bounded
      have cell : now.get? address = some ((lastStored address (m.history requests)).getD
          (m.cells.toList.getD address.toNat 0)) := by
        rw [get?_after, get?_eq m, if_pos ((inside address).mp bounded), Option.or_some]
      rw [read_of_get? cell]
      rfl
    · intro unbounded
      rw [read_of_not_inBounds unbounded]
      exact ⟨_, rfl⟩
  · intro address value request writing
    rw [serve_of_mem_writesAt writing, ← inside]
    by_cases bounded : now.inBounds address
    · have written := write_of_inBounds bounded value
      rw [written]
      exact ⟨iff_of_true rfl bounded, fun other apart => get?_of_write_ne written apart⟩
    · rw [write_of_not_inBounds bounded]
      exact ⟨iff_of_false Bool.false_ne_true bounded, fun other _ => rfl⟩

/-- A cell that is written twice, between writes that fail: one below the memory, one past its end,
and one through a value. -/
theorem fixed_size_store_twice :
    let m : Memory := ⟨#[10, 20, 30]⟩
    let requests : List Request := [.write 1 5, .write (-1) 7, .store (.position 1) 6,
      .store (.immediate 1) 8, .write 3 9]
    let now := m.after requests
    now.size = 3 ∧
      (∀ request ∈ readsAt 1, (now.serve request).answer = .ok (.number 6)) ∧
      (∀ request ∈ readsAt 2, (now.serve request).answer = .ok (.number 30)) ∧
      ∀ request ∈ readsAt (-1), ∃ stop, (now.serve request).answer = .error stop := by
  intro m requests now
  have written : lastStored 1 (m.history requests) = some 6 := by decide +kernel
  have unwritten : lastStored 2 (m.history requests) = none := by decide +kernel
  obtain ⟨size, -, reads, -⟩ := fixed_size_store m requests
  refine ⟨size, ?_, ?_, ?_⟩
  · intro request reading
    have answer := (reads 1 request reading).1 (by decide)
    rwa [written] at answer
  · intro request reading
    have answer := (reads 2 request reading).1 (by decide)
    rwa [unwritten] at answer
  · intro request reading
    exact (reads (-1) request reading).2 (by decide)

end Intcode.Memory
