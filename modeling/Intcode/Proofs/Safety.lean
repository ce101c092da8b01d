import Intcode.Port.Bounded
import Intcode.Port.Console
import Intcode.Port.Queue
import Intcode.Proofs.Lifecycle
import Intcode.Proofs.Transparency
import Intcode.Proofs.Wording

/-!
# Steps that are never refused

A step is refused when a number with too many digits would have to be written, or when the port
refuses a request. As long as the cells, the size of the memory and the budget can be written, only
the port is left: every cause of a fault can be worded, every instruction has its line in a trace,
and whatever a step looks up is there.

Scripts refuse nothing, and neither do consoles whose streams can be read and written. A queue
refuses to wait for a time of too many nanoseconds, and that is the one way in which a step of a
machine on a queue is refused.

## Main definitions

* `Port.OnlyFails` — ports whose only troubles are failures
* `Machine.Short` — a machine that names no number of too many digits
* `Machine.Answers` — the next step is not refused

## Main results

* `Machine.isFault_of_fetch`, `Machine.isFault_of_perform` — what goes wrong in a step is a fault
* `Machine.answers_of_short` — a step is answered unless the port refuses
* `Port.Queue.request_refused_iff` — when a queue refuses
* `Machine.step_answered` — the steps from the start of a program
-/

namespace Intcode

/-! ### Ports -/

namespace Port

/-- Ports whose only troubles are failures, as long as the values handed over can be written. -/
structure OnlyFails (σ : Type) [Port σ] : Prop where
  request : ∀ (p : σ) (why : Refusal), (Port.request p).answer ≠ .error (.refused why)
  deliver : ∀ (p : σ) {value : Int} (why : Refusal), Numeral.Writable value →
    (Port.deliver value p).answer ≠ .error (.refused why)

theorem Scripted.onlyFails : OnlyFails Scripted where
  request p why refused := by
    change p.request.answer = _ at refused
    unfold Scripted.request at refused
    split at refused <;> cases refused
  deliver p value why _ refused := by cases refused

theorem Console.onlyFails : OnlyFails Console where
  request p why refused := by
    change p.request.answer = _ at refused
    unfold Console.request at refused
    dsimp only at refused
    split at refused
    · cases refused
    · split at refused <;> cases refused
  deliver p value why short refused := by
    have written := Numeral.write?_of_writable short
    change (Console.deliver value p).answer = _ at refused
    unfold Console.deliver at refused
    rw [written] at refused
    cases refused

theorem Bounded.onlyFails : OnlyFails Bounded where
  request p why refused := by
    change p.request.answer = _ at refused
    unfold Bounded.request at refused
    split at refused <;> cases refused
  deliver p value why _ refused := by
    change (Bounded.deliver value p).answer = _ at refused
    unfold Bounded.deliver at refused
    split at refused <;> cases refused

/-- A queue with a timeout that is not negative refuses a request only for the length of the
timeout: if it is beyond counting, or if it is too long and would have to be waited for. -/
theorem Queue.request_refused_iff {p : Queue} {t : Timeout} (timeout : p.timeout = some t)
    (nonneg : t.isNegative = false) :
    (∃ why, (Port.request p).answer = .error (.refused why)) ↔
      t.isUncountable ∨ t.isTooLong ∧ p.inbox = [] := by
  change (∃ why, p.request.answer = _) ↔ _
  unfold Queue.request
  rw [timeout]
  cases uncountable : t.isUncountable with
  | true => simp [Queue.take, nonneg, uncountable, Reply.refuse]
  | false =>
    cases inbox : p.inbox with
    | cons value rest => simp [Queue.take, nonneg, uncountable, Reply.serve]
    | nil =>
      cases long : t.isTooLong <;> simp [Queue.take, nonneg, uncountable, long, Reply.refuse]

theorem Queue.timeout_request (p : Queue) : p.request.port.timeout = p.timeout := by
  unfold Queue.request
  split <;> rfl

/-- A trouble that is no refusal stops the machine with a fault. -/
theorem Trouble.isFault_stop {trouble : Trouble} (fails : ∀ why, trouble ≠ .refused why) :
    trouble.stop.IsFault := by
  cases trouble with
  | failure f => exact Cause.isFault_raised (by simp [Cause.numbers])
  | refused why => exact absurd rfl (fails why)

end Port

theorem Memory.mem_of_read {m : Memory} {address value : Int} (h : m.read address = .ok value) :
    value ∈ m.cells := by
  have cell := get?_of_read h
  unfold get? at cell
  split at cell
  · exact Array.mem_of_getElem? cell
  · cases cell

namespace Machine

variable {σ : Type} {m : Machine σ} {command : Command Int} {stop : Stop}

/-- A machine whose cells, size and budget can be written. -/
structure Short (m : Machine σ) : Prop where
  cells : ∀ cell ∈ m.memory.cells, Numeral.Writable cell
  size : m.memory.size < 10 ^ Numeral.digitLimit
  budget : ∀ limit, m.maxSteps = some limit → Numeral.Writable limit

theorem Short.writable_size (short : m.Short) : Numeral.Writable m.memory.size := by
  rw [Numeral.writable_iff, Int.natAbs_natCast]
  exact short.size

/-- What keeps an instruction from being made out is a fault. -/
theorem isFault_of_fetch (short : m.Short) (h : m.fetch = .error stop) : stop.IsFault := by
  cases budget : m.exhausted? with
  | some limit =>
    rw [fetch, budget] at h
    rw [← Except.error.inj h]
    have given : m.maxSteps = some limit := (Option.filter_eq_some_iff.mp budget).1
    exact Cause.isFault_raised (by simpa [Cause.numbers] using short.budget limit given)
  | none =>
    by_cases inside : m.memory.inBounds m.pc
    · rw [fetch_of_inBounds budget inside] at h
      refine Command.isFault_of_ofWindow (fun word found => short.cells word ?_) h
      exact Array.mem_toList_iff.mp (List.mem_of_mem_drop (List.mem_of_mem_head? found))
    · rw [fetch, budget] at h
      dsimp only at h
      rw [if_neg inside] at h
      rw [← Except.error.inj h]
      exact Cause.isFault_raised (by simpa [Cause.numbers] using short.writable_size)

/-- Every instruction that is made out can be written to the trace. -/
theorem traceEntry_of_short (short : m.Short) (fetch : m.fetch = .ok command) :
    ∃ entry, m.traceEntry command = .ok entry := by
  have line := (traceLine?_isSome_iff fetch short.size).mpr fun cell found =>
    short.cells cell (Memory.mem_of_mem_slice found)
  obtain ⟨line, written⟩ := Option.isSome_iff_exists.mp line
  unfold traceEntry
  rw [written]
  cases m.tracing with
  | true => exact ⟨_, rfl⟩
  | false => exact ⟨_, rfl⟩

variable [Port σ]

/-- What keeps an instruction from completing is a fault, unless the port refuses. -/
theorem isFault_of_perform (short : m.Short) (fetch : m.fetch = .ok command)
    (request : ∀ dest, command = .input dest → m.memory.inBounds dest →
      ∀ why, (Port.request m.port).answer ≠ .error (.refused why))
    (deliver : ∀ {value : Int} (why : Refusal), Numeral.Writable value →
      (Port.deliver value m.port).answer ≠ .error (.refused why))
    (h : (m.perform command).change = .error stop) : stop.IsFault := by
  -- The operands that a fault may name are cells of the instruction.
  have raw : ∀ o ∈ command.operands, Numeral.Writable o.raw := by
    intro o operand
    refine short.cells _ (Memory.mem_of_mem_slice (mem_slice_of_fetched fetch _ ?_))
    exact List.mem_map_of_mem operand
  have hindrance := hindered h
  cases hindrance with
  | @outOfBounds _ o operand =>
    exact Cause.isFault_raised (by simpa [Cause.numbers] using ⟨raw o operand, short.writable_size⟩)
  | @writeToImmediate _ o operand =>
    exact Cause.isFault_raised (by simpa [Cause.numbers] using raw o operand)
  | @unserved dest trouble inside asked =>
    refine Port.Trouble.isFault_stop fun why same => ?_
    exact request dest rfl inside why (by rw [asked, same])
  | @undelivered source value trouble loaded offered =>
    refine Port.Trouble.isFault_stop fun why same => ?_
    exact deliver why (short.cells value (Memory.mem_of_read loaded)) (by rw [offered, same])

/-- The next step is not refused: it goes on, or it ends with an outcome. -/
def Answers (m : Machine σ) : Prop := ∃ answer, m.step.answer = .ok answer

/-- A step is answered unless the port refuses. -/
theorem answers_of_short (short : m.Short)
    (request : m.asks → ∀ why, (Port.request m.port).answer ≠ .error (.refused why))
    (deliver : ∀ {value : Int} (why : Refusal), Numeral.Writable value →
      (Port.deliver value m.port).answer ≠ .error (.refused why)) : m.Answers := by
  by_cases running : m.state = .running
  · have way := m.stepped running
    unfold Answers
    generalize m.step = r at way
    cases way with
    | unfetched fetch =>
      obtain ⟨cause, rfl⟩ := isFault_of_fetch short fetch
      exact ⟨_, rfl⟩
    | untraced fetch trace =>
      -- The line of the trace names the cells of the instruction and its address.
      obtain ⟨entry, written⟩ := traceEntry_of_short short fetch
      rw [written] at trace
      cases trace
    | @stopped command entry stop fetch trace change =>
      -- The port is asked only for an instruction that has come this far.
      have asked : ∀ dest, command = .input dest → m.memory.inBounds dest →
          ∀ why, (Port.request m.port).answer ≠ .error (.refused why) := by
        rintro dest rfl inside
        exact request (asks_iff.mpr ⟨running, dest, entry, fetch, trace, inside⟩)
      obtain ⟨cause, rfl⟩ := isFault_of_perform short fetch asked deliver change
      exact ⟨_, rfl⟩
    | advanced => exact ⟨_, rfl⟩
    | halted => exact ⟨_, rfl⟩
  · exact ⟨m.outcome, by rw [step_of_stopped running]⟩

/-- A step that asks a port which refuses is refused. -/
theorem not_answers_of_refused (asks : m.asks) {why : Refusal}
    (refused : (Port.request m.port).answer = .error (.refused why)) : ¬ m.Answers := by
  obtain ⟨running, dest, entry, fetch, trace, inside⟩ := asks_iff.mp asks
  rintro ⟨answer, answered⟩
  rw [step_of_fetched running fetch trace, perform_of_unserved inside refused,
    conclude_of_error rfl] at answered
  cases answered

/-! ### Steps from the start of a program -/

/-- Whatever a step looks up is there: the instruction of a word with enough cells after it, and
every cell in bounds, among them the first. -/
structure Furnished (m : Machine σ) : Prop where
  command : ∀ (w : Word) (cells : List Int), w.opcode.arity ≤ cells.length →
    ∃ c, Command.ofWord? w cells = some c ∧ c.opcode = w.opcode ∧
      c.operands.map Operand.raw = cells.take w.opcode.arity
  read : ∀ address, m.memory.inBounds address → ∃ value, m.memory.read address = .ok value
  write : ∀ address value, m.memory.inBounds address →
    ∃ memory, m.memory.write address value = .ok memory
  first : ∃ value, m.memory.get? 0 = some value

omit [Port σ] in
theorem furnished (m : Machine σ) (full : 0 < m.memory.size) : m.Furnished where
  command w cells enough := by
    obtain ⟨c, made⟩ := Option.isSome_iff_exists.mp (Command.ofWord?_isSome_iff.mpr enough)
    exact ⟨c, made, Command.opcode_of_ofWord? made, Command.raws_of_ofWord? made⟩
  read address inside := by
    obtain ⟨value, cell⟩ := Option.isSome_iff_exists.mp (Memory.get?_isSome_iff.mpr inside)
    exact ⟨value, by rw [Memory.read, cell]⟩
  write address value inside := ⟨_, Memory.write_of_inBounds inside value⟩
  first := by
    refine Option.isSome_iff_exists.mp (Memory.get?_isSome_iff.mpr (Memory.inBounds_iff.mpr ?_))
    omega

section

variable {program : Array Int} {port : σ} {maxSteps : Option Int} {tracing : Bool}

theorem size_later (created : create program port maxSteps tracing = .ok m) (k : Nat) :
    (m.later k).memory.size = program.size := by
  obtain ⟨full, -, rfl⟩ := create_eq_ok_iff.mp created
  have start : Sound program 0 (start program port maxSteps tracing) :=
    sound_of_running rfl rfl (running_start ..)
  have kept : ∀ x : Machine σ, (∃ n, Sound program n x) → ∃ n, Sound program n x.step.machine := by
    rintro x ⟨n, sound⟩
    exact ⟨_, sound_step sound⟩
  obtain ⟨n, sound⟩ := later_invariant kept ⟨0, start⟩ k
  exact sound.size

theorem short_later (small : program.size < 10 ^ Numeral.digitLimit)
    (budget : ∀ limit, maxSteps = some limit → Numeral.Writable limit)
    (created : create program port maxSteps tracing = .ok m) (k : Nat)
    (cells : ∀ cell ∈ (m.later k).memory.cells, Numeral.Writable cell) : (m.later k).Short where
  cells := cells
  size := by
    rw [size_later created]
    exact small
  budget limit given := by
    rw [maxSteps_later] at given
    obtain ⟨-, -, rfl⟩ := create_eq_ok_iff.mp created
    exact budget limit given

end

/-- A machine leaves the timeout of its queue alone. -/
theorem timeout_later (m : Machine Port.Queue) (k : Nat) :
    (m.later k).port.timeout = m.port.timeout := by
  refine later_invariant (P := fun x : Machine Port.Queue => x.port.timeout = m.port.timeout) ?_
    rfl k
  intro x same
  refine port_step (P := fun p : Port.Queue => p.timeout = m.port.timeout) ?_ ?_ same
  · intro p before
    exact p.timeout_request.trans before
  · intro value p before
    exact before

/-- On a memory of a size that can be written, with a budget that can be written, a step from a
state in which every cell can be written is answered: it goes on, or it ends with an outcome. This
is so on every port whose only troubles are failures, such as a script, or a console on a text that
can be read.

On a queue whose timeout is not negative it is so unless the step asks for a value and the timeout
is beyond counting, or there is nothing to take and the timeout is too long to wait for. -/
theorem step_answered (program : Array Int) (maxSteps : Option Int) (tracing : Bool)
    (small : program.size < 10 ^ Numeral.digitLimit)
    (budget : ∀ limit, maxSteps = some limit → Numeral.Writable limit) :
    (∀ (σ : Type) [Port σ], Port.OnlyFails σ → ∀ (port : σ) (m : Machine σ) (k : Nat),
      create program port maxSteps tracing = .ok m →
      (∀ cell ∈ (m.later k).memory.cells, Numeral.Writable cell) →
      (m.later k).Answers ∧ (m.later k).Furnished) ∧
    Port.OnlyFails Port.Scripted ∧ Port.OnlyFails Port.Console ∧ Port.OnlyFails Port.Bounded ∧
    ∀ (port : Port.Queue) (t : Port.Timeout) (m : Machine Port.Queue) (k : Nat),
      port.timeout = some t → t.isNegative = false →
      create program port maxSteps tracing = .ok m →
      (∀ cell ∈ (m.later k).memory.cells, Numeral.Writable cell) →
      ((m.later k).Answers ↔
        ¬ ((m.later k).asks ∧ (t.isUncountable ∨ t.isTooLong ∧ (m.later k).port.inbox = []))) ∧
      (m.later k).Furnished := by
  have inhabited {σ : Type} [Port σ] {port : σ} {m : Machine σ}
      (created : create program port maxSteps tracing = .ok m) (k : Nat) :
      (m.later k).Furnished := by
    refine furnished _ ?_
    rw [size_later created]
    exact Array.size_pos_iff.mpr (create_eq_ok_iff.mp created).1
  refine ⟨?_, Port.Scripted.onlyFails, Port.Console.onlyFails, Port.Bounded.onlyFails, ?_⟩
  · intro σ _ fails port m k created cells
    refine ⟨answers_of_short (short_later small budget created k cells) ?_ ?_, inhabited created k⟩
    · exact fun _ => fails.request _
    · exact fun why short => fails.deliver _ why short
  · intro port t m k timeout nonneg created cells
    have waits : (m.later k).port.timeout = some t := by
      rw [timeout_later]
      obtain ⟨-, -, rfl⟩ := create_eq_ok_iff.mp created
      exact timeout
    refine ⟨⟨?_, ?_⟩, inhabited created k⟩
    -- The queue refuses exactly in the two cases, and it is asked only if the step asks.
    · rintro answered ⟨asks, long⟩
      obtain ⟨why, refused⟩ := (Port.Queue.request_refused_iff waits nonneg).mpr long
      exact not_answers_of_refused asks refused answered
    · intro served
      refine answers_of_short (short_later small budget created k cells) ?_ ?_
      · intro asks why refused
        exact served ⟨asks, (Port.Queue.request_refused_iff waits nonneg).mp ⟨why, refused⟩⟩
      · intro value why _ refused
        cases refused

/-- An input instruction on a queue to which nothing was sent: a step is refused with a timeout of
`10000000000.0` seconds, three centuries, and answered without any time to wait. It is answered as
well on a console with a line that is no number. -/
theorem step_answered_waiting :
    let program : Array Int := #[3, 0, 99]
    let long : Machine Port.Queue :=
      start program ⟨some (.real 0x4202A05F20000000), [], []⟩ none true
    let brief : Machine Port.Queue := start program ⟨some (.whole 0), [], []⟩ none true
    let console : Machine Port.Console := start program (.ofText "seven\n" "") none true
    ¬ long.Answers ∧ brief.Answers ∧ console.Answers := by
  intro program long brief console
  have made {σ : Type} (port : σ) : create program port none true =
      .ok (start program port none true) :=
    create_eq_ok_iff.mpr ⟨by decide, nofun, rfl⟩
  have cells : ∀ cell ∈ program, Numeral.Writable cell := by decide +kernel
  obtain ⟨onPort, -, onConsole, -, onQueue⟩ :=
    step_answered program none true (by decide +kernel) (by simp)
  refine ⟨?_, ?_, ?_⟩
  · have served := (onQueue _ _ long 0 rfl (by decide +kernel) (made _) cells).1
    exact mt served.mp (by decide +kernel)
  · have served := (onQueue _ _ brief 0 rfl (by decide +kernel) (made _) cells).1
    exact served.mpr (by decide +kernel)
  · exact (onPort Port.Console onConsole _ console 0 (made _) cells).1

end Machine

end Intcode
