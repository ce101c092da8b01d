import Intcode.Proofs.Conservation
import Intcode.Proofs.Lifecycle
import Intcode.Proofs.Trace

/-!
# The flow of control

An instruction that is no taken jump goes on to the cell after it, or stays in place if it halts. It
was made out of cells that are all there, so the cell after it is at most the end of the memory: a
program that does not jump leaves the memory at its end and nowhere else, whatever it writes over
its own instructions. Each such instruction brings the program counter closer to the end, which
bounds how many can follow one another.

## Main definitions

* `Machine.Execution` — an instruction that was completed, with the machine before it
* `Machine.Execution.goal?` — where an instruction jumps to, if it is a jump that is taken
* `Machine.stretch` — how many instructions there are before the first jump
* `Machine.Strayed` — a machine that stopped because of its program counter
* `Machine.executions` — the instructions that were completed in some turns
* `Machine.Moved` — the ways in which a step moves the program counter
* `Machine.Accounted` — the program counter is in the memory or at its end, or was jumped to

## Main results

* `Machine.moved` — a step moves the program counter in one of the ways
* `Machine.accounted_play` — the program counter is accounted for after any turns
* `Machine.outside_of_strayed` — only a program counter outside the memory is reported as such
* `Machine.stretch_executions_le` — how many instructions can follow one another without a jump
* `Machine.straight_line_flow` — these three from the start of a program on
-/

namespace Intcode.Machine

variable {σ α : Type} {m after : Machine σ} {command : Command Int}

/-! ### Completed instructions -/

/-- An instruction that was completed: the machine before it, and the instruction. -/
structure Execution (σ : Type) where
  before : Machine σ
  command : Command Int

/-- Where an instruction jumps to, if it is a jump that is taken: the value of its target. -/
def Execution.goal? (e : Execution σ) : Option Int :=
  match e.command with
  | .jump expected cond target => do
    let x ← (e.before.memory.load cond).toOption
    if (x != 0) == expected then (e.before.memory.load target).toOption else none
  | _ => none

theorem Execution.goal?_of_taken {expected : Bool} {cond target : Operand Int} {x goal : Int}
    (tested : m.memory.load cond = .ok x) (taken : ((x != 0) == expected) = true)
    (loaded : m.memory.load target = .ok goal) :
    Execution.goal? ⟨m, .jump expected cond target⟩ = some goal := by
  simp only [goal?, tested, loaded, Except.toOption, Option.bind_eq_bind, Option.bind_some]
  exact if_pos taken

theorem Execution.goal?_of_missed {expected : Bool} {cond target : Operand Int} {x : Int}
    (tested : m.memory.load cond = .ok x) (missed : ¬ ((x != 0) == expected) = true) :
    Execution.goal? ⟨m, .jump expected cond target⟩ = none := by
  simp only [goal?, tested, Except.toOption, Option.bind_eq_bind, Option.bind_some]
  exact if_neg missed

/-- The number of instructions other than `HALT` before the first jump that is taken. -/
def stretch (es : List (Execution σ)) : Nat :=
  (es.takeWhile (·.goal?.isNone)).countP (·.command ≠ .halt)

theorem stretch_cons_of_some {e : Execution σ} {goal : Int} (taken : e.goal? = some goal)
    (es : List (Execution σ)) : stretch (e :: es) = 0 := by
  simp [stretch, taken]

theorem stretch_cons_of_none {e : Execution σ} (straight : e.goal? = none)
    (es : List (Execution σ)) :
    stretch (e :: es) = stretch es + if e.command = .halt then 0 else 1 := by
  simp [stretch, straight, List.countP_cons]

/-! ### Making out an instruction -/

/-- An instruction that was made out is all there, from the program counter to the cell before the
next. -/
theorem within_of_fetch (h : m.fetch = .ok command) :
    0 ≤ m.pc ∧ m.pc + command.length ≤ m.memory.size := by
  obtain ⟨-, inside, made⟩ := fetch_eq_ok h
  obtain ⟨nonneg, below⟩ := Memory.inBounds_iff.mp inside
  have fits := Command.length_le_of_ofWindow made
  rw [List.length_drop, Array.length_toList] at fits
  unfold Memory.size at below ⊢
  omega

theorem outside_of_fetch {size : Int} (h : m.fetch = .error (.fault (.counterOutOfBounds size))) :
    ¬ m.memory.inBounds m.pc := by
  intro inside
  cases budget : m.exhausted? with
  | some limit =>
    rw [fetch, budget] at h
    cases Cause.eq_of_raised (Except.error.inj h)
  | none =>
    rw [fetch_of_inBounds budget inside] at h
    cases Command.family?_of_ofWindow h

/-- The machine stopped because the program counter was `pc` and no address of the memory. -/
def Strayed (m : Machine σ) (pc : Int) : Prop :=
  ∃ outcome fault size, m.outcome = some outcome ∧ outcome.ending = .faulted fault pc ∧
    fault.cause = .counterOutOfBounds size

theorem Running.not_strayed (running : m.Running) (pc : Int) : ¬ m.Strayed pc := by
  rintro ⟨outcome, fault, size, stopped, -⟩
  rw [running.outcome] at stopped
  cases stopped

variable [Port σ]

/-! ### Single steps -/

/-- A step leaves the program counter and the memory alone, or completes an instruction that says
what becomes of them. -/
theorem idle_or_executes (m : Machine σ) :
    (m.executed? = none ∧ m.step.machine.pc = m.pc ∧ m.step.machine.memory = m.memory) ∨
      ∃ command change, m.executed? = some command ∧ m.fetch = .ok command ∧
        (m.perform command).change = .ok change ∧ m.step.machine.memory = change.memory ∧
        m.step.machine.pc = change.next.getD m.pc := by
  have way : (m.step.machine.steps ≠ m.steps + 1 ∧ m.step.machine.pc = m.pc ∧
        m.step.machine.memory = m.memory) ∨
      ∃ command change, m.step.machine.steps = m.steps + 1 ∧ m.fetch = .ok command ∧
        (m.perform command).change = .ok change ∧ m.step.machine.memory = change.memory ∧
        m.step.machine.pc = change.next.getD m.pc := by
    by_cases running : m.state = .running
    · have way := m.stepped running
      generalize m.step = r at way ⊢
      cases way with
      | @unfetched stop fetch => cases stop <;> exact .inl ⟨by simp [abort, fail], rfl, rfl⟩
      | untraced fetch trace => exact .inl ⟨by simp, rfl, rfl⟩
      | @stopped command entry stop fetch trace change =>
        cases entry <;> cases stop <;>
          exact .inl ⟨by simp [abort, fail, recorded, record], rfl, rfl⟩
      | @advanced command entry change fetch trace effect goes
      | @halted command entry change value fetch trace effect ends first =>
        refine .inr ⟨command, change, ?_, fetch, effect, ?_, ?_⟩ <;> cases entry <;> rfl
    · rw [step_of_stopped running]
      exact .inl ⟨by simp, rfl, rfl⟩
  rcases way with ⟨steps, kept⟩ | ⟨command, change, steps, fetch, rest⟩
  · exact .inl ⟨if_neg steps, kept⟩
  · exact .inr ⟨command, change, executed?_of_steps fetch steps, fetch, rest⟩

/-- The ways in which a step moves the program counter. -/
inductive Moved (m after : Machine σ) : Prop
  | stayed (executed : m.executed? = none) (pc : after.pc = m.pc)
  | jumped {command : Command Int} (executed : m.executed? = some command)
      (goal : Execution.goal? ⟨m, command⟩ = some after.pc)
  | passed {command : Command Int} (executed : m.executed? = some command)
      (straight : Execution.goal? ⟨m, command⟩ = none) (pc : after.pc = m.pc + command.length)
      (nonneg : 0 ≤ m.pc) (within : after.pc ≤ m.memory.size)
  | halted (executed : m.executed? = some .halt) (pc : after.pc = m.pc) (nonneg : 0 ≤ m.pc)
      (within : after.pc ≤ m.memory.size)

/-- A step moves the program counter in one of the ways, and keeps the size of the memory. -/
theorem moved (m : Machine σ) :
    Moved m m.step.machine ∧ m.step.machine.memory.size = m.memory.size := by
  rcases m.idle_or_executes with ⟨idle, pc, memory⟩ |
    ⟨command, change, executed, fetch, effect, memory, pc⟩
  · exact ⟨.stayed idle pc, by rw [memory]⟩
  · refine ⟨?_, by rw [memory, size_of_perform effect]⟩
    obtain ⟨nonneg, within⟩ := within_of_fetch fetch
    have way := performed effect
    generalize m.perform command = e at way effect
    cases way with
    | computed | received | delivered =>
      cases effect
      exact .passed executed rfl pc nonneg (pc ▸ within)
    | jumped tested taken loaded =>
      cases effect
      refine .jumped executed ?_
      rw [pc]
      exact Execution.goal?_of_taken tested taken loaded
    | passed tested missed =>
      cases effect
      exact .passed executed (Execution.goal?_of_missed tested missed) pc nonneg (pc ▸ within)
    | halted =>
      cases effect
      exact .halted executed pc nonneg (by change _ = m.pc at pc; omega)

/-! ### Turns -/

/-- The instruction that a turn completes, if it is a step that completes one. -/
def executedIn (m : Machine σ) : Turn α → List (Execution σ)
  | .step => m.executed?.toList.map (Execution.mk m)
  | .act _ => []

/-- The instructions that were completed in some turns, in order. -/
def executions (act : α → σ → σ) (m : Machine σ) (turns : List (Turn α)) : List (Execution σ) :=
  m.gather act executedIn turns

theorem executions_step (act : α → σ → σ) (m : Machine σ) (turns : List (Turn α)) :
    m.executions act (.step :: turns) =
      m.executed?.toList.map (Execution.mk m) ++ m.step.machine.executions act turns := rfl

/-- The program counter is in the memory or at its end, or the last of some instructions jumped to
it. -/
def Accounted (past : List (Execution σ)) (m : Machine σ) : Prop :=
  (0 ≤ m.pc ∧ m.pc ≤ m.memory.size) ∨ past.getLast?.bind Execution.goal? = some m.pc

theorem accounted_step {past : List (Execution σ)} (h : Accounted past m) :
    Accounted (past ++ m.executedIn (α := α) .step) m.step.machine := by
  obtain ⟨way, size⟩ := m.moved
  unfold executedIn
  cases way with
  | stayed executed pc =>
    rw [executed, Option.toList_none, List.map_nil, List.append_nil, Accounted, pc, size]
    exact h
  | jumped executed goal =>
    right
    simpa [executed] using goal
  | passed executed straight pc nonneg within =>
    left
    omega
  | halted executed pc nonneg within =>
    left
    omega

/-- The program counter is accounted for after any turns. -/
theorem accounted_play (act : α → σ → σ) {past : List (Execution σ)} (h : Accounted past m)
    (turns : List (Turn α)) :
    Accounted (past ++ m.executions act turns) (m.play act turns) := by
  induction turns generalizing m past with
  | nil => rwa [executions, gather, List.append_nil]
  | cons t turns ih =>
    have first : Accounted (past ++ m.executedIn t) (m.turn act t) := by
      cases t with
      | step => exact accounted_step h
      | act a => rwa [executedIn, List.append_nil]
    have rest := ih first
    rwa [List.append_assoc] at rest

/-! ### Leaving the memory -/

/-- What the fault of a program counter outside the memory says of it is true. -/
theorem outside_of_strayed_step {pc : Int} (h : m.Strayed pc → pc = m.pc ∧ ¬ m.memory.inBounds m.pc)
    (strayed : m.step.machine.Strayed pc) :
    pc = m.step.machine.pc ∧ ¬ m.step.machine.memory.inBounds m.step.machine.pc := by
  by_cases running : m.state = .running
  · have way := m.stepped running
    generalize m.step = r at way strayed ⊢
    cases way with
    | @unfetched stop fetch =>
      cases stop with
      | fault cause =>
        obtain ⟨outcome, fault, size, ⟨⟩, ⟨⟩, cause⟩ := strayed
        obtain rfl := cause
        exact ⟨rfl, outside_of_fetch fetch⟩
      | refused why => exact h strayed
    | untraced fetch trace => exact h strayed
    | @stopped command entry stop fetch trace change =>
      cases stop with
      | fault cause =>
        obtain ⟨outcome, fault, size, ⟨⟩, ⟨⟩, cause⟩ := strayed
        obtain rfl := cause
        cases inExecution_of_perform change
      | refused why => cases entry <;> exact h strayed
    | @advanced command entry change fetch trace effect goes =>
      -- The machine had not strayed before, for there was an instruction at its program counter.
      have before : m.Strayed pc := by cases entry <;> exact strayed
      exact absurd (fetch_eq_ok fetch).2.1 (h before).2
    | halted fetch trace effect ends first =>
      obtain ⟨outcome, fault, size, ⟨⟩, ⟨⟩, -⟩ := strayed
  · rw [step_of_stopped running] at strayed ⊢
    exact h strayed

theorem outside_of_strayed (act : α → σ → σ) {pc : Int}
    (h : m.Strayed pc → pc = m.pc ∧ ¬ m.memory.inBounds m.pc) (turns : List (Turn α))
    (strayed : (m.play act turns).Strayed pc) :
    pc = (m.play act turns).pc ∧
      ¬ (m.play act turns).memory.inBounds (m.play act turns).pc := by
  induction turns generalizing m with
  | nil => exact h strayed
  | cons t turns ih =>
    refine ih ?_ strayed
    cases t with
    | step => exact outside_of_strayed_step h
    | act a => exact h

/-! ### Straight stretches -/

/-- As long as no jump is taken, there is at most one instruction for each cell that is left. -/
theorem stretch_executions_le (act : α → σ → σ) (nonneg : 0 ≤ m.pc) (within : m.pc ≤ m.memory.size)
    (turns : List (Turn α)) : (stretch (m.executions act turns) : Int) ≤ m.memory.size - m.pc := by
  induction turns generalizing m with
  | nil => simpa [executions, gather, stretch] using within
  | cons t turns ih =>
    cases t with
    | act a => exact ih nonneg within
    | step =>
      obtain ⟨way, size⟩ := m.moved
      rw [executions_step]
      cases way with
      | stayed executed pc =>
        have rest := ih (m := m.step.machine) (by omega) (by omega)
        rw [executed, Option.toList_none, List.map_nil, List.nil_append]
        omega
      | jumped executed goal =>
        rw [executed, Option.toList_some, List.map_singleton, List.singleton_append,
          stretch_cons_of_some goal]
        omega
      | @passed command executed straight pc _ inside =>
        -- The rest of the stretch has at least one cell less to go.
        have rest := ih (m := m.step.machine) (by omega) (by omega)
        have one : 0 < command.length := command.opcode.length_pos
        rw [executed, Option.toList_some, List.map_singleton, List.singleton_append,
          stretch_cons_of_none straight]
        split <;> omega
      | halted executed pc =>
        have rest := ih (m := m.step.machine) (by omega) (by omega)
        rw [executed, Option.toList_some, List.map_singleton, List.singleton_append,
          stretch_cons_of_none rfl, if_pos rfl]
        omega

/-! ### From the start of a program -/

/-- A machine made for a program may take any number of steps, with anything done to its port
between them. Its program counter is then in the memory or at its end, or the last instruction that
was completed is a jump that was taken, and the target of that jump was read as the program counter.

Hence a machine that stopped because of a program counter outside the memory, and not at its end,
was brought there by a jump. From a program counter in the memory or at its end on, there are no
more instructions before the next jump that is taken, not counting `HALT`, than cells are left. -/
theorem straight_line_flow {program : Array Int} {port : σ} {maxSteps : Option Int} {tracing : Bool}
    (created : create program port maxSteps tracing = .ok m) (act : α → σ → σ)
    (turns : List (Turn α)) :
    let x := m.play act turns
    let past := m.executions act turns
    ((0 ≤ x.pc ∧ x.pc ≤ x.memory.size) ∨ past.getLast?.bind Execution.goal? = some x.pc) ∧
    (∀ pc, x.Strayed pc → pc ≠ x.memory.size →
      past.getLast?.bind Execution.goal? = some pc) ∧
    (0 ≤ x.pc → x.pc ≤ x.memory.size → ∀ more : List (Turn α),
      (stretch (x.executions act more) : Int) ≤ x.memory.size - x.pc) := by
  intro x past
  obtain ⟨-, -, rfl⟩ := create_eq_ok_iff.mp created
  have first : Accounted [] (start program port maxSteps tracing) :=
    .inl ⟨Int.le_refl 0, Int.natCast_nonneg _⟩
  have accounted : Accounted past x := accounted_play act first turns
  refine ⟨accounted, ?_, fun nonneg within more => stretch_executions_le act nonneg within more⟩
  intro pc strayed other
  obtain ⟨rfl, outside⟩ : pc = x.pc ∧ ¬ x.memory.inBounds x.pc :=
    outside_of_strayed act (fun before => absurd before ((running_start ..).not_strayed pc)) turns
      strayed
  rcases accounted with ⟨nonneg, within⟩ | jumped
  · -- The end of the memory is excluded, so the program counter would be an address.
    exact absurd (Memory.inBounds_iff.mpr ⟨nonneg, by omega⟩) outside
  · exact jumped

/-- A program that makes a jump out of a zero and takes it to an address below zero. -/
theorem straight_line_flow_below :
    let m : Machine Port.Scripted := start #[1101, 0, 1105, 4, 0, 1, -7] (.ofInputs []) none true
    let turns : List (Turn (List Int)) := [.step, .act [5], .step, .step]
    let act := fun (values : List Int) (p : Port.Scripted) => p.push values
    (m.play act turns).state = .faulted ∧
      (m.executions act turns).getLast?.bind Execution.goal? = some (-7) ∧
      (stretch (m.executions act turns) : Int) ≤ 7 := by
  intro m turns act
  have made : create #[1101, 0, 1105, 4, 0, 1, -7] (.ofInputs []) none true = .ok m :=
    create_eq_ok_iff.mpr ⟨by decide, by simp, rfl⟩
  have faulted : (m.play act turns).state = .faulted := by decide +kernel
  have ending : (m.play act turns).outcome.map Outcome.ending =
      some (.faulted ⟨.counterOutOfBounds 7, some (-7)⟩ (-7)) := by decide +kernel
  have size : (m.play act turns).memory.size = 7 := by decide +kernel
  obtain ⟨outcome, stopped, ended⟩ := Option.map_eq_some_iff.mp ending
  have strayed : (m.play act turns).Strayed (-7) := ⟨outcome, _, _, stopped, ended, rfl⟩
  obtain ⟨-, jumped, -⟩ := straight_line_flow made act turns
  obtain ⟨-, -, bound⟩ := straight_line_flow made act []
  exact ⟨faulted, jumped (-7) strayed (by rw [size]; decide), bound (by decide) (by decide) turns⟩

end Intcode.Machine
