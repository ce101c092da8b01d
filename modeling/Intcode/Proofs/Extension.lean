import Mathlib.Tactic.Common
import Intcode.Proofs.Run

/-!
# Appended cells

A machine that neither faults nor is refused goes the same way when cells are appended to its
memory, and leaves these cells alone. No instruction that completes looks past its own cells or
reaches a cell that is not there, so nothing in it depends on the size of the memory.

Faults do depend on it. A cell that was missing may be among those appended.

## Main definitions

* `Machine.extend` — the machine with more cells at the end of its memory
* `Machine.ExtendedBy` — two machines that differ only by cells at the end of the memory

## Main results

* `Machine.fetch_extend`, `Machine.perform_extend` — an instruction that completes goes the same way
* `Machine.step_extend` — so does a step that does not fail
* `Machine.extension_frame` — so does any number of steps, and a run that halts
-/

namespace Intcode

/-- The outcome with more cells at the end of its memory. -/
def Outcome.extend (outcome : Outcome) (more : Array Int) : Outcome :=
  { outcome with memory := outcome.memory.append more }

/-- The change with more cells at the end of its memory. -/
def Change.extend (change : Change) (more : Array Int) : Change :=
  { change with memory := change.memory.append more }

/-- The effect with more cells at the end of the memory. -/
def Effect.extend {σ : Type} (effect : Effect σ) (more : Array Int) : Effect σ :=
  { effect with memory := effect.memory.append more }

/-- The machine with more cells at the end of its memory, and of that of its outcome. -/
def Machine.extend {σ : Type} (m : Machine σ) (more : Array Int) : Machine σ :=
  { m with memory := m.memory.append more, outcome := m.outcome.map (·.extend more) }

/-- The report with more cells at the end of every memory in it. -/
def Report.extend {σ : Type} (r : Report σ) (more : Array Int) : Report σ :=
  { machine := r.machine.extend more
    events := r.events
    answer := r.answer.map (Option.map (·.extend more)) }

namespace Machine

variable {σ : Type} {m x : Machine σ} {command : Command Int} {k : Nat}

/-- The machine `m'` is `m` with more cells at the end of its memory. -/
structure ExtendedBy (more : Array Int) (m m' : Machine σ) : Prop where
  state : m'.state = m.state
  pc : m'.pc = m.pc
  steps : m'.steps = m.steps
  outputs : m'.outputs = m.outputs
  port : m'.port = m.port
  cells : m'.memory.cells = m.memory.cells ++ more

theorem extendedBy_extend (m : Machine σ) (more : Array Int) : ExtendedBy more m (m.extend more) :=
  ⟨rfl, rfl, rfl, rfl, rfl, rfl⟩

theorem create_extend {program : Array Int} {port : σ} {maxSteps : Option Int} {tracing : Bool}
    (h : create program port maxSteps tracing = .ok m) (more : Array Int) :
    create (program ++ more) port maxSteps tracing = .ok (m.extend more) := by
  obtain ⟨full, budget, rfl⟩ := create_eq_ok_iff.mp h
  have full' : program ++ more ≠ #[] := fun empty => full (Array.append_eq_empty_iff.mp empty).1
  exact create_eq_ok_iff.mpr ⟨full', budget, rfl⟩

/-! ### Making out an instruction -/

theorem fetch_extend (h : m.fetch = .ok command) (more : Array Int) :
    (m.extend more).fetch = .ok command := by
  obtain ⟨budget, inside, made⟩ := fetch_eq_ok h
  rw [fetch_of_inBounds (m := m.extend more) budget (Memory.inBounds_append inside more)]
  change Command.ofWindow ((m.memory.cells ++ more).toList.drop m.pc.toNat) = .ok command
  rw [Array.toList_append, List.drop_append]
  exact Command.ofWindow_append made _

/-- The trace shows the cells of an instruction and none after them. -/
theorem traceEntry_extend (h : m.fetch = .ok command) (more : Array Int) :
    (m.extend more).traceEntry command = m.traceEntry command := by
  obtain ⟨-, inside, made⟩ := fetch_eq_ok h
  have cells := Memory.slice_append (Memory.inBounds_iff.mp inside).1
    (Command.length_le_of_ofWindow made) more
  unfold traceEntry traceLine? extend
  dsimp only
  rw [cells]

theorem recorded_extend (m : Machine σ) (entry : Option String) (more : Array Int) :
    (m.extend more).recorded entry = (m.recorded entry).extend more := by
  cases entry <;> rfl

/-- The first cell of a memory that is not empty stays the first. -/
theorem halt_extend {value : Int} (first : m.memory.read 0 = .ok value) (events : List Event)
    (more : Array Int) :
    (m.extend more).halt events = (m.halt events).extend more := by
  rw [halt_of_read first, halt_of_read (m := m.extend more) (Memory.read_append first more)]
  rfl

/-- An instruction that completes concludes in the same way. -/
theorem conclude_extend {effect : Effect σ} {change : Change} (h : effect.change = .ok change)
    {value : Int} (first : change.memory.read 0 = .ok value) (events : List Event)
    (more : Array Int) :
    (m.extend more).conclude (effect.extend more) events =
      (m.conclude effect events).extend more := by
  have h' : (effect.extend more).change = .ok (change.extend more) := by
    rw [Effect.eq_done h]
    rfl
  cases next : change.next with
  | some pc =>
    have goes : change.next.isSome := by rw [next]; rfl
    rw [conclude_of_isSome h goes, conclude_of_isSome h' goes]
    rfl
  | none =>
    rw [conclude_of_none h next, conclude_of_none h' next]
    exact halt_extend (m := m.completed effect.port change) first _ more

theorem state_abort {stop : Stop} {events : List Event} {answer : Option Outcome}
    (h : (m.abort stop events).answer = .ok answer) :
    (m.abort stop events).machine.state = .faulted := by
  cases stop with
  | fault cause => rfl
  | refused why => cases h

variable [Port σ]

/-! ### Carrying out an instruction -/

/-- Whatever an instruction that completes has read or written is where it was. -/
theorem Performed.extend {effect : Effect σ} (h : Performed m command effect) (more : Array Int) :
    Performed (m.extend more) command (effect.extend more) := by
  cases h with
  | computed first second stored =>
    exact .computed (m := m.extend more) (Memory.load_append first more)
      (Memory.load_append second more) (Memory.store_append stored more)
  | jumped tested taken loaded =>
    exact .jumped (m := m.extend more) (Memory.load_append tested more) taken
      (Memory.load_append loaded more)
  | passed tested missed =>
    exact .passed (m := m.extend more) (Memory.load_append tested more) missed
  | received inside served stored =>
    exact .received (m := m.extend more) (Memory.inBounds_append inside more) served
      (Memory.write_append stored more)
  | delivered loaded taken =>
    exact .delivered (m := m.extend more) (Memory.read_append loaded more) taken
  | halted => exact .halted (m := m.extend more)

theorem perform_extend {change : Change} (h : (m.perform command).change = .ok change)
    (more : Array Int) : (m.extend more).perform command = (m.perform command).extend more :=
  ((performed h).extend more).perform_eq

/-! ### Steps -/

/-- A step that neither faults nor is refused goes the same way when cells are appended. -/
theorem step_extend {answer : Option Outcome} (served : m.step.answer = .ok answer)
    (sound : m.step.machine.state ≠ .faulted) (more : Array Int) :
    (m.extend more).step = m.step.extend more := by
  by_cases running : m.state = .running
  · have running' : (m.extend more).state = .running := running
    cases fetch : m.fetch with
    | error stop =>
      rw [step_of_unfetched running fetch] at served sound
      exact absurd (state_abort served) sound
    | ok command =>
      have fetch' := fetch_extend fetch more
      cases trace : m.traceEntry command with
      | error why =>
        rw [step_of_untraced running fetch trace] at served
        cases served
      | ok entry =>
        have trace' := (traceEntry_extend fetch more).trans trace
        rw [step_of_fetched running fetch trace] at served sound ⊢
        rw [step_of_fetched running' fetch' trace', recorded_extend]
        cases effect : (m.perform command).change with
        | error stop =>
          rw [conclude_of_error effect] at served sound
          exact absurd (state_abort served) sound
        | ok change =>
          obtain ⟨value, first⟩ := exists_read_zero fetch (size_of_perform effect)
          rw [perform_extend effect, conclude_extend effect first]
  · rw [step_of_stopped running, step_of_stopped (m := m.extend more) running]
    rfl

/-! ### Any number of steps -/

theorem Advances.extend (h : Advances m k x) (running : m.Running) (more : Array Int) :
    Advances (m.extend more) k (x.extend more) := by
  induction h with
  | refl m => exact .refl _
  | @step m x k first rest ih =>
    have next := (running.step first).1
    have sound : m.step.machine.state ≠ .faulted := by
      rw [next.state]
      exact State.noConfusion
    have same := step_extend first sound more
    refine .step ?_ ?_
    · rw [same, Report.extend, first]
      rfl
    · rw [same]
      exact ih next

/-- A machine that has faulted stays as it is. -/
theorem state_of_stepsFrom {events : Array Event} {last : Option Outcome}
    (sound : (stepsFrom k events last m).machine.state ≠ .faulted) : m.state ≠ .faulted := by
  intro faulted
  have stopped : m.state ≠ .running := by
    rw [faulted]
    exact State.noConfusion
  cases k with
  | zero => exact sound faulted
  | succ k =>
    have first : m.step.answer = .ok m.outcome := by rw [step_of_stopped stopped]
    rw [stepsFrom_succ_of_ok first, step_of_stopped stopped, stepsFrom_of_stopped stopped] at sound
    exact sound faulted

theorem stepsFrom_extend {events : Array Event} {last answer : Option Outcome}
    (served : (stepsFrom k events last m).answer = .ok answer)
    (sound : (stepsFrom k events last m).machine.state ≠ .faulted) (more : Array Int) :
    stepsFrom k events (last.map (·.extend more)) (m.extend more) =
      (stepsFrom k events last m).extend more := by
  induction k generalizing events last m with
  | zero => rfl
  | succ k ih =>
    cases first : m.step.answer with
    | error why =>
      rw [stepsFrom_succ_of_error first] at served
      cases served
    | ok next =>
      rw [stepsFrom_succ_of_ok first] at served sound ⊢
      -- A fault would still be there at the end, so this step is none.
      have same := step_extend first (state_of_stepsFrom sound) more
      have first' : (m.extend more).step.answer = .ok (next.map (·.extend more)) := by
        rw [same, Report.extend, first]
        rfl
      rw [stepsFrom_succ_of_ok first', same]
      exact ih served sound

/-- When cells are appended to a program, any number of steps that neither fault nor are refused
lead to the same machine with these cells at the end of its memory. A program that halts then halts
after the same steps, with the same outputs and final value. -/
theorem extension_frame {program : Array Int} {port : σ} {maxSteps : Option Int} {tracing : Bool}
    (created : create program port maxSteps tracing = .ok m) (more : Array Int) :
    ∃ m', create (program ++ more) port maxSteps tracing = .ok m' ∧
      (∀ k answer, (m.stepTimes k).answer = .ok answer →
        (m.stepTimes k).machine.state ≠ .faulted →
        (m'.stepTimes k).answer = .ok (answer.map (·.extend more)) ∧
          ExtendedBy more (m.stepTimes k).machine (m'.stepTimes k).machine) ∧
      (∀ fuel r outcome value, m.run fuel = some r → r.answer = .ok (some outcome) →
        outcome.ending = .halted value →
        ∃ r', m'.run fuel = some r' ∧ r'.answer = .ok (some (outcome.extend more)) ∧
          ExtendedBy more r.machine r'.machine) := by
  refine ⟨m.extend more, create_extend created more, ?_, ?_⟩
  · intro k answer served sound
    have same : (m.extend more).stepTimes k = (m.stepTimes k).extend more :=
      stepsFrom_extend served sound more
    rw [same]
    refine ⟨?_, extendedBy_extend _ more⟩
    rw [Report.extend, served]
    rfl
  · intro fuel r outcome value run answer ending
    obtain ⟨k, x, lt, chain, ends, machine, last⟩ := run_eq_some run
    obtain ⟨-, -, rfl⟩ := create_eq_ok_iff.mp created
    have started := running_start program port maxSteps tracing
    have halted : x.step.answer = .ok (some outcome) := last.symm.trans answer
    have sound : x.step.machine.state ≠ .faulted := by
      rw [((chain.running started).stop halted).1, Outcome.state, ending]
      exact State.noConfusion
    have same := step_extend halted sound more
    have answer' : (x.extend more).step.answer = .ok (some (outcome.extend more)) := by
      rw [same, Report.extend, halted]
      rfl
    have ends' : (x.extend more).step.answer ≠ .ok none := by
      rw [answer']
      exact nofun
    obtain ⟨r', runs, machine', last'⟩ := run_of_advances (chain.extend started more) ends'
    refine ⟨r', runs fuel lt, last'.trans answer', ?_⟩
    rw [machine, machine', same]
    exact extendedBy_extend _ more

/-- A program that puts out its input, with two cells after the halt at its end. -/
theorem extension_frame_echo :
    let m : Machine Port.Scripted := start #[3, 0, 4, 0, 99] ⟨[7], #[]⟩ none true
    let m' : Machine Port.Scripted := start #[3, 0, 4, 0, 99, 5, 6] ⟨[7], #[]⟩ none true
    ExtendedBy #[5, 6] (m.stepTimes 2).machine (m'.stepTimes 2).machine ∧
      ∃ r, m'.run 3 = some r ∧ r.answer = .ok (some
        { ending := .halted 7, memory := ⟨#[7, 0, 4, 0, 99, 5, 6]⟩, outputs := #[7],
          steps := 3 }) := by
  intro m m'
  have created : create #[3, 0, 4, 0, 99] (⟨[7], #[]⟩ : Port.Scripted) none true = .ok m :=
    create_eq_ok_iff.mpr ⟨by decide, nofun, rfl⟩
  obtain ⟨_, created', steps, halts⟩ := extension_frame created #[5, 6]
  obtain ⟨-, -, rfl⟩ := create_eq_ok_iff.mp created'
  have going : (m.stepTimes 2).answer = .ok none ∧ (m.stepTimes 2).machine.state ≠ .faulted := by
    decide +kernel
  have answers : (m.run 3).map (·.answer) = some (.ok (some
      { ending := .halted 7, memory := ⟨#[7, 0, 4, 0, 99]⟩, outputs := #[7], steps := 3 })) := by
    decide +kernel
  obtain ⟨r, run, answer⟩ := Option.map_eq_some_iff.mp answers
  obtain ⟨r', run', answer', -⟩ := halts 3 r _ 7 run answer rfl
  exact ⟨(steps 2 none going.1 going.2).2, r', run', answer'⟩

end Machine

end Intcode
