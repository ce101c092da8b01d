import Intcode.Proofs.Ports
import Intcode.Proofs.Run

/-!
# The life of a machine

Whoever holds a machine can step it, run it, use its port behind its back, clear its trace and set
its budget, in any order and also after a step was refused. Through all of this the memory keeps its
length, the count of steps is the number of instructions that were completed, and an outcome tells
of the machine as it is: it has the memory, the outputs and the steps that the machine still has.

A machine that has stopped has come to rest. Neither a larger budget nor more input gets it going.

## Main definitions

* `Machine.completes`, `Machine.completions` — the instructions that a step and a run complete
* `Machine.Reaches` — what can be made of a machine, with the number of completed instructions
* `Machine.Sound` — the invariant of a machine made for a program

## Main results

* `Machine.Reaches.invariant` — what single steps and the other uses keep, runs keep as well
* `Machine.sound_step` — a step keeps the invariant and counts
* `Machine.Reaches.at_rest` — nothing that can be done to a machine that has stopped moves it
* `Machine.lifecycle` — the invariant and the rest of every machine that can be reached
-/

namespace Intcode.Machine

variable {σ : Type} {m x y : Machine σ} {n fuel : Nat} {program : Array Int}

/-! ### The invariant -/

/-- What holds of a machine made for a program once `n` instructions were completed. -/
structure Sound (program : Array Int) (n : Nat) (m : Machine σ) : Prop where
  size : m.memory.size = program.size
  steps : m.steps = n
  /-- There is no outcome as long as the machine runs. -/
  running : m.outcome = none ↔ m.state = .running
  /-- A machine that has halted has the value of its first cell for a result. -/
  halted : m.state = .halted → ∃ value, m.memory.get? 0 = some value ∧
    m.outcome = some ⟨.halted value, m.memory, m.outputs, m.steps⟩
  /-- A machine that has faulted is still at the instruction at fault. -/
  faulted : m.state = .faulted → ∃ cause,
    m.outcome = some ⟨.faulted ⟨cause, some m.pc⟩ m.pc, m.memory, m.outputs, m.steps⟩

theorem sound_of_running (size : m.memory.size = program.size)
    (steps : m.steps = n) (running : m.Running) : Sound program n m where
  size := size
  steps := steps
  running := iff_of_true running.outcome running.state
  halted h := by cases running.state.symm.trans h
  faulted h := by cases running.state.symm.trans h

theorem sound_fail (size : m.memory.size = program.size)
    (steps : m.steps = n) (cause : Cause) (events : List Event) :
    Sound program n (m.fail cause events).machine where
  size := size
  steps := steps
  running := iff_of_false (Option.some_ne_none _) State.noConfusion
  halted h := by cases h
  faulted _ := ⟨cause, rfl⟩

theorem sound_haltWith (size : m.memory.size = program.size) (steps : m.steps = n) {value : Int}
    (first : m.memory.read 0 = .ok value) (events : List Event) :
    Sound program n (m.haltWith value events).machine where
  size := size
  steps := steps
  running := iff_of_false (Option.some_ne_none _) State.noConfusion
  halted _ := ⟨value, Memory.get?_of_read first, rfl⟩
  faulted h := by cases h

theorem Sound.runs (h : Sound program n m) (running : m.state = .running) : m.Running :=
  ⟨running, h.running.mpr running⟩

/-- A machine whose instruction does not complete has faulted or goes on as it was. -/
theorem sound_abort (size : m.memory.size = program.size)
    (steps : m.steps = n) (running : m.Running) (stop : Stop) (events : List Event) :
    Sound program n (m.abort stop events).machine := by
  cases stop with
  | fault cause => exact sound_fail size steps cause events
  | refused why => exact sound_of_running size steps running

variable [Port σ]

/-! ### Completed instructions -/

/-- Whether a step completes an instruction: the machine runs, an instruction is made out and can be
written to the trace, and its effect comes about. -/
def completes (m : Machine σ) : Bool :=
  decide (m.state = .running) && m.fetch.toOption.any fun command =>
    (m.traceEntry command).isOk && (m.perform command).change.isOk

theorem completes_of_stopped (h : m.state ≠ .running) : m.completes = false := by
  simp [completes, h]

theorem completes_of_unfetched {stop : Stop} (fetch : m.fetch = .error stop) :
    m.completes = false := by
  rw [completes, fetch]
  exact Bool.and_false _

theorem completes_of_untraced {command : Command Int} {why : Refusal}
    (fetch : m.fetch = .ok command) (trace : m.traceEntry command = .error why) :
    m.completes = false := by
  simp [completes, fetch, trace, Except.toOption, Except.isOk, Except.toBool]

theorem completes_of_error {command : Command Int} {stop : Stop} (fetch : m.fetch = .ok command)
    (change : (m.perform command).change = .error stop) : m.completes = false := by
  simp [completes, fetch, change, Except.toOption, Except.isOk, Except.toBool]

theorem completes_of_ok {command : Command Int} {entry : Option String} {change : Change}
    (running : m.state = .running) (fetch : m.fetch = .ok command)
    (trace : m.traceEntry command = .ok entry) (effect : (m.perform command).change = .ok change) :
    m.completes = true := by
  simp [completes, running, fetch, trace, effect, Except.toOption, Except.isOk, Except.toBool]

/-- The number of instructions that the steps of a run complete. -/
def completions : Nat → Machine σ → Nat
  | 0, _ => 0
  | fuel + 1, m =>
    m.completes.toNat +
      if m.step.answer.toOption = some none then completions fuel m.step.machine else 0

theorem completions_of_advance (goes : m.step.answer = .ok none) (fuel : Nat) :
    m.completions (fuel + 1) = m.completes.toNat + m.step.machine.completions fuel := by
  rw [completions, goes]
  rfl

theorem completions_of_end (ends : m.step.answer ≠ .ok none) (fuel : Nat) :
    m.completions (fuel + 1) = m.completes.toNat := by
  have other : m.step.answer.toOption ≠ some none := by
    intro same
    cases answer : m.step.answer with
    | error why =>
      rw [answer] at same
      cases same
    | ok result =>
      rw [answer] at same
      rw [answer, Option.some.inj same] at ends
      exact ends rfl
  rw [completions, if_neg other, Nat.add_zero]

/-! ### What can be made of a machine -/

/-- From one machine another one is reached by steps, runs that end, uses of its port, clearings of
its trace and settings of its budget. On the way, `n` steps have completed an instruction. -/
inductive Reaches (m : Machine σ) : Nat → Machine σ → Prop
  | refl : Reaches m 0 m
  | step {n : Nat} {x : Machine σ} (before : Reaches m n x) :
      Reaches m (n + x.completes.toNat) x.step.machine
  | run {n fuel : Nat} {x : Machine σ} {r : Report σ} (before : Reaches m n x)
      (ran : x.run fuel = some r) : Reaches m (n + x.completions fuel) r.machine
  | act {n : Nat} {x : Machine σ} (before : Reaches m n x) (use : σ → σ) :
      Reaches m n (x.onPort (use x.port))
  | clearTrace {n : Nat} {x : Machine σ} (before : Reaches m n x) : Reaches m n x.clearTrace
  | budget {n : Nat} {x : Machine σ} (before : Reaches m n x) (limit : Option Int) :
      Reaches m n { x with maxSteps := limit }

/-- What every step keeps, with its count, is kept by a run. -/
theorem invariant_runFrom {P : Nat → Machine σ → Prop}
    (step : ∀ n x, P n x → P (n + x.completes.toNat) x.step.machine) {events : Array Event}
    {r : Report σ} (before : P n x) (ran : runFrom fuel events x = some r) :
    P (n + x.completions fuel) r.machine := by
  induction fuel generalizing n x events with
  | zero => cases ran
  | succ fuel ih =>
    have after := step n x before
    -- The rest of the run starts from the machine after one step, with the count after one step.
    by_cases goes : x.step.answer = .ok none
    · rw [runFrom_succ_of_advance goes] at ran
      rw [completions_of_advance goes, ← Nat.add_assoc]
      exact ih after ran
    · rw [runFrom_succ_of_end goes] at ran
      rw [completions_of_end goes, ← Option.some.inj ran]
      exact after

/-- An invariant of all that can be made of a machine is one of the single uses, and runs need not
be looked at. -/
theorem Reaches.invariant {P : Nat → Machine σ → Prop} (start : P 0 m)
    (step : ∀ n x, P n x → P (n + x.completes.toNat) x.step.machine)
    (act : ∀ n x (use : σ → σ), P n x → P n (x.onPort (use x.port)))
    (clearTrace : ∀ n x, P n x → P n x.clearTrace)
    (budget : ∀ n x limit, P n x → P n { x with maxSteps := limit })
    (reached : Reaches m n x) : P n x := by
  induction reached with
  | refl => exact start
  | step _ ih => exact step _ _ ih
  | run _ ran ih => exact invariant_runFrom step ih ran
  | act _ use ih => exact act _ _ use ih
  | clearTrace _ ih => exact clearTrace _ _ ih
  | budget _ limit ih => exact budget _ _ limit ih

/-! ### Steps keep the invariant -/

/-- A step keeps the invariant, and counts if it completes an instruction. -/
theorem sound_step (h : Sound program n m) :
    Sound program (n + m.completes.toNat) m.step.machine := by
  have size := h.size
  have steps := h.steps
  by_cases running : m.state = .running
  · have way := m.stepped running
    generalize m.step = r at way
    -- Of the five ways a step can go, the last two complete an instruction and count.
    cases way with
    | unfetched fetch =>
      rw [completes_of_unfetched fetch]
      exact sound_abort size steps (h.runs running) _ _
    | untraced fetch trace =>
      rw [completes_of_untraced fetch trace]
      exact h
    | @stopped command entry stop fetch trace change =>
      rw [completes_of_error fetch change]
      refine sound_abort ?_ ?_ ?_ stop _
      · cases entry <;> exact size
      · cases entry <;> exact steps
      · cases entry <;> exact ⟨running, (h.runs running).outcome⟩
    | @advanced command entry change fetch trace effect goes =>
      rw [completes_of_ok running fetch trace effect]
      have kept := (size_of_perform effect).trans size
      have counted : m.steps + 1 = n + 1 := by rw [steps]
      cases entry <;> exact sound_of_running kept counted ⟨running, (h.runs running).outcome⟩
    | @halted command entry change value fetch trace effect ends first =>
      rw [completes_of_ok running fetch trace effect]
      have kept := (size_of_perform effect).trans size
      have counted : m.steps + 1 = n + 1 := by rw [steps]
      cases entry <;> exact sound_haltWith kept counted first _
  · rw [completes_of_stopped running, step_of_stopped running]
    exact h

/-! ### Rest -/

/-- Nothing that can be done to a machine that has stopped moves it. -/
theorem Reaches.at_rest (stopped : x.state ≠ .running) (reached : Reaches x n y) :
    n = 0 ∧ y.state = x.state ∧ y.outcome = x.outcome ∧ y.memory = x.memory ∧ y.pc = x.pc ∧
      y.steps = x.steps ∧ y.outputs = x.outputs := by
  refine reached.invariant (P := fun n y => n = 0 ∧ y.state = x.state ∧ y.outcome = x.outcome ∧
    y.memory = x.memory ∧ y.pc = x.pc ∧ y.steps = x.steps ∧ y.outputs = x.outputs)
    ⟨rfl, rfl, rfl, rfl, rfl, rfl, rfl⟩ ?_ ?_ ?_ ?_
  · intro n z before
    have still : z.state ≠ .running := before.2.1 ▸ stopped
    rw [completes_of_stopped still, step_of_stopped still]
    exact before
  · intro n z use before
    exact before
  · intro n z before
    exact before
  · intro n z limit before
    exact before

theorem run_of_stopped {outcome : Outcome} (stopped : m.state ≠ .running)
    (ended : m.outcome = some outcome) (fuel : Nat) :
    m.run (fuel + 1) = some ⟨m, [], .ok (some outcome)⟩ := by
  have step := step_of_stopped stopped
  rw [ended] at step
  have ends : m.step.answer ≠ .ok none := by
    rw [step]
    intro same
    cases same
  rw [run, runFrom_succ_of_end ends, step]
  rfl

/-- Every machine that can be reached from the start of a program meets the invariant, whatever was
done in between and on whatever port.

Once it has stopped, whatever else is done, a step and a run answer the outcome again, report
nothing and leave the machine with its port as it is. -/
theorem lifecycle {port : σ} {maxSteps : Option Int} {tracing : Bool}
    (created : create program port maxSteps tracing = .ok m) (reached : Reaches m n x) :
    Sound program n x ∧
      (x.state ≠ .running → ∃ outcome, x.outcome = some outcome ∧
        ∀ k y, Reaches x k y →
          (k = 0 ∧ y.state = x.state ∧ y.outcome = some outcome ∧ y.memory = x.memory ∧
            y.pc = x.pc ∧ y.steps = x.steps ∧ y.outputs = x.outputs) ∧
          y.step = ⟨y, [], .ok (some outcome)⟩ ∧
          ∀ fuel, y.run (fuel + 1) = some ⟨y, [], .ok (some outcome)⟩) := by
  obtain ⟨-, -, rfl⟩ := create_eq_ok_iff.mp created
  have sound : Sound program n x := by
    refine reached.invariant (P := Sound program)
      (sound_of_running rfl rfl (running_start ..)) ?_ ?_ ?_ ?_
    · intro n x before
      exact sound_step before
    -- The other uses touch nothing that the invariant speaks of.
    · rintro n x use ⟨size, steps, running, halted, faulted⟩
      exact ⟨size, steps, running, halted, faulted⟩
    · rintro n x ⟨size, steps, running, halted, faulted⟩
      exact ⟨size, steps, running, halted, faulted⟩
    · rintro n x limit ⟨size, steps, running, halted, faulted⟩
      exact ⟨size, steps, running, halted, faulted⟩
  refine ⟨sound, fun stopped => ?_⟩
  obtain ⟨outcome, ended⟩ := Option.ne_none_iff_exists'.mp (mt sound.running.mp stopped)
  refine ⟨outcome, ended, fun k y further => ?_⟩
  have still := further.at_rest stopped
  have stopped' : y.state ≠ .running := still.2.1 ▸ stopped
  have ended' : y.outcome = some outcome := still.2.2.1.trans ended
  refine ⟨by rwa [← ended], ?_, run_of_stopped stopped' ended'⟩
  rw [step_of_stopped stopped', ended']

/-- A program that shows its first cell and asks for a value that is not there. It has stopped after
its second step, and more input and a larger budget come too late. -/
theorem lifecycle_starved :
    let m : Machine Port.Scripted := start #[4, 0, 3, 0, 99] (.ofInputs []) (some 2) true
    let x := m.step.machine.step.machine
    let y : Machine Port.Scripted := { x.onPort (x.port.push [7]) with maxSteps := some 9 }
    x.state = .faulted ∧ Sound #[4, 0, 3, 0, 99] 1 x ∧ y.port.pending = [7] ∧
      ∃ outcome, x.outcome = some outcome ∧ y.step = ⟨y, [], .ok (some outcome)⟩ ∧
        y.run 9 = some ⟨y, [], .ok (some outcome)⟩ := by
  intro m x y
  have made : create #[4, 0, 3, 0, 99] (.ofInputs []) (some 2) true = .ok m :=
    create_eq_ok_iff.mpr ⟨by decide, by simp, rfl⟩
  have reached : Reaches m (0 + m.completes.toNat + m.step.machine.completes.toNat) x :=
    .step (.step .refl)
  have count : 0 + m.completes.toNat + m.step.machine.completes.toNat = 1 := by decide +kernel
  rw [count] at reached
  have stopped : x.state = .faulted := by decide +kernel
  have pending : y.port.pending = [7] := by decide +kernel
  obtain ⟨sound, rest⟩ := lifecycle made reached
  obtain ⟨outcome, ended, absorbed⟩ := rest (by rw [stopped]; decide)
  clear_value x
  subst y
  have fed : Reaches x 0 { x.onPort (x.port.push [7]) with maxSteps := some 9 } :=
    .budget (.act .refl fun p : Port.Scripted => p.push [7]) (some 9)
  obtain ⟨-, step, run⟩ := absorbed 0 _ fed
  exact ⟨stopped, sound, pending, outcome, ended, step, run 8⟩

end Intcode.Machine
