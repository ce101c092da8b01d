import Intcode.Machine.Run
import Intcode.Proofs.Step

/-!
# Runs as chains of steps

A run is a chain of steps that each complete an instruction and leave the machine running, followed
by one step that does not. A fixed number of steps that leave the machine running is such a chain
alone. The events that the definitions of runs carry along do not matter to this.

## Main definitions

* `Machine.start` — the machine at the start of a program
* `Machine.Coherent` — a machine whose state and outcome agree
* `Machine.Advances` — a number of steps, each of which leaves the machine running
* `Machine.later` — the machine after a number of steps, whatever they answer

## Main results

* `Machine.create_eq_ok_iff` — when a machine is made, and which
* `Machine.Running.step`, `Machine.Running.stop`, `Machine.Running.refused` — what becomes of a
  running machine by the answer of its step
* `Machine.stepTimes_eq_none_iff` — a number of steps that leave the machine running is a chain
* `Machine.run_eq_some`, `Machine.run_of_advances` — a run is a chain and one step more
* `Machine.later_of_run`, `Machine.run_of_later` — the same in terms of the machines passed through
-/

namespace Intcode.Machine

variable {σ : Type} {m m' x : Machine σ} {k : Nat}

/-! ### The start of a program -/

/-- The machine at the start of a program. -/
def start (program : Array Int) (port : σ) (maxSteps : Option Int) (tracing : Bool) : Machine σ :=
  { memory := ⟨program⟩, port, maxSteps, tracing, pc := 0, steps := 0, outputs := #[],
    state := .running, outcome := none, trace := #[] }

theorem running_start (program : Array Int) (port : σ) (maxSteps : Option Int) (tracing : Bool) :
    (start program port maxSteps tracing).Running :=
  ⟨rfl, rfl⟩

/-- A machine is made for every program that is not empty, with any budget but a negative one. -/
theorem create_eq_ok_iff {program : Array Int} {port : σ} {maxSteps : Option Int} {tracing : Bool} :
    create program port maxSteps tracing = .ok m ↔
      program ≠ #[] ∧ (∀ limit, maxSteps = some limit → 0 ≤ limit) ∧
        m = start program port maxSteps tracing := by
  unfold create
  dsimp only
  by_cases empty : program.isEmpty = true
  · simp [Array.isEmpty_iff.mp empty]
  · have full : program ≠ #[] := mt Array.isEmpty_iff.mpr empty
    rw [if_neg empty]
    cases maxSteps with
    | none =>
      constructor
      · intro made
        cases made
        exact ⟨full, nofun, rfl⟩
      · rintro ⟨-, -, rfl⟩
        rfl
    | some limit =>
      by_cases negative : limit < 0
      · simp [negative, Int.not_le.mpr negative]
      · simp only [if_neg negative]
        constructor
        · intro made
          cases made
          refine ⟨full, fun given eq => ?_, rfl⟩
          cases eq
          exact Int.not_lt.mp negative
        · rintro ⟨-, -, rfl⟩
          rfl

variable [Port σ]

/-! ### Single steps -/

/-- A step that leaves the machine running has completed one instruction. -/
theorem Running.step (running : m.Running) (h : m.step.answer = .ok none) :
    m.step.machine.Running ∧ m.step.machine.steps = m.steps + 1 := by
  have way := m.stepped running.state
  generalize m.step = r at way h ⊢
  cases way with
  | @unfetched stop fetch => cases stop <;> cases h
  | untraced fetch trace => cases h
  | @stopped command entry stop fetch trace change => cases stop <;> cases h
  | @advanced command entry change fetch trace effect goes =>
    cases entry <;> exact ⟨⟨running.state, running.outcome⟩, rfl⟩
  | halted fetch trace effect ends first => cases h

/-- A step that answers an outcome has stopped the machine with it. -/
theorem Running.stop (running : m.Running) {outcome : Outcome}
    (h : m.step.answer = .ok (some outcome)) :
    m.step.machine.state = outcome.state ∧ m.step.machine.outcome = some outcome := by
  have way := m.stepped running.state
  generalize m.step = r at way h ⊢
  cases way with
  | @unfetched stop fetch =>
    cases stop <;> cases h
    exact ⟨rfl, rfl⟩
  | untraced fetch trace => cases h
  | @stopped command entry stop fetch trace change =>
    cases stop <;> cases h
    exact ⟨rfl, rfl⟩
  | advanced fetch trace effect goes => cases h
  | halted fetch trace effect ends first =>
    cases h
    exact ⟨rfl, rfl⟩

/-- A step that is refused leaves the machine running. -/
theorem Running.refused (running : m.Running) {why : Refusal} (h : m.step.answer = .error why) :
    m.step.machine.Running := by
  have way := m.stepped running.state
  generalize m.step = r at way h ⊢
  cases way with
  | @unfetched stop fetch =>
    cases stop <;> cases h
    exact running
  | untraced fetch trace => exact running
  | @stopped command entry stop fetch trace change =>
    cases stop <;> cases h
    cases entry <;> exact ⟨running.state, running.outcome⟩
  | advanced fetch trace effect goes => cases h
  | halted fetch trace effect ends first => cases h

/-- State and outcome agree: a machine runs, or has an outcome of its state. -/
def Coherent (m : Machine σ) : Prop :=
  m.Running ∨ ∃ outcome, m.outcome = some outcome ∧ m.state = outcome.state

omit [Port σ] in
theorem Coherent.running_iff (h : m.Coherent) : m.Running ↔ m.state = .running := by
  refine ⟨fun running => running.state, fun state => ?_⟩
  rcases h with running | ⟨outcome, -, stopped⟩
  · exact running
  · exact absurd (stopped.symm.trans state) outcome.state_ne_running

theorem Coherent.step (h : m.Coherent) : m.step.machine.Coherent := by
  rcases h with running | stopped
  · cases answer : m.step.answer with
    | error why => exact .inl (running.refused answer)
    | ok outcome? =>
      cases outcome? with
      | none => exact .inl (running.step answer).1
      | some outcome =>
        obtain ⟨state, recorded⟩ := running.stop answer
        exact .inr ⟨outcome, recorded, state⟩
  · obtain ⟨outcome, recorded, state⟩ := stopped
    rw [step_of_stopped (state ▸ outcome.state_ne_running)]
    exact .inr ⟨outcome, recorded, state⟩

/-- A step that halts counts, and one that faults does not. -/
theorem steps_of_outcome (running : m.state = .running) {outcome : Outcome}
    (h : m.step.answer = .ok (some outcome)) :
    outcome.steps =
      match outcome.ending with
      | .halted _ => m.steps + 1
      | .faulted .. => m.steps := by
  have way := m.stepped running
  generalize m.step = r at way h
  cases way with
  | @unfetched stop fetch =>
    cases stop <;> cases h
    rfl
  | untraced fetch trace => cases h
  | @stopped command entry stop fetch trace change =>
    cases stop <;> cases h
    cases entry <;> rfl
  | advanced fetch trace effect goes => cases h
  | @halted command entry change value fetch trace effect ends first =>
    cases h
    cases entry <;> rfl

/-- No step changes the budget, or turns the trace on or off. -/
theorem settings_step (m : Machine σ) :
    m.step.machine.maxSteps = m.maxSteps ∧ m.step.machine.tracing = m.tracing := by
  by_cases running : m.state = .running
  · have way := m.stepped running
    generalize m.step = r at way ⊢
    cases way with
    | @unfetched stop fetch => cases stop <;> exact ⟨rfl, rfl⟩
    | untraced fetch trace => exact ⟨rfl, rfl⟩
    | @stopped command entry stop fetch trace change =>
      cases entry <;> cases stop <;> exact ⟨rfl, rfl⟩
    | @advanced command entry change fetch trace effect goes =>
      cases entry <;> exact ⟨rfl, rfl⟩
    | @halted command entry change value fetch trace effect ends first =>
      cases entry <;> exact ⟨rfl, rfl⟩
  · rw [step_of_stopped running]
    exact ⟨rfl, rfl⟩

theorem maxSteps_step (m : Machine σ) : m.step.machine.maxSteps = m.maxSteps := m.settings_step.1

theorem tracing_step (m : Machine σ) : m.step.machine.tracing = m.tracing := m.settings_step.2

/-! ### Chains of steps -/

/-- After `k` steps that each leave the machine running, `m` has become `m'`. -/
inductive Advances : Machine σ → Nat → Machine σ → Prop
  | refl (m : Machine σ) : Advances m 0 m
  | step {m m' : Machine σ} {k : Nat} (first : m.step.answer = .ok none)
      (rest : Advances m.step.machine k m') : Advances m (k + 1) m'

theorem Advances.steps (h : Advances m k m') (running : m.Running) : m'.steps = m.steps + k := by
  induction h with
  | refl => rfl
  | step first rest ih =>
    obtain ⟨next, steps⟩ := running.step first
    rw [ih next, steps]
    omega

theorem Advances.running (h : Advances m k m') (running : m.Running) : m'.Running := by
  induction h with
  | refl => exact running
  | step first rest ih => exact ih (running.step first).1

theorem Advances.maxSteps (h : Advances m k m') : m'.maxSteps = m.maxSteps := by
  induction h with
  | refl => rfl
  | step first rest ih => rw [ih, maxSteps_step]

/-- A chain can be cut short. -/
theorem Advances.take (h : Advances m k m') {j : Nat} (le : j ≤ k) : ∃ x, Advances m j x := by
  induction h generalizing j with
  | refl m =>
    obtain rfl := Nat.le_zero.mp le
    exact ⟨m, .refl m⟩
  | @step m m' k first rest ih =>
    cases j with
    | zero => exact ⟨m, .refl m⟩
    | succ j =>
      obtain ⟨x, hx⟩ := ih (Nat.le_of_succ_le_succ le)
      exact ⟨x, .step first hx⟩

/-- Within a number of steps, a machine goes on all the time or comes to an end. -/
theorem advances_or_ends (m : Machine σ) (n : Nat) :
    (∃ x, Advances m n x) ∨ ∃ k x, k < n ∧ Advances m k x ∧ x.step.answer ≠ .ok none := by
  induction n generalizing m with
  | zero => exact .inl ⟨m, .refl m⟩
  | succ n ih =>
    by_cases first : m.step.answer = .ok none
    · rcases ih m.step.machine with ⟨x, rest⟩ | ⟨k, x, lt, rest, ends⟩
      · exact .inl ⟨x, .step first rest⟩
      · exact .inr ⟨k + 1, x, Nat.succ_lt_succ lt, .step first rest, ends⟩
    · exact .inr ⟨0, m, Nat.succ_pos n, .refl m, first⟩

/-! ### A fixed number of steps -/

theorem stepsFrom_succ_of_ok {answer : Option Outcome} (first : m.step.answer = .ok answer)
    (k : Nat) (events : Array Event) (last : Option Outcome) :
    stepsFrom (k + 1) events last m =
      stepsFrom k (events ++ m.step.events) answer m.step.machine := by
  simp only [stepsFrom, first]

theorem stepsFrom_succ_of_error {why : Refusal} (first : m.step.answer = .error why) (k : Nat)
    (events : Array Event) (last : Option Outcome) :
    (stepsFrom (k + 1) events last m).answer = .error why := by
  simp only [stepsFrom, first]

/-- If none of some steps is refused, then the first is not, and the others follow it. -/
theorem stepsFrom_succ_eq_ok {events : Array Event} {last answer : Option Outcome}
    (served : (stepsFrom (k + 1) events last m).answer = .ok answer) :
    ∃ next, m.step.answer = .ok next ∧
      stepsFrom (k + 1) events last m =
        stepsFrom k (events ++ m.step.events) next m.step.machine := by
  cases first : m.step.answer with
  | error why =>
    rw [stepsFrom_succ_of_error first] at served
    cases served
  | ok next => exact ⟨next, rfl, stepsFrom_succ_of_ok first k events last⟩

theorem stepsFrom_of_advances (h : Advances m k m') (events : Array Event) :
    (stepsFrom k events none m).machine = m' ∧ (stepsFrom k events none m).answer = .ok none := by
  induction h generalizing events with
  | refl => exact ⟨rfl, rfl⟩
  | step first rest ih =>
    rw [stepsFrom_succ_of_ok first]
    exact ih _

/-- A machine that has stopped answers its outcome any number of times. -/
theorem stepsFrom_of_stopped (h : m.state ≠ .running) (k : Nat) (events : Array Event) :
    stepsFrom k events m.outcome m = ⟨m, events.toList, .ok m.outcome⟩ := by
  induction k with
  | zero => rfl
  | succ k ih =>
    simp only [stepsFrom, step_of_stopped h]
    rw [← ih]
    rfl

theorem advances_of_stepsFrom (running : m.Running) {events : Array Event}
    (h : (stepsFrom k events none m).answer = .ok none) : ∃ x, Advances m k x := by
  induction k generalizing events m with
  | zero => exact ⟨m, .refl m⟩
  | succ k ih =>
    cases first : m.step.answer with
    | error why =>
      rw [stepsFrom_succ_of_error first] at h
      cases h
    | ok answer =>
      rw [stepsFrom_succ_of_ok first] at h
      cases answer with
      | none =>
        obtain ⟨x, rest⟩ := ih (running.step first).1 h
        exact ⟨x, .step first rest⟩
      | some outcome =>
        obtain ⟨state, recorded⟩ := running.stop first
        rw [← recorded, stepsFrom_of_stopped (state ▸ outcome.state_ne_running), recorded] at h
        cases h

/-- A number of steps that leave the machine running is a chain of them. -/
theorem stepTimes_eq_none_iff (running : m.Running) :
    (m.stepTimes k).answer = .ok none ↔ Advances m k (m.stepTimes k).machine := by
  constructor
  · intro h
    obtain ⟨x, chain⟩ := advances_of_stepsFrom running h
    have same := (stepsFrom_of_advances chain #[]).1
    rwa [stepTimes, same]
  · intro h
    exact (stepsFrom_of_advances h #[]).2

theorem stepTimes_of_advances (h : Advances m k m') :
    (m.stepTimes k).machine = m' ∧ (m.stepTimes k).answer = .ok none :=
  stepsFrom_of_advances h #[]

/-! ### Runs -/

theorem runFrom_succ_of_advance (first : m.step.answer = .ok none) (fuel : Nat)
    (events : Array Event) :
    runFrom (fuel + 1) events m = runFrom fuel (events ++ m.step.events) m.step.machine := by
  simp only [runFrom, first]

theorem runFrom_succ_of_end (ends : m.step.answer ≠ .ok none) (fuel : Nat) (events : Array Event) :
    runFrom (fuel + 1) events m =
      some { m.step with events := (events ++ m.step.events).toList } := by
  rw [runFrom]
  dsimp only
  split
  · rename_i answer
    exact absurd answer ends
  · rfl

theorem runFrom_of_advances (h : Advances m k x) (ends : x.step.answer ≠ .ok none)
    (events : Array Event) :
    ∃ r, (∀ fuel, k < fuel → runFrom fuel events m = some r) ∧
      r.machine = x.step.machine ∧ r.answer = x.step.answer := by
  induction h generalizing events with
  | refl m =>
    refine ⟨{ m.step with events := (events ++ m.step.events).toList }, ?_, rfl, rfl⟩
    intro fuel pos
    obtain ⟨fuel, rfl⟩ := Nat.exists_eq_add_one_of_ne_zero (Nat.ne_of_gt pos)
    exact runFrom_succ_of_end ends fuel events
  | @step m x k first rest ih =>
    obtain ⟨r, runs, machine, answer⟩ := ih ends (events ++ m.step.events)
    refine ⟨r, ?_, machine, answer⟩
    intro fuel lt
    obtain ⟨fuel, rfl⟩ := Nat.exists_eq_add_one_of_ne_zero (Nat.ne_of_gt (Nat.zero_lt_of_lt lt))
    rw [runFrom_succ_of_advance first]
    exact runs fuel (Nat.lt_of_succ_lt_succ lt)

/-- A chain and one step that ends it is a run, with any fuel that lasts so long. -/
theorem run_of_advances (h : Advances m k x) (ends : x.step.answer ≠ .ok none) :
    ∃ r, (∀ fuel, k < fuel → m.run fuel = some r) ∧
      r.machine = x.step.machine ∧ r.answer = x.step.answer :=
  runFrom_of_advances h ends #[]

theorem advances_of_runFrom {fuel : Nat} {events : Array Event} {r : Report σ}
    (h : runFrom fuel events m = some r) :
    ∃ k x, k < fuel ∧ Advances m k x ∧ x.step.answer ≠ .ok none ∧
      r.machine = x.step.machine ∧ r.answer = x.step.answer := by
  -- Each step of the chain takes one unit of the fuel, and the last step one more.
  induction fuel generalizing events m with
  | zero => cases h
  | succ fuel ih =>
    by_cases first : m.step.answer = .ok none
    · rw [runFrom_succ_of_advance first] at h
      obtain ⟨k, x, lt, chain, rest⟩ := ih h
      exact ⟨k + 1, x, Nat.succ_lt_succ lt, .step first chain, rest⟩
    · rw [runFrom_succ_of_end first] at h
      cases h
      exact ⟨0, m, Nat.succ_pos _, .refl m, first, rfl, rfl⟩

/-- A run is a chain and one step that ends it. -/
theorem run_eq_some {fuel : Nat} {r : Report σ} (h : m.run fuel = some r) :
    ∃ k x, k < fuel ∧ Advances m k x ∧ x.step.answer ≠ .ok none ∧
      r.machine = x.step.machine ∧ r.answer = x.step.answer :=
  advances_of_runFrom h

/-! ### Any number of steps, whatever they answer -/

/-- The machine after a number of steps. A step that is refused does not keep the next from being
taken. -/
def later : Nat → Machine σ → Machine σ
  | 0, m => m
  | k + 1, m => later k m.step.machine

theorem later_succ (k : Nat) (m : Machine σ) : m.later (k + 1) = (m.later k).step.machine := by
  induction k generalizing m with
  | zero => rfl
  | succ k ih => exact ih m.step.machine

/-- What every step keeps is kept by any number of them. -/
theorem later_invariant {P : Machine σ → Prop} (kept : ∀ m, P m → P m.step.machine) (h : P m)
    (k : Nat) : P (m.later k) := by
  induction k with
  | zero => exact h
  | succ k ih =>
    rw [later_succ]
    exact kept _ ih

theorem Coherent.later (h : m.Coherent) (k : Nat) : (m.later k).Coherent :=
  later_invariant (fun _ coherent => coherent.step) h k

theorem maxSteps_later (m : Machine σ) (k : Nat) : (m.later k).maxSteps = m.maxSteps :=
  later_invariant (P := fun x => x.maxSteps = m.maxSteps)
    (fun x same => x.maxSteps_step.trans same) rfl k

/-- A chain of steps passes through machines that all go on. -/
theorem advances_iff :
    Advances m k x ↔ x = m.later k ∧ ∀ j < k, (m.later j).step.answer = .ok none := by
  induction k generalizing m with
  | zero =>
    constructor
    · intro chain
      cases chain
      exact ⟨rfl, by simp⟩
    · rintro ⟨rfl, -⟩
      exact .refl _
  | succ k ih =>
    constructor
    · intro chain
      cases chain with
      | step first rest =>
        obtain ⟨final, goes⟩ := ih.mp rest
        refine ⟨final, fun j lt => ?_⟩
        cases j with
        | zero => exact first
        | succ j => exact goes j (Nat.lt_of_succ_lt_succ lt)
    · rintro ⟨final, goes⟩
      refine .step (goes 0 (Nat.succ_pos k)) (ih.mpr ⟨final, fun j lt => ?_⟩)
      exact goes (j + 1) (Nat.succ_lt_succ lt)

/-- A run passes through machines that go on, up to one that does not. -/
theorem later_of_run {fuel : Nat} {r : Report σ} (h : m.run fuel = some r) :
    ∃ k < fuel, (∀ j < k, (m.later j).step.answer = .ok none) ∧
      (m.later k).step.answer ≠ .ok none ∧
      r.machine = m.later (k + 1) ∧ r.answer = (m.later k).step.answer := by
  obtain ⟨k, x, lt, chain, ends, machine, answer⟩ := run_eq_some h
  obtain ⟨rfl, goes⟩ := advances_iff.mp chain
  exact ⟨k, lt, goes, ends, by rw [machine, later_succ], answer⟩

theorem run_of_later {fuel : Nat} (lt : k < fuel)
    (goes : ∀ j < k, (m.later j).step.answer = .ok none)
    (ends : (m.later k).step.answer ≠ .ok none) :
    ∃ r, m.run fuel = some r ∧ r.machine = m.later (k + 1) ∧
      r.answer = (m.later k).step.answer := by
  obtain ⟨r, runs, machine, answer⟩ := run_of_advances (advances_iff.mpr ⟨rfl, goes⟩) ends
  exact ⟨r, runs fuel lt, by rw [machine, later_succ], answer⟩

end Intcode.Machine
