import Mathlib.Tactic.Common
import Intcode.Proofs.Atomicity
import Intcode.Proofs.Run
import Intcode.Proofs.Word

/-!
# Budgets of steps

A budget that is not used up makes no difference to a step. So a run with a budget is the run
without one as long as that takes no more steps than the budget allows, and otherwise it stops with
a fault where the run without a budget stands after so many steps.

A step that halts counts and a step that faults does not. A run that faults therefore needs one step
more than it has completed, and a run that halts does not.

## Main definitions

* `Machine.withBudget` — the machine with another budget
* `Machine.ExhaustedAt` — a run that was stopped by its budget
* `Machine.WithinBudget` — what a budget makes of a run that ends without one

## Main results

* `Machine.step_withBudget` — a budget that is not used up makes no difference
* `Machine.run_with_budget` — what a run with a budget comes to
-/

namespace Intcode

/-- The report with another budget of its machine. -/
def Report.withBudget {σ : Type} (r : Report σ) (budget : Option Int) : Report σ :=
  { r with machine := { r.machine with maxSteps := budget } }

namespace Machine

variable {σ : Type} {m x : Machine σ} {budget : Option Int} {limit k : Nat}
  {program : Array Int} {port : σ} {tracing : Bool}

/-- The machine with another budget. -/
def withBudget (m : Machine σ) (budget : Option Int) : Machine σ := { m with maxSteps := budget }

theorem abort_withBudget (m : Machine σ) (stop : Stop) (events : List Event) :
    (m.withBudget budget).abort stop events = (m.abort stop events).withBudget budget := by
  cases stop <;> rfl

theorem halt_withBudget (m : Machine σ) (events : List Event) :
    (m.withBudget budget).halt events = (m.halt events).withBudget budget := by
  cases first : m.memory.read 0 with
  | ok value =>
    rw [halt_of_read first, halt_of_read (m := m.withBudget budget) first]
    rfl
  | error stop =>
    rw [halt_of_unread first, halt_of_unread (m := m.withBudget budget) first]
    rfl

theorem fetch_withBudget (spare : m.exhausted? = none)
    (spare' : (m.withBudget budget).exhausted? = none) :
    (m.withBudget budget).fetch = m.fetch := by
  unfold fetch
  rw [spare, spare']
  rfl

theorem recorded_withBudget (m : Machine σ) (entry : Option String) :
    (m.withBudget budget).recorded entry = (m.recorded entry).withBudget budget := by
  cases entry <;> rfl

theorem conclude_withBudget (m : Machine σ) (effect : Effect σ) (events : List Event) :
    (m.withBudget budget).conclude effect events =
      (m.conclude effect events).withBudget budget := by
  cases change : effect.change with
  | error stop =>
    rw [conclude_of_error change, conclude_of_error change]
    exact abort_withBudget { m with memory := effect.memory, outputs := effect.outputs,
                                    port := effect.port } stop _
  | ok c =>
    cases next : c.next with
    | some pc =>
      have goes : c.next.isSome := by rw [next]; rfl
      rw [conclude_of_isSome change goes, conclude_of_isSome change goes]
      rfl
    | none =>
      rw [conclude_of_none change next, conclude_of_none change next]
      exact halt_withBudget (m.completed effect.port c) _

theorem raised_stepLimit (short : limit < 10 ^ Numeral.digitLimit) :
    (Cause.stepLimit limit).raised = .fault (.stepLimit limit) := by
  have writable : Numeral.Writable (limit : Int) := Numeral.writable_iff.mpr short
  have worded : (Cause.stepLimit limit).text?.isSome := by
    rw [Cause.text?, Numeral.write?_of_writable writable]
    rfl
  rw [Cause.raised, if_pos worded]

theorem exhausted?_of_none (h : m.maxSteps = none) : m.exhausted? = none := by
  rw [exhausted?, h]
  rfl

theorem exhausted?_withBudget (m : Machine σ) (limit : Nat) :
    (m.withBudget (some (limit : Int))).exhausted? =
      if limit ≤ m.steps then some (limit : Int) else none := by
  simp [exhausted?, withBudget, Option.filter]

variable [Port σ]

theorem perform_withBudget (m : Machine σ) (command : Command Int) :
    (m.withBudget budget).perform command = m.perform command := by
  cases command <;> rfl

/-- Between budgets that are not used up, a step makes no difference. -/
theorem step_withBudget (spare : m.exhausted? = none)
    (spare' : (m.withBudget budget).exhausted? = none) :
    (m.withBudget budget).step = m.step.withBudget budget := by
  by_cases running : m.state = .running
  · have same := fetch_withBudget spare spare'
    cases fetch : m.fetch with
    | error stop =>
      rw [step_of_unfetched running fetch,
        step_of_unfetched (m := m.withBudget budget) running (same.trans fetch)]
      exact abort_withBudget m stop []
    | ok command =>
      cases trace : m.traceEntry command with
      | error why =>
        rw [step_of_untraced running fetch trace,
          step_of_untraced (m := m.withBudget budget) running (same.trans fetch) trace]
        rfl
      | ok entry =>
        rw [step_of_fetched running fetch trace,
          step_of_fetched (m := m.withBudget budget) running (same.trans fetch) trace,
          recorded_withBudget, perform_withBudget, conclude_withBudget]
  · rw [step_of_stopped running, step_of_stopped (m := m.withBudget budget) running]
    rfl

/-! ### Runs within a budget -/

/-- Before a budget is used up, a step goes as it goes without one. -/
theorem step_withBudget_of_lt (free : m.maxSteps = none) (limit : Nat) (lt : m.steps < limit) :
    (m.withBudget (some (limit : Int))).step = m.step.withBudget (some (limit : Int)) := by
  refine step_withBudget (exhausted?_of_none free) ?_
  rw [exhausted?_withBudget, if_neg (Nat.not_le_of_gt lt)]

/-- Once a budget is used up, a step is a fault. -/
theorem step_withBudget_of_le (running : m.state = .running) (le : limit ≤ m.steps)
    (short : limit < 10 ^ Numeral.digitLimit) :
    (m.withBudget (some (limit : Int))).step =
      (m.withBudget (some (limit : Int))).fail (.stepLimit limit) [] := by
  have fetch : (m.withBudget (some (limit : Int))).fetch = .error (.fault (.stepLimit limit)) := by
    unfold Machine.fetch
    rw [exhausted?_withBudget, if_pos le]
    exact congrArg Except.error (raised_stepLimit short)
  exact step_of_unfetched (m := m.withBudget (some (limit : Int))) running fetch

/-- As many steps as a budget allows go as they go without one. -/
theorem Advances.withBudget (h : Advances m k x) (running : m.Running) (free : m.maxSteps = none)
    (limit : Nat) (le : m.steps + k ≤ limit) :
    Advances (m.withBudget (some (limit : Int))) k (x.withBudget (some (limit : Int))) := by
  induction h with
  | refl m => exact .refl _
  | @step m x k first rest ih =>
    have same := step_withBudget_of_lt free limit (by omega)
    refine .step ?_ ?_
    · rw [same]
      exact first
    · rw [same]
      obtain ⟨next, steps⟩ := running.step first
      exact ih next ((maxSteps_step m).trans free) (by rw [steps]; omega)

/-- A run that ends before its budget is used up is the run without one. -/
theorem run_start_of_lt (chain : Advances (start program port none tracing) k x)
    (ends : x.step.answer ≠ .ok none) (lt : k < limit) :
    ∃ r, (∀ fuel, k < fuel → (start program port (some (limit : Int)) tracing).run fuel = some r) ∧
      r.machine = x.step.machine.withBudget (some (limit : Int)) ∧ r.answer = x.step.answer := by
  have started := running_start program port none tracing
  have steps : x.steps = k := (chain.steps started).trans (Nat.zero_add k)
  have within := chain.withBudget started rfl limit (by rw [← chain.steps started]; omega)
  have same := step_withBudget_of_lt chain.maxSteps limit (by omega)
  have ends' : (x.withBudget (some (limit : Int))).step.answer ≠ .ok none := by
    rw [same]
    exact ends
  obtain ⟨r, runs, machine, answer⟩ := run_of_advances within ends'
  rw [same] at machine answer
  exact ⟨r, runs, machine, answer⟩

/-- The run `r` was stopped by its budget `limit` where the steps `cut` have led, which left the
machine running. -/
structure ExhaustedAt (limit : Nat) (cut r : Report σ) : Prop where
  running : cut.answer = .ok none
  answer : r.answer = .ok (some
    { ending := .faulted ⟨.stepLimit limit, some cut.machine.pc⟩ cut.machine.pc,
      memory := cut.machine.memory, outputs := cut.machine.outputs, steps := limit })
  steps : r.machine.steps = limit
  pc : r.machine.pc = cut.machine.pc
  memory : r.machine.memory = cut.machine.memory
  outputs : r.machine.outputs = cut.machine.outputs
  port : r.machine.port = cut.machine.port

/-- A run that goes on for as many steps as its budget allows is stopped there. -/
theorem run_start_of_le (chain : Advances (start program port none tracing) limit x)
    (short : limit < 10 ^ Numeral.digitLimit) :
    ∃ r, (∀ fuel, limit < fuel →
        (start program port (some (limit : Int)) tracing).run fuel = some r) ∧
      ExhaustedAt limit ((start program port none tracing).stepTimes limit) r := by
  have started := running_start program port none tracing
  have steps : x.steps = limit := (chain.steps started).trans (Nat.zero_add limit)
  have within := chain.withBudget started rfl limit (by rw [← chain.steps started]; omega)
  have last := step_withBudget_of_le (chain.running started).state (Nat.le_of_eq steps.symm) short
  have ends : (x.withBudget (some (limit : Int))).step.answer ≠ .ok none := by
    rw [last]
    intro goes
    cases goes
  obtain ⟨r, runs, machine, answer⟩ := run_of_advances within ends
  rw [last] at machine answer
  obtain ⟨cut, running⟩ := stepTimes_of_advances chain
  refine ⟨r, runs, running, ?_, ?_, ?_, ?_, ?_, ?_⟩
  · rw [answer, cut, ← steps]
    rfl
  all_goals rw [machine]
  · exact steps
  all_goals rw [cut]; rfl

/-- What becomes, within a budget, of a run `s` that takes `calls` steps without one: the run `r`
has the same result if the budget allows so many, and otherwise is stopped where `cut` has led. -/
def WithinBudget (limit calls : Nat) (s cut r : Report σ) : Prop :=
  if calls ≤ limit then
    r.answer = s.answer ∧ r.machine = s.machine.withBudget (some (limit : Int))
  else ExhaustedAt limit cut r

/-- A run that ends without a budget is within one what the number of its steps makes of it. -/
theorem run_start_within (chain : Advances (start program port none tracing) k x)
    (ends : x.step.answer ≠ .ok none) (short : limit < 10 ^ Numeral.digitLimit) {s : Report σ}
    (machine : s.machine = x.step.machine) (answer : s.answer = x.step.answer) :
    ∃ r, (∀ fuel, limit < fuel →
        (start program port (some (limit : Int)) tracing).run fuel = some r) ∧
      WithinBudget limit (k + 1) s ((start program port none tracing).stepTimes limit) r := by
  by_cases lt : k + 1 ≤ limit
  · obtain ⟨r, runs, machine', answer'⟩ := run_start_of_lt chain ends lt
    refine ⟨r, fun fuel more => runs fuel (Nat.lt_trans lt more), ?_⟩
    rw [WithinBudget, if_pos lt, answer, machine]
    exact ⟨answer', machine'⟩
  · obtain ⟨y, cut⟩ := chain.take (Nat.le_of_not_lt lt : limit ≤ k)
    obtain ⟨r, runs, exhausted⟩ := run_start_of_le cut short
    refine ⟨r, runs, ?_⟩
    rw [WithinBudget, if_neg lt]
    exact exhausted

/-- With a budget, a run ends after at most one step more than it allows. -/
theorem exists_run_start (program : Array Int) (port : σ) (tracing : Bool)
    (short : limit < 10 ^ Numeral.digitLimit) :
    ∃ r, ∀ fuel, limit < fuel →
      (start program port (some (limit : Int)) tracing).run fuel = some r := by
  rcases advances_or_ends (start program port none tracing) limit with
    ⟨x, chain⟩ | ⟨k, x, lt, chain, ends⟩
  · obtain ⟨r, runs, -⟩ := run_start_of_le chain short
    exact ⟨r, runs⟩
  · obtain ⟨r, runs, -⟩ := run_start_of_lt chain ends lt
    exact ⟨r, fun fuel more => runs fuel (Nat.lt_trans lt more)⟩

/-- The result of a run with a budget is fixed by the run without one. The run ends after at most
one step more than the budget allows. If without a budget the run halts, it has the same result when
its steps are within the budget; if it faults or is refused, when one step more is. Otherwise, as
when it goes on, it is stopped with a fault where the run without a budget stands after so many
steps. -/
theorem run_with_budget (program : Array Int) (nonempty : program ≠ #[]) (port : σ) (tracing : Bool)
    (limit : Nat) (short : limit < 10 ^ Numeral.digitLimit) :
    ∃ free bounded, create program port none tracing = .ok free ∧
      create program port (some (limit : Int)) tracing = .ok bounded ∧
      ∃ r, (∀ fuel, limit < fuel → bounded.run fuel = some r) ∧
        (∀ fuel s, free.run fuel = some s →
          (∀ outcome value, s.answer = .ok (some outcome) → outcome.ending = .halted value →
            WithinBudget limit outcome.steps s (free.stepTimes limit) r) ∧
          (∀ outcome fault pc, s.answer = .ok (some outcome) →
            outcome.ending = .faulted fault pc →
            WithinBudget limit (outcome.steps + 1) s (free.stepTimes limit) r) ∧
          (∀ why, s.answer = .error why →
            WithinBudget limit (s.machine.steps + 1) s (free.stepTimes limit) r)) ∧
        (∀ k, limit ≤ k → (free.stepTimes k).answer = .ok none →
          ExhaustedAt limit (free.stepTimes limit) r) := by
  have nonneg : ∀ budget, some (limit : Int) = some budget → 0 ≤ budget := by
    rintro _ ⟨⟩
    exact Int.natCast_nonneg limit
  refine ⟨start program port none tracing, start program port (some (limit : Int)) tracing,
    create_eq_ok_iff.mpr ⟨nonempty, nofun, rfl⟩, create_eq_ok_iff.mpr ⟨nonempty, nonneg, rfl⟩, ?_⟩
  obtain ⟨r, runs⟩ := exists_run_start program port tracing short
  -- The lemmas each bring a run of their own. It is this one, since both end within the same fuel.
  have unique {r' : Report σ} (runs' : ∀ fuel, limit < fuel →
      (start program port (some (limit : Int)) tracing).run fuel = some r') : r' = r :=
    Option.some.inj ((runs' _ limit.lt_succ_self).symm.trans (runs _ limit.lt_succ_self))
  refine ⟨r, runs, fun fuel s run => ?_, fun k le going => ?_⟩
  · obtain ⟨k, x, -, chain, ends, machine, answer⟩ := run_eq_some run
    have started := running_start program port none tracing
    have running := (chain.running started).state
    have within : WithinBudget limit (x.steps + 1) s
        ((start program port none tracing).stepTimes limit) r := by
      have steps : x.steps = k := (chain.steps started).trans (Nat.zero_add k)
      obtain ⟨r', runs', within⟩ := run_start_within chain ends short machine answer
      rwa [steps, ← unique runs']
    -- The step that ended the run is among the steps of the outcome only if it was a halt.
    refine ⟨fun outcome value ended ending => ?_, fun outcome fault pc ended ending => ?_,
      fun why refused => ?_⟩
    · have steps := steps_of_outcome running (answer.symm.trans ended)
      rw [ending] at steps
      rwa [steps]
    · have steps := steps_of_outcome running (answer.symm.trans ended)
      rw [ending] at steps
      rwa [steps]
    · have keeps := (step_of_refused running (answer.symm.trans refused)).keeps
      rwa [machine, keeps.steps]
  · obtain ⟨x, cut⟩ := ((stepTimes_eq_none_iff (running_start ..)).mp going).take le
    obtain ⟨r', runs', exhausted⟩ := run_start_of_le cut short
    rwa [← unique runs']

/-- Two steps are enough for a program that halts with its second, and one is not enough for a
program that faults after its first. -/
theorem run_with_budget_short :
    (∃ r, (start #[1101, 1, 1, 0, 99] (⟨[], #[]⟩ : Port.Scripted) (some 2) false).run 3 = some r ∧
      r.answer = .ok (some
        { ending := .halted 2, memory := ⟨#[2, 1, 1, 0, 99]⟩, outputs := #[], steps := 2 })) ∧
    (∃ r, (start #[1101, 1, 1, 0] (⟨[], #[]⟩ : Port.Scripted) (some 1) false).run 2 = some r ∧
      r.answer = .ok (some
        { ending := .faulted ⟨.stepLimit 1, some 4⟩ 4, memory := ⟨#[2, 1, 1, 0]⟩, outputs := #[],
          steps := 1 })) := by
  constructor
  · obtain ⟨free, bounded, created, created', r, runs, ends, -⟩ :=
      run_with_budget #[1101, 1, 1, 0, 99] (by decide) (⟨[], #[]⟩ : Port.Scripted) false 2
        (by decide +kernel)
    obtain ⟨-, -, rfl⟩ := create_eq_ok_iff.mp created
    obtain ⟨-, -, rfl⟩ := create_eq_ok_iff.mp created'
    refine ⟨r, runs 3 (by decide), ?_⟩
    have answers : ((start #[1101, 1, 1, 0, 99] (⟨[], #[]⟩ : Port.Scripted) none false).run 2).map
        (·.answer) = some (.ok (some
          { ending := .halted 2, memory := ⟨#[2, 1, 1, 0, 99]⟩, outputs := #[], steps := 2 })) := by
      decide +kernel
    obtain ⟨s, run, answer⟩ := Option.map_eq_some_iff.mp answers
    exact ((ends 2 s run).1 _ 2 answer rfl).1.trans answer
  · obtain ⟨free, bounded, created, created', r, runs, -, going⟩ :=
      run_with_budget #[1101, 1, 1, 0] (by decide) (⟨[], #[]⟩ : Port.Scripted) false 1
        (by decide +kernel)
    obtain ⟨-, -, rfl⟩ := create_eq_ok_iff.mp created
    obtain ⟨-, -, rfl⟩ := create_eq_ok_iff.mp created'
    refine ⟨r, runs 2 (by decide), ?_⟩
    have cut : let s := (start #[1101, 1, 1, 0] (⟨[], #[]⟩ : Port.Scripted) none false).stepTimes 1
        s.answer = .ok none ∧ s.machine.pc = 4 ∧ s.machine.memory = ⟨#[2, 1, 1, 0]⟩ ∧
          s.machine.outputs = #[] := by
      decide +kernel
    obtain ⟨running, pc, memory, outputs⟩ := cut
    rw [(going 1 (Nat.le_refl 1) running).answer, pc, memory, outputs]
    rfl

end Machine

end Intcode
