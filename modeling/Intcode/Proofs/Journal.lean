import Intcode.Machine.Journal
import Intcode.Proofs.Run
import Intcode.Proofs.Word

/-!
# What a listener hears of a run

The events of a step are details, followed by the outcome if the step has stopped the machine. Only
the outcome may be impossible to put into words, and a listener who would hear it is then refused
the report of the step, although the machine has stopped.

A fault is raised only if its cause can be worded, so a run that ends with one can also report it,
as long as the number of steps and the program counter can be written. Warnings are the only events
that a listener hears who is deaf to ordinary ones, and a run gives one warning at most: that of the
fault it ends with. Such a listener is therefore not refused the report of a run.

## Main definitions

* `Stop.Worded` — a stop that is no fault without a wording
* `Outcome.event`, `Outcome.figures` — the event of an outcome, and the numbers in it
* `Machine.Unreported` — the next step stops the machine, and cannot report it to a listener
* `Report.Honest` — a report that warns of nothing but the fault it ends with

## Main results

* `Machine.worded_of_fetch`, `Machine.worded_of_perform` — whatever stops an instruction is worded
* `Machine.events_step` — the events of a step are details and then its outcome
* `Machine.answer_heardBy_step` — when a listener is refused the report of a step
* `Machine.honest_step`, `Machine.honest_run` — steps and runs are reported honestly
* `Machine.message?_of_run` — a run that ends with a fault can be reported
* `Report.heardBy_of_honest` — who hears warnings only hears all that there is
-/

namespace Intcode

/-! ### Faults have wordings -/

/-- A stop that is no fault without a wording. -/
def Stop.Worded (stop : Stop) : Prop := ∀ cause, stop = .fault cause → cause.text?.isSome

theorem Stop.worded_refused (why : Refusal) : (Stop.refused why).Worded := by
  intro cause same
  cases same

theorem Cause.worded_raised (c : Cause) : c.raised.Worded := by
  intro cause same
  unfold raised at same
  split at same
  · cases same
    assumption
  · cases same

theorem Port.Trouble.worded_stop (trouble : Port.Trouble) : trouble.stop.Worded := by
  cases trouble with
  | failure f => exact Cause.worded_raised _
  | refused why => exact Stop.worded_refused why

theorem Command.worded_of_ofWindow {cells : List Int} {stop : Stop}
    (h : Command.ofWindow cells = .error stop) : stop.Worded := by
  cases cells with
  | nil =>
    rw [← Except.error.inj h]
    exact Cause.worded_raised _
  | cons word rest =>
    rw [ofWindow, Word.decode_eq_ofNumber] at h
    cases number : Word.ofNumber word with
    | error c =>
      rw [number] at h
      rw [← Except.error.inj h]
      exact Cause.worded_raised c
    | ok w =>
      rw [number] at h
      change ofWord w rest = _ at h
      unfold ofWord at h
      split at h
      · cases h
      · rw [← Except.error.inj h]
        exact Cause.worded_raised _

namespace Machine

variable {σ : Type} {m : Machine σ} {command : Command Int} {stop : Stop}

theorem worded_of_fetch (h : m.fetch = .error stop) : stop.Worded := by
  cases budget : m.exhausted? with
  | some limit =>
    rw [fetch, budget] at h
    rw [← Except.error.inj h]
    exact Cause.worded_raised _
  | none =>
    by_cases inside : m.memory.inBounds m.pc
    · rw [fetch_of_inBounds budget inside] at h
      exact Command.worded_of_ofWindow h
    · rw [fetch, budget] at h
      dsimp only at h
      rw [if_neg inside] at h
      rw [← Except.error.inj h]
      exact Cause.worded_raised _

variable [Port σ]

theorem worded_of_perform (h : (m.perform command).change = .error stop) : stop.Worded := by
  have hindrance := hindered h
  cases hindrance with
  | outOfBounds | writeToImmediate => exact Cause.worded_raised _
  | unserved | undelivered => exact Port.Trouble.worded_stop _

/-- A step that ends with a fault is at fault where the machine is, and has a wording for the
cause. -/
theorem fault_of_step (running : m.state = .running) {outcome : Outcome} {fault : Fault} {pc : Int}
    (answer : m.step.answer = .ok (some outcome)) (ending : outcome.ending = .faulted fault pc) :
    fault.cause.text?.isSome ∧ fault.pc = some m.pc ∧ pc = m.pc := by
  have way := m.stepped running
  generalize m.step = r at way answer
  cases way with
  | @unfetched stop fetch =>
    cases stop with
    | refused why => cases answer
    | fault cause =>
      cases answer
      cases ending
      exact ⟨worded_of_fetch fetch cause rfl, rfl, rfl⟩
  | untraced fetch trace => cases answer
  | @stopped command entry stop fetch trace change =>
    cases stop with
    | refused why => cases answer
    | fault cause =>
      cases answer
      cases ending
      cases entry <;> exact ⟨worded_of_perform change cause rfl, rfl, rfl⟩
  | advanced fetch trace effect goes => cases answer
  | halted fetch trace effect ends first =>
    cases answer
    cases ending

end Machine

/-! ### The events of a step -/

/-- The event of an outcome at a program counter. -/
def Outcome.event (o : Outcome) (pc : Int) : Event :=
  match o.ending with
  | .halted value => .halted pc o.steps value o.outputs.size
  | .faulted fault _ => .faulted o.steps fault

/-- The numbers in the event of an outcome. -/
def Outcome.figures (o : Outcome) (pc : Int) : List Int :=
  match o.ending with
  | .halted value => [pc, o.steps, value, o.outputs.size]
  | .faulted .. => [o.steps, pc]

/-- The event of an outcome can be put into words if all numbers in it can be written. -/
theorem Outcome.record?_event (o : Outcome) (pc : Int)
    (worded : ∀ fault site, o.ending = .faulted fault site →
      fault.cause.text?.isSome ∧ fault.pc = some pc) :
    (o.event pc).record?.isSome ↔ ∀ n ∈ o.figures pc, Numeral.Writable n := by
  unfold event figures
  cases ending : o.ending with
  | halted value =>
    simp only [Event.record?, List.mem_cons, List.not_mem_nil, or_false, forall_eq_or_imp, forall_eq,
      ← Numeral.write?_isSome_iff]
    cases Numeral.write? pc <;> cases Numeral.write? o.steps <;> cases Numeral.write? value <;>
      cases Numeral.write? o.outputs.size <;> simp
  | faulted fault site =>
    obtain ⟨text, place⟩ := worded fault site ending
    obtain ⟨text, worded⟩ := Option.isSome_iff_exists.mp text
    simp only [Event.record?, Fault.message?, worded, place, List.mem_cons, List.not_mem_nil,
      or_false, forall_eq_or_imp, forall_eq, ← Numeral.write?_isSome_iff]
    cases Numeral.write? o.steps <;> cases Numeral.write? pc <;> simp

theorem Outcome.ending_of_event {o : Outcome} {pc : Int} {steps : Nat} {fault : Fault}
    (h : o.event pc = .faulted steps fault) :
    o.steps = steps ∧ ∃ site, o.ending = .faulted fault site := by
  unfold event at h
  cases ending : o.ending with
  | halted value =>
    rw [ending] at h
    cases h
  | faulted fault' site =>
    rw [ending] at h
    cases h
    exact ⟨rfl, site, rfl⟩

/-- Events of the level of details. -/
def Event.Details (events : List Event) : Prop := ∀ e ∈ events, e.level = Log.Level.debug

/-- Details can always be put into words. -/
theorem Event.record?_of_details {e : Event} (h : e.level = Log.Level.debug) :
    e.record?.isSome := by
  cases e with
  | traced | noted => rfl
  | halted => exact absurd h (show ¬ Log.Level.info = Log.Level.debug by decide)
  | faulted => exact absurd h (show ¬ Log.Level.warning = Log.Level.debug by decide)

namespace Machine

variable {σ : Type} {m : Machine σ} [Port σ] {hears : Int → Bool}

theorem details_details (m : Machine σ) (command : Command Int) (entry : Option String) :
    Event.Details (m.details command entry) := by
  intro e found
  rcases List.mem_append.mp found with traced | noted
  · obtain ⟨line, -, rfl⟩ := List.mem_map.mp traced
    rfl
  · obtain ⟨text, -, rfl⟩ := List.mem_map.mp noted
    rfl

/-- The events of a step of a running machine are details, and then its outcome if it has one. -/
theorem events_step (running : m.state = .running) :
    ∃ details, Event.Details details ∧ m.step.events = details ++
      (m.step.answer.toOption.join.map fun outcome => outcome.event m.pc).toList := by
  have way := m.stepped running
  generalize m.step = r at way
  cases way with
  | @unfetched stop fetch => cases stop <;> exact ⟨[], List.forall_mem_nil _, rfl⟩
  | untraced fetch trace => exact ⟨[], List.forall_mem_nil _, rfl⟩
  | @stopped command entry stop fetch trace change =>
    refine ⟨_, m.details_details command entry, ?_⟩
    cases stop with
    | fault cause => cases entry <;> rfl
    | refused why => exact (List.append_nil _).symm
  | @advanced command entry change fetch trace effect goes =>
    exact ⟨_, m.details_details command entry, (List.append_nil _).symm⟩
  | @halted command entry change value fetch trace effect ends first =>
    refine ⟨_, m.details_details command entry, ?_⟩
    simp only [haltWith, completed, ends]
    cases entry <;> rfl

/-- The next step stops the machine, but a number in its outcome cannot be written for a listener
who hears of it. -/
def Unreported (m : Machine σ) (hears : Int → Bool) : Prop :=
  ∃ outcome, m.step.answer = .ok (some outcome) ∧ hears (outcome.event m.pc).level ∧
    ∃ n ∈ outcome.figures m.pc, ¬ Numeral.Writable n

theorem any_unworded_iff (running : m.state = .running) :
    (m.step.events.any fun e => hears e.level && e.record?.isNone) = true ↔ m.Unreported hears := by
  obtain ⟨details, quiet, events⟩ := events_step running
  have worded : (details.any fun e => hears e.level && e.record?.isNone) = false := by
    refine List.any_eq_false.mpr fun e found => ?_
    simp [Option.isSome_iff_ne_none.mp (Event.record?_of_details (quiet e found))]
  rw [events, List.any_append, worded, Bool.false_or]
  unfold Unreported
  cases answer : m.step.answer with
  | error why => simp [Except.toOption]
  | ok outcome? =>
    cases outcome? with
    | none => simp [Except.toOption]
    | some outcome =>
      -- A fault has a wording, so that the numbers alone matter.
      have record := outcome.record?_event m.pc fun fault site ending =>
        have ⟨text, place, _⟩ := fault_of_step running answer ending
        ⟨text, place⟩
      simp [Except.toOption, ← Option.not_isSome_iff_eq_none, record]

/-- A listener is refused the report of a step exactly when it cannot be told of the outcome. -/
theorem answer_heardBy_step (running : m.state = .running) (hears : Int → Bool) :
    m.Unreported hears ∧ (m.step.heardBy hears).answer = .error .numberTooLong ∨
      ¬ m.Unreported hears ∧ (m.step.heardBy hears).answer = m.step.answer := by
  unfold Report.heardBy
  by_cases unworded : m.Unreported hears
  · rw [if_pos ((any_unworded_iff running).mpr unworded)]
    exact .inl ⟨unworded, rfl⟩
  · rw [if_neg (mt (any_unworded_iff running).mp unworded)]
    exact .inr ⟨unworded, rfl⟩

end Machine

/-- Who listens makes no difference to the machine. -/
theorem Report.machine_heardBy {σ : Type} (hears : Int → Bool) (r : Report σ) :
    (r.heardBy hears).machine = r.machine := by
  unfold heardBy
  split <;> rfl

/-! ### Warnings -/

/-- A report that warns of nothing but the fault that it ends with. -/
def Report.Honest {σ : Type} (r : Report σ) : Prop :=
  ∀ steps fault, .faulted steps fault ∈ r.events →
    ∃ outcome pc, r.answer = .ok (some outcome) ∧ outcome.steps = steps ∧
      outcome.ending = .faulted fault pc

/-- Events among which there is no warning. -/
def Event.Harmless (events : List Event) : Prop := ∀ steps fault, .faulted steps fault ∉ events

theorem Event.harmless_append {events events' : List Event} :
    Harmless (events ++ events') ↔ Harmless events ∧ Harmless events' := by
  simp only [Harmless, List.mem_append, not_or, forall_and]

namespace Machine

variable {σ : Type} {m : Machine σ} [Port σ]

/-- A step warns of nothing but the fault that it ends with. -/
theorem honest_step (m : Machine σ) : m.step.Honest := by
  intro steps fault found
  by_cases running : m.state = .running
  · obtain ⟨details, quiet, events⟩ := events_step running
    rw [events] at found
    rcases List.mem_append.mp found with before | last
    · exact absurd (quiet _ before) (show ¬ Log.Level.warning = Log.Level.debug by decide)
    · obtain ⟨outcome, answered, reported⟩ := Option.map_eq_some_iff.mp (Option.mem_toList.mp last)
      obtain ⟨same, pc, ending⟩ := Outcome.ending_of_event reported
      refine ⟨outcome, pc, ?_, same, ending⟩
      cases answer : m.step.answer with
      | error why =>
        rw [answer] at answered
        cases answered
      | ok outcome? =>
        rw [answer] at answered
        exact congrArg Except.ok answered
  · rw [step_of_stopped running] at found
    exact absurd found List.not_mem_nil

/-- A step that leaves the machine running gives no warning. -/
theorem harmless_of_advance (goes : m.step.answer = .ok none) : Event.Harmless m.step.events := by
  intro steps fault found
  obtain ⟨outcome, pc, answer, -⟩ := m.honest_step steps fault found
  rw [goes] at answer
  cases answer

/-- A run warns of nothing but the fault that it ends with. -/
theorem honest_runFrom {fuel : Nat} {events : Array Event} {r : Report σ}
    (harmless : Event.Harmless events.toList) (ran : runFrom fuel events m = some r) :
    r.Honest := by
  -- No step before the last gives a warning, and the last one is honest.
  induction fuel generalizing events m with
  | zero => cases ran
  | succ fuel ih =>
    by_cases goes : m.step.answer = .ok none
    · rw [runFrom_succ_of_advance goes] at ran
      refine ih ?_ ran
      rw [Array.toList_appendList]
      exact Event.harmless_append.mpr ⟨harmless, harmless_of_advance goes⟩
    · rw [runFrom_succ_of_end goes] at ran
      rw [← Option.some.inj ran]
      intro steps fault found
      rw [Array.toList_appendList] at found
      rcases List.mem_append.mp found with before | last
      · exact absurd before (harmless steps fault)
      · exact m.honest_step steps fault last

theorem honest_run {fuel : Nat} {r : Report σ} (ran : m.run fuel = some r) : r.Honest :=
  honest_runFrom (by simp [Event.Harmless]) ran

/-- A run of a program that ends with a fault can be reported, if the program counter can be
written. -/
theorem message?_of_run {program : Array Int} {port : σ} {maxSteps : Option Int} {tracing : Bool}
    {fuel : Nat} {r : Report σ} (ran : (start program port maxSteps tracing).run fuel = some r)
    {outcome : Outcome} {fault : Fault} {pc : Int} (answer : r.answer = .ok (some outcome))
    (ending : outcome.ending = .faulted fault pc) (short : Numeral.Writable pc) :
    fault.message?.isSome := by
  obtain ⟨k, x, -, chain, -, -, last⟩ := run_eq_some ran
  have running := chain.running (running_start ..)
  rw [last] at answer
  obtain ⟨text, place, same⟩ := fault_of_step running.state answer ending
  obtain ⟨text, worded⟩ := Option.isSome_iff_exists.mp text
  have written := Numeral.write?_of_writable (same ▸ short)
  simp [Fault.message?, worded, place, written]

end Machine

/-! ### Listeners -/

/-- A listener who hears warnings only is not refused an honest report, if the fault that it ends
with can be reported. -/
theorem Report.heardBy_of_honest {σ : Type} {r : Report σ} {hears : Int → Bool}
    (deaf : ∀ level, hears level → Log.Level.warning ≤ level) (honest : r.Honest)
    (worded : ∀ outcome fault pc, r.answer = .ok (some outcome) →
      outcome.ending = .faulted fault pc →
        Numeral.Writable outcome.steps ∧ fault.message?.isSome) :
    r.heardBy hears = r := by
  refine if_neg ?_
  simp only [List.any_eq_true, Bool.and_eq_true, not_exists, not_and]
  intro e found heard
  have loud := deaf _ heard
  cases e with
  | traced | noted => exact absurd loud (show ¬ Log.Level.warning ≤ Log.Level.debug by decide)
  | halted => exact absurd loud (show ¬ Log.Level.warning ≤ Log.Level.info by decide)
  | faulted steps fault =>
    obtain ⟨outcome, pc, answer, rfl, ending⟩ := honest steps fault found
    obtain ⟨short, message⟩ := worded outcome fault pc answer ending
    obtain ⟨text, message⟩ := Option.isSome_iff_exists.mp message
    simp [Event.record?, Numeral.write?_of_writable short, message]

end Intcode
