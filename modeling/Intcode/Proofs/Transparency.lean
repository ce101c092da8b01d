import Intcode.Proofs.Trace

/-!
# Tracing is transparent

A trace is written while a machine runs, before each instruction is carried out, and the machine
does not look at it. As long as the lines can be written, a machine with a trace therefore does what
it does without one, on any port: it passes through the same states, and it reports the same to a
log but for the lines of the trace.

Only numbers of too many digits cannot be written. They are shown if they stand in the cells of the
instruction, and then a step with a trace is refused before it has done anything.

## Main definitions

* `Machine.untraced`, `Report.untraced` — a machine or a report without the trace
* `Machine.Overlong` — the next instruction has a cell of too many digits

## Main results

* `Machine.traceLine?_isSome_iff` — which instructions can be written to the trace
* `Machine.step_untraced` — a step without a trace, if the line can be written
* `Machine.stepTimes_untraced` — any number of steps without a trace
* `Machine.tracing_transparent` — both, from the start of a program and from any state
-/

namespace Intcode

/-! ### Lines that can be written -/

theorem isSome_mapM_iff {α β : Type} {f : α → Option β} {l : List α} :
    (l.mapM f).isSome ↔ ∀ a ∈ l, (f a).isSome := by
  induction l with
  | nil => simp
  | cons a l ih =>
    rw [List.mapM_cons, List.forall_mem_cons, ← ih]
    cases f a with
    | none => simp
    | some b => cases l.mapM f <;> simp

theorem Operand.text?_isSome_iff {o : Operand Int} :
    o.text?.isSome ↔ Numeral.Writable o.raw := by
  rw [← Numeral.write?_isSome_iff]
  cases o with
  | immediate value => cases written : Numeral.write? value <;> simp [text?, textBy?, raw, written]
  | position address =>
    cases written : Numeral.write? address <;> simp [text?, textBy?, raw, written]

/-- An instruction can be written if its operands can. -/
theorem Command.text?_isSome_iff {c : Command Int} :
    c.text?.isSome ↔ ∀ cell ∈ c.operands.map Operand.raw, Numeral.Writable cell := by
  have texts : (c.operands.mapM Operand.text?).isSome ↔
      ∀ cell ∈ c.operands.map Operand.raw, Numeral.Writable cell := by
    simp [isSome_mapM_iff, Operand.text?_isSome_iff]
  rw [← texts]
  change (c.textBy? Numeral.write?).isSome ↔
    (c.operands.mapM (Operand.textBy? Numeral.write?)).isSome
  unfold textBy?
  cases c.operands.mapM (Operand.textBy? Numeral.write?) <;> simp

namespace Machine

variable {σ : Type} {m t u : Machine σ} {command : Command Int}

theorem writable_pc (inside : m.memory.inBounds m.pc)
    (short : m.memory.size < 10 ^ Numeral.digitLimit) : Numeral.Writable m.pc := by
  obtain ⟨nonneg, below⟩ := Memory.inBounds_iff.mp inside
  rw [Numeral.writable_iff]
  omega

/-- The raw cells of the operands of an instruction are cells of the instruction. -/
theorem mem_slice_of_fetched (fetch : m.fetch = .ok command) :
    ∀ cell ∈ command.operands.map Operand.raw,
      cell ∈ m.memory.slice m.pc (m.pc + command.length) := by
  obtain ⟨-, inside, made⟩ := fetch_eq_ok fetch
  obtain ⟨word, rest, w, cells, -, resolved⟩ := Command.ofWindow_eq_ok made
  have arity : command.length - 1 = w.opcode.arity := by
    rw [Command.length, Command.opcode_of_ofWord? resolved, Opcode.length_eq, Nat.add_sub_cancel]
  intro cell found
  rw [slice_eq_cons inside cells, arity, ← Command.raws_of_ofWord? resolved]
  exact List.mem_cons_of_mem word found

/-- In a memory of a size that can be written, the instruction at the program counter can be written
to the trace exactly if each of its cells can. -/
theorem traceLine?_isSome_iff (fetch : m.fetch = .ok command)
    (short : m.memory.size < 10 ^ Numeral.digitLimit) :
    (m.traceLine? command).isSome ↔
      ∀ cell ∈ m.memory.slice m.pc (m.pc + command.length), Numeral.Writable cell := by
  have shown : ((m.memory.slice m.pc (m.pc + command.length)).mapM Numeral.write?).isSome ↔
      ∀ cell ∈ m.memory.slice m.pc (m.pc + command.length), Numeral.Writable cell := by
    simp only [isSome_mapM_iff, Numeral.write?_isSome_iff]
  have label := Numeral.write?_of_writable (writable_pc (fetch_eq_ok fetch).2.1 short)
  rw [← shown, traceLine?]
  cases raw : (m.memory.slice m.pc (m.pc + command.length)).mapM Numeral.write? with
  | none => simp
  | some texts =>
    -- The cells can be written, so the operands can be too.
    have cells := shown.mp (by rw [raw]; rfl)
    have worded : command.text?.isSome := Command.text?_isSome_iff.mpr fun cell found =>
      cells cell (mem_slice_of_fetched fetch cell found)
    obtain ⟨text, eq⟩ := Option.isSome_iff_exists.mp worded
    simp [label, eq]

/-- The next step makes out an instruction with a cell of too many digits. -/
def Overlong (m : Machine σ) : Prop :=
  m.state = .running ∧ ∃ command, m.fetch = .ok command ∧
    ∃ cell ∈ m.memory.slice m.pc (m.pc + command.length), ¬ Numeral.Writable cell

instance decidableOverlong (m : Machine σ) : Decidable m.Overlong :=
  decidable_of_iff
    (m.state = .running ∧ ∃ command ∈ m.fetch.toOption,
      ∃ cell ∈ m.memory.slice m.pc (m.pc + command.length), ¬ Numeral.Writable cell) <| by
    unfold Overlong
    cases m.fetch <;> simp [Except.toOption]

/-! ### Machines and reports without a trace -/

/-- The machine with its trace turned off and forgotten. -/
def untraced (m : Machine σ) : Machine σ := { m with tracing := false, trace := #[] }

end Machine

/-- Whether an event is something else than a line of the trace. -/
def Event.isUntraced : Event → Bool
  | traced _ => false
  | _ => true

@[simp] theorem Event.isUntraced_noted (text : String) : (Event.noted text).isUntraced = true := rfl

/-- A report with the trace of its machine turned off and forgotten, and without its lines. -/
def Report.untraced {σ : Type} (r : Report σ) : Report σ :=
  { machine := r.machine.untraced, events := r.events.filter Event.isUntraced, answer := r.answer }

namespace Machine

variable {σ : Type} {m t u : Machine σ} {command : Command Int}

theorem recorded_untraced (m : Machine σ) (entry : Option String) :
    (m.recorded entry).untraced = m.untraced := by
  cases entry <;> rfl

theorem abort_untraced (m : Machine σ) (stop : Stop) (events : List Event) :
    m.untraced.abort stop (events.filter Event.isUntraced) = (m.abort stop events).untraced := by
  cases stop with
  | refused why => rfl
  | fault cause =>
    simp only [abort, fail, Report.untraced, List.filter_append]
    rfl

theorem halt_untraced (m : Machine σ) (events : List Event) :
    m.untraced.halt (events.filter Event.isUntraced) = (m.halt events).untraced := by
  cases first : m.memory.read 0 with
  | error stop =>
    rw [halt_of_unread first, halt_of_unread (m := m.untraced) first]
    rfl
  | ok value =>
    rw [halt_of_read first, halt_of_read (m := m.untraced) first]
    simp only [haltWith, Report.untraced, List.filter_append]
    rfl

theorem conclude_untraced (m : Machine σ) (effect : Effect σ) (events : List Event) :
    m.untraced.conclude effect (events.filter Event.isUntraced) =
      (m.conclude effect events).untraced := by
  -- The notes of the port are not lines of the trace.
  have notes : (effect.notes.map Event.noted).filter Event.isUntraced =
      effect.notes.map Event.noted := by
    rw [List.filter_eq_self]
    simp
  have events : events.filter Event.isUntraced ++ effect.notes.map Event.noted =
      (events ++ effect.notes.map Event.noted).filter Event.isUntraced := by
    rw [List.filter_append, notes]
  cases found : effect.change with
  | error stop =>
    rw [conclude_of_error found, conclude_of_error found, events]
    exact abort_untraced
      { m with memory := effect.memory, outputs := effect.outputs, port := effect.port } stop _
  | ok change =>
    cases next : change.next with
    | some pc =>
      have goes : change.next.isSome := by rw [next]; rfl
      rw [conclude_of_isSome found goes, conclude_of_isSome found goes, events]
      rfl
    | none =>
      rw [conclude_of_none found next, conclude_of_none found next, events]
      exact halt_untraced (m.completed effect.port change) _

variable [Port σ]

theorem perform_untraced (m : Machine σ) (command : Command Int) :
    m.untraced.perform command = m.perform command := by
  cases command <;> rfl

/-- A step that writes its line, or has none to write, is the step without a trace. -/
theorem step_untraced
    (written : ∀ command, m.state = .running → m.fetch = .ok command →
      ∃ entry, m.traceEntry command = .ok entry) :
    m.untraced.step = m.step.untraced := by
  by_cases running : m.state = .running
  · cases fetch : m.fetch with
    | error stop =>
      rw [step_of_unfetched running fetch, step_of_unfetched (m := m.untraced) running fetch]
      exact abort_untraced m stop []
    | ok command =>
      obtain ⟨entry, trace⟩ := written command running fetch
      have silent : (entry.toList.map Event.traced).filter Event.isUntraced = [] := by
        cases entry <;> rfl
      have off : m.untraced.traceEntry command = .ok none := rfl
      rw [step_of_fetched running fetch trace, step_of_fetched (m := m.untraced) running fetch off,
        ← conclude_untraced, recorded_untraced, perform_untraced, silent]
      rfl
  · rw [step_of_stopped running, step_of_stopped (m := m.untraced) running]
    rfl

/-- A step that is not refused is the step without a trace. -/
theorem step_untraced_of_served {answer : Option Outcome} (served : m.step.answer = .ok answer) :
    m.untraced.step = m.step.untraced := by
  refine step_untraced fun command running fetch => ?_
  cases trace : m.traceEntry command with
  | ok entry => exact ⟨entry, rfl⟩
  | error why =>
    rw [step_of_untraced running fetch trace] at served
    cases served

/-! ### Steps with a trace -/

/-- With a trace, a step over a cell of too many digits is refused and changes nothing. -/
theorem step_of_overlong (tracing : m.tracing) (short : m.memory.size < 10 ^ Numeral.digitLimit)
    (overlong : m.Overlong) : m.step = ⟨m, [], .error .numberTooLong⟩ := by
  obtain ⟨running, command, fetch, cell, found, long⟩ := overlong
  have unwritten : m.traceLine? command = none := by
    rw [← Option.not_isSome_iff_eq_none, traceLine?_isSome_iff fetch short]
    exact fun writable => long (writable cell found)
  exact step_of_untraced running fetch (by rw [traceEntry, if_pos tracing, unwritten])

/-- Any other step is the step without a trace. -/
theorem step_of_not_overlong (short : m.memory.size < 10 ^ Numeral.digitLimit)
    (fits : ¬ m.Overlong) : m.untraced.step = m.step.untraced := by
  refine step_untraced fun command running fetch => ?_
  have written : (m.traceLine? command).isSome := by
    rw [traceLine?_isSome_iff fetch short]
    intro cell found
    refine Decidable.byContradiction fun long => ?_
    exact fits ⟨running, command, fetch, cell, found, long⟩
  obtain ⟨line, eq⟩ := Option.isSome_iff_exists.mp written
  by_cases tracing : m.tracing
  · exact ⟨some line, by rw [traceEntry, if_pos tracing, eq]⟩
  · exact ⟨none, if_neg tracing⟩

/-! ### Any number of steps -/

theorem stepsFrom_untraced {k : Nat} {events events' : Array Event} {last answer : Option Outcome}
    (silent : events'.toList = events.toList.filter Event.isUntraced)
    (served : (stepsFrom k events last m).answer = .ok answer) :
    stepsFrom k events' last m.untraced = (stepsFrom k events last m).untraced := by
  -- The reports so far differ in the lines of the trace, and they go on to do so.
  induction k generalizing m events events' last with
  | zero =>
    rw [stepsFrom, silent]
    rfl
  | succ k ih =>
    obtain ⟨next, first, rest⟩ := stepsFrom_succ_eq_ok served
    have same := step_untraced_of_served first
    have first' : m.untraced.step.answer = .ok next := by rw [same]; exact first
    rw [rest] at served ⊢
    rw [stepsFrom_succ_of_ok first', same]
    refine ih ?_ served
    simp [silent, Report.untraced, List.filter_append]

/-- As long as no step is refused, a machine takes the same steps without a trace. -/
theorem stepTimes_untraced {k : Nat} {answer : Option Outcome}
    (served : (m.stepTimes k).answer = .ok answer) :
    m.untraced.stepTimes k = (m.stepTimes k).untraced :=
  stepsFrom_untraced rfl served

/-- A trace makes no difference.

As long as no step of a machine with a trace is refused, the machine without one comes to the same
state, outcome, memory, outputs and port after any number of steps.

From the same state, a step with a trace is either refused, without any change, because the
instruction has a cell of too many digits, or it does just what the step without a trace does. -/
theorem tracing_transparent (program : Array Int) (port : σ) (maxSteps : Option Int) :
    (∀ t, create program port maxSteps true = .ok t →
      ∃ u, create program port maxSteps false = .ok u ∧
        ∀ k answer, (t.stepTimes k).answer = .ok answer →
          u.stepTimes k = (t.stepTimes k).untraced) ∧
    ∀ t u : Machine σ, t.tracing → ¬ u.tracing → u.untraced = t.untraced →
      t.memory.size < 10 ^ Numeral.digitLimit →
        (t.Overlong → t.step = ⟨t, [], .error .numberTooLong⟩) ∧
        (¬ t.Overlong → u.step.untraced = t.step.untraced) := by
  constructor
  · intro t created
    obtain ⟨full, nonneg, rfl⟩ := create_eq_ok_iff.mp created
    refine ⟨start program port maxSteps false, create_eq_ok_iff.mpr ⟨full, nonneg, rfl⟩, ?_⟩
    intro k answer served
    exact stepTimes_untraced served
  · intro t u tracing off same short
    refine ⟨step_of_overlong tracing short, fun fits => ?_⟩
    -- Without a trace there is nothing to write.
    have quiet : u.untraced.step = u.step.untraced :=
      step_untraced fun command _ _ => ⟨none, if_neg off⟩
    rw [← quiet, same, step_of_not_overlong short fits]

/-- A sum with and without a trace; and a sum with a number of too many digits, which a machine with
a trace refuses and a machine without one stores. -/
theorem tracing_transparent_sum :
    (let t : Machine Port.Scripted := start #[1101, 2, 3, 0, 99] (.ofInputs []) none true
      let u : Machine Port.Scripted := start #[1101, 2, 3, 0, 99] (.ofInputs []) none false
      (t.stepTimes 2).machine.trace.size = 2 ∧ u.stepTimes 2 = (t.stepTimes 2).untraced ∧
        u.step.untraced = t.step.untraced) ∧
    (let long : Int := Int.pow 10 Numeral.digitLimit
      let t : Machine Port.Scripted := start #[1101, long, 3, 0, 99] (.ofInputs []) none true
      let u : Machine Port.Scripted := start #[1101, long, 3, 0, 99] (.ofInputs []) none false
      t.step = ⟨t, [], .error .numberTooLong⟩ ∧
        u.step.machine.memory.get? 0 = some (long + 3)) := by
  obtain ⟨runs, steps⟩ :=
    tracing_transparent #[1101, 2, 3, 0, 99] (Port.Scripted.ofInputs []) none
  constructor
  · intro t u
    obtain ⟨_, created, same⟩ := runs t (create_eq_ok_iff.mpr ⟨by decide, nofun, rfl⟩)
    obtain ⟨-, -, rfl⟩ := create_eq_ok_iff.mp created
    have fits : ¬ t.Overlong := by decide +kernel
    have halted : (t.stepTimes 2).answer.isOk := by decide +kernel
    refine ⟨by decide +kernel, ?_, (steps t u rfl nofun rfl (by decide +kernel)).2 fits⟩
    cases served : (t.stepTimes 2).answer with
    | error why =>
      rw [served] at halted
      cases halted
    | ok answer => exact same 2 answer served
  · intro long t u
    have overlong : t.Overlong := by decide +kernel
    exact ⟨(steps t u rfl nofun rfl (by decide +kernel)).1 overlong, by decide +kernel⟩

end Machine

end Intcode
