import Intcode.Proofs.Run
import Intcode.Proofs.Sweep
import Intcode.Proofs.Word

/-!
# The trace of a run

The trace of a machine and a listing of its memory are written apart from each other. They agree all
the same: each line of the trace is the line that a listing of the memory, as it was just before the
step, has at the program counter. Where a listing finds no instruction and shows the cell as data,
the step faults and leaves no line.

An instruction is written to the trace before it is carried out, so one that is made out and then
faults has a line but does not count as a step.

## Main definitions

* `Machine.visited` — the machines just before each of some steps
* `Machine.makesOut` — whether the next step makes out an instruction
* `Machine.listed` — the line of a listing at the program counter
* `Cause.inExecution` — whether a cause lies in carrying out an instruction
* `Machine.DecodeFault` — a step that faults over the instruction itself
* `Machine.interrupted` — whether the machine faulted in carrying out an instruction

## Main results

* `Machine.inExecution_of_perform` — where an instruction that was made out can fault
* `Machine.listed_of_fetched` — a line of the trace is a line of a listing
* `Machine.decodeFault_iff` — a step faults over an instruction where a listing shows data
* `Machine.trace_visited` — the trace lists the instructions that were made out, in order
* `Machine.tallied_step` — a step keeps count of lines and steps
* `Machine.trace_is_listing` — all of this for the steps from the start of a program
-/

namespace Intcode

/-! ### Causes of faults -/

namespace Cause

/-- Whether a cause lies in carrying out an instruction that was made out. -/
def inExecution : Cause → Bool
  | outOfBounds .. | writeToImmediate _ | port .. => true
  | _ => false

theorem family?_of_inExecution {c : Cause} (h : c.inExecution) : c.family? = some .runtime := by
  cases c <;> first | rfl | cases h

theorem eq_of_raised {c d : Cause} (h : c.raised = .fault d) : d = c := by
  unfold raised at h
  split at h
  · cases h
    rfl
  · cases h

end Cause

theorem Word.family?_of_ofNumber {n : Int} {cause : Cause} (h : Word.ofNumber n = .error cause) :
    cause.family? = some .decode := by
  unfold Word.ofNumber at h
  split at h
  · cases h
    rfl
  · split at h
    · cases h
      rfl
    · split at h
      · cases h
        rfl
      · cases h

/-- An instruction that cannot be made out is a fault of the decode family. -/
theorem Command.family?_of_ofWindow {cells : List Int} {cause : Cause}
    (h : Command.ofWindow cells = .error (.fault cause)) : cause.family? = some .decode := by
  cases cells with
  | nil =>
    rw [Cause.eq_of_raised (Except.error.inj h)]
    rfl
  | cons word rest =>
    rw [ofWindow, Word.decode_eq_ofNumber] at h
    cases number : Word.ofNumber word with
    | error c =>
      rw [number] at h
      rw [Cause.eq_of_raised (Except.error.inj h)]
      exact Word.family?_of_ofNumber number
    | ok w =>
      rw [number] at h
      change ofWord w rest = _ at h
      unfold ofWord at h
      split at h
      · cases h
      · rw [Cause.eq_of_raised (Except.error.inj h)]
        rfl

/-! ### Lines of a listing -/

/-- The width of the column does not decide whether a line has a text. -/
theorem Listing.Line.text?_eq_none {l : Listing.Line} {n : Nat} (width : Nat)
    (h : l.text? n = none) : l.text? width = none := by
  unfold text? at h ⊢
  cases raw : l.raw.mapM Numeral.write? with
  | none => rfl
  | some texts =>
    cases assembly : l.assembly? with
    | none => rfl
    | some text =>
      cases label : Numeral.write? l.address with
      | none => rfl
      | some address =>
        rw [raw, assembly, label] at h
        cases h

/-- A column of a width that can be counted is no reason to refuse a text. -/
theorem Listing.Line.textWithin_of_lt {l : Listing.Line} {width : Nat} (h : width < 2 ^ 63) :
    l.textWithin width = Refusal.ofText? (l.text? width) := by
  have narrow : ¬ ((width : Int) < -Int.pow 2 63 ∨ Int.pow 2 63 ≤ (width : Int)) := by
    have : Int.pow 2 63 = 2 ^ 63 := rfl
    omega
  unfold textWithin
  cases unpadded : l.text? 0 with
  | none =>
    rw [text?_eq_none width unpadded]
    rfl
  | some text =>
    dsimp only
    rw [if_neg narrow, Int.toNat_natCast]

/-! ### Faults before and in carrying out an instruction -/

theorem Port.Trouble.inExecution {trouble : Port.Trouble} {cause : Cause}
    (h : trouble.stop = .fault cause) : cause.inExecution := by
  cases trouble with
  | failure f =>
    rw [Cause.eq_of_raised h]
    rfl
  | refused why => cases h

namespace Machine

variable {σ : Type} {m x : Machine σ} {command : Command Int} {cause : Cause}

/-- Whatever goes wrong before an instruction is made out does not lie in carrying it out. -/
theorem not_inExecution_of_fetch (h : m.fetch = .error (.fault cause)) : ¬ cause.inExecution := by
  cases budget : m.exhausted? with
  | some limit =>
    rw [fetch, budget] at h
    rw [Cause.eq_of_raised (Except.error.inj h)]
    exact Bool.false_ne_true
  | none =>
    by_cases inside : m.memory.inBounds m.pc
    · rw [fetch_of_inBounds budget inside] at h
      intro struck
      have decode := Command.family?_of_ofWindow h
      rw [Cause.family?_of_inExecution struck] at decode
      cases decode
    · rw [fetch, budget] at h
      dsimp only at h
      rw [if_neg inside] at h
      rw [Cause.eq_of_raised (Except.error.inj h)]
      exact Bool.false_ne_true

/-! ### The listing at the program counter -/

/-- The line of a listing of the memory at the program counter, with the raw cells in a column as
wide as that of a trace. -/
def listed (m : Machine σ) : Except Refusal String := do
  (← Listing.lineAt m.memory m.pc).textWithin 24

/-- What a listing has at the program counter, in terms of what a step makes out there. -/
theorem lineAt_eq (budget : m.exhausted? = none) (inside : m.memory.inBounds m.pc) :
    ∃ cell rest, m.memory.cells.toList.drop m.pc.toNat = cell :: rest ∧
      Listing.lineAt m.memory m.pc =
        match m.fetch with
        | .ok command =>
          .ok ⟨m.pc.toNat, cell, rest.take (command.length - 1), some command⟩
        | .error (.fault _) => .ok ⟨m.pc.toNat, cell, [], none⟩
        | .error (.refused why) => .error why := by
  obtain ⟨cell, rest, cells⟩ := Memory.drop_eq_cons inside
  refine ⟨cell, rest, cells, ?_⟩
  -- A step looks at all cells from here on and a listing at four, which is as many as matter.
  have fetched := fetch_of_inBounds budget inside
  rw [cells, ← Command.ofWindow_take, List.take_succ_cons] at fetched
  rw [Listing.lineAt_of_drop inside cells]
  unfold Listing.line
  rw [← fetched]
  cases m.fetch with
  | error stop => cases stop <;> rfl
  | ok command =>
    have short : command.length - 1 ≤ 3 := by
      have := command.opcode.length_le_four
      simp only [Command.length]
      omega
    dsimp only
    rw [List.take_take, Nat.min_eq_left short]

theorem slice_eq_cons {cell : Int} {rest : List Int} (inside : m.memory.inBounds m.pc)
    (cells : m.memory.cells.toList.drop m.pc.toNat = cell :: rest) :
    m.memory.slice m.pc (m.pc + command.length) = cell :: rest.take (command.length - 1) := by
  have nonneg := (Memory.inBounds_iff.mp inside).1
  have width : (m.pc + command.length).toNat - m.pc.toNat = command.length - 1 + 1 := by
    have := command.opcode.length_pos
    simp only [Command.length]
    omega
  rw [Memory.slice_eq nonneg (by omega), width, cells, List.take_succ_cons]

/-- The line of the trace for an instruction is the line of a listing. -/
theorem listed_of_fetched (fetch : m.fetch = .ok command) :
    m.listed = Refusal.ofText? (m.traceLine? command) := by
  obtain ⟨budget, inside, -⟩ := fetch_eq_ok fetch
  obtain ⟨cell, rest, cells, line⟩ := lineAt_eq budget inside
  rw [fetch] at line
  have label : Numeral.write? (m.pc.toNat : Int) = Numeral.write? m.pc := by
    rw [Int.toNat_of_nonneg (Memory.inBounds_iff.mp inside).1]
  have same : m.traceLine? command =
      Listing.Line.text? ⟨m.pc.toNat, cell, rest.take (command.length - 1), some command⟩ 24 := by
    unfold traceLine? Listing.Line.text? Listing.Line.raw Listing.Line.assembly?
    dsimp only
    rw [slice_eq_cons inside cells, label]
    -- The two write their parts in different orders.
    cases Numeral.write? m.pc <;> cases command.text? <;> simp
  have wide : ((24 : Nat) : Int) = 24 := rfl
  rw [same, ← Listing.Line.textWithin_of_lt (by decide), wide, listed, line]
  dsimp only [bind, Except.bind]

/-- Whether the next step makes out an instruction: the machine runs, its budget is not used up, its
program counter is in bounds and the cells there are an instruction. -/
def makesOut (m : Machine σ) : Bool := decide (m.state = .running) && m.fetch.isOk

theorem makesOut_iff : m.makesOut ↔ m.state = .running ∧ ∃ command, m.fetch = .ok command := by
  unfold makesOut
  cases m.fetch <;> simp [Except.isOk, Except.toBool]

variable [Port σ]

/-- Whatever goes wrong in an instruction lies in carrying it out. -/
theorem inExecution_of_perform (h : (m.perform command).change = .error (.fault cause)) :
    cause.inExecution := by
  have way := hindered h
  generalize fault : Stop.fault cause = stop at way
  cases way with
  | outOfBounds operand | writeToImmediate operand =>
    rw [Cause.eq_of_raised fault.symm]
    rfl
  | unserved inside request => exact Port.Trouble.inExecution fault.symm
  | undelivered loaded deliver => exact Port.Trouble.inExecution fault.symm

/-- A step that makes out an instruction can only fault in carrying it out. -/
theorem inExecution_of_step (running : m.state = .running) (fetch : m.fetch = .ok command)
    {outcome : Outcome} {fault : Fault} {pc : Int} (answer : m.step.answer = .ok (some outcome))
    (ending : outcome.ending = .faulted fault pc) : fault.cause.inExecution := by
  have way := m.stepped running
  generalize m.step = r at way answer
  cases way with
  | unfetched unfetched =>
    rw [fetch] at unfetched
    cases unfetched
  | untraced _ trace => cases answer
  | @stopped command entry stop _ trace change =>
    cases stop with
    | refused why => cases answer
    | fault cause =>
      cases answer
      cases ending
      exact inExecution_of_perform change
  | advanced _ trace effect goes => cases answer
  | halted _ trace effect ends first =>
    cases answer
    cases ending

/-! ### What a step writes to the trace -/

/-- A step that makes out no instruction leaves the trace as it was. -/
theorem trace_step_of_not_makesOut (h : ¬ m.makesOut) : m.step.machine.trace = m.trace := by
  by_cases running : m.state = .running
  · cases fetch : m.fetch with
    | error stop =>
      rw [step_of_unfetched running fetch]
      cases stop <;> rfl
    | ok command => exact absurd (makesOut_iff.mpr ⟨running, command, fetch⟩) h
  · rw [step_of_stopped running]

/-- A step with a trace that makes out an instruction writes the line of a listing to it. -/
theorem trace_step_of_makesOut (tracing : m.tracing) (h : m.makesOut) {answer : Option Outcome}
    (served : m.step.answer = .ok answer) :
    ∃ line, m.listed = .ok line ∧ m.step.machine.trace = m.trace.push line := by
  obtain ⟨running, command, fetch⟩ := makesOut_iff.mp h
  cases written : m.traceLine? command with
  | none =>
    have trace : m.traceEntry command = .error .numberTooLong := by
      rw [traceEntry, if_pos tracing, written]
    rw [step_of_untraced running fetch trace] at served
    cases served
  | some line =>
    have trace : m.traceEntry command = .ok (some line) := by
      rw [traceEntry, if_pos tracing, written]
    refine ⟨line, ?_, ?_⟩
    · rw [listed_of_fetched fetch, written]
      rfl
    · rw [step_of_fetched running fetch trace]
      -- However the instruction is concluded, nothing is written any more.
      cases effect : (m.perform command).change with
      | error stop =>
        rw [conclude_of_error effect]
        cases stop <;> rfl
      | ok change =>
        cases next : change.next with
        | some pc =>
          rw [conclude_of_isSome effect (by rw [next]; rfl)]
          rfl
        | none =>
          obtain ⟨value, first⟩ := exists_read_zero fetch (size_of_perform effect)
          rw [conclude_of_none effect next, halt_of_read first]
          rfl

/-! ### Faults over an instruction that cannot be made out -/

/-- The machine stopped in a step with a fault of the decode family. -/
def DecodeFault (r : Report σ) : Prop :=
  ∃ outcome fault pc, r.answer = .ok (some outcome) ∧ outcome.ending = .faulted fault pc ∧
    fault.cause.family? = some .decode

/-- An instruction that was made out can only fault in being carried out. -/
theorem not_decodeFault_of_makesOut (made : m.makesOut) : ¬ DecodeFault m.step := by
  obtain ⟨running, command, fetch⟩ := makesOut_iff.mp made
  rintro ⟨outcome, fault, pc, answer, ending, family⟩
  have struck := inExecution_of_step running fetch answer ending
  rw [Cause.family?_of_inExecution struck] at family
  cases family

/-- With budget left and the program counter in bounds, a step faults over the instruction exactly
where a listing shows data. -/
theorem decodeFault_iff (running : m.state = .running) (budget : m.exhausted? = none)
    (inside : m.memory.inBounds m.pc) {answer : Option Outcome}
    (served : m.step.answer = .ok answer) :
    DecodeFault m.step ↔
      ∃ line, Listing.lineAt m.memory m.pc = .ok line ∧ line.command = none := by
  obtain ⟨cell, rest, -, line⟩ := lineAt_eq budget inside
  cases fetch : m.fetch with
  | error stop =>
    rw [step_of_unfetched running fetch] at served ⊢
    rw [fetch] at line
    cases stop with
    | refused why => cases served
    | fault cause =>
      refine ⟨fun _ => ⟨_, line, rfl⟩, fun _ => ⟨_, _, _, rfl, rfl, ?_⟩⟩
      rw [fetch_of_inBounds budget inside] at fetch
      exact Command.family?_of_ofWindow fetch
  | ok command =>
    rw [fetch] at line
    have listed : ¬ ∃ line, Listing.lineAt m.memory m.pc = .ok line ∧ line.command = none := by
      rintro ⟨_, found, data⟩
      rw [line] at found
      cases found
      cases data
    have faultless := not_decodeFault_of_makesOut (makesOut_iff.mpr ⟨running, command, fetch⟩)
    exact ⟨fun fault => absurd fault faultless, fun data => absurd data listed⟩

/-! ### Lines and steps -/

/-- Whether the machine faulted in carrying out an instruction. -/
def interrupted (m : Machine σ) : Bool :=
  m.outcome.any fun outcome =>
    match outcome.ending with
    | .halted _ => false
    | .faulted fault _ => fault.cause.inExecution

/-- The trace has a line for each step, and one more for an instruction that was interrupted. -/
def Tallied (m : Machine σ) : Prop :=
  m.trace.size = m.steps + if m.interrupted then 1 else 0

omit [Port σ] in
theorem tallied_start (program : Array Int) (port : σ) (maxSteps : Option Int) (tracing : Bool) :
    (start program port maxSteps tracing).Tallied :=
  rfl

/-- A step with a trace keeps count of lines and steps. -/
theorem tallied_step (tracing : m.tracing) (coherent : m.Coherent) (tallied : m.Tallied)
    {answer : Option Outcome} (served : m.step.answer = .ok answer) : m.step.machine.Tallied := by
  by_cases running : m.state = .running
  · have fresh := (coherent.running_iff.mpr running).outcome
    have count : m.trace.size = m.steps := by simpa [Tallied, interrupted, fresh] using tallied
    have written {command : Command Int} {entry : Option String}
        (trace : m.traceEntry command = .ok entry) :
        (m.recorded entry).trace.size = m.steps + 1 := by
      rw [traceEntry, if_pos tracing] at trace
      split at trace
      · cases trace
        simp [recorded, record, count]
      · cases trace
    have same (entry : Option String) : (m.recorded entry).steps = m.steps := by cases entry <;> rfl
    have going (entry : Option String) : (m.recorded entry).outcome = none := by
      cases entry <;> exact fresh
    -- Only an instruction that faults has a line and no step, and then the machine is interrupted.
    have way := m.stepped running
    generalize m.step = r at way served ⊢
    cases way with
    | @unfetched stop fetch =>
      cases stop with
      | refused why => cases served
      | fault cause =>
        have idle := not_inExecution_of_fetch fetch
        simp [Tallied, interrupted, abort, fail, idle, count]
    | untraced fetch trace => cases served
    | @stopped command entry stop fetch trace change =>
      cases stop with
      | refused why => cases served
      | fault cause =>
        have struck := inExecution_of_perform change
        simp [Tallied, interrupted, abort, fail, struck, written trace, same]
    | @advanced command entry change fetch trace effect goes =>
      simp [Tallied, interrupted, completed, written trace, same, going]
    | @halted command entry change value fetch trace effect ends first =>
      simp [Tallied, interrupted, completed, haltWith, written trace, same]
  · rwa [step_of_stopped running]

/-! ### Any number of steps -/

/-- The machines just before each of some steps. -/
def visited : Nat → Machine σ → List (Machine σ)
  | 0, _ => []
  | k + 1, m => m :: visited k m.step.machine

/-- If none of some steps is refused, then what holds of a machine and is kept by every step that is
not refused holds of the machine after them, and of all that they find. -/
theorem stepsFrom_invariant {P : Machine σ → Prop}
    (kept : ∀ {m : Machine σ} {answer : Option Outcome}, P m → m.step.answer = .ok answer →
      P m.step.machine)
    {k : Nat} {events : Array Event} {last answer : Option Outcome} (h : P m)
    (served : (stepsFrom k events last m).answer = .ok answer) :
    P (stepsFrom k events last m).machine ∧
      ∀ x ∈ m.visited k, P x ∧ ∃ answer, x.step.answer = .ok answer := by
  induction k generalizing m events last with
  | zero => exact ⟨h, fun x found => absurd found List.not_mem_nil⟩
  | succ k ih =>
    obtain ⟨next, first, rest⟩ := stepsFrom_succ_eq_ok served
    rw [rest] at served ⊢
    obtain ⟨final, all⟩ := ih (kept h first) served
    refine ⟨final, ?_⟩
    intro x found
    rcases List.mem_cons.mp found with rfl | later
    · exact ⟨h, next, first⟩
    · exact all x later

/-- The trace lists the instructions that were made out, in order. -/
theorem trace_visited (tracing : m.tracing) {k : Nat} {events : Array Event}
    {last answer : Option Outcome} (served : (stepsFrom k events last m).answer = .ok answer) :
    ∃ lines, ((m.visited k).filter makesOut).mapM listed = .ok lines ∧
      (stepsFrom k events last m).machine.trace.toList = m.trace.toList ++ lines := by
  induction k generalizing m events last with
  | zero => exact ⟨[], rfl, (List.append_nil _).symm⟩
  | succ k ih =>
    obtain ⟨next, first, rest⟩ := stepsFrom_succ_eq_ok served
    rw [rest] at served ⊢
    obtain ⟨lines, listing, trace⟩ := ih (m.tracing_step.trans tracing) served
    by_cases made : m.makesOut
    · obtain ⟨line, found, written⟩ := trace_step_of_makesOut tracing made first
      refine ⟨line :: lines, ?_, ?_⟩
      · rw [visited, List.filter_cons_of_pos made, List.mapM_cons, found, listing]
        rfl
      · rw [trace, written, Array.toList_push, List.append_assoc, List.singleton_append]
    · refine ⟨lines, ?_, ?_⟩
      · rw [visited, List.filter_cons_of_neg made, listing]
      · rw [trace, trace_step_of_not_makesOut made]

/-- From the start of a program with a trace, as long as no step is refused:

the trace is the lines, in order, that a listing of the memory has at the program counter just
before each step that makes out an instruction;

a step with budget left and the program counter in bounds faults over the instruction, and then
leaves no line, exactly where a listing shows data;

there are as many lines as steps, and one more if the machine faulted in carrying out an
instruction. -/
theorem trace_is_listing {program : Array Int} {port : σ} {maxSteps : Option Int}
    (created : create program port maxSteps true = .ok m) {k : Nat} {answer : Option Outcome}
    (served : (m.stepTimes k).answer = .ok answer) :
    (∃ lines, ((m.visited k).filter makesOut).mapM listed = .ok lines ∧
      (m.stepTimes k).machine.traceText = "\n".intercalate lines ∧
      lines.length = (m.stepTimes k).machine.steps +
        if (m.stepTimes k).machine.interrupted then 1 else 0) ∧
    ∀ x ∈ m.visited k, x.state = .running → x.exhausted? = none → x.memory.inBounds x.pc →
      (DecodeFault x.step ↔
        ∃ line, Listing.lineAt x.memory x.pc = .ok line ∧ line.command = none) ∧
      (DecodeFault x.step → x.step.machine.trace = x.trace) := by
  obtain ⟨-, -, rfl⟩ := create_eq_ok_iff.mp created
  -- The trace stays on, and its count is right at the start.
  obtain ⟨⟨-, -, tallied⟩, calls⟩ :=
    stepsFrom_invariant (P := fun x => x.tracing ∧ x.Coherent ∧ x.Tallied)
      (fun h served =>
        ⟨(tracing_step _).trans h.1, h.2.1.step, tallied_step h.1 h.2.1 h.2.2 served⟩)
      ⟨rfl, .inl (running_start ..), tallied_start program port maxSteps true⟩ served
  refine ⟨?_, ?_⟩
  · obtain ⟨lines, listing, trace⟩ := trace_visited rfl served
    -- The trace is empty at the start.
    have whole : ((start program port maxSteps true).stepTimes k).machine.trace.toList = lines :=
      trace.trans (List.nil_append lines)
    refine ⟨lines, listing, by rw [traceText, whole], ?_⟩
    rw [← whole, Array.length_toList]
    exact tallied
  · intro x found running budget inside
    obtain ⟨-, answer, answered⟩ := calls x found
    have faults := decodeFault_iff running budget inside answered
    exact ⟨faults, fun fault =>
      trace_step_of_not_makesOut fun made => not_decodeFault_of_makesOut made fault⟩

/-- A program that overwrites its `HALT`: a listing of the program has an instruction at `4`, and a
listing of the memory that the second step finds has data there. -/
theorem trace_is_listing_overwritten :
    let m : Machine Port.Scripted := start #[1101, 40, 2, 4, 99] (.ofInputs []) none true
    let line := "    0: 1101,40,2,4              ADD  #40, #2, [4]"
    ((m.visited 2).filter makesOut).mapM listed = .ok [line] ∧
      (m.stepTimes 2).machine.traceText = line ∧
      (m.stepTimes 2).machine.steps = 1 ∧
      DecodeFault m.step.machine.step := by
  intro m line
  have created : create #[1101, 40, 2, 4, 99] (Port.Scripted.ofInputs []) none true = .ok m :=
    create_eq_ok_iff.mpr ⟨by decide, nofun, rfl⟩
  have faulted : (m.stepTimes 2).answer.isOk := by decide +kernel
  cases served : (m.stepTimes 2).answer with
  | error why =>
    rw [served] at faulted
    cases faulted
  | ok answer =>
    obtain ⟨⟨lines, listing, text, count⟩, faults⟩ := trace_is_listing created served
    have found : (((m.visited 2).filter makesOut).mapM listed).toOption = some [line] := by
      decide +kernel
    rw [listing] at found
    cases found
    have second : m.step.machine ∈ m.visited 2 :=
      List.mem_cons_of_mem m (List.mem_singleton.mpr rfl)
    have data : (Listing.lineAt m.step.machine.memory m.step.machine.pc).toOption =
        some ⟨4, 42, [], none⟩ := by
      decide +kernel
    refine ⟨listing, text, by decide +kernel, ?_⟩
    refine (faults _ second (by decide +kernel) (by decide +kernel) (by decide +kernel)).1.mpr ?_
    cases shown : Listing.lineAt m.step.machine.memory m.step.machine.pc with
    | error why =>
      rw [shown] at data
      cases data
    | ok cell =>
      rw [shown] at data
      cases data
      exact ⟨_, rfl, rfl⟩

end Machine

end Intcode
