import Mathlib.Algebra.Group.Int.Defs
import Mathlib.Tactic.Common
import Intcode.Port.Bounded
import Intcode.Port.Queue
import Intcode.Port.Scripted
import Intcode.Proofs.Journal

/-!
# Failed steps

A step that ends in a fault or is refused before it has stopped the machine has done nothing: the
memory, the outputs, the program counter and the number of steps are those from before. So is the
port, if a request that it does not serve leaves it alone. An input instruction is the critical one:
it asks the port for a value only when the cell that takes the value is there, so that no value is
lost.

There is one way in which a step fails too late. When it has stopped the machine, it tells those who
listen, and if a number in what it tells them cannot be written, the step is refused although the
machine has faulted or halted. After a halt it has also counted the step.

## Main definitions

* `Port.Steady` — a port that is left alone by a request that it does not serve
* `Machine.Keeps` — nothing but the port, the trace, the state and the outcome has changed
* `Machine.Spared` — nor has the port, if it is a steady one

## Main results

* `Machine.perform_port_of_error` — an instruction that does not complete leaves a steady port alone
* `Machine.step_of_faulted`, `Machine.step_of_refused`, `Machine.step_of_halted` — what a step that
  does not go on leaves of the machine
* `Machine.failed_step_atomic` — a step that fails changes nothing, unless it fails too late
-/

namespace Intcode

namespace Port

/-- A port that is left as it was by every request that it does not serve. -/
structure Steady (σ : Type) [Port σ] : Prop where
  request : ∀ {p : σ} {trouble : Trouble},
    (Port.request p).answer = .error trouble → (Port.request p).port = p
  deliver : ∀ {value : Int} {p : σ} {trouble : Trouble},
    (Port.deliver value p).answer = .error trouble → (Port.deliver value p).port = p

theorem Scripted.steady : Steady Scripted where
  request {p _} h := by
    change p.request.answer = _ at h
    change p.request.port = p
    unfold Scripted.request at h ⊢
    cases hp : p.pending with
    | nil => rfl
    | cons value rest =>
      rw [hp] at h
      cases h
  deliver h := by cases h

theorem Queue.steady : Steady Queue where
  request {p _} h := by
    change p.request.answer = _ at h
    change p.request.port = p
    unfold Queue.request at h ⊢
    cases hp : Queue.take p.timeout p.inbox with
    | ok taken =>
      rw [hp] at h
      cases h
    | error why => cases why <;> rfl
  deliver h := by cases h

theorem Bounded.steady : Steady Bounded where
  request {p _} h := by
    change p.request.answer = _ at h
    change p.request.port = p
    unfold Bounded.request at h ⊢
    cases hp : p.pending with
    | nil => rfl
    | cons value rest =>
      rw [hp] at h
      cases h
  deliver {value p _} h := by
    change (p.deliver value).answer = _ at h
    change (p.deliver value).port = p
    unfold Bounded.deliver at h ⊢
    by_cases room : 0 < p.room
    · rw [if_pos room] at h
      cases h
    · rw [if_neg room]
      rfl

end Port

namespace Machine

variable {σ : Type} {m : Machine σ}

/-- Nothing but the port, the trace, the state and the outcome has changed. -/
structure Keeps (m after : Machine σ) : Prop where
  memory : after.memory = m.memory
  pc : after.pc = m.pc
  steps : after.steps = m.steps
  outputs : after.outputs = m.outputs
  maxSteps : after.maxSteps = m.maxSteps
  tracing : after.tracing = m.tracing

theorem Keeps.trans {after final : Machine σ} (h : m.Keeps after) (h' : after.Keeps final) :
    m.Keeps final :=
  ⟨h'.memory.trans h.memory, h'.pc.trans h.pc, h'.steps.trans h.steps,
   h'.outputs.trans h.outputs, h'.maxSteps.trans h.maxSteps, h'.tracing.trans h.tracing⟩

theorem keeps_refl (m : Machine σ) : m.Keeps m := ⟨rfl, rfl, rfl, rfl, rfl, rfl⟩

theorem keeps_recorded (m : Machine σ) (entry : Option String) (port : σ) :
    m.Keeps { m.recorded entry with port } := by
  cases entry <;> exact ⟨rfl, rfl, rfl, rfl, rfl, rfl⟩

/-! ### Stopping a machine -/

theorem keeps_abort (m : Machine σ) (stop : Stop) (events : List Event) :
    m.Keeps (m.abort stop events).machine := by
  cases stop <;> exact ⟨rfl, rfl, rfl, rfl, rfl, rfl⟩

theorem port_abort (m : Machine σ) (stop : Stop) (events : List Event) :
    (m.abort stop events).machine.port = m.port := by
  cases stop <;> rfl

variable [Port σ]

/-- Nothing but the trace, the state and the outcome has changed, and perhaps the port if it is not
a steady one. -/
structure Spared (m after : Machine σ) : Prop where
  keeps : m.Keeps after
  port : Port.Steady σ → after.port = m.port

/-! ### Instructions that do not complete -/

/-- An input instruction that fails has taken nothing from a steady port: once a value has been
served, there is a cell to store it. -/
theorem cautious_input_port (steady : Port.Steady σ) (dest next : Int) :
    Action.Cautious Bench.port (Action.input dest next : Action σ (Option Int)) := by
  intro bench stop after fails
  by_cases inside : bench.memory.inBounds dest
  · cases served : (Port.request bench.port).answer with
    | error trouble =>
      rw [Action.input_of_unserved bench inside served] at fails
      obtain ⟨-, rfl⟩ := EStateM.Result.error.inj fails
      exact steady.request served
    | ok value =>
      rw [Action.input_of_served bench inside served] at fails
      cases fails
  · rw [Action.input_of_outside bench inside] at fails
    obtain ⟨-, rfl⟩ := EStateM.Result.error.inj fails
    rfl

theorem cautious_output_port (steady : Port.Steady σ) (source next : Int) :
    Action.Cautious Bench.port (Action.output source next : Action σ (Option Int)) := by
  refine (Action.reads_load _ (.position source)).bind fun value => Action.Cautious.bind ?_ ?_
  · intro bench stop after fails
    cases taken : (Port.deliver value bench.port).answer with
    | error trouble =>
      rw [Action.ask_of_error bench taken] at fails
      obtain ⟨-, rfl⟩ := EStateM.Result.error.inj fails
      exact steady.deliver taken
    | ok _ =>
      rw [Action.ask_of_ok bench taken] at fails
      cases fails
  · exact fun _ bench => ⟨_, _, rfl⟩

/-- An instruction that does not complete leaves a steady port alone. -/
theorem perform_port_of_error (steady : Port.Steady σ) {command : Command Int} {stop : Stop}
    (h : (m.perform command).change = .error stop) : (m.perform command).port = m.port := by
  have cautious (next : Int) :
      Action.Cautious Bench.port (Action.ofCommand command next : Action σ (Option Int)) := by
    cases command with
    | compute op a b dest => exact Action.cautious_compute op a b dest next
    | jump expected cond target => exact Action.cautious_jump expected cond target next
    | input dest => exact cautious_input_port steady dest next
    | output source => exact cautious_output_port steady source next
    | halt => exact (Action.certain_pure _).cautious
  unfold perform at h ⊢
  cases ended : Action.ofCommand command (m.pc + command.length) m.bench with
  | ok next bench =>
    rw [ended] at h
    cases h
  | error stop' bench => exact cautious _ ended

theorem spared_of_stopped {command : Command Int} {entry : Option String} {stop : Stop}
    (change : (m.perform command).change = .error stop) (events : List Event) :
    m.Spared (abort { m.recorded entry with port := (m.perform command).port } stop
      events).machine where
  keeps := (keeps_recorded m entry _).trans (keeps_abort _ stop events)
  port steady := (port_abort _ stop events).trans (perform_port_of_error steady change)

/-! ### Steps that do not go on -/

/-- A step that ends in a fault has done nothing but record the fault. -/
theorem step_of_faulted (running : m.state = .running) {outcome : Outcome} {fault : Fault}
    {pc : Int} (answer : m.step.answer = .ok (some outcome)) (ending : outcome.ending = .faulted fault pc) :
    m.Spared m.step.machine := by
  have way := m.stepped running
  generalize m.step = r at way answer ⊢
  cases way with
  | @unfetched stop fetch => exact ⟨keeps_abort m stop [], fun _ => port_abort m stop []⟩
  | untraced fetch trace => cases answer
  | stopped fetch trace change => exact spared_of_stopped change _
  | advanced fetch trace effect goes => cases answer
  | halted fetch trace effect ends first =>
    cases answer
    cases ending

/-- A step that is refused has done nothing but perhaps write to the trace. -/
theorem step_of_refused (running : m.state = .running) {why : Refusal}
    (answer : m.step.answer = .error why) : m.Spared m.step.machine := by
  have way := m.stepped running
  generalize m.step = r at way answer ⊢
  cases way with
  | @unfetched stop fetch => exact ⟨keeps_abort m stop [], fun _ => port_abort m stop []⟩
  | untraced fetch trace => exact ⟨m.keeps_refl, fun _ => rfl⟩
  | stopped fetch trace change => exact spared_of_stopped change _
  | advanced fetch trace effect goes => cases answer
  | halted fetch trace effect ends first => cases answer

/-- A step that halts has done nothing but count itself and record the halt. -/
theorem step_of_halted (running : m.state = .running) {outcome : Outcome} {value : Int}
    (answer : m.step.answer = .ok (some outcome)) (ending : outcome.ending = .halted value) :
    { m with steps := m.steps + 1 }.Spared m.step.machine := by
  have way := m.stepped running
  generalize m.step = r at way answer ⊢
  cases way with
  | @unfetched stop fetch =>
    cases stop <;> cases answer
    cases ending
  | untraced fetch trace => cases answer
  | @stopped command entry stop fetch trace change =>
    cases stop <;> cases answer
    cases ending
  | advanced fetch trace effect goes => cases answer
  | @halted command entry change value fetch trace effect ends first =>
    -- Only the halting instruction has no next one.
    have way := performed effect
    generalize m.perform command = done at way effect ⊢
    cases way with
    | computed | jumped | passed | received | delivered =>
      cases effect
      cases ends
    | halted =>
      cases effect
      cases entry <;> exact ⟨⟨rfl, rfl, rfl, rfl, rfl, rfl⟩, fun _ => rfl⟩

/-! ### Failed steps -/

/-- What a listener sees of a step of a running machine that fails.

A step that ends in a fault leaves the memory, the program counter, the steps and the outputs as
they were, and the port too if it is a steady one, as scripted, queue and bounded ports are. The
machine has then faulted, at its program counter. So does a step that is refused, and the machine is
then still running, unless the step had already stopped it and the listener could not be told of the
outcome, because a number in it cannot be written. In this case, and in no other, the step is
refused to the listener although the machine has stopped, with its outcome recorded. A fault has
then changed nothing else, and a halt has also counted the step. -/
theorem failed_step_atomic (m : Machine σ) (hears : Int → Bool) (running : m.Running) :
    (Port.Steady Port.Scripted ∧ Port.Steady Port.Queue ∧ Port.Steady Port.Bounded) ∧
    let r := m.step.heardBy hears
    (∀ outcome fault pc, r.answer = .ok (some outcome) → outcome.ending = .faulted fault pc →
      m.Spared r.machine ∧ r.machine.state = .faulted ∧ r.machine.outcome = some outcome ∧
        fault.pc = some r.machine.pc ∧ pc = r.machine.pc) ∧
    (∀ why, r.answer = .error why → ¬ m.Unreported hears →
      m.Spared r.machine ∧ r.machine.Running) ∧
    (m.Unreported hears ↔ r.answer = .error .numberTooLong ∧ r.machine.state ≠ .running) ∧
    (m.Unreported hears → ∃ outcome, r.machine.outcome = some outcome ∧
      r.machine.state = outcome.state ∧
      (∀ fault pc, outcome.ending = .faulted fault pc → m.Spared r.machine) ∧
      ∀ value, outcome.ending = .halted value →
        { m with steps := m.steps + 1 }.Spared r.machine) := by
  refine ⟨⟨Port.Scripted.steady, Port.Queue.steady, Port.Bounded.steady⟩, ?_⟩
  intro r
  have machine : r.machine = m.step.machine := Report.machine_heardBy hears m.step
  rw [machine]
  -- Either the outcome is there and cannot be told, or the listener sees what the step answers.
  rcases answer_heardBy_step running.state hears with ⟨unreported, refused⟩ | ⟨reported, same⟩
  · obtain ⟨outcome, answer, -⟩ := id unreported
    obtain ⟨state, recorded⟩ := running.stop answer
    have stopped : m.step.machine.state ≠ .running := state ▸ outcome.state_ne_running
    refine ⟨fun _ _ _ served => ?_, fun _ _ reported => absurd unreported reported,
      iff_of_true unreported ⟨refused, stopped⟩,
      fun _ => ⟨outcome, recorded, state, fun fault pc ending => ?_, fun value ending => ?_⟩⟩
    · cases refused.symm.trans served
    · exact step_of_faulted running.state answer ending
    · exact step_of_halted running.state answer ending
  · refine ⟨fun outcome fault pc served ending => ?_, fun why served _ => ?_,
      iff_of_false reported fun ⟨served, stopped⟩ => ?_,
      fun unreported => absurd unreported reported⟩
    · have answer := same.symm.trans served
      have spared := step_of_faulted running.state answer ending
      obtain ⟨state, recorded⟩ := running.stop answer
      obtain ⟨-, place, site⟩ := fault_of_step running.state answer ending
      refine ⟨spared, ?_, recorded, ?_, ?_⟩
      · rw [state, Outcome.state, ending]
      · rw [place, spared.keeps.pc]
      · rw [site, spared.keeps.pc]
    · have answer := same.symm.trans served
      exact ⟨step_of_refused running.state answer, running.refused answer⟩
    · exact stopped (running.refused (same.symm.trans served)).state

/-- An input to a cell that is not there leaves the input where it was, and so does an instruction
word of too many digits. A halt with a number of too many digits in the first cell is refused to a
listener as well, and yet the machine has halted. -/
theorem failed_step_atomic_input :
    let m : Machine Port.Scripted :=
      { memory := ⟨#[3, 100]⟩, port := ⟨[7], #[]⟩, maxSteps := none, tracing := true, pc := 0,
        steps := 0, outputs := #[], state := .running, outcome := none, trace := #[] }
    let long : Machine Port.Scripted := { m with memory := ⟨#[-(10 ^ 4300)]⟩ }
    let late : Machine Port.Scripted := { m with memory := ⟨#[10 ^ 4300, 99]⟩, pc := 1 }
    let hears : Int → Bool := fun _ => true
    (m.Running ∧ (m.step.heardBy hears).machine.state = .faulted ∧
      (m.step.heardBy hears).machine.port = ⟨[7], #[]⟩) ∧
    (long.Running ∧ (long.step.heardBy hears).machine.state = .running ∧
      (long.step.heardBy hears).machine.port = ⟨[7], #[]⟩) ∧
    (late.Running ∧ (late.step.heardBy hears).answer = .error .numberTooLong ∧
      (late.step.heardBy hears).machine.state ≠ .running) := by
  intro m long late hears
  have running : m.Running ∧ long.Running ∧ late.Running := ⟨⟨rfl, rfl⟩, ⟨rfl, rfl⟩, ⟨rfl, rfl⟩⟩
  have faulted : (m.step.heardBy hears).answer = .ok (some
      { ending := .faulted ⟨.outOfBounds 100 (some 2), some 0⟩ 0, memory := ⟨#[3, 100]⟩,
        outputs := #[], steps := 0 }) := by decide +kernel
  have refused : long.step.answer = .error .numberTooLong ∧
      (long.step.heardBy hears).answer = .error .numberTooLong := by decide +kernel
  have halted : late.step.answer = .ok (some
      { ending := .halted (10 ^ 4300), memory := ⟨#[10 ^ 4300, 99]⟩, outputs := #[],
        steps := 1 }) := by decide +kernel
  have reported : ¬ long.Unreported hears := by
    rintro ⟨outcome, answer, -⟩
    cases refused.1.symm.trans answer
  have unreported : late.Unreported hears :=
    ⟨_, halted, rfl, 10 ^ 4300, by decide +kernel, by decide +kernel⟩
  obtain ⟨⟨steady, -, -⟩, ends, -, -, -⟩ := failed_step_atomic m hears running.1
  obtain ⟨spared, state, -⟩ := ends _ _ _ faulted rfl
  obtain ⟨-, -, fails, -, -⟩ := failed_step_atomic long hears running.2.1
  obtain ⟨spared', going⟩ := fails _ refused.2 reported
  obtain ⟨-, -, -, stops, -⟩ := failed_step_atomic late hears running.2.2
  exact ⟨⟨running.1, state, spared.port steady⟩,
    ⟨running.2.1, going.state, spared'.port steady⟩, running.2.2, stops.mp unreported⟩

end Machine

end Intcode
