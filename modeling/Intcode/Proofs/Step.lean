import Intcode.Machine.Step
import Intcode.Proofs.Action
import Intcode.Proofs.Command

/-!
# What a step can do

A step of a running machine goes one of five ways: no instruction can be made out, the instruction
cannot be written to the trace, it does not complete, it completes and the machine goes on, or it
completes and the machine halts. Each way fixes the machine afterwards, so that whatever holds of
steps is shown by going through the five. Likewise for an instruction that completes, with one way
for each kind of instruction and two for a jump, and for one that does not, where an operand or the
port is to blame.

## Main definitions

* `Change` — what an instruction that completes makes of memory and outputs
* `Machine.Running` — a machine that has not stopped
* `Machine.recorded` — the machine after its trace has been written
* `Machine.completed` — the machine after an instruction has completed
* `Machine.Performed` — the ways of an instruction that completes
* `Machine.Hindered` — the ways of an instruction that does not
* `Machine.Stepped` — the five ways of a step

## Main results

* `Machine.fetch_eq_ok` — what it takes for an instruction to be made out
* `Machine.performed`, `Machine.hindered` — an instruction goes one of its ways
* `Machine.step_of_fetched` — a step is the conclusion of the instruction that was made out
* `Machine.stepped` — a step of a running machine goes one of the five ways
-/

namespace Intcode

/-- What an instruction that completes makes of memory and outputs, and where the program goes
on: `none` is the end. -/
structure Change where
  memory : Memory
  outputs : Array Int
  next : Option Int
  deriving DecidableEq, Repr

namespace Effect

variable {σ : Type} {effect : Effect σ}

/-- The change by an instruction, if it completes. -/
def change (effect : Effect σ) : Except Stop Change :=
  match effect.next with
  | .ok next => .ok ⟨effect.memory, effect.outputs, next⟩
  | .error stop => .error stop

/-- The effect of an instruction that completes. -/
def done (port : σ) (notes : List String) (change : Change) : Effect σ :=
  { memory := change.memory, outputs := change.outputs, port, notes, next := .ok change.next }

theorem eq_done {change : Change} (h : effect.change = .ok change) :
    effect = done effect.port effect.notes change := by
  unfold Effect.change at h
  obtain ⟨bench, next⟩ := effect
  cases next with
  | ok next =>
    cases h
    rfl
  | error stop => cases h

theorem next_of_error {stop : Stop} (h : effect.change = .error stop) :
    effect.next = .error stop := by
  unfold Effect.change at h
  cases next : effect.next with
  | ok goal =>
    rw [next] at h
    cases h
  | error stop' =>
    rw [next] at h
    cases h
    rfl

end Effect

theorem Outcome.state_ne_running (outcome : Outcome) : outcome.state ≠ .running := by
  unfold Outcome.state
  cases outcome.ending <;> exact State.noConfusion

namespace Machine

variable {σ : Type} {m : Machine σ} {command : Command Int}

/-- A machine that has not stopped. -/
structure Running (m : Machine σ) : Prop where
  state : m.state = .running
  outcome : m.outcome = none

/-- The machine after the entry for an instruction has been written to its trace, if there is
one. -/
def recorded (m : Machine σ) : Option String → Machine σ
  | none => m
  | some line => m.record line

/-- The machine after an instruction has completed. -/
def completed (m : Machine σ) (port : σ) (change : Change) : Machine σ :=
  { m with memory := change.memory, port, outputs := change.outputs, steps := m.steps + 1,
           pc := change.next.getD m.pc }

/-! ### Making out an instruction -/

/-- The instruction at a program counter in bounds is made out of all cells from there on. -/
theorem fetch_of_inBounds (budget : m.exhausted? = none) (inside : m.memory.inBounds m.pc) :
    m.fetch = Command.ofWindow (m.memory.cells.toList.drop m.pc.toNat) := by
  unfold fetch
  rw [budget]
  simp only [inside, if_true, Memory.window_eq inside]
  exact Command.ofWindow_take _

theorem fetch_eq_ok (h : m.fetch = .ok command) :
    m.exhausted? = none ∧ m.memory.inBounds m.pc ∧
      Command.ofWindow (m.memory.cells.toList.drop m.pc.toNat) = .ok command := by
  cases budget : m.exhausted? with
  | some limit =>
    rw [fetch, budget] at h
    cases h
  | none =>
    by_cases inside : m.memory.inBounds m.pc
    · exact ⟨rfl, inside, (fetch_of_inBounds budget inside).symm.trans h⟩
    · rw [fetch, budget] at h
      dsimp only at h
      rw [if_neg inside] at h
      cases h

/-- Where an instruction can be made out there is a first cell. -/
theorem exists_read_zero {memory : Memory} (h : m.fetch = .ok command)
    (size : memory.size = m.memory.size) : ∃ value, memory.read 0 = .ok value := by
  obtain ⟨-, inside, -⟩ := fetch_eq_ok h
  obtain ⟨nonneg, below⟩ := Memory.inBounds_iff.mp inside
  have first : memory.inBounds 0 := Memory.inBounds_iff.mpr ⟨Int.le_refl 0, by omega⟩
  obtain ⟨value, found⟩ := Option.isSome_iff_exists.mp (Memory.get?_isSome_iff.mpr first)
  exact ⟨value, by rw [Memory.read, found]⟩

/-! ### Concluding an instruction -/

theorem halt_of_read {value : Int} (h : m.memory.read 0 = .ok value) (events : List Event) :
    m.halt events = m.haltWith value events := by
  rw [halt, h]

theorem halt_of_unread {stop : Stop} (h : m.memory.read 0 = .error stop) (events : List Event) :
    m.halt events = ⟨{ m with state := .halted }, events, .error stop.refusal⟩ := by
  rw [halt, h]

theorem conclude_of_error {effect : Effect σ} {stop : Stop} (h : effect.change = .error stop)
    (events : List Event) :
    m.conclude effect events =
      abort { m with memory := effect.memory, outputs := effect.outputs, port := effect.port }
        stop (events ++ effect.notes.map .noted) := by
  unfold conclude
  rw [Effect.next_of_error h]

theorem conclude_of_isSome {effect : Effect σ} {change : Change} (h : effect.change = .ok change)
    (goes : change.next.isSome) (events : List Event) :
    m.conclude effect events =
      ⟨m.completed effect.port change, events ++ effect.notes.map .noted, .ok none⟩ := by
  obtain ⟨pc, next⟩ := Option.isSome_iff_exists.mp goes
  rw [Effect.eq_done h]
  unfold conclude completed Effect.done
  dsimp only
  rw [next]
  rfl

theorem conclude_of_none {effect : Effect σ} {change : Change} (h : effect.change = .ok change)
    (ends : change.next = none) (events : List Event) :
    m.conclude effect events =
      (m.completed effect.port change).halt (events ++ effect.notes.map .noted) := by
  rw [Effect.eq_done h]
  unfold conclude completed Effect.done
  dsimp only
  rw [ends]
  rfl

/-! ### Instructions that complete -/

/-- The change by an instruction that leaves the outputs alone. -/
def advance (m : Machine σ) (memory : Memory) (next : Int) : Change :=
  { memory, outputs := m.outputs, next := some next }

variable [Port σ]

/-- What an instruction does that completes, one case for each way through it. -/
inductive Performed (m : Machine σ) : Command Int → Effect σ → Prop
  | computed {op : Operation} {a b dest : Operand Int} {x y : Int} {memory : Memory}
      (first : m.memory.load a = .ok x) (second : m.memory.load b = .ok y)
      (stored : m.memory.store dest (op.apply x y) = .ok memory) :
      Performed m (.compute op a b dest)
        (.done m.port [] (m.advance memory (m.pc + (Command.compute op a b dest).length)))
  | jumped {expected : Bool} {cond target : Operand Int} {x goal : Int}
      (tested : m.memory.load cond = .ok x) (taken : ((x != 0) == expected) = true)
      (loaded : m.memory.load target = .ok goal) :
      Performed m (.jump expected cond target) (.done m.port [] (m.advance m.memory goal))
  | passed {expected : Bool} {cond target : Operand Int} {x : Int}
      (tested : m.memory.load cond = .ok x) (missed : ¬ ((x != 0) == expected) = true) :
      Performed m (.jump expected cond target)
        (.done m.port []
          (m.advance m.memory (m.pc + (Command.jump expected cond target).length)))
  | received {dest value : Int} {memory : Memory} (inside : m.memory.inBounds dest)
      (served : (Port.request m.port).answer = .ok value)
      (stored : m.memory.write dest value = .ok memory) :
      Performed m (.input dest) (.done (Port.request m.port).port (Port.request m.port).notes
        (m.advance memory (m.pc + 2)))
  | delivered {source value : Int} (loaded : m.memory.read source = .ok value)
      (taken : (Port.deliver value m.port).answer = .ok ()) :
      Performed m (.output source) (.done (Port.deliver value m.port).port
        (Port.deliver value m.port).notes
        { memory := m.memory, outputs := m.outputs.push value, next := some (m.pc + 2) })
  | halted :
      Performed m .halt
        (.done m.port [] { memory := m.memory, outputs := m.outputs, next := none })

theorem Performed.exists_change {effect : Effect σ} (h : Performed m command effect) :
    ∃ change, effect.change = .ok change := by
  cases h <;> exact ⟨_, rfl⟩

theorem Performed.perform_eq {effect : Effect σ} (h : Performed m command effect) :
    m.perform command = effect := by
  cases h with
  | computed first second stored =>
    rw [perform, Action.ofCommand, Action.compute_of_stored m.bench first second stored]
    rfl
  | jumped tested taken loaded =>
    rw [perform, Action.ofCommand, Action.jump_of_taken m.bench tested taken loaded]
    rfl
  | passed tested missed =>
    rw [perform, Action.ofCommand, Action.jump_of_missed m.bench tested missed]
    rfl
  | received inside served stored =>
    rw [Memory.write_of_inBounds inside] at stored
    cases stored
    rw [perform, Action.ofCommand, Action.input_of_served m.bench inside served]
    rfl
  | delivered loaded taken =>
    rw [perform, Action.ofCommand, Action.output_of_taken m.bench loaded taken]
    rfl
  | halted => rfl

/-! ### Instructions that do not complete -/

/-- What keeps an instruction from completing, one case for each way. -/
inductive Hindered (m : Machine σ) : Command Int → Stop → Prop
  | outOfBounds {command : Command Int} {o : Operand Int} (operand : o ∈ command.operands) :
      Hindered m command (m.memory.outOfBounds o.raw)
  | writeToImmediate {command : Command Int} {o : Operand Int} (operand : o ∈ command.operands) :
      Hindered m command (Cause.writeToImmediate o.raw).raised
  | unserved {dest : Int} {trouble : Port.Trouble} (inside : m.memory.inBounds dest)
      (request : (Port.request m.port).answer = .error trouble) :
      Hindered m (.input dest) trouble.stop
  | undelivered {source value : Int} {trouble : Port.Trouble}
      (loaded : m.memory.read source = .ok value)
      (deliver : (Port.deliver value m.port).answer = .error trouble) :
      Hindered m (.output source) trouble.stop

/-- An instruction completes in one of its ways, or something keeps it from completing. -/
def Goes (m : Machine σ) (command : Command Int) : Prop :=
  Performed m command (m.perform command) ∨
    ∃ stop, (m.perform command).change = .error stop ∧ Hindered m command stop

theorem Performed.goes {effect : Effect σ} (h : Performed m command effect) : m.Goes command :=
  .inl (by rwa [h.perform_eq])

theorem Hindered.goes {stop : Stop} {bench : Bench σ} (h : Hindered m command stop)
    (fails : Action.ofCommand command (m.pc + command.length) m.bench = .error stop bench) :
    m.Goes command :=
  .inr ⟨stop, by rw [perform, fails]; rfl, h⟩

theorem compute_goes (m : Machine σ) (op : Operation) (a b dest : Operand Int) :
    m.Goes (.compute op a b dest) := by
  cases first : m.memory.load a with
  | error stop =>
    have hindered : Hindered m (.compute op a b dest) stop := by
      rw [Memory.load_eq_error first]
      exact .outOfBounds List.mem_cons_self
    exact hindered.goes (Action.bind_of_error (Action.load_of_error m.bench first))
  | ok x =>
    cases second : m.memory.load b with
    | error stop =>
      have hindered : Hindered m (.compute op a b dest) stop := by
        rw [Memory.load_eq_error second]
        exact .outOfBounds (List.mem_cons_of_mem _ List.mem_cons_self)
      exact hindered.goes ((Action.bind_of_ok (Action.load_of_ok m.bench first)).trans
        (Action.bind_of_error (Action.load_of_error m.bench second)))
    | ok y =>
      cases stored : m.memory.store dest (op.apply x y) with
      | error stop =>
        have last : dest ∈ (Command.compute op a b dest).operands := by simp [Command.operands]
        have hindered : Hindered m (.compute op a b dest) stop := by
          rcases Memory.store_eq_error stored with outside | value
          · rw [outside]
            exact .outOfBounds last
          · rw [value]
            exact .writeToImmediate last
        exact hindered.goes ((Action.bind_of_ok (Action.load_of_ok m.bench first)).trans
          ((Action.bind_of_ok (Action.load_of_ok m.bench second)).trans
            (Action.bind_of_error (Action.store_of_error m.bench stored))))
      | ok memory => exact (Performed.computed first second stored).goes

theorem jump_goes (m : Machine σ) (expected : Bool) (cond target : Operand Int) :
    m.Goes (.jump expected cond target) := by
  cases tested : m.memory.load cond with
  | error stop =>
    have hindered : Hindered m (.jump expected cond target) stop := by
      rw [Memory.load_eq_error tested]
      exact .outOfBounds List.mem_cons_self
    exact hindered.goes (Action.bind_of_error (Action.load_of_error m.bench tested))
  | ok x =>
    by_cases taken : ((x != 0) == expected) = true
    · cases loaded : m.memory.load target with
      | error stop =>
        have hindered : Hindered m (.jump expected cond target) stop := by
          rw [Memory.load_eq_error loaded]
          exact .outOfBounds (List.mem_cons_of_mem _ List.mem_cons_self)
        exact hindered.goes ((Action.bind_of_ok (Action.load_of_ok m.bench tested)).trans
          (by rw [if_pos taken]; exact Action.bind_of_error (Action.load_of_error m.bench loaded)))
      | ok goal => exact (Performed.jumped tested taken loaded).goes
    · exact (Performed.passed tested taken).goes

theorem input_goes (m : Machine σ) (dest : Int) : m.Goes (.input dest) := by
  by_cases inside : m.memory.inBounds dest
  · cases request : (Port.request m.port).answer with
    | error trouble =>
      exact (Hindered.unserved inside request).goes
        (Action.input_of_unserved m.bench inside request _)
    | ok value =>
      exact (Performed.received inside request (Memory.write_of_inBounds inside value)).goes
  · have hindered : Hindered m (.input dest) (m.memory.outOfBounds dest) :=
      Hindered.outOfBounds (o := .position dest) List.mem_cons_self
    exact hindered.goes (Action.input_of_outside m.bench inside _)

theorem output_goes (m : Machine σ) (source : Int) : m.Goes (.output source) := by
  cases loaded : m.memory.read source with
  | error stop =>
    have hindered : Hindered m (.output source) stop := by
      rw [Memory.read_eq_error loaded]
      exact .outOfBounds (o := .position source) List.mem_cons_self
    exact hindered.goes (Action.output_of_unread m.bench loaded _)
  | ok value =>
    cases deliver : (Port.deliver value m.port).answer with
    | error trouble =>
      exact (Hindered.undelivered loaded deliver).goes
        (Action.output_of_untaken m.bench loaded deliver _)
    | ok _ => exact (Performed.delivered loaded deliver).goes

theorem goes (m : Machine σ) (command : Command Int) : m.Goes command := by
  cases command with
  | compute op a b dest => exact m.compute_goes op a b dest
  | jump expected cond target => exact m.jump_goes expected cond target
  | input dest => exact m.input_goes dest
  | output source => exact m.output_goes source
  | halt => exact Performed.halted.goes

/-- An instruction that completes goes one of the ways. -/
theorem performed {change : Change} (h : (m.perform command).change = .ok change) :
    Performed m command (m.perform command) := by
  rcases m.goes command with way | ⟨stop, fails, -⟩
  · exact way
  · rw [fails] at h
    cases h

/-- An instruction that does not complete is hindered in one of the ways. -/
theorem hindered {stop : Stop} (h : (m.perform command).change = .error stop) :
    Hindered m command stop := by
  rcases m.goes command with way | ⟨stop', fails, hindrance⟩
  · obtain ⟨change, completes⟩ := way.exists_change
    rw [completes] at h
    cases h
  · rw [fails] at h
    cases h
    exact hindrance

/-- An instruction that does not complete has changed neither the memory nor the outputs. -/
theorem holdings_of_error {stop : Stop} (h : (m.perform command).change = .error stop) :
    (m.perform command).memory = m.memory ∧ (m.perform command).outputs = m.outputs := by
  unfold perform at h ⊢
  cases ended : Action.ofCommand command (m.pc + command.length) m.bench with
  | ok next bench =>
    rw [ended] at h
    cases h
  | error stop' bench =>
    have same := Action.cautious_ofCommand command _ ended
    exact ⟨congrArg Prod.fst same, congrArg Prod.snd same⟩

/-- No instruction changes the size of the memory. -/
theorem size_of_perform {change : Change} (h : (m.perform command).change = .ok change) :
    change.memory.size = m.memory.size := by
  have way := performed h
  generalize m.perform command = effect at way h
  cases way with
  | computed first second stored =>
    cases h
    exact Memory.size_of_store stored
  | received inside served stored =>
    cases h
    exact Memory.size_of_write stored
  | jumped | passed | delivered | halted =>
    cases h
    rfl

/-- An input instruction whose request is not served is stopped by the trouble of the port. -/
theorem perform_of_unserved {dest : Int} {trouble : Port.Trouble} (inside : m.memory.inBounds dest)
    (unserved : (Port.request m.port).answer = .error trouble) :
    m.perform (.input dest) =
      { memory := m.memory, outputs := m.outputs, port := (Port.request m.port).port,
        notes := (Port.request m.port).notes, next := .error trouble.stop } := by
  rw [perform, Action.ofCommand, Action.input_of_unserved m.bench inside unserved]
  rfl

/-! ### Steps -/

/-- Carrying out an instruction does not depend on the trace. -/
theorem perform_recorded (m : Machine σ) (entry : Option String) (command : Command Int) :
    (m.recorded entry).perform command = m.perform command := by
  cases entry with
  | none => rfl
  | some line => cases command <;> rfl

theorem step_of_stopped (h : m.state ≠ .running) : m.step = ⟨m, [], .ok m.outcome⟩ := by
  unfold step
  cases state : m.state with
  | running => exact absurd state h
  | halted | faulted => rfl

theorem step_of_running (running : m.state = .running) : m.step = m.execute := by
  rw [step, running]

theorem step_of_unfetched (running : m.state = .running) {stop : Stop}
    (fetch : m.fetch = .error stop) :
    m.step = m.abort stop [] := by
  rw [step_of_running running, execute, fetch]

theorem step_of_untraced (running : m.state = .running) {why : Refusal}
    (fetch : m.fetch = .ok command) (trace : m.traceEntry command = .error why) :
    m.step = ⟨m, [], .error why⟩ := by
  rw [step_of_running running, execute, fetch]
  dsimp only
  rw [trace]

theorem step_of_fetched (running : m.state = .running) {entry : Option String}
    (fetch : m.fetch = .ok command) (trace : m.traceEntry command = .ok entry) :
    m.step =
      (m.recorded entry).conclude (m.perform command) (entry.toList.map .traced) := by
  rw [step_of_running running, execute, fetch, ← perform_recorded m entry]
  dsimp only
  rw [trace]
  cases entry <;> rfl

/-- The events of an instruction that was made out: its entry in the trace, and what the port
noted. -/
def details (m : Machine σ) (command : Command Int) (entry : Option String) : List Event :=
  entry.toList.map .traced ++ (m.perform command).notes.map .noted

/-- The ways in which a step of a running machine can go. -/
inductive Stepped (m : Machine σ) : Report σ → Prop
  /-- No instruction could be made out. -/
  | unfetched {stop : Stop} (fetch : m.fetch = .error stop) : Stepped m (m.abort stop [])
  /-- The instruction could not be written to the trace. -/
  | untraced {command : Command Int} {why : Refusal} (fetch : m.fetch = .ok command)
      (trace : m.traceEntry command = .error why) : Stepped m ⟨m, [], .error why⟩
  /-- The instruction did not complete. -/
  | stopped {command : Command Int} {entry : Option String} {stop : Stop}
      (fetch : m.fetch = .ok command) (trace : m.traceEntry command = .ok entry)
      (change : (m.perform command).change = .error stop) :
      Stepped m (abort { m.recorded entry with port := (m.perform command).port } stop
        (m.details command entry))
  /-- The instruction completed, and the machine goes on. -/
  | advanced {command : Command Int} {entry : Option String} {change : Change}
      (fetch : m.fetch = .ok command) (trace : m.traceEntry command = .ok entry)
      (effect : (m.perform command).change = .ok change) (goes : change.next.isSome) :
      Stepped m ⟨(m.recorded entry).completed (m.perform command).port change,
        m.details command entry, .ok none⟩
  /-- The instruction completed, and the machine halts with the value of its first cell. -/
  | halted {command : Command Int} {entry : Option String} {change : Change} {value : Int}
      (fetch : m.fetch = .ok command) (trace : m.traceEntry command = .ok entry)
      (effect : (m.perform command).change = .ok change) (ends : change.next = none)
      (first : change.memory.read 0 = .ok value) :
      Stepped m (((m.recorded entry).completed (m.perform command).port change).haltWith value
        (m.details command entry))

/-- An instruction that does not complete leaves nothing but what it did to the port. -/
theorem conclude_recorded_of_error {stop : Stop} (entry : Option String)
    (h : (m.perform command).change = .error stop) (events : List Event) :
    (m.recorded entry).conclude (m.perform command) events =
      abort { m.recorded entry with port := (m.perform command).port } stop
        (events ++ (m.perform command).notes.map .noted) := by
  obtain ⟨memory, outputs⟩ := holdings_of_error h
  rw [conclude_of_error h, memory, outputs]
  cases entry <;> rfl

/-- A step of a running machine goes one of the five ways. -/
theorem stepped (m : Machine σ) (running : m.state = .running) : Stepped m m.step := by
  cases fetch : m.fetch with
  | error stop =>
    rw [step_of_unfetched running fetch]
    exact .unfetched fetch
  | ok command =>
    cases trace : m.traceEntry command with
    | error why =>
      rw [step_of_untraced running fetch trace]
      exact .untraced fetch trace
    | ok entry =>
      rw [step_of_fetched running fetch trace]
      cases effect : (m.perform command).change with
      | error stop =>
        rw [conclude_recorded_of_error entry effect]
        exact .stopped fetch trace effect
      | ok change =>
        cases next : change.next with
        | some pc =>
          rw [conclude_of_isSome effect (by rw [next]; rfl)]
          exact .advanced fetch trace effect (by rw [next]; rfl)
        | none =>
          obtain ⟨value, first⟩ := exists_read_zero fetch (size_of_perform effect)
          rw [conclude_of_none effect next, halt_of_read first]
          exact .halted fetch trace effect next first

end Machine

end Intcode
