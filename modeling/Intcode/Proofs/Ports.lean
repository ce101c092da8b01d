import Intcode.Machine.Run
import Intcode.Proofs.Step

/-!
# Machines on different ports

A machine meets its port only when an instruction takes a value in or puts one out. Two machines
that differ in nothing but their ports therefore take the same step as long as the ports answer
alike, and the one request that matters is the one that the step makes.

## Main definitions

* `Port.Reply.Agree` — two replies with one answer, from ports that are still related
* `Machine.Alike` — two machines that differ only in their ports, which are related
* `Machine.asks` — whether the next step asks the port for a value
* `Machine.Offers` — the next step hands the port a value

## Main results

* `Machine.perform_agree` — an instruction has the same effect on ports that answer alike
* `Machine.port_of_asks`, `Machine.outputs_of_offers` — what a step makes of a request that is
  served
* `Machine.port_step` — what requests keep of a port, a step keeps
* `Machine.step_alike` — a step has the same effect on ports that answer alike
-/

namespace Intcode

variable {σ τ : Type}

/-- Two replies with the same answer and the same notes, from ports that are still related. -/
structure Port.Reply.Agree {α : Type} (R : σ → τ → Prop) (r : Port.Reply σ α)
    (r' : Port.Reply τ α) : Prop where
  port : R r.port r'.port
  notes : r'.notes = r.notes
  answer : r'.answer = r.answer

/-- Two benches that differ only in their ports, which are related. -/
structure Bench.Alike (R : σ → τ → Prop) (b : Bench σ) (b' : Bench τ) : Prop where
  memory : b'.memory = b.memory
  outputs : b'.outputs = b.outputs
  port : R b.port b'.port
  notes : b'.notes = b.notes

/-- Two effects that differ only in the ports, which are still related. -/
structure Effect.Agree (R : σ → τ → Prop) (e : Effect σ) (e' : Effect τ) : Prop where
  bench : e.toBench.Alike R e'.toBench
  next : e'.next = e.next

theorem Effect.Agree.change {R : σ → τ → Prop} {e : Effect σ} {e' : Effect τ} (h : e.Agree R e') :
    e'.change = e.change := by
  unfold Effect.change
  rw [h.next, h.bench.memory, h.bench.outputs]

/-! ### Actions -/

namespace Action

variable {α β : Type} {R : σ → τ → Prop} {bench : Bench σ} {bench' : Bench τ}

/-- Two actions end in the same way, on benches that differ only in their ports. -/
inductive Agree (R : σ → τ → Prop) :
    EStateM.Result Stop (Bench σ) α → EStateM.Result Stop (Bench τ) α → Prop
  | ok {x : α} {b : Bench σ} {b' : Bench τ} (alike : b.Alike R b') : Agree R (.ok x b) (.ok x b')
  | error {stop : Stop} {b : Bench σ} {b' : Bench τ} (alike : b.Alike R b') :
      Agree R (.error stop b) (.error stop b')

theorem Agree.effect {r : EStateM.Result Stop (Bench σ) (Option Int)}
    {r' : EStateM.Result Stop (Bench τ) (Option Int)} (h : Agree R r r') :
    (Effect.ofResult r).Agree R (Effect.ofResult r') := by
  cases h with
  | ok alike => exact ⟨alike, rfl⟩
  | error alike => exact ⟨alike, rfl⟩

theorem Agree.bind {act : Action σ α} {act' : Action τ α} {f : α → Action σ β}
    {f' : α → Action τ β} (first : Agree R (act bench) (act' bench'))
    (rest : ∀ x b b', b.Alike R b' → Agree R (f x b) (f' x b')) :
    Agree R ((act >>= f) bench) ((act' >>= f') bench') := by
  cases done : act bench with
  | ok x b =>
    cases done' : act' bench' with
    | ok x' b' =>
      rw [done, done'] at first
      cases first with
      | ok alike =>
        rw [bind_of_ok done, bind_of_ok done']
        exact rest x b b' alike
    | error stop b' =>
      rw [done, done'] at first
      cases first
  | error stop b =>
    cases done' : act' bench' with
    | ok x' b' =>
      rw [done, done'] at first
      cases first
    | error stop' b' =>
      rw [done, done'] at first
      cases first with
      | error alike =>
        rw [bind_of_error done, bind_of_error done']
        exact .error alike

theorem load_agree (alike : bench.Alike R bench') (operand : Operand Int) :
    Agree R (load operand bench) (load operand bench') := by
  unfold load
  rw [alike.memory]
  cases bench.memory.load operand with
  | ok value => exact .ok alike
  | error stop => exact .error alike

theorem store_agree (alike : bench.Alike R bench') (operand : Operand Int) (value : Int) :
    Agree R (store operand value bench) (store operand value bench') := by
  unfold store
  rw [alike.memory]
  cases bench.memory.store operand value with
  | ok memory => exact .ok { alike with memory := rfl }
  | error stop => exact .error alike

theorem compute_agree (alike : bench.Alike R bench') (op : Operation) (a b dest : Operand Int)
    (next : Int) : Agree R (compute op a b dest next bench) (compute op a b dest next bench') := by
  refine (load_agree alike a).bind fun x _ _ alike => ?_
  refine (load_agree alike b).bind fun y _ _ alike => ?_
  exact (store_agree alike dest (op.apply x y)).bind fun _ _ _ alike => .ok alike

theorem jump_agree (alike : bench.Alike R bench') (expected : Bool) (cond target : Operand Int)
    (next : Int) :
    Agree R (jump expected cond target next bench) (jump expected cond target next bench') := by
  refine (load_agree alike cond).bind fun x _ _ alike => ?_
  by_cases taken : ((x != 0) == expected) = true
  · rw [if_pos taken, if_pos taken]
    exact (load_agree alike target).bind fun goal _ _ alike => .ok alike
  · rw [if_neg taken, if_neg taken]
    exact .ok alike

theorem replied_alike {r : Port.Reply σ α} {r' : Port.Reply τ α} (alike : bench.Alike R bench')
    (agree : r.Agree R r') : (replied bench r).Alike R (replied bench' r') where
  memory := alike.memory
  outputs := alike.outputs
  port := agree.port
  notes := by
    unfold replied
    rw [alike.notes, agree.notes]

variable [Port σ] [Port τ]

theorem input_agree (alike : bench.Alike R bench') (dest next : Int)
    (request : bench.memory.inBounds dest →
      (Port.request bench.port).Agree R (Port.request bench'.port)) :
    Agree R (input dest next bench) (input dest next bench') := by
  by_cases inside : bench.memory.inBounds dest
  · have inside' : bench'.memory.inBounds dest := by rwa [alike.memory]
    have agree := request inside
    have replied := replied_alike alike agree
    cases served : (Port.request bench.port).answer with
    | ok value =>
      rw [input_of_served _ inside served,
        input_of_served _ inside' (agree.answer.trans served), alike.memory]
      exact .ok { replied with memory := rfl }
    | error trouble =>
      rw [input_of_unserved _ inside served,
        input_of_unserved _ inside' (agree.answer.trans served)]
      exact .error replied
  · have outside' : ¬ bench'.memory.inBounds dest := by rwa [alike.memory]
    rw [input_of_outside _ inside, input_of_outside _ outside', alike.memory]
    exact .error alike

theorem output_agree (alike : bench.Alike R bench') (source next : Int)
    (deliver : ∀ value, bench.memory.read source = .ok value →
      (Port.deliver value bench.port).Agree R (Port.deliver value bench'.port)) :
    Agree R (output source next bench) (output source next bench') := by
  have same : bench'.memory.read source = bench.memory.read source := by rw [alike.memory]
  cases read : bench.memory.read source with
  | error stop =>
    rw [output_of_unread _ read, output_of_unread _ (same.trans read)]
    exact .error alike
  | ok value =>
    have agree := deliver value read
    have replied := replied_alike alike agree
    cases taken : (Port.deliver value bench.port).answer with
    | ok _ =>
      rw [output_of_taken _ read taken,
        output_of_taken _ (same.trans read) (agree.answer.trans taken), alike.outputs]
      exact .ok { replied with outputs := rfl }
    | error trouble =>
      rw [output_of_untaken _ read taken,
        output_of_untaken _ (same.trans read) (agree.answer.trans taken)]
      exact .error replied

/-- What requests keep of a port, an instruction keeps. -/
theorem keeps_ofCommand {P : σ → Prop} (request : ∀ p, P p → P (Port.request p).port)
    (deliver : ∀ value p, P p → P (Port.deliver value p).port) (command : Command Int)
    (next : Int) : Keeps (fun b : Bench σ => P b.port) (ofCommand command next) := by
  cases command with
  | compute op a b dest =>
    refine (keeps_load _ a).bind fun x => (keeps_load _ b).bind fun y => ?_
    exact (keeps_store fun _ _ held => held).bind fun _ => keeps_pure _ _
  | jump expected cond target =>
    refine (keeps_load _ cond).bind fun x => ?_
    by_cases taken : ((x != 0) == expected) = true
    · rw [if_pos taken]
      exact (keeps_load _ target).bind fun goal => keeps_pure _ _
    · rw [if_neg taken]
      exact keeps_pure _ _
  | input dest =>
    refine (keeps_check _ dest).bind fun _ => ?_
    refine (keeps_ask fun b held => request b.port held).bind fun value => ?_
    exact (keeps_store fun _ _ held => held).bind fun _ => keeps_pure _ _
  | output source =>
    refine (keeps_load _ (.position source)).bind fun value => ?_
    refine (keeps_ask fun b held => deliver value b.port held).bind fun _ => ?_
    exact (keeps_putOut fun _ _ held => held).bind fun _ => keeps_pure _ _
  | halt => exact keeps_pure _ _

end Action

namespace Machine

variable {R : σ → τ → Prop} {m : Machine σ} {m' : Machine τ} {command : Command Int}

/-- Whether the next step asks the port for a value: an input instruction has been made out, it can
be written to the trace, and the cell that takes the value is there. -/
def asks (m : Machine σ) : Bool :=
  m.awaitsInput && m.fetch.toOption.any fun command => (m.traceEntry command).isOk

theorem asks_iff :
    m.asks ↔ m.state = .running ∧ ∃ dest entry, m.fetch = .ok (.input dest) ∧
      m.traceEntry (.input dest) = .ok entry ∧ m.memory.inBounds dest := by
  unfold asks awaitsInput
  cases m.state with
  | halted | faulted => simp
  | running =>
    cases m.fetch with
    | error stop => simp
    | ok command =>
      cases command with
      | compute | output | jump | halt => simp
      | input dest =>
        cases trace : m.traceEntry (.input dest) <;>
          simp [Except.toOption, Except.isOk, Except.toBool, trace]

/-- The next step hands the port a value: an output instruction has been made out, it can be written
to the trace, and the cell that it shows is there. -/
def Offers (m : Machine σ) (value : Int) : Prop :=
  m.state = .running ∧ ∃ source entry, m.fetch = .ok (.output source) ∧
    m.traceEntry (.output source) = .ok entry ∧ m.memory.read source = .ok value

/-- The same machine on another port. -/
def onPort (m : Machine σ) (port : τ) : Machine τ :=
  { memory := m.memory, port, maxSteps := m.maxSteps, tracing := m.tracing, pc := m.pc,
    steps := m.steps, outputs := m.outputs, state := m.state, outcome := m.outcome,
    trace := m.trace }

/-- Two machines that differ only in their ports, which are related. -/
structure Alike (R : σ → τ → Prop) (m : Machine σ) (m' : Machine τ) : Prop where
  memory : m'.memory = m.memory
  pc : m'.pc = m.pc
  steps : m'.steps = m.steps
  outputs : m'.outputs = m.outputs
  state : m'.state = m.state
  outcome : m'.outcome = m.outcome
  maxSteps : m'.maxSteps = m.maxSteps
  tracing : m'.tracing = m.tracing
  trace : m'.trace = m.trace
  port : R m.port m'.port

theorem alike_onPort {q : τ} (h : R m.port q) : Alike R m (m.onPort q) :=
  ⟨rfl, rfl, rfl, rfl, rfl, rfl, rfl, rfl, rfl, h⟩

theorem Alike.eq_onPort (h : Alike R m m') : m' = m.onPort m'.port := by
  cases m'
  simp only [onPort, mk.injEq, true_and]
  exact ⟨h.memory, h.maxSteps, h.tracing, h.pc, h.steps, h.outputs, h.state, h.outcome, h.trace⟩

theorem Alike.mono {S : σ → τ → Prop} (h : Alike R m m') (weaker : ∀ p q, R p q → S p q) :
    Alike S m m' :=
  { h with port := weaker _ _ h.port }

/-! ### Stopping and going on -/

theorem abort_alike (h : Alike R m m') (stop : Stop) (events : List Event) :
    Alike R (m.abort stop events).machine (m'.abort stop events).machine ∧
      (m'.abort stop events).answer = (m.abort stop events).answer := by
  rw [h.eq_onPort]
  cases stop <;> exact ⟨alike_onPort h.port, rfl⟩

theorem halt_alike (h : Alike R m m') (events events' : List Event) :
    Alike R (m.halt events).machine (m'.halt events').machine ∧
      (m'.halt events').answer = (m.halt events).answer := by
  rw [h.eq_onPort]
  cases first : m.memory.read 0 with
  | ok value =>
    rw [halt_of_read first, halt_of_read (m := m.onPort m'.port) first]
    exact ⟨alike_onPort (m := (m.haltWith value events).machine) h.port, rfl⟩
  | error stop =>
    rw [halt_of_unread first, halt_of_unread (m := m.onPort m'.port) first]
    exact ⟨alike_onPort (m := { m with state := .halted }) h.port, rfl⟩

theorem recorded_alike (h : Alike R m m') (entry : Option String) :
    Alike R (m.recorded entry) (m'.recorded entry) := by
  rw [h.eq_onPort]
  cases entry <;> exact alike_onPort h.port

theorem conclude_alike (h : Alike R m m') {e : Effect σ} {e' : Effect τ} (agree : e.Agree R e')
    (events : List Event) :
    Alike R (m.conclude e events).machine (m'.conclude e' events).machine ∧
      (m'.conclude e' events).answer = (m.conclude e events).answer := by
  rw [h.eq_onPort]
  cases found : e.change with
  | error stop =>
    have found' := agree.change.trans found
    rw [conclude_of_error found, conclude_of_error found', agree.bench.notes, agree.bench.memory,
      agree.bench.outputs]
    have alike := alike_onPort (m := { m with memory := e.memory, outputs := e.outputs,
                                              port := e.port }) agree.bench.port
    exact abort_alike alike stop _
  | ok change =>
    have found' := agree.change.trans found
    cases next : change.next with
    | some pc =>
      have goes : change.next.isSome := by rw [next]; rfl
      rw [conclude_of_isSome found goes, conclude_of_isSome found' goes]
      exact ⟨alike_onPort (m := m.completed e.port change) agree.bench.port, rfl⟩
    | none =>
      rw [conclude_of_none found next, conclude_of_none found' next]
      exact halt_alike (alike_onPort (m := m.completed e.port change) agree.bench.port) _ _

variable [Port σ] [Port τ]

/-! ### Carrying out an instruction -/

/-- An instruction has the same effect on ports that answer alike. Only an input instruction asks
for a value, and only an output instruction hands one over. -/
theorem perform_agree {q : τ} (related : R m.port q)
    (request : ∀ dest, command = .input dest → m.memory.inBounds dest →
      (Port.request m.port).Agree R (Port.request q))
    (deliver : ∀ source value, command = .output source → m.memory.read source = .ok value →
      (Port.deliver value m.port).Agree R (Port.deliver value q)) :
    (m.perform command).Agree R ((m.onPort q).perform command) := by
  have alike : m.bench.Alike R (m.onPort q).bench := ⟨rfl, rfl, related, rfl⟩
  refine Action.Agree.effect ?_
  cases command with
  | compute op a b dest => exact Action.compute_agree alike op a b dest _
  | jump expected cond target => exact Action.jump_agree alike expected cond target _
  | input dest => exact Action.input_agree alike dest _ (request dest rfl)
  | output source => exact Action.output_agree alike source _ fun value => deliver source value rfl
  | halt => exact .ok alike

/-- A step that asks for a value and is served leaves the port as its request left it. -/
theorem port_of_asks (asks : m.asks) {value : Int}
    (served : (Port.request m.port).answer = .ok value) :
    m.step.machine.port = (Port.request m.port).port := by
  obtain ⟨running, dest, entry, fetch, trace, inside⟩ := asks_iff.mp asks
  have way := Performed.received inside served (Memory.write_of_inBounds inside value)
  rw [step_of_fetched running fetch trace, way.perform_eq, conclude_of_isSome rfl rfl]
  rfl

/-- A step that hands over a value, and the port takes it, puts it out. -/
theorem outputs_of_offers {value : Int} (offers : m.Offers value)
    (taken : (Port.deliver value m.port).answer = .ok ()) :
    m.step.machine.outputs = m.outputs.push value := by
  obtain ⟨running, source, entry, fetch, trace, loaded⟩ := offers
  have way := Performed.delivered loaded taken
  rw [step_of_fetched running fetch trace, way.perform_eq, conclude_of_isSome rfl rfl]
  rfl

/-! ### Steps -/

/-- What requests keep of a port, an instruction keeps. -/
theorem port_perform {P : σ → Prop} (request : ∀ p, P p → P (Port.request p).port)
    (deliver : ∀ value p, P p → P (Port.deliver value p).port) (h : P m.port)
    (command : Command Int) : P (m.perform command).port := by
  have keeps := Action.keeps_ofCommand request deliver command (m.pc + command.length)
  unfold perform
  rcases keeps m.bench h with ⟨next, after, done, kept⟩ | ⟨stop, after, failed, kept⟩
  · rw [done]
    exact kept
  · rw [failed]
    exact kept

/-- What requests keep of a port, a step keeps. -/
theorem port_step {P : σ → Prop} (request : ∀ p, P p → P (Port.request p).port)
    (deliver : ∀ value p, P p → P (Port.deliver value p).port) (h : P m.port) :
    P m.step.machine.port := by
  by_cases running : m.state = .running
  · have way := m.stepped running
    generalize m.step = r at way
    cases way with
    | @unfetched stop fetch => cases stop <;> exact h
    | untraced fetch trace => exact h
    | @stopped command entry stop fetch trace change =>
      cases stop <;> exact port_perform request deliver h command
    | @advanced command | @halted command => exact port_perform request deliver h command
  · rw [step_of_stopped running]
    exact h

/-- Machines that differ only in their ports take the same step if the ports answer alike. It is
enough that they do so when a value is asked for, and for the value that is handed over. -/
theorem step_alike (alike : Alike R m m')
    (request : m.asks → (Port.request m.port).Agree R (Port.request m'.port))
    (deliver : ∀ value, m.Offers value →
      (Port.deliver value m.port).Agree R (Port.deliver value m'.port)) :
    Alike R m.step.machine m'.step.machine ∧ m'.step.answer = m.step.answer := by
  by_cases running : m.state = .running
  · have running' := alike.state.trans running
    have same := alike.eq_onPort
    -- Making out the instruction and writing the trace have nothing to do with the port.
    have fetched : m'.fetch = m.fetch := by rw [same]; rfl
    have traced (command : Command Int) : m'.traceEntry command = m.traceEntry command := by
      rw [same]
      rfl
    cases fetch : m.fetch with
    | error stop =>
      rw [step_of_unfetched running fetch, step_of_unfetched running' (fetched.trans fetch)]
      exact abort_alike alike stop []
    | ok command =>
      cases trace : m.traceEntry command with
      | error why =>
        rw [step_of_untraced running fetch trace,
          step_of_untraced running' (fetched.trans fetch) ((traced command).trans trace)]
        exact ⟨alike, rfl⟩
      | ok entry =>
        rw [step_of_fetched running fetch trace,
          step_of_fetched running' (fetched.trans fetch) ((traced command).trans trace)]
        refine conclude_alike (recorded_alike alike entry) ?_ _
        rw [same]
        refine perform_agree alike.port (fun dest input inside => ?_)
          (fun source value output loaded => ?_)
        · subst input
          exact request (asks_iff.mpr ⟨running, dest, entry, fetch, trace, inside⟩)
        · subst output
          exact deliver value ⟨running, source, entry, fetch, trace, loaded⟩
  · have stopped' : m'.state ≠ .running := by rwa [alike.state]
    rw [step_of_stopped running, step_of_stopped stopped']
    exact ⟨alike, by rw [alike.outcome]⟩

end Machine

end Intcode
