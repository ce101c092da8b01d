import Intcode.Proofs.Atomicity
import Intcode.Proofs.Interplay
import Intcode.Proofs.Run

/-!
# What passes through a port

The values that a machine takes in come off the line of its port in order, one for each input
instruction that completes, and every one of them ends up in a memory cell. The values that it puts
out join the other line of the port and the outputs of the machine, one for each output instruction
that completes. Nothing else that the machine does touches either line, so no value is lost, comes
twice or overtakes another, whatever the other party does between the steps.

The port is changed in one place and the memory or the outputs in another. That the two stay in step
rests on an instruction that fails leaving the port alone.

## Main definitions

* `Port.Lines` — a port as a line of values to come and a line of values handed over
* `Machine.stored`, `Machine.shown` — the value that a step stores from the port or shows to it
* `Machine.Exchanged` — the three ways of a step at a port
* `Port.Queue.Act` — what the other party can do at a queue port

## Main results

* `Machine.exchanged` — a step goes one of the three ways
* `Machine.stored_append_pending`, `Machine.delivered_step` — what a step does to the two lines
* `Machine.values_conserved` — no value is lost, doubled or reordered in any interplay
-/

namespace Intcode

namespace Port

/-- A port as two lines of values: those still to be taken in, and those handed over. A request that
is served moves a line by one value, and one that is not moves none. -/
structure Lines (σ : Type) [Port σ] where
  pending : σ → List Int
  delivered : σ → List Int
  steady : Steady σ
  request : ∀ {p : σ} {value : Int}, (Port.request p).answer = .ok value →
    pending p = value :: pending (Port.request p).port ∧
      delivered (Port.request p).port = delivered p
  deliver : ∀ {value : Int} {p : σ}, (Port.deliver value p).answer = .ok () →
    pending (Port.deliver value p).port = pending p ∧
      delivered (Port.deliver value p).port = delivered p ++ [value]

/-- The lines of a scripted port. -/
def Scripted.lines : Lines Scripted where
  pending p := p.pending
  delivered p := p.outputs.toList
  steady := Scripted.steady
  request {p value} h := by
    change p.request.answer = _ at h
    change p.pending = value :: p.request.port.pending ∧ p.request.port.outputs.toList = _
    unfold Scripted.request at h ⊢
    cases hp : p.pending with
    | nil =>
      rw [hp] at h
      cases h
    | cons first rest =>
      rw [hp] at h
      cases h
      exact ⟨rfl, rfl⟩
  deliver _ := ⟨rfl, Array.toList_push⟩

/-- A queue gives its first value if it has one, or it is refused, whatever is in it. -/
theorem Queue.take_cases (timeout : Option Timeout) :
    ((∃ why, Queue.take timeout [] = .error why) ∧
        ∀ value xs, Queue.take timeout (value :: xs) = .ok (value, xs)) ∨
      ∃ why, ∀ xs, Queue.take timeout xs = .error (.refused why) := by
  cases timeout with
  | none => exact .inl ⟨⟨_, rfl⟩, fun _ _ => rfl⟩
  | some t =>
    by_cases negative : t.isNegative
    · refine .inr ⟨.negativeTimeout, fun xs => ?_⟩
      simp [Queue.take, negative]
    · by_cases uncountable : t.isUncountable
      · refine .inr ⟨.timeoutTooLarge, fun xs => ?_⟩
        simp [Queue.take, negative, uncountable]
      · refine .inl ⟨?_, fun value xs => ?_⟩ <;> simp [Queue.take, negative, uncountable]

theorem Queue.take_eq_ok {timeout : Option Timeout} {queue rest : List Int} {value : Int}
    (h : Queue.take timeout queue = .ok (value, rest)) : queue = value :: rest := by
  rcases Queue.take_cases timeout with ⟨⟨why, empty⟩, serves⟩ | ⟨why, refuses⟩
  · cases queue with
    | nil =>
      rw [empty] at h
      cases h
    | cons first queue =>
      rw [serves] at h
      cases h
      rfl
  · rw [refuses] at h
    cases h

/-- The lines of a queue port. -/
def Queue.lines : Lines Queue where
  pending p := p.inbox
  delivered p := p.outbox
  steady := Queue.steady
  request {p value} h := by
    change p.request.answer = _ at h
    change p.inbox = value :: p.request.port.inbox ∧ p.request.port.outbox = p.outbox
    unfold Queue.request at h ⊢
    cases taken : Queue.take p.timeout p.inbox with
    | ok found =>
      obtain ⟨first, rest⟩ := found
      rw [taken] at h
      cases h
      exact ⟨Queue.take_eq_ok taken, rfl⟩
    | error why =>
      rw [taken] at h
      cases why <;> cases h
  deliver _ := ⟨rfl, rfl⟩

/-! ### The other party at a queue port -/

/-- What the other party can do at a queue port. -/
inductive Queue.Act where
  /-- Sends a value. -/
  | send (value : Int)
  /-- Tries to receive a value within a timeout. -/
  | receive (timeout : Option Timeout)
  deriving DecidableEq, Repr

/-- The port after an act of the other party. -/
def Queue.after : Queue.Act → Queue → Queue
  | .send value, p => p.send value
  | .receive timeout, p =>
    match p.receive timeout with
    | .ok (_, p) => p
    | .error _ => p

/-- The value that an act of the other party receives. -/
def Queue.received : Queue.Act → Queue → List Int
  | .send _, _ => []
  | .receive timeout, p =>
    match p.receive timeout with
    | .ok (value, _) => [value]
    | .error _ => []

/-- The value that an act of the other party sends. -/
def Queue.sent : Queue.Act → List Int
  | .send value => [value]
  | .receive _ => []

theorem Queue.inbox_after (a : Queue.Act) (p : Queue) :
    (Queue.after a p).inbox = p.inbox ++ Queue.sent a := by
  cases a with
  | send value => rfl
  | receive timeout =>
    unfold Queue.after Queue.receive Queue.sent
    dsimp only
    cases Queue.take timeout p.outbox <;> simp [bind, Except.bind, pure, Except.pure]

theorem Queue.received_append_outbox (a : Queue.Act) (p : Queue) :
    Queue.received a p ++ (Queue.after a p).outbox = p.outbox := by
  cases a with
  | send value => rfl
  | receive timeout =>
    unfold Queue.after Queue.received Queue.receive
    dsimp only
    cases taken : Queue.take timeout p.outbox with
    | error why => rfl
    | ok found =>
      obtain ⟨value, rest⟩ := found
      exact (Queue.take_eq_ok taken).symm

end Port

namespace Machine

variable {σ : Type} [Port σ] {m : Machine σ}

/-! ### What a step stores and shows -/

/-- The instruction that the next step completes, if it completes one. -/
def executed? (m : Machine σ) : Option (Command Int) :=
  if m.step.machine.steps = m.steps + 1 then m.fetch.toOption else none

/-- The value that the next step stores if it completes an input instruction, as found in its cell
afterwards. -/
def stored (m : Machine σ) : List Int :=
  match m.executed? with
  | some (.input dest) => (m.step.machine.memory.get? dest).toList
  | _ => []

/-- The value that the next step shows if it completes an output instruction, as found in its cell
before. -/
def shown (m : Machine σ) : List Int :=
  match m.executed? with
  | some (.output source) => (m.memory.get? source).toList
  | _ => []

theorem executed?_of_keeps (h : m.Keeps m.step.machine) : m.executed? = none := by
  rw [executed?, h.steps]
  exact if_neg (by omega)

theorem executed?_of_steps {command : Command Int} (fetch : m.fetch = .ok command)
    (steps : m.step.machine.steps = m.steps + 1) : m.executed? = some command := by
  rw [executed?, if_pos steps, fetch]
  rfl

/-- A step keeps everything or completes an instruction. -/
theorem keeps_or_completes (steady : Port.Steady σ) (m : Machine σ) :
    (m.Keeps m.step.machine ∧ m.step.machine.port = m.port) ∨
      ∃ command change, m.fetch = .ok command ∧ (m.perform command).change = .ok change ∧
        m.step.machine.steps = m.steps + 1 ∧ m.step.machine.memory = change.memory ∧
        m.step.machine.port = (m.perform command).port ∧
        m.step.machine.outputs = change.outputs := by
  by_cases running : m.state = .running
  · have way := m.stepped running
    generalize m.step = r at way ⊢
    cases way with
    | @unfetched stop fetch => cases stop <;> exact .inl ⟨⟨rfl, rfl, rfl, rfl, rfl, rfl⟩, rfl⟩
    | untraced fetch trace => exact .inl ⟨m.keeps_refl, rfl⟩
    | @stopped command entry stop fetch trace change =>
      have kept := keeps_recorded m entry (m.perform command).port
      have port := perform_port_of_error steady change
      cases stop <;>
        exact .inl ⟨⟨kept.memory, kept.pc, kept.steps, kept.outputs, kept.maxSteps, kept.tracing⟩,
          port⟩
    | @advanced command entry change fetch trace effect goes =>
      refine .inr ⟨command, change, fetch, effect, ?_, rfl, rfl, rfl⟩
      cases entry <;> rfl
    | @halted command entry change value fetch trace effect ends first =>
      refine .inr ⟨command, change, fetch, effect, ?_, rfl, rfl, rfl⟩
      cases entry <;> rfl
  · rw [step_of_stopped running]
    exact .inl ⟨m.keeps_refl, rfl⟩

/-- What a step can do at a port: nothing, or take one value in and store it, or show one value and
put it out. -/
inductive Exchanged (m after : Machine σ) : Prop
  | nothing (stored : m.stored = []) (shown : m.shown = []) (port : after.port = m.port)
      (outputs : after.outputs = m.outputs)
  | took {value : Int} (served : (Port.request m.port).answer = .ok value)
      (stored : m.stored = [value]) (shown : m.shown = [])
      (port : after.port = (Port.request m.port).port) (outputs : after.outputs = m.outputs)
  | put {value : Int} (accepted : (Port.deliver value m.port).answer = .ok ())
      (stored : m.stored = []) (shown : m.shown = [value])
      (port : after.port = (Port.deliver value m.port).port)
      (outputs : after.outputs = m.outputs.push value)

/-- A step goes one of the three ways. -/
theorem exchanged (steady : Port.Steady σ) (m : Machine σ) : Exchanged m m.step.machine := by
  rcases m.keeps_or_completes steady with ⟨keeps, port⟩ | ⟨command, change, fetch, effect, rest⟩
  · have idle := executed?_of_keeps keeps
    exact .nothing (by rw [stored, idle]) (by rw [shown, idle]) port keeps.outputs
  -- Of the instructions that complete, only those for input and output get at the port.
  · obtain ⟨steps, memory, port, outputs⟩ := rest
    have executed := executed?_of_steps fetch steps
    have way := performed effect
    generalize m.perform command = e at way effect port
    cases way with
    | computed | jumped | passed | halted =>
      cases effect
      exact .nothing (by rw [stored, executed]) (by rw [shown, executed]) port outputs
    | @received dest value written inside served kept =>
      cases effect
      refine .took served ?_ (by rw [shown, executed]) port outputs
      -- The cell holds the value after the step because it was just written there.
      rw [stored, executed]
      change (m.step.machine.memory.get? dest).toList = [value]
      rw [memory]
      exact congrArg Option.toList (Memory.get?_of_write kept)
    | @delivered source value loaded accepted =>
      cases effect
      refine .put accepted (by rw [stored, executed]) ?_ port outputs
      rw [shown, executed]
      exact congrArg Option.toList (Memory.get?_of_read loaded)

/-! ### What a step does to the lines of a port -/

/-- What a step stores comes off the line of pending values. -/
theorem stored_append_pending (lines : Port.Lines σ) (m : Machine σ) :
    m.stored ++ lines.pending m.step.machine.port = lines.pending m.port := by
  cases m.exchanged lines.steady with
  | nothing stored shown port outputs => rw [stored, port, List.nil_append]
  | took served stored shown port outputs =>
    rw [stored, port, (lines.request served).1, List.singleton_append]
  | put accepted stored shown port outputs =>
    rw [stored, port, (lines.deliver accepted).1, List.nil_append]

/-- What a step shows joins the line of values handed over. -/
theorem delivered_step (lines : Port.Lines σ) (m : Machine σ) :
    lines.delivered m.step.machine.port = lines.delivered m.port ++ m.shown := by
  cases m.exchanged lines.steady with
  | nothing stored shown port outputs => rw [shown, port, List.append_nil]
  | took served stored shown port outputs =>
    rw [shown, port, (lines.request served).2, List.append_nil]
  | put accepted stored shown port outputs => rw [shown, port, (lines.deliver accepted).2]

/-- What a step shows joins the outputs of the machine. -/
theorem outputs_step (steady : Port.Steady σ) (m : Machine σ) :
    m.step.machine.outputs.toList = m.outputs.toList ++ m.shown := by
  cases m.exchanged steady with
  | nothing stored shown port outputs => rw [shown, outputs, List.append_nil]
  | took served stored shown port outputs => rw [shown, outputs, List.append_nil]
  | put accepted stored shown port outputs => rw [shown, outputs, Array.toList_push]

/-! ### Any interplay -/

variable {α : Type}

/-- What the step of a turn stores. -/
def storedIn (m : Machine σ) : Turn α → List Int
  | .step => m.stored
  | .act _ => []

/-- What the step of a turn shows. -/
def shownIn (m : Machine σ) : Turn α → List Int
  | .step => m.shown
  | .act _ => []

/-- What the act of a turn brings about, as `given` says of each act and the port before it. -/
def actedIn (given : α → σ → List Int) (m : Machine σ) : Turn α → List Int
  | .step => []
  | .act a => given a m.port

/-- Whatever the other party supplies is stored in order, and the rest of it is pending. -/
theorem gather_stored (lines : Port.Lines σ) {act : α → σ → σ} {given : α → List Int}
    (supplies : ∀ a p, lines.pending (act a p) = lines.pending p ++ given a)
    (m : Machine σ) (turns : List (Turn α)) :
    m.gather act storedIn turns ++ lines.pending (m.play act turns).port =
      lines.pending m.port ++ Turn.values given turns := by
  rw [← gather_values act (actedIn fun a _ => given a) (fun _ => rfl) (fun _ _ => rfl) m]
  refine gather_balance (fun m => lines.pending m.port) ?_ m turns
  intro m t
  cases t with
  | step => exact (m.stored_append_pending lines).trans (List.append_nil _).symm
  | act a => exact supplies a m.port

/-- Whatever the machine shows joins its outputs in order. -/
theorem gather_outputs (steady : Port.Steady σ) (act : α → σ → σ) (m : Machine σ)
    (turns : List (Turn α)) :
    (m.play act turns).outputs.toList = m.outputs.toList ++ m.gather act shownIn turns := by
  refine gather_growth (fun m => m.outputs.toList) ?_ m turns
  intro m t
  cases t with
  | step => exact m.outputs_step steady
  | act a => exact (List.append_nil _).symm

/-- If the other party collects nothing, then whatever the machine shows stays at the port. -/
theorem delivered_play (lines : Port.Lines σ) (act : α → σ → σ)
    (keeps : ∀ a p, lines.delivered (act a p) = lines.delivered p) (m : Machine σ)
    (turns : List (Turn α)) :
    lines.delivered (m.play act turns).port =
      lines.delivered m.port ++ m.gather act shownIn turns := by
  refine gather_growth (fun m => lines.delivered m.port) ?_ m turns
  intro m t
  cases t with
  | step => exact m.delivered_step lines
  | act a => exact (keeps a m.port).trans (List.append_nil _).symm

/-- Whatever the machine shows is collected in order, and the rest of it is waiting at the port. -/
theorem gather_delivered (lines : Port.Lines σ) {act : α → σ → σ} {collected : α → σ → List Int}
    (collects : ∀ a p, collected a p ++ lines.delivered (act a p) = lines.delivered p)
    (m : Machine σ) (turns : List (Turn α)) :
    m.gather act (actedIn collected) turns ++ lines.delivered (m.play act turns).port =
      lines.delivered m.port ++ m.gather act shownIn turns := by
  refine gather_balance (fun m => lines.delivered m.port) ?_ m turns
  intro m t
  cases t with
  | step => exact m.delivered_step lines
  | act a => exact (collects a m.port).trans (List.append_nil _).symm

/-- No value is lost, doubled or reordered, in whatever order a machine and the other party take
turns.

On a scripted port, what the input instructions have stored, followed by what is pending, is what
the port was given at first and since. The outputs of the machine are those of the port, and they
are what the output instructions have shown.

On a queue port, what has been stored, followed by the inbox, is what has been sent, and what has
been received, followed by the outbox, is the outputs of the machine. -/
theorem values_conserved (program : Array Int) (maxSteps : Option Int) (tracing : Bool)
    (inputs : List Int) :
    (∀ m : Machine Port.Scripted,
      create program (Port.Scripted.ofInputs inputs) maxSteps tracing = .ok m →
      ∀ turns : List (Turn (List Int)),
        let after := m.play Port.Scripted.push turns
        m.gather Port.Scripted.push storedIn turns ++ after.port.pending =
            inputs ++ Turn.values id turns ∧
          after.outputs = after.port.outputs ∧
          after.outputs.toList = m.gather Port.Scripted.push shownIn turns) ∧
    (∀ (timeout : Option Port.Timeout) (m : Machine Port.Queue),
      create program (Port.Queue.ofInputs timeout inputs) maxSteps tracing = .ok m →
      ∀ turns : List (Turn Port.Queue.Act),
        let after := m.play Port.Queue.after turns
        m.gather Port.Queue.after storedIn turns ++ after.port.inbox =
            inputs ++ Turn.values Port.Queue.sent turns ∧
          m.gather Port.Queue.after (actedIn Port.Queue.received) turns ++ after.port.outbox =
            after.outputs.toList ∧
          after.outputs.toList = m.gather Port.Queue.after shownIn turns) := by
  constructor
  · intro m created turns after
    obtain ⟨-, -, rfl⟩ := create_eq_ok_iff.mp created
    have outputs := gather_outputs Port.Scripted.steady Port.Scripted.push
      (start program (Port.Scripted.ofInputs inputs) maxSteps tracing) turns
    -- The other party adds to the inputs only, so the port keeps all that it was ever handed.
    have delivered := delivered_play Port.Scripted.lines Port.Scripted.push (fun _ _ => rfl)
      (start program (Port.Scripted.ofInputs inputs) maxSteps tracing) turns
    refine ⟨gather_stored Port.Scripted.lines (fun _ _ => rfl) _ turns, ?_, outputs⟩
    exact Array.toList_inj.mp (outputs.trans delivered.symm)
  · intro timeout m created turns after
    obtain ⟨-, -, rfl⟩ := create_eq_ok_iff.mp created
    have outputs := gather_outputs Port.Queue.steady Port.Queue.after
      (start program (Port.Queue.ofInputs timeout inputs) maxSteps tracing) turns
    have delivered := gather_delivered Port.Queue.lines Port.Queue.received_append_outbox
      (start program (Port.Queue.ofInputs timeout inputs) maxSteps tracing) turns
    refine ⟨gather_stored Port.Queue.lines Port.Queue.inbox_after _ turns, ?_, outputs⟩
    exact delivered.trans outputs.symm

/-- A program that puts out its inputs for ever: on a script that grows while it runs, and on a
queue that is found empty before the first value can be received. -/
theorem values_conserved_echo :
    let program : Array Int := #[3, 7, 4, 7, 1106, 0, 0, 0]
    (let m : Machine Port.Scripted := start program ⟨[5], #[]⟩ none true
      let turns : List (Turn (List Int)) :=
        [.step, .act [6, 7], .step, .step, .step, .act [8], .step]
      m.gather Port.Scripted.push storedIn turns ++ (m.play Port.Scripted.push turns).port.pending =
          [5, 6, 7, 8] ∧
        (m.play Port.Scripted.push turns).outputs.toList = [5, 6]) ∧
    (let m : Machine Port.Queue := start program ⟨some (.whole 0), [5], []⟩ none true
      let turns : List (Turn Port.Queue.Act) :=
        [.step, .act (.receive (some (.whole 0))), .step, .act (.send 6),
          .act (.receive (some (.whole 0))), .step]
      m.gather Port.Queue.after storedIn turns ++ (m.play Port.Queue.after turns).port.inbox =
          [5, 6] ∧
        (m.play Port.Queue.after turns).outputs.toList = [5]) := by
  intro program
  have made {σ : Type} (port : σ) : create program port none true =
      .ok (start program port none true) :=
    create_eq_ok_iff.mpr ⟨by decide, nofun, rfl⟩
  obtain ⟨scripted, queued⟩ := values_conserved program none true [5]
  constructor
  · intro m turns
    obtain ⟨inputs, -, outputs⟩ := scripted m (made _) turns
    exact ⟨inputs.trans rfl, outputs.trans (by decide +kernel)⟩
  · intro m turns
    obtain ⟨inputs, -, outputs⟩ := queued (some (.whole 0)) m (made _) turns
    exact ⟨inputs.trans rfl, outputs.trans (by decide +kernel)⟩

end Machine

end Intcode
