import Intcode.Port.Console
import Intcode.Proofs.Conservation
import Intcode.Proofs.Numeral
import Intcode.Proofs.Ports
import Intcode.Proofs.Trace

/-!
# Ports are interchangeable

A script, a console and a queue that hold the same input values serve a machine alike. The console
carries the values as text, one on each line, so this rests on decimal texts being read back; the
queue is filled beforehand and waits for a time that runs out. What differs is how a port words that
its input is exhausted, and that wording ends up in the outcome of the machine and nowhere else.

Each port is compared with the script that it mirrors. A request is either served with one value by
both, or it finds both exhausted in the same step.

## Main definitions

* `Outcome.reworded`, `Machine.reworded` — with another wording of exhausted input
* `Port.Mirrors` — a port that serves like a script, up to that wording
* `Port.Timeout.RunsOut` — a time that an empty queue can be waited on
* `Machine.Interchanged` — two machines that differ in their ports and that wording only
* `Machine.Parallel` — two machines that stay so in any number of steps and in any run

## Main results

* `Port.Console.mirrors`, `Port.Queue.mirrors` — a console and a queue serve like a script
* `Machine.step_mirrored` — a step has the same effect on a port that mirrors a script
* `Machine.later_mirrored`, `Machine.run_mirrored` — so has any number of steps, and any run
* `Machine.ports_interchangeable` — steps and runs on the three ports
-/

namespace Intcode

/-! ### Wordings of exhausted input -/

/-- The cause with another wording, if it is that the input of a port is exhausted. -/
def Cause.reworded (reason : String) : Cause → Cause
  | .port (some .exhausted) _ => .port (some .exhausted) reason
  | cause => cause

/-- The ending with another wording of exhausted input. -/
def Ending.reworded (reason : String) : Ending → Ending
  | .halted finalValue => .halted finalValue
  | .faulted fault pc => .faulted { fault with cause := fault.cause.reworded reason } pc

/-- The outcome with another wording of exhausted input. -/
def Outcome.reworded (reason : String) (o : Outcome) : Outcome :=
  { o with ending := o.ending.reworded reason }

/-- The machine with another wording of exhausted input in its outcome. -/
def Machine.reworded {σ : Type} (reason : String) (m : Machine σ) : Machine σ :=
  { m with outcome := m.outcome.map (Outcome.reworded reason) }

theorem Cause.reworded_of_not_inExecution {c : Cause} (h : ¬ c.inExecution) (reason : String) :
    c.reworded reason = c := by
  cases c with
  | port => exact absurd rfl h
  | _ => rfl

theorem Machine.Running.reworded {σ : Type} {m : Machine σ} (running : m.Running)
    (reason : String) : m.reworded reason = m := by
  unfold Machine.reworded
  rw [running.outcome, Option.map_none, ← running.outcome]

/-! ### Ports that mirror a script -/

namespace Port

/-- A port that serves like the script it is related to: the same values in the same order, until
both are exhausted, and whatever can be written is taken. -/
structure Mirrors {τ : Type} [Port τ] (R : Scripted → τ → Prop) (reason : String) : Prop where
  served : ∀ {p : Scripted} {q : τ} {value : Int} {rest : List Int}, R p q →
    p.pending = value :: rest →
    ∃ q', Port.request q = .serve q' value ∧ R { p with pending := rest } q'
  exhausted : ∀ {p : Scripted} {q : τ}, R p q → p.pending = [] →
    (Port.request q).answer = .error (.failure ⟨.exhausted, reason⟩) ∧ R p (Port.request q).port
  taken : ∀ {p : Scripted} {q : τ} {value : Int}, R p q → Numeral.Writable value →
    ∃ q', Port.deliver value q = .serve q' () ∧ R { p with outputs := p.outputs.push value } q'

theorem Scripted.request_cons {p : Scripted} {value : Int} {rest : List Int}
    (h : p.pending = value :: rest) : Port.request p = .serve { p with pending := rest } value := by
  change p.request = _
  rw [Scripted.request, h]

theorem Scripted.request_nil {p : Scripted} (h : p.pending = []) :
    Port.request p = .fail p .exhausted "input script exhausted" := by
  change p.request = _
  rw [Scripted.request, h]

section Mirrors

variable {τ : Type} [Port τ] {R : Scripted → τ → Prop} {reason : String} {p : Scripted} {q : τ}

theorem Mirrors.request_agree (mirrors : Mirrors R reason) (related : R p q)
    (waiting : p.pending ≠ []) : (Port.request p).Agree R (Port.request q) := by
  obtain ⟨value, rest, pending⟩ := List.exists_cons_of_ne_nil waiting
  obtain ⟨q', served, related'⟩ := mirrors.served related pending
  rw [Scripted.request_cons pending, served]
  exact ⟨related', rfl, rfl⟩

theorem Mirrors.deliver_agree (mirrors : Mirrors R reason) (related : R p q) {value : Int}
    (short : Numeral.Writable value) : (Port.deliver value p).Agree R (Port.deliver value q) := by
  obtain ⟨q', taken, related'⟩ := mirrors.taken related short
  rw [taken]
  exact ⟨related', rfl, rfl⟩

end Mirrors

/-! ### The console -/

/-- The console has the values of the script on lines of its input. Without a prompt it has nothing
but the outputs of the script on its own output. -/
structure Console.Carries (prompt : String) (p : Scripted) (q : Console) : Prop where
  asked : q.prompt = prompt
  short : ∀ x ∈ p.pending, Numeral.Writable x
  input : q.input = (Numeral.onLines p.pending).toList
  output : prompt = "" → q.output = Numeral.onLines p.outputs.toList

/-- A console reads the number on its first line. -/
theorem Console.request_onLines {q : Console} {value : Int} {rest : List Int}
    (short : Numeral.Writable value) (input : q.input = (Numeral.onLines (value :: rest)).toList) :
    Port.request q =
      .serve { q with input := (Numeral.onLines rest).toList, output := q.output ++ q.prompt }
        value := by
  have plain : ∀ c ∈ (Numeral.decimal value).toList, ¬ Text.isBlank c := by
    intro c found
    exact Numeral.not_isBlank_of_isPlain (Numeral.isPlain_of_mem_decimal found)
  have unbroken : '\n' ∉ (Numeral.decimal value).toList := by
    intro found
    exact plain _ found (by decide)
  -- The line is cut off at its feed, which the trimming takes away again.
  have line : Text.takeLine q.input =
      ((Numeral.decimal value).toList ++ ['\n'], (Numeral.onLines rest).toList) := by
    rw [input, Numeral.toList_onLines_cons, Text.takeLine_append unbroken]
  have full : ((Numeral.decimal value).toList ++ ['\n']).isEmpty = false := by simp
  change q.request = _
  unfold Console.request
  simp only [line, full, Text.trim_append_singleton plain (show Text.isBlank '\n' by decide),
    Numeral.read?_decimal short]
  rfl

theorem Console.request_nil {q : Console} (input : q.input = []) :
    Port.request q =
      .fail { q with input := [], output := q.output ++ q.prompt } .exhausted
        "end of input stream" := by
  change q.request = _
  unfold Console.request
  rw [input]
  rfl

theorem Console.deliver_of_writable {q : Console} {value : Int} (short : Numeral.Writable value) :
    Port.deliver value q =
      .serve { q with output := q.output ++ Numeral.decimal value ++ "\n" } () := by
  have written := Numeral.write?_of_writable short
  change Console.deliver value q = _
  unfold Console.deliver
  rw [written]

/-- A console serves like the script that its input carries. -/
theorem Console.mirrors (prompt : String) :
    Mirrors (Console.Carries prompt) "end of input stream" where
  served {p q value rest} related pending := by
    have short := related.short
    rw [pending, List.forall_mem_cons] at short
    refine ⟨_, Console.request_onLines short.1 (pending ▸ related.input), related.asked, short.2,
      rfl, ?_⟩
    intro silent
    rw [related.asked, silent, String.append_empty, related.output silent]
  exhausted {p q} related pending := by
    have input : q.input = [] := by
      rw [related.input, pending]
      rfl
    rw [Console.request_nil input]
    refine ⟨rfl, related.asked, related.short, input.symm.trans related.input, ?_⟩
    intro silent
    change q.output ++ q.prompt = _
    rw [related.asked, silent, String.append_empty, related.output silent]
  taken {p q value} related short := by
    refine ⟨_, Console.deliver_of_writable short, related.asked, related.short, related.input, ?_⟩
    intro silent
    change q.output ++ _ ++ _ = _
    rw [related.output silent, Array.toList_push, Numeral.onLines_append_singleton]

/-! ### The queue -/

/-- A time that an empty queue can be waited on until it runs out: neither negative nor too long. -/
def Timeout.RunsOut (t : Timeout) : Prop :=
  t.isNegative = false ∧ t.isUncountable = false ∧ t.isTooLong = false

instance (t : Timeout) : Decidable t.RunsOut := inferInstanceAs (Decidable (_ ∧ _))

/-- The queue holds the values of the script and waits for a given time. -/
structure Queue.Holds (timeout : Timeout) (p : Scripted) (q : Queue) : Prop where
  timeout : q.timeout = some timeout
  inbox : q.inbox = p.pending
  outbox : q.outbox = p.outputs.toList

theorem Queue.take_cons {t : Timeout} (h : t.RunsOut) (value : Int) (rest : List Int) :
    Queue.take (some t) (value :: rest) = .ok (value, rest) := by
  simp [Queue.take, h.1, h.2.1]

theorem Queue.take_nil {t : Timeout} (h : t.RunsOut) :
    Queue.take (some t) [] = .error .empty := by
  simp [Queue.take, h.1, h.2.1, h.2.2]

/-- A queue that waits for a time that runs out serves like the script whose values it holds. -/
theorem Queue.mirrors {t : Timeout} (h : t.RunsOut) :
    Mirrors (Queue.Holds t) ("no input within " ++ t.text ++ "s") where
  served {p q value rest} related pending := by
    have inbox := related.inbox.trans pending
    refine ⟨{ q with inbox := rest }, ?_, related.timeout, rfl, related.outbox⟩
    change q.request = _
    simp only [Queue.request, related.timeout, inbox, Queue.take_cons h]
  exhausted {p q} related pending := by
    have taken : Queue.take q.timeout q.inbox = .error .empty := by
      rw [related.timeout, related.inbox, pending, Queue.take_nil h]
    have text : q.timeoutText = t.text := by rw [Queue.timeoutText, related.timeout]
    change q.request.answer = _ ∧ Queue.Holds t p q.request.port
    unfold Queue.request
    rw [taken]
    exact ⟨by rw [text], related⟩
  taken {p q value} related _ := by
    refine ⟨{ q with outbox := q.outbox ++ [value] }, rfl, related.timeout, related.inbox, ?_⟩
    change q.outbox ++ [value] = _
    rw [related.outbox, Array.toList_push]

end Port

namespace Machine

/-! ### Steps -/

section

variable {σ : Type} [Port σ] {m : Machine σ}

/-- A step whose request fails stops the machine with the wording of the port. -/
theorem step_of_unserved {dest : Int} {entry : Option String} {f : Port.Failure}
    (running : m.state = .running) (fetch : m.fetch = .ok (.input dest))
    (trace : m.traceEntry (.input dest) = .ok entry) (inside : m.memory.inBounds dest)
    (failed : (Port.request m.port).answer = .error (.failure f)) :
    ∃ events, m.step =
      fail { m.recorded entry with port := (Port.request m.port).port }
        (.port (some f.kind) f.reason) events := by
  rw [step_of_fetched running fetch trace, perform_of_unserved inside failed, conclude_of_error rfl]
  cases entry <;> exact ⟨_, rfl⟩

end

variable {τ : Type} [Port τ] {R : Port.Scripted → τ → Prop} {reason : String}
  {m : Machine Port.Scripted} {m' : Machine τ}

/-- On a script, no wording but that of exhausted input comes from the port. -/
theorem reworded_of_step (reason : String) (running : m.state = .running)
    (waiting : m.asks → m.port.pending ≠ []) {outcome : Outcome}
    (answer : m.step.answer = .ok (some outcome)) : outcome.reworded reason = outcome := by
  have way := m.stepped running
  generalize m.step = r at way answer
  cases way with
  | @unfetched stop fetch =>
    cases stop with
    | refused why => cases answer
    | fault cause =>
      cases answer
      have same := Cause.reworded_of_not_inExecution (not_inExecution_of_fetch fetch) reason
      simp [Outcome.reworded, Ending.reworded, same]
  | untraced fetch trace => cases answer
  | @stopped command entry stop fetch trace change =>
    cases stop with
    | refused why => cases answer
    | fault cause =>
      have same : cause.reworded reason = cause := by
        have hindrance := hindered change
        generalize fault : Stop.fault cause = stop at hindrance
        cases hindrance with
        | outOfBounds operand | writeToImmediate operand =>
          rw [Cause.eq_of_raised fault.symm]
          rfl
        | @unserved dest trouble inside request =>
          -- A script fails only when it is exhausted, and then nothing was waiting.
          have pending := waiting (asks_iff.mpr ⟨running, dest, entry, fetch, trace, inside⟩)
          obtain ⟨value, rest, pending⟩ := List.exists_cons_of_ne_nil pending
          rw [Port.Scripted.request_cons pending] at request
          cases request
        | undelivered loaded deliver => cases deliver
      cases answer
      simp [Outcome.reworded, Ending.reworded, same]
  | advanced fetch trace effect goes => cases answer
  | halted fetch trace effect ends first =>
    cases answer
    rfl

/-- The answer of a step with another wording of exhausted input. -/
def rewordedAnswer (reason : String) (answer : Except Refusal (Option Outcome)) :
    Except Refusal (Option Outcome) :=
  answer.map (Option.map (Outcome.reworded reason))

/-- As long as a value is waiting, a script and a port that mirrors it answer alike, and no wording
of the port is in what comes out. -/
theorem step_mirrored_of_waiting (mirrors : Port.Mirrors R reason) (running : m.Running)
    (alike : Alike R m m') (short : ∀ value, m.Offers value → Numeral.Writable value)
    (waiting : m.asks → m.port.pending ≠ []) :
    Alike R (m.step.machine.reworded reason) m'.step.machine ∧
      m'.step.answer = rewordedAnswer reason m.step.answer := by
  obtain ⟨after, answer⟩ := step_alike alike
    (fun asks => mirrors.request_agree alike.port (waiting asks))
    (fun value offers => mirrors.deliver_agree alike.port (short value offers))
  rw [answer]
  cases answered : m.step.answer with
  | error why =>
    rw [(running.refused answered).reworded]
    exact ⟨after, rfl⟩
  | ok result =>
    cases result with
    | none =>
      rw [(running.step answered).1.reworded]
      exact ⟨after, rfl⟩
    | some outcome =>
      have final := (running.stop answered).2
      have same := reworded_of_step reason running.state waiting answered
      refine ⟨{ after with outcome := ?_ }, ?_⟩
      · rw [after.outcome, reworded, final, Option.map_some, same]
      · exact congrArg (fun o => Except.ok (some o)) same.symm

/-- When a script and a port that mirrors it are exhausted, each says so in its own words. -/
theorem step_mirrored_of_exhausted (mirrors : Port.Mirrors R reason) (alike : Alike R m m')
    (asks : m.asks) (empty : m.port.pending = []) :
    Alike R (m.step.machine.reworded reason) m'.step.machine ∧
      m'.step.answer = rewordedAnswer reason m.step.answer := by
  obtain ⟨state, dest, entry, fetch, trace, inside⟩ := asks_iff.mp asks
  have failed : (Port.request m.port).answer =
      .error (.failure ⟨.exhausted, "input script exhausted"⟩) := by
    rw [Port.Scripted.request_nil empty]
    rfl
  obtain ⟨failed', related⟩ := mirrors.exhausted alike.port empty
  have same := alike.eq_onPort
  generalize m'.port = q at same failed' related
  subst same
  obtain ⟨events, step⟩ := step_of_unserved state fetch trace inside failed
  obtain ⟨events', step'⟩ := step_of_unserved (m := m.onPort q) state fetch trace inside failed'
  rw [step, step', Port.Scripted.request_nil empty]
  cases entry <;> exact ⟨⟨rfl, rfl, rfl, rfl, rfl, rfl, rfl, rfl, rfl, related⟩, rfl⟩

/-- A step on a script and a step on a port that mirrors it come to the same, but for the wording of
exhausted input. -/
theorem step_mirrored (mirrors : Port.Mirrors R reason) (coherent : m.Coherent)
    (alike : Alike R (m.reworded reason) m')
    (short : ∀ value, m.Offers value → Numeral.Writable value) :
    Alike R (m.step.machine.reworded reason) m'.step.machine ∧
      m'.step.answer = rewordedAnswer reason m.step.answer := by
  by_cases state : m.state = .running
  · have running := coherent.running_iff.mpr state
    rw [running.reworded] at alike
    by_cases waiting : m.asks → m.port.pending ≠ []
    · exact step_mirrored_of_waiting mirrors running alike short waiting
    · obtain ⟨asks, pending⟩ := Classical.not_imp.mp waiting
      exact step_mirrored_of_exhausted mirrors alike asks (Decidable.not_not.mp pending)
  · have stopped : m'.state ≠ .running := by
      rw [alike.state]
      exact state
    rw [step_of_stopped state, step_of_stopped stopped]
    exact ⟨alike, congrArg Except.ok alike.outcome⟩

/-! ### Any number of steps -/

/-- What has been put out stays put out. -/
theorem outputs_later {σ : Type} [Port σ] (steady : Port.Steady σ) (m : Machine σ) (k : Nat) :
    m.outputs.toList <+: (m.later k).outputs.toList := by
  refine later_invariant (P := fun x => m.outputs.toList <+: x.outputs.toList) ?_
    (List.prefix_refl _) k
  intro x grown
  rw [x.outputs_step steady]
  exact grown.trans (List.prefix_append ..)

/-- The outputs of a machine on a script are what the script was handed. -/
theorem delivered_later (same : m.port.outputs.toList = m.outputs.toList) (k : Nat) :
    (m.later k).port.outputs.toList = (m.later k).outputs.toList := by
  refine later_invariant (P := fun x : Machine Port.Scripted =>
    x.port.outputs.toList = x.outputs.toList) ?_ same k
  intro x before
  have handed := x.delivered_step Port.Scripted.lines
  rw [x.outputs_step Port.Scripted.steady, ← before]
  exact handed

/-- A number of steps on a script and on a port that mirrors it come to the same, if everything that
was put out can be written. -/
theorem later_mirrored (mirrors : Port.Mirrors R reason) (coherent : m.Coherent)
    (alike : Alike R (m.reworded reason) m') {k : Nat}
    (short : ∀ v ∈ (m.later k).outputs, Numeral.Writable v) :
    Alike R ((m.later k).reworded reason) (m'.later k) ∧
      ∀ j < k, (m'.later j).step.answer = rewordedAnswer reason (m.later j).step.answer := by
  induction k with
  | zero => exact ⟨alike, by simp⟩
  | succ k ih =>
    have step := later_succ k m
    have grown := outputs_later Port.Scripted.steady (m.later k) 1
    have earlier : ∀ v ∈ (m.later k).outputs, Numeral.Writable v := by
      intro v found
      refine short v ?_
      rw [step, Array.mem_def]
      exact grown.subset (Array.mem_def.mp found)
    obtain ⟨before, answers⟩ := ih earlier
    -- The value that this step hands over is the last of the outputs after it.
    have offered : ∀ value, (m.later k).Offers value → Numeral.Writable value := by
      intro value offers
      refine short value ?_
      rw [step, outputs_of_offers offers rfl]
      exact Array.mem_push_self
    obtain ⟨after, answer⟩ := step_mirrored mirrors (coherent.later k) before offered
    rw [step, later_succ]
    refine ⟨after, fun j lt => ?_⟩
    rcases Nat.lt_succ_iff_lt_or_eq.mp lt with sooner | rfl
    · exact answers j sooner
    · exact answer

/-- Two machines in the same state, with the same program counter, steps, outputs and memory, and
with the same result but for the wording of exhausted input. -/
structure Interchanged {σ : Type} (reason : String) (m : Machine σ) (m' : Machine τ) : Prop where
  state : m'.state = m.state
  pc : m'.pc = m.pc
  steps : m'.steps = m.steps
  outputs : m'.outputs = m.outputs
  memory : m'.memory = m.memory
  result : m'.outcome = m.outcome.map (Outcome.reworded reason)

omit [Port τ] in
theorem Alike.interchanged (alike : Alike R (m.reworded reason) m') : Interchanged reason m m' where
  state := alike.state
  pc := alike.pc
  steps := alike.steps
  outputs := alike.outputs
  memory := alike.memory
  result := alike.outcome

/-- Any number of steps and any run on a script, in which everything that is put out can be written,
come to the same on another port. -/
structure Parallel (reason : String) (m : Machine Port.Scripted) (m' : Machine τ) : Prop where
  steps : ∀ k, (∀ v ∈ (m.later k).outputs, Numeral.Writable v) →
    Interchanged reason (m.later k) (m'.later k) ∧
      ∀ j < k, (m'.later j).step.answer = rewordedAnswer reason (m.later j).step.answer
  runs : ∀ fuel r, m.run fuel = some r → (∀ v ∈ r.machine.outputs, Numeral.Writable v) →
    ∃ r', m'.run fuel = some r' ∧ Interchanged reason r.machine r'.machine ∧
      r'.answer = rewordedAnswer reason r.answer

theorem rewordedAnswer_eq_none_iff {answer : Except Refusal (Option Outcome)} :
    rewordedAnswer reason answer = .ok none ↔ answer = .ok none := by
  rcases answer with why | _ | outcome
  · exact iff_of_false (fun h => by cases h) (fun h => by cases h)
  · exact iff_of_true rfl rfl
  · exact iff_of_false (fun h => by cases h) (fun h => by cases h)

/-- A run on a script and on a port that mirrors it come to the same, if everything that was put out
can be written. -/
theorem run_mirrored (mirrors : Port.Mirrors R reason) (coherent : m.Coherent)
    (alike : Alike R (m.reworded reason) m') {fuel : Nat} {r : Report Port.Scripted}
    (ran : m.run fuel = some r)
    (short : ∀ v ∈ r.machine.outputs, Numeral.Writable v) :
    ∃ r', m'.run fuel = some r' ∧ Alike R (r.machine.reworded reason) r'.machine ∧
      r'.answer = rewordedAnswer reason r.answer := by
  obtain ⟨k, lt, goes, ends, machine, answer⟩ := later_of_run ran
  rw [machine] at short
  obtain ⟨after, answers⟩ := later_mirrored mirrors coherent alike short
  -- The other machine goes on and ends where the one on the script does.
  have goes' : ∀ j < k, (m'.later j).step.answer = .ok none := by
    intro j sooner
    rw [answers j (Nat.lt_succ_of_lt sooner), goes j sooner]
    rfl
  have ends' : (m'.later k).step.answer ≠ .ok none := by
    rw [answers k (Nat.lt_succ_self k), ne_eq, rewordedAnswer_eq_none_iff]
    exact ends
  obtain ⟨r', ran', machine', answer'⟩ := run_of_later lt goes' ends'
  refine ⟨r', ran', ?_, ?_⟩
  · rw [machine, machine']
    exact after
  · rw [answer, answer', answers k (Nat.lt_succ_self k)]

/-- From the same start, a script and a port that mirrors it are parallel. -/
theorem parallel_of_mirrors (mirrors : Port.Mirrors R reason) (coherent : m.Coherent)
    (alike : Alike R (m.reworded reason) m') : Parallel reason m m' where
  steps k short := by
    obtain ⟨after, answers⟩ := later_mirrored mirrors coherent alike short
    exact ⟨after.interchanged, answers⟩
  runs fuel r ran short := by
    obtain ⟨r', ran', after, answer⟩ := run_mirrored mirrors coherent alike ran short
    exact ⟨r', ran', after.interchanged, answer⟩

omit [Port τ] in
theorem start_alike {p : Port.Scripted} {q : τ} (related : R p q) (program : Array Int)
    (maxSteps : Option Int) (tracing : Bool) (reason : String) :
    Alike R ((start program p maxSteps tracing).reworded reason) (start program q maxSteps tracing) :=
  ⟨rfl, rfl, rfl, rfl, rfl, rfl, rfl, rfl, rfl, related⟩

/-- The ports are interchangeable. A machine on a script of input values that can be written, one on
a console with these values on the lines of its input, and one on a queue to which they were sent,
with a timeout that runs out as a timeout of zero does, come to the same in any number of steps and
in any run in which everything that is put out can be written, but for how exhausted input is
worded.

Without a prompt, the console has then written the outputs, each on a line of its own. -/
theorem ports_interchangeable (program : Array Int) (maxSteps : Option Int) (tracing : Bool)
    (inputs : List Int) (prompt : String) {timeout : Port.Timeout} (waits : timeout.RunsOut)
    (short : ∀ x ∈ inputs, Numeral.Writable x) {s : Machine Port.Scripted}
    (created : create program (Port.Scripted.ofInputs inputs) maxSteps tracing = .ok s) :
    ∃ c q,
      create program (Port.Console.ofText (Numeral.onLines inputs) prompt) maxSteps tracing = .ok c ∧
      create program (Port.Queue.ofInputs (some timeout) inputs) maxSteps tracing = .ok q ∧
      Parallel "end of input stream" s c ∧
      Parallel ("no input within " ++ timeout.text ++ "s") s q ∧
      (prompt = "" → ∀ k, (∀ v ∈ (s.later k).outputs, Numeral.Writable v) →
        (c.later k).port.output = Numeral.onLines (c.later k).outputs.toList) := by
  obtain ⟨full, budget, rfl⟩ := create_eq_ok_iff.mp created
  -- Each of the two ports holds what the script holds from the start.
  have carries : Port.Console.Carries prompt (Port.Scripted.ofInputs inputs)
      (Port.Console.ofText (Numeral.onLines inputs) prompt) := ⟨rfl, short, rfl, fun _ => rfl⟩
  have holds : Port.Queue.Holds timeout (Port.Scripted.ofInputs inputs)
      (Port.Queue.ofInputs (some timeout) inputs) := ⟨rfl, rfl, rfl⟩
  have coherent : (start program (Port.Scripted.ofInputs inputs) maxSteps tracing).Coherent :=
    .inl (running_start ..)
  have console := start_alike carries program maxSteps tracing "end of input stream"
  refine ⟨_, _, create_eq_ok_iff.mpr ⟨full, budget, rfl⟩, create_eq_ok_iff.mpr ⟨full, budget, rfl⟩,
    parallel_of_mirrors (Port.Console.mirrors prompt) coherent console,
    parallel_of_mirrors (Port.Queue.mirrors waits) coherent (start_alike holds ..), ?_⟩
  intro silent k written
  obtain ⟨after, -⟩ := later_mirrored (Port.Console.mirrors prompt) coherent console written
  rw [after.port.output silent, after.outputs]
  exact congrArg _ (delivered_later rfl k)

/-- A program that puts out its inputs for ever, with two inputs: the third request finds all three
ports exhausted. -/
theorem ports_interchangeable_echo :
    let program : Array Int := #[3, 7, 4, 7, 1106, 0, 0, 0]
    let s : Machine Port.Scripted := start program (.ofInputs [5, -17]) none true
    let c : Machine Port.Console := start program (.ofText "5\n-17\n" "") none true
    let q : Machine Port.Queue := start program (.ofInputs (some (.whole 0)) [5, -17]) none true
    (Port.Timeout.whole 0).RunsOut ∧ (s.later 7).state = .faulted ∧
      (s.later 7).outputs = #[5, -17] ∧
      Interchanged "end of input stream" (s.later 7) (c.later 7) ∧
      Interchanged "no input within 0s" (s.later 7) (q.later 7) ∧
      (c.later 7).port.output = "5\n-17\n" := by
  intro program s c q
  have waits : (Port.Timeout.whole 0).RunsOut := by decide +kernel
  have stopped : (s.later 7).state = .faulted := by decide +kernel
  have outputs : (s.later 7).outputs = #[5, -17] := by decide +kernel
  have short : ∀ x ∈ [5, -17], Numeral.Writable x := by decide +kernel
  have written : ∀ v ∈ (s.later 7).outputs, Numeral.Writable v := by
    rw [outputs]
    decide +kernel
  obtain ⟨_, _, console, queue, onConsole, onQueue, shown⟩ :=
    ports_interchangeable program none true [5, -17] "" waits short
      (create_eq_ok_iff.mpr ⟨by decide, nofun, rfl⟩)
  obtain ⟨-, -, rfl⟩ := create_eq_ok_iff.mp console
  obtain ⟨-, -, rfl⟩ := create_eq_ok_iff.mp queue
  have text : Numeral.onLines [5, -17] = "5\n-17\n" := by decide +kernel
  have wording : "no input within " ++ (Port.Timeout.whole 0).text ++ "s" =
      "no input within 0s" := by
    decide +kernel
  rw [text] at onConsole shown
  rw [wording] at onQueue
  obtain ⟨same, -⟩ := onConsole.steps 7 written
  have output := shown rfl 7 written
  rw [same.outputs.trans outputs, text] at output
  subst c
  exact ⟨waits, stopped, outputs, same, (onQueue.steps 7 written).1, output⟩

end Machine

end Intcode
