import Intcode.Proofs.CommandLine
import Intcode.Proofs.Interchange
import Intcode.Proofs.Journal
import Intcode.Proofs.Ledger
import Intcode.Toolkit.Session

/-!
# The command that runs a program

The command that runs a program with inputs and a budget does what a run of the program on a script
does. Its port is the script with a printer attached, its command line is read back into the inputs
and the budget it was written from, and its log hears nothing but the fault that the run may end
with.

## Main definitions

* `Port.Echo.Prints` — an echoing port that has printed what its script was handed
* `Log.Ledger.Quiet` — a ledger that takes down warnings only
* `Toolkit.runArguments` — the command line for a run
* `Toolkit.World.fresh` — the world in which a session starts

## Main results

* `Port.Echo.mirrors` — an echoing port serves like its script
* `Machine.run_echoed` — a run on an echoing port prints the outputs of the run on the script
* `Toolkit.ofArguments_runArguments` — the request of the command line for a run
* `Toolkit.run_command_agrees` — the command does what the run does
-/

namespace Intcode

/-! ### The echoing port -/

/-- The port has printed what its script was handed, each value on a line of its own. -/
structure Port.Echo.Prints (p : Scripted) (q : Echo) : Prop where
  script : q.script = p
  printed : q.printed = Numeral.onLines p.outputs.toList

/-- An echoing port serves like its script, and words exhausted input like it. -/
theorem Port.Echo.mirrors : Mirrors Echo.Prints "input script exhausted" where
  served {p q value rest} related pending := by
    refine ⟨⟨{ p with pending := rest }, q.printed⟩, ?_, rfl, related.printed⟩
    change q.request = _
    rw [Echo.request, related.script, Scripted.request, pending]
    rfl
  exhausted {p q} related pending := by
    change q.request.answer = _ ∧ Echo.Prints p q.request.port
    rw [Echo.request, related.script, Scripted.request, pending]
    exact ⟨rfl, rfl, related.printed⟩
  taken {p q value} related short := by
    refine ⟨⟨{ p with outputs := p.outputs.push value },
      q.printed ++ Numeral.decimal value ++ "\n"⟩, ?_, rfl, ?_⟩
    · have written := Numeral.write?_of_writable short
      change Echo.deliver value q = _
      unfold Echo.deliver
      rw [written, related.script]
      rfl
    · dsimp only
      rw [related.printed, Array.toList_push, Numeral.onLines_append_singleton]

namespace Machine

section

variable {σ : Type} [Port σ] {m : Machine σ}

/-- The outcome of a step has the outputs of the machine. -/
theorem outputs_of_outcome (running : m.state = .running) {outcome : Outcome}
    (answer : m.step.answer = .ok (some outcome)) : m.step.machine.outputs = outcome.outputs := by
  have way := m.stepped running
  generalize m.step = r at way answer
  cases way with
  | @unfetched stop fetch =>
    cases stop with
    | refused why => cases answer
    | fault cause =>
      cases answer
      rfl
  | untraced fetch trace => cases answer
  | @stopped command entry stop fetch trace change =>
    cases stop with
    | refused why => cases answer
    | fault cause =>
      cases answer
      rfl
  | advanced fetch trace effect goes => cases answer
  | halted fetch trace effect ends first =>
    cases answer
    rfl

end

/-- On a script, exhausted input is worded in one way only. -/
theorem reworded_of_script {m : Machine Port.Scripted} (running : m.state = .running)
    {outcome : Outcome} (answer : m.step.answer = .ok (some outcome)) :
    outcome.reworded "input script exhausted" = outcome := by
  by_cases waiting : m.asks → m.port.pending ≠ []
  · exact reworded_of_step _ running waiting answer
  · obtain ⟨asks, pending⟩ := Classical.not_imp.mp waiting
    obtain ⟨-, dest, entry, fetch, trace, inside⟩ := asks_iff.mp asks
    have failed : (Port.request m.port).answer =
        .error (.failure ⟨.exhausted, "input script exhausted"⟩) := by
      rw [Port.Scripted.request_nil (Decidable.not_not.mp pending)]
      rfl
    obtain ⟨events, step⟩ := step_of_unserved running fetch trace inside failed
    rw [step] at answer
    cases answer
    rfl

/-- A run on an echoing port has the outcome of the run on its script, and has then printed the
outputs. -/
theorem run_echoed {program : Array Int} {inputs : List Int} {maxSteps : Option Int}
    {tracing : Bool} {fuel : Nat} {r : Report Port.Scripted} {outcome : Outcome}
    (ran : (start program (Port.Scripted.ofInputs inputs) maxSteps tracing).run fuel = some r)
    (answer : r.answer = .ok (some outcome))
    (short : ∀ v ∈ outcome.outputs, Numeral.Writable v) :
    ∃ r', (start program (Port.Echo.ofInputs inputs) maxSteps tracing).run fuel = some r' ∧
      r'.answer = .ok (some outcome) ∧
      r'.machine.port.printed = Numeral.onLines outcome.outputs.toList := by
  obtain ⟨k, x, -, chain, -, machine, last⟩ := run_eq_some ran
  have running := (chain.running (running_start ..)).state
  rw [last] at answer
  have outputs := outputs_of_outcome running answer
  rw [← machine] at outputs
  have related : Port.Echo.Prints (.ofInputs inputs) (.ofInputs inputs) := ⟨rfl, rfl⟩
  obtain ⟨r', ran', after, answer'⟩ := run_mirrored Port.Echo.mirrors
    (.inl (running_start ..)) (start_alike related program maxSteps tracing _) ran (outputs ▸ short)
  refine ⟨r', ran', ?_, ?_⟩
  · rw [answer', last, answer]
    exact congrArg (fun o => Except.ok (some o)) (reworded_of_script running answer)
  · -- What the script was handed is what the machine has put out.
    have handed :=
      delivered_later (m := start program (.ofInputs inputs) maxSteps tracing) rfl (k + 1)
    rw [later_succ, ← (advances_iff.mp chain).1, ← machine, outputs] at handed
    rw [after.port.printed]
    exact congrArg _ handed

end Machine

/-- The number that an ending comes with: the final value, or the program counter of a fault. -/
def Ending.number : Ending → Int
  | halted finalValue => finalValue
  | faulted _ pc => pc

/-- A run of a program on a script is a run of the machine that is made for it. -/
theorem run_of_runProgram {fuel : Nat} {program : Array Int} {inputs : List Int}
    {maxSteps : Option Int} {tracing : Bool} {answer : Option Outcome}
    (ran : runProgram fuel program inputs maxSteps tracing = some (.ok answer)) :
    ∃ m, Machine.create program (Port.Scripted.ofInputs inputs) maxSteps tracing = .ok m ∧
      ∃ r, m.run fuel = some r ∧ r.answer = .ok answer := by
  unfold runProgram at ran
  split at ran
  · cases ran
  · rename_i m created
    exact ⟨m, created, Option.map_eq_some_iff.mp ran⟩

/-! ### The log -/

namespace Log.Ledger

variable {l : Ledger}

/-- A ledger whose handlers take warnings and worse only. -/
def Quiet (l : Ledger) : Prop :=
  ∀ item ∈ l.loggers, ∀ h ∈ item.2.handlers, Level.warning ≤ h.level

theorem loggers_writeAll (l : Ledger) (rs : List Record) : (l.writeAll rs).loggers = l.loggers := by
  unfold writeAll
  induction rs generalizing l with
  | nil => rfl
  | cons r rs ih => rw [List.foldl_cons, ih, loggers_write]

theorem Quiet.writeAll (quiet : l.Quiet) (rs : List Record) : (l.writeAll rs).Quiet := by
  unfold Quiet
  rw [loggers_writeAll]
  exact quiet

theorem Quiet.of_mem_handlersAlong (quiet : l.Quiet) {names : List String} {h : Handler}
    (found : h ∈ l.handlersAlong names) : Level.warning ≤ h.level := by
  induction names with
  | nil => cases found
  | cons name above ih =>
    rw [handlersAlong] at found
    rcases List.mem_append.mp found with own | passed
    · -- A logger that was not set up has no handlers.
      unfold logger at own
      split at own
      · rename_i item known
        exact quiet item (List.mem_of_find?_eq_some known) h own
      · cases own
    · split at passed
      · exact ih passed
      · cases passed

/-- A quiet ledger hears warnings and worse only. -/
theorem Quiet.of_isHeard (quiet : l.Quiet) {name : String} {level : Int}
    (heard : l.isHeard name level) : Level.warning ≤ level := by
  obtain ⟨h, found, -⟩ := List.any_eq_true.mp heard
  unfold receivers at found
  split at found
  · obtain ⟨along, low⟩ := List.mem_filter.mp found
    have entered : (l.enter name).Quiet := quiet
    exact Int.le_trans (entered.of_mem_handlersAlong along) (of_decide_eq_true low)
  · cases found

end Log.Ledger

namespace Toolkit

open CommandLine

/-! ### The command line -/

/-- The command line for a run with some inputs and perhaps a budget. -/
def runArguments (path : String) (inputs : List Int) (maxSteps : Option Int) : List String :=
  "run" :: path :: inputs.flatMap (fun x => ["-i", Numeral.decimal x]) ++
    maxSteps.toList.flatMap fun limit => ["--max-steps", Numeral.decimal limit]

/-- The options that the command line for a run stands for. -/
def runOptions (inputs : List Int) (maxSteps : Option Int) : RunOptions :=
  { inputs := inputs.map .value, console := false, maxSteps := maxSteps.map .value, trace := false,
    dump := false }

/-- The setting of an input. -/
def inputSetting (x : Int) : Setting RunKey :=
  ⟨⟨.input, ["-i", "--input"], true⟩, "-i", Numeral.decimal x⟩

/-- The setting of a budget. -/
def limitSetting (limit : Int) : Setting RunKey :=
  ⟨⟨.maxSteps, ["--max-steps"], true⟩, "--max-steps", Numeral.decimal limit⟩

/-- The settings of a run. -/
def runSettings (inputs : List Int) (maxSteps : Option Int) : List (Setting RunKey) :=
  inputs.map inputSetting ++ maxSteps.toList.map limitSetting

theorem forall_mem_runSettings {P : Setting RunKey → Prop} (input : ∀ x, P (inputSetting x))
    (limit : ∀ x, P (limitSetting x)) (inputs : List Int) (maxSteps : Option Int) :
    ∀ s ∈ runSettings inputs maxSteps, P s := by
  intro s found
  rcases List.mem_append.mp found with found | found
  · obtain ⟨x, -, rfl⟩ := List.mem_map.mp found
    exact input x
  · obtain ⟨x, -, rfl⟩ := List.mem_map.mp found
    exact limit x

/-- The integer given to a switch is the one that was written. -/
theorem intValue_decimal {κ : Type} (s : Switch κ) {x : Int} (short : Numeral.Writable x) :
    intValue s (some (Numeral.decimal x)) = .ok (.value x) := by
  unfold intValue
  dsimp only [Option.getD_some]
  rw [Given.blankText, if_neg (decimal_ne_dashes x), Numeral.read?_decimal short]

theorem runSwitch_input (o : RunOptions) {x : Int} (short : Numeral.Writable x) :
    runSwitch o (inputSetting x).switch (some (inputSetting x).value) =
      .ok { o with inputs := o.inputs ++ [.value x] } := by
  have read := intValue_decimal (inputSetting x).switch short
  unfold runSwitch
  dsimp only [inputSetting] at read ⊢
  rw [read]
  rfl

theorem runSwitch_limit (o : RunOptions) {limit : Int} (short : Numeral.Writable limit) :
    runSwitch o (limitSetting limit).switch (some (limitSetting limit).value) =
      .ok { o with maxSteps := some (.value limit) } := by
  have read := intValue_decimal (limitSetting limit).switch short
  unfold runSwitch
  dsimp only [limitSetting] at read ⊢
  rw [read]
  rfl

theorem readTokens_token {κ α : Type} {act : α → Switch κ → Option String → Except Interruption α}
    {r : Reading α} {s : Setting κ} {o : α} (effect : act r.options s.switch (some s.value) = .ok o)
    (tokens : List (Token κ)) :
    readTokens act r (s.token :: tokens) = readTokens act { r with options := o } tokens := by
  rw [Setting.token, readTokens, effect]
  rfl

/-- Inputs are read in order. -/
theorem readTokens_inputs {inputs : List Int} (short : ∀ x ∈ inputs, Numeral.Writable x)
    (r : Reading RunOptions) (tokens : List (Token RunKey)) :
    readTokens runSwitch r ((inputs.map inputSetting).map Setting.token ++ tokens) =
      readTokens runSwitch
        { r with options := { r.options with inputs := r.options.inputs ++ inputs.map .value } }
        tokens := by
  induction inputs generalizing r with
  | nil => simp
  | cons x inputs ih =>
    rw [List.forall_mem_cons] at short
    rw [List.map_cons, List.map_cons, List.cons_append,
      readTokens_token (runSwitch_input r.options short.1), ih short.2]
    simp

/-- The settings of a run are read back. -/
theorem readTokens_runSettings {inputs : List Int} {maxSteps : Option Int}
    (short : ∀ x ∈ inputs, Numeral.Writable x) (budget : ∀ x ∈ maxSteps, Numeral.Writable x)
    (words extras : List String) :
    readTokens runSwitch ⟨⟨[], false, none, false, false⟩, words, extras⟩
        ((runSettings inputs maxSteps).map Setting.token) =
      .ok ⟨runOptions inputs maxSteps, words, extras⟩ := by
  rw [runSettings, List.map_append, readTokens_inputs short]
  cases maxSteps with
  | none => rfl
  | some limit =>
    rw [Option.toList_some, List.map_cons, List.map_cons,
      readTokens_token (runSwitch_limit _ (budget limit rfl))]
    rfl

/-- The arguments of the command for a run, with shapes for the names of its settings. -/
def runShaped {κ : Type} (path : String) (inputs : List Int) (maxSteps : Option Int)
    (f : Setting RunKey → Shape κ) : List (String × Shape κ) :=
  (path, .plain) :: (runSettings inputs maxSteps).flatMap fun s => s.arguments (f s)

theorem runArguments_eq {κ : Type} (path : String) (inputs : List Int) (maxSteps : Option Int)
    (f : Setting RunKey → Shape κ) :
    runArguments path inputs maxSteps = "run" :: (runShaped path inputs maxSteps f).map (·.1) := by
  rw [runShaped, List.map_cons, map_flatMap_arguments, runSettings, List.flatMap_append,
    List.flatMap_map, List.flatMap_map]
  rfl

theorem shaped_runShaped {κ : Type} {switches : List (Switch κ)} (lettered : Lettered switches)
    {path : String} (plain : path.toList.head? ≠ some '-') {f : Setting RunKey → Shape κ}
    (input : ∀ x, "-i" ≠ "--" ∧ shape switches "-i" = .ok (f (inputSetting x)))
    (limit : ∀ x, "--max-steps" ≠ "--" ∧
      shape switches "--max-steps" = .ok (f (limitSetting x)))
    (inputs : List Int) (maxSteps : Option Int) :
    Shaped switches (runShaped path inputs maxSteps f) := by
  have undashed : path ≠ "--" := by
    rintro rfl
    exact plain rfl
  refine List.forall_mem_cons.mpr ⟨⟨undashed, shape_of_undashed plain⟩, ?_⟩
  refine shaped_settings lettered (forall_mem_runSettings input limit inputs maxSteps) ?_
  exact forall_mem_runSettings (fun x => ⟨x, rfl⟩) (fun x => ⟨x, rfl⟩) inputs maxSteps

/-- What the command for a run makes of its arguments. -/
theorem commandRequest_run {path : String} {inputs : List Int} {maxSteps : Option Int}
    (plain : path.toList.head? ≠ some '-') (short : ∀ x ∈ inputs, Numeral.Writable x)
    (budget : ∀ x ∈ maxSteps, Numeral.Writable x) (globals : Globals) {arguments : List String}
    (given : runArguments path inputs maxSteps = "run" :: arguments) :
    commandRequest .run runSwitches runSwitch ⟨[], false, none, false, false⟩ .run
        ⟨globals, [], []⟩ arguments =
      .job globals (.run (runOptions inputs maxSteps) path) := by
  have shaped : Shaped runSwitches (runShaped path inputs maxSteps Setting.known) :=
    shaped_runShaped (by decide +kernel) plain
      (fun _ => show _ ∧ _ = Except.ok (inputSetting 0).known by decide +kernel)
      (fun _ => show _ ∧ _ = Except.ok (limitSetting 0).known by decide +kernel) inputs maxSteps
  have takes := forall_mem_runSettings (P := fun s => s.switch.takesValue) (fun _ => rfl)
    (fun _ => rfl) inputs maxSteps
  rw [runArguments_eq path inputs maxSteps Setting.known] at given
  -- The program comes first, and the settings after it are scanned and read in order.
  unfold commandRequest
  rw [← (List.cons.inj given).2, ofList_of_shaped shaped]
  dsimp only
  unfold runShaped
  rw [scanOne_word_settings takes, readTokens, List.nil_append,
    readTokens_runSettings short budget]
  rfl

/-- The request of the command line for a run. -/
theorem ofArguments_runArguments {path : String} {inputs : List Int} {maxSteps : Option Int}
    (plain : path.toList.head? ≠ some '-') (short : ∀ x ∈ inputs, Numeral.Writable x)
    (budget : ∀ x ∈ maxSteps, Numeral.Writable x) :
    Request.ofArguments (runArguments path inputs maxSteps) =
      .job ⟨0, false, none⟩ (.run (runOptions inputs maxSteps) path) := by
  -- The toolkit as a whole knows none of the switches of a run, and leaves all to the command.
  let unknown (_ : Setting RunKey) : Shape GlobalKey := .unknown
  have shaped : Shaped globalSwitches
      (("run", .plain) :: runShaped path inputs maxSteps unknown) := by
    refine List.forall_mem_cons.mpr ⟨⟨by decide, rfl⟩, ?_⟩
    exact shaped_runShaped (by decide +kernel) plain
      (fun _ => show _ ∧ _ = Except.ok (Shape.unknown : Shape GlobalKey) by decide +kernel)
      (fun _ => show _ ∧ _ = Except.ok (Shape.unknown : Shape GlobalKey) by decide +kernel)
      inputs maxSteps
  have given := runArguments_eq path inputs maxSteps unknown
  have command := commandRequest_run plain short budget ⟨0, false, none⟩ given
  unfold Request.ofArguments
  rw [given, ← List.map_cons (f := Prod.fst) (a := ("run", Shape.plain)), ofList_of_shaped shaped]
  dsimp only
  rw [scanCommand_plain]
  exact command

/-! ### Sessions -/

/-- The world in which a session starts: nothing is printed or logged yet. -/
def World.fresh (files : Files.Tree) (clock : Log.Clock) (input : String) (terminal : Bool) :
    World :=
  { ledger := .ofFiles files clock, input, terminal, output := "", errors := "" }

/-- Without further wishes, a session sets up a log for warnings and leaves the files alone. -/
theorem setUpLog_fresh (files : Files.Tree) (clock : Log.Clock) (input : String)
    (terminal : Bool) :
    ∃ ledger : Log.Ledger, ledger.Quiet ∧ ledger.files = files ∧
      setUpLog (.fresh files clock input terminal) ⟨0, false, none⟩ =
        (⟨ledger, input, terminal, "", ""⟩, none) := by
  refine ⟨_, ?_, ?_, rfl⟩
  · intro item found h member
    cases List.mem_singleton.mp found
    cases List.mem_singleton.mp member
    exact Int.le_refl _
  · rfl

theorem mapM_value? (inputs : List Int) :
    (inputs.map Given.value).mapM Given.value? = some inputs := by
  induction inputs with
  | nil => rfl
  | cons x inputs ih =>
    rw [List.map_cons, List.mapM_cons, ih]
    rfl

/-- The command that runs a program loads it, and has a budget if one was given. -/
theorem runJob_of_loaded {fuel : Nat} {w : World} {options : RunOptions} {path : String}
    {program : List Int} {maxSteps : Option Int}
    (budget : options.maxSteps = maxSteps.map .value)
    (loaded : Program.load w.ledger.files path = .ok program) :
    runJob (.within fuel) w options path =
      runLoaded (.within fuel) (w.log [Program.loadRecord path program]) options maxSteps path
        program := by
  unfold runJob withProgram
  rw [loaded, budget]
  cases maxSteps <;> rfl

/-- A program with numbers for inputs runs on an echoing port. -/
theorem runLoaded_of_values {fuel : Nat} {w : World} {options : RunOptions} {path : String}
    {program inputs : List Int} {maxSteps : Option Int} (scripted : options.console = false)
    (values : options.inputs = inputs.map .value) {m : Machine Port.Echo}
    (created : Machine.create program.toArray (.ofInputs inputs) maxSteps options.trace = .ok m) :
    runLoaded (.within fuel) w options maxSteps path program =
      (m.run fuel).map (concludeRun (w.log [runRecord path program]) options
        fun port => port.printed) := by
  unfold runLoaded runOn
  rw [scripted, values, mapM_value?]
  dsimp only
  rw [created]
  rfl

/-- The command line for a run comes to a run on an echoing port, in a world with nothing printed
yet whose log is quiet. -/
theorem session_runArguments (files : Files.Tree) (clock : Log.Clock) (input : String)
    (terminal : Bool) {path : String} {program inputs : List Int} {maxSteps : Option Int}
    (loaded : Program.load files path = .ok program) (plain : path.toList.head? ≠ some '-')
    (short : ∀ x ∈ inputs, Numeral.Writable x) (budget : ∀ x ∈ maxSteps, Numeral.Writable x)
    {m : Machine Port.Echo}
    (created : Machine.create program.toArray (.ofInputs inputs) maxSteps false = .ok m)
    (fuel : Nat) :
    ∃ w : World, w.ledger.Quiet ∧ w.output = "" ∧
      session fuel (runArguments path inputs maxSteps) (.fresh files clock input terminal) =
        (m.run fuel).map
          (concludeRun w (runOptions inputs maxSteps) fun port => port.printed) := by
  obtain ⟨ledger, quiet, same, setUp⟩ := setUpLog_fresh files clock input terminal
  let w : World := ⟨ledger, input, terminal, "", ""⟩
  refine ⟨(w.log [Program.loadRecord path program]).log [runRecord path program],
    (quiet.writeAll _).writeAll _, rfl, ?_⟩
  unfold session
  rw [ofArguments_runArguments plain short budget]
  unfold serve
  dsimp only
  rw [setUp]
  exact (runJob_of_loaded rfl (same ▸ loaded)).trans (runLoaded_of_values rfl rfl created)

/-- In a world with a quiet log, an honest report of a run is printed and its outcome reported. -/
theorem concludeRun_of_quiet {σ : Type} {w : World} (quiet : w.ledger.Quiet) (options : RunOptions)
    (untraced : options.trace = false) (undumped : options.dump = false) (printed : σ → String)
    {report : Report σ} {outcome : Outcome} (honest : report.Honest)
    (answer : report.answer = .ok (some outcome)) (steps : Numeral.Writable outcome.steps)
    (worded : ∀ fault pc, outcome.ending = .faulted fault pc → fault.message?.isSome) :
    ∃ w', w'.output = w.output ++ printed report.machine.port ∧
      concludeRun w options printed report = reportOutcome w' outcome := by
  let logged := w.log (Event.records report.events)
  let w' : World := { logged with output := logged.output ++ printed report.machine.port }
  -- The records of the run are in the log by now, which hears as much as before.
  have heard : report.heardBy w'.hears = report := by
    refine report.heardBy_of_honest (fun level loud => ?_) honest fun o fault pc same ending => ?_
    · exact (quiet.writeAll _).of_isHeard loud
    · rw [answer] at same
      cases same
      exact ⟨steps, worded fault pc ending⟩
  refine ⟨w', rfl, ?_⟩
  unfold concludeRun
  dsimp only [w', logged] at heard ⊢
  rw [heard, answer]
  dsimp only
  unfold reportRun
  rw [untraced, undumped]
  rfl

/-- A halt is reported with its number of steps and the final value. -/
theorem reportHalt_of_writable (w : World) {steps : Nat} {value : Int}
    (short : Numeral.Writable steps) (final : Numeral.Writable value) :
    reportHalt w steps (Numeral.write? value) =
      (.finished 0, w.print ("Halted after " ++ Numeral.decimal steps ++ " steps; memory[0] = " ++
        Numeral.decimal value)) := by
  have written := Numeral.write?_of_writable short
  have shown := Numeral.write?_of_writable final
  unfold reportHalt
  rw [written, shown]

/-- The command that runs a program agrees with the run itself. Take a program that is loaded from a
file whose path begins with no dash, inputs and perhaps a budget that can be written, and a run on a
script that comes to an outcome whose numbers can be written. Then a session for the corresponding
command line, started afresh, ends with `0` if the program halted, and has printed the outputs, each
on a line of its own, and a line on the halt. It ends with `2` if the program stopped with a fault,
and has printed the outputs only.

The budget need not be asked to be positive, since without that there is no run. -/
theorem run_command_agrees (files : Files.Tree) (clock : Log.Clock) (input : String)
    (terminal : Bool) {path : String} {program inputs : List Int} {maxSteps : Option Int}
    {fuel : Nat} {outcome : Outcome} (loaded : Program.load files path = .ok program)
    (plain : path.toList.head? ≠ some '-') (short : ∀ x ∈ inputs, Numeral.Writable x)
    (budget : ∀ limit ∈ maxSteps, Numeral.Writable limit)
    (ran : runProgram fuel program.toArray inputs maxSteps false = some (.ok (some outcome)))
    (outputs : ∀ v ∈ outcome.outputs, Numeral.Writable v)
    (steps : Numeral.Writable outcome.steps) (number : Numeral.Writable outcome.ending.number) :
    let answer := session fuel (runArguments path inputs maxSteps)
      (.fresh files clock input terminal)
    (∀ value, outcome.ending = .halted value → ∃ w, answer = some (.finished 0, w) ∧
      w.output = Numeral.onLines outcome.outputs.toList ++
        ("Halted after " ++ Numeral.decimal outcome.steps ++ " steps; memory[0] = " ++
          Numeral.decimal value ++ "\n")) ∧
    (∀ fault pc, outcome.ending = .faulted fault pc → ∃ w, answer = some (.finished 2, w) ∧
      w.output = Numeral.onLines outcome.outputs.toList) := by
  intro answer
  obtain ⟨m, created, r, run, result⟩ := run_of_runProgram ran
  obtain ⟨full, nonneg, rfl⟩ := Machine.create_eq_ok_iff.mp created
  -- The run of the command is on an echoing port, with the same outcome.
  obtain ⟨r', run', result', printed⟩ := Machine.run_echoed run result outputs
  obtain ⟨w, quiet, empty, session⟩ := session_runArguments files clock input terminal loaded plain
    short budget (Machine.create_eq_ok_iff.mpr ⟨full, nonneg, rfl⟩) fuel
  have worded : ∀ fault pc, outcome.ending = .faulted fault pc → fault.message?.isSome := by
    intro fault pc ending
    rw [ending] at number
    exact Machine.message?_of_run run' result' ending number
  obtain ⟨w', output, concluded⟩ := concludeRun_of_quiet quiet (runOptions inputs maxSteps) rfl rfl
    (fun port => port.printed) (Machine.honest_run run') result' steps worded
  rw [empty, printed, String.empty_append] at output
  rw [run', Option.map_some, concluded] at session
  unfold reportOutcome at session
  constructor
  · intro value ending
    rw [ending] at number session
    change Numeral.Writable value at number
    dsimp only at session
    rw [reportHalt_of_writable w' steps number] at session
    refine ⟨_, session, ?_⟩
    simp [World.print, output, String.append_assoc]
  · intro fault pc ending
    obtain ⟨message, text⟩ := Option.isSome_iff_exists.mp (worded fault pc ending)
    rw [ending] at session
    dsimp only at session
    rw [text] at session
    exact ⟨_, session, output⟩

/-- A program that puts out two inputs, one of them negative, and halts within its budget. -/
theorem run_command_agrees_twice :
    let files : Files.Tree := ⟨[(["p.txt"], .file "3,9,4,9,3,9,4,9,99,0\n".toUTF8)], []⟩
    let program : List Int := [3, 9, 4, 9, 3, 9, 4, 9, 99, 0]
    let outcome : Outcome := ⟨.halted 3, ⟨#[3, 9, 4, 9, 3, 9, 4, 9, 99, 5]⟩, #[-17, 5], 5⟩
    Program.load files "p.txt" = .ok program ∧
      runProgram 8 program.toArray [-17, 5] (some 6) false = some (.ok (some outcome)) ∧
      ∃ w, session 8 ["run", "p.txt", "-i", "-17", "-i", "5", "--max-steps", "6"]
          (.fresh files ⟨"", "", ""⟩ "" false) = some (.finished 0, w) ∧
        w.output = "-17\n5\nHalted after 5 steps; memory[0] = 3\n" := by
  intro files program outcome
  have loaded : Program.load files "p.txt" = .ok program := by decide +kernel
  have ran : runProgram 8 program.toArray [-17, 5] (some 6) false =
      some (.ok (some outcome)) := by decide +kernel
  have agrees := (run_command_agrees files ⟨"", "", ""⟩ "" false loaded (by decide)
    (by decide +kernel) (by decide +kernel) ran (by decide +kernel) (by decide +kernel)
    (by decide +kernel)).1 3 rfl
  have line : runArguments "p.txt" [-17, 5] (some 6) =
      ["run", "p.txt", "-i", "-17", "-i", "5", "--max-steps", "6"] := by decide +kernel
  have text : Numeral.onLines outcome.outputs.toList ++
      ("Halted after " ++ Numeral.decimal outcome.steps ++ " steps; memory[0] = " ++
        Numeral.decimal 3 ++ "\n") =
      "-17\n5\nHalted after 5 steps; memory[0] = 3\n" := by decide +kernel
  rw [line, text] at agrees
  exact ⟨loaded, ran, agrees⟩

end Toolkit

end Intcode
