import Intcode.Proofs.Retry
import Intcode.Proofs.Run
import Intcode.Toolkit.Session

/-!
# Errors that a session does not report

A session reports what goes wrong with its job: it ends with the status `1` and an error message, or
with `2` after a fault of the machine. Before the job it sets up its log, and an error of the log
file is not reported but breaks the session down. Nothing else of the kind does: whatever is wrong
with the program file is reported, and only a blank in place of a value can break down a session
later.

## Main definitions

* `Toolkit.Reported` — how a session ends that does not break down
* `Toolkit.LogFails` — the log file cannot be opened
* `Toolkit.HasBlank` — a command line with a blank
* `Toolkit.Job.Within` — a job that takes at most a number of steps

## Main results

* `Machine.Running.exists_run_of_budget`, `Toolkit.Hollow.exists_run_of_budget` — runs end within
  their budgets
* `Toolkit.Hollow.run_stops` — how a run with blanks can end
* `Toolkit.reported_perform` — jobs are reported
* `Toolkit.log_file_error_escapes` — which errors break a session down
-/

namespace Intcode

/-! ### Runs end within their budgets -/

namespace Machine

variable {σ : Type} [Port σ] {m x : Machine σ} {limit : Int} {k : Nat}

/-- A machine goes on only while its budget lasts. -/
theorem Running.steps_lt (running : m.Running) (budget : m.maxSteps = some limit)
    (goes : m.step.answer = .ok none) : m.steps < limit := by
  refine Int.lt_of_not_ge fun spent => ?_
  have exhausted : m.exhausted? = some limit := by
    rw [exhausted?, budget, Option.filter_some, if_pos (by simpa using spent)]
  have fetch : m.fetch = .error (Cause.stepLimit limit).raised := by
    unfold Machine.fetch
    rw [exhausted]
  -- Whether the fault can be worded or not, the machine does not go on.
  rw [step_of_unfetched running.state fetch] at goes
  cases raised : (Cause.stepLimit limit).raised <;> rw [raised] at goes <;> cases goes

theorem Advances.le_budget (h : Advances m k x) (running : m.Running)
    (budget : m.maxSteps = some limit) : k = 0 ∨ m.steps + k ≤ limit := by
  induction h with
  | refl => exact .inl rfl
  | step first rest ih =>
    have within := running.steps_lt budget first
    obtain ⟨next, steps⟩ := running.step first
    rcases ih next ((maxSteps_step _).trans budget) with rfl | le <;> omega

/-- A run with a budget ends, after at most one step more than it allows. -/
theorem Running.exists_run_of_budget (running : m.Running) (budget : m.maxSteps = some limit)
    {fuel : Nat} (enough : limit.toNat < fuel) : ∃ r, m.run fuel = some r := by
  rcases advances_or_ends m (limit.toNat + 1) with ⟨x, chain⟩ | ⟨k, x, lt, chain, ends⟩
  -- So many steps would be more than the budget allows.
  · rcases chain.le_budget running budget with none | le <;> omega
  · obtain ⟨r, runs, -⟩ := run_of_advances chain ends
    exact ⟨r, runs fuel (by omega)⟩

end Machine

namespace Toolkit

/-! ### Runs with blanks -/

namespace Hollow

variable {m : Hollow} {maxSteps : Option Int} {tracing : Bool} {limit : Int}

/-- A result that has a property, or else is no failure of a file. -/
def Ensures {α : Type} (x : Except Halt α) (P : α → Prop) : Prop :=
  match x with
  | .ok a => P a
  | .error why => ∀ e, why ≠ .broken (.file e)

section Ensures

variable {α β : Type} {P : α → Prop} {Q : β → Prop}

theorem Ensures.ok {a : α} (h : P a) : Ensures (.ok a) P := h

theorem Ensures.refused (why : Refusal) : Ensures (.error (.refused why)) P := fun _ eq => by
  cases eq

theorem Ensures.fault (name text : String) : Ensures (.error (.fault name text)) P := fun _ eq => by
  cases eq

theorem Ensures.blankUsed : Ensures (.error (.broken .blankUsed)) P := fun _ eq => by cases eq

theorem Ensures.countTooLarge : Ensures (.error (.broken .countTooLarge)) P := fun _ eq => by
  cases eq

theorem Ensures.ofStop (stop : Stop) : Ensures (.error (.ofStop stop)) P := by
  intro e eq
  unfold Halt.ofStop at eq
  split at eq
  · cases eq
  · split at eq <;> cases eq

theorem Ensures.mapError (x : Except Stop α) : Ensures (x.mapError .ofStop) fun _ => True := by
  cases x with
  | error stop => exact .ofStop stop
  | ok a => exact .ok trivial

theorem Ensures.bind {x : Except Halt α} {f : α → Except Halt β} (first : Ensures x P)
    (next : ∀ a, P a → Ensures (f a) Q) : Ensures (x >>= f) Q := by
  cases x with
  | error why => exact first
  | ok a => exact next a first

end Ensures

theorem ensures_locate (m : Hollow) (address : Cell) :
    Ensures (m.locate address) fun _ => True := by
  unfold locate
  split
  · exact .blankUsed
  · split
    · exact .ok trivial
    · exact .ofStop _

theorem ensures_read (m : Hollow) (address : Cell) : Ensures (m.read address) fun _ => True :=
  .bind (ensures_locate m address) fun _ _ => .ok trivial

theorem ensures_load (m : Hollow) (operand : Operand Cell) :
    Ensures (m.load operand) fun _ => True := by
  unfold load
  split
  · exact .ok trivial
  · exact ensures_read m _

theorem ensures_store (m : Hollow) (operand : Operand Cell) (value : Cell) :
    Ensures (m.store operand value) fun m' => m'.steps = m.steps := by
  unfold store
  split
  · exact .bind (ensures_locate m _) fun _ _ => .ok rfl
  · exact .ofStop _
  · exact .fault _ _

theorem ensures_apply (op : Operation) (a b : Cell) : Ensures (apply op a b) fun _ => True := by
  have counted : ∀ n : Int, Ensures
      (if isCount n then .ok .blank else .error (.broken .countTooLarge)) fun _ : Cell => True := by
    intro n
    split
    · exact .ok trivial
    · exact .countTooLarge
  unfold apply
  split
  · exact .ok trivial
  · exact .ok trivial
  · exact counted _
  · exact counted _
  · exact .ok trivial
  · exact .ok trivial
  · exact .ok trivial
  · exact .blankUsed

theorem ensures_word (cell : Cell) : Ensures (word cell) fun _ => True := by
  unfold word
  split
  · exact .mapError _
  · exact .fault _ _

/-- An instruction is fetched only while the budget lasts. -/
theorem ensures_fetch (m : Hollow) (maxSteps : Option Int) :
    Ensures (m.fetch maxSteps) fun _ => ∀ limit, maxSteps = some limit → m.steps < limit := by
  unfold fetch
  split
  · exact .ofStop _
  · exact .blankUsed
  · rename_i spare _
    split
    · exact .ofStop _
    · refine .bind (ensures_word _) fun _ _ => .bind (.mapError _) fun _ _ => .ok ?_
      rintro limit rfl
      simpa using spare

theorem ensures_record (m : Hollow) (tracing : Bool) (pc : Nat) (command : Command Cell) :
    Ensures (m.record tracing pc command) fun m' => m'.steps = m.steps := by
  unfold record
  split
  · split
    · exact .ok rfl
    · exact .refused _
  · exact .ok rfl

theorem ensures_perform (m : Hollow) (pc : Nat) (command : Command Cell) :
    Ensures (m.perform pc command) fun done => done.1.steps = m.steps := by
  unfold perform
  cases command with
  | compute op a b dest =>
    refine .bind (ensures_load m a) fun x _ => .bind (ensures_load m b) fun y _ => ?_
    refine .bind (ensures_apply op x y) fun z _ => ?_
    exact .bind (ensures_store m dest z) fun _ same => .ok same
  | jump expected cond target =>
    refine .bind (ensures_load m cond) fun x _ => ?_
    split
    · exact .bind (ensures_load m target) fun _ _ => .ok rfl
    · exact .ok rfl
  | input dest =>
    refine .bind (ensures_locate m dest) fun i _ => ?_
    split
    · exact .ofStop _
    · exact .ok rfl
  | output source =>
    refine .bind (ensures_read m source) fun value _ => ?_
    split
    · exact .refused _
    · exact .ok rfl
  | halt => exact .ok rfl

/-- A step that goes on counts, and is taken while the budget lasts. No step is stopped by a file.
-/
theorem step_cases {m' : Hollow} {how : Progress}
    (stepped : m.step maxSteps tracing = (m', how)) :
    (how = .running → m'.steps = m.steps + 1 ∧ ∀ limit, maxSteps = some limit → m.steps < limit) ∧
      ∀ e, how ≠ .stopped (.broken (.file e)) := by
  have fetch := ensures_fetch m maxSteps
  unfold step at stepped
  split at stepped
  · rename_i why fetched
    cases stepped
    rw [fetched] at fetch
    exact ⟨fun eq => (by cases eq), fun e eq => fetch e (Progress.stopped.inj eq)⟩
  · rename_i pc command fetched
    rw [fetched] at fetch
    have record := ensures_record m tracing pc command
    split at stepped
    · rename_i why recorded
      cases stepped
      rw [recorded] at record
      exact ⟨fun eq => (by cases eq), fun e eq => record e (Progress.stopped.inj eq)⟩
    · rename_i traced recorded
      rw [recorded] at record
      have perform := ensures_perform traced pc command
      split at stepped
      · rename_i why performed
        cases stepped
        rw [performed] at perform
        exact ⟨fun eq => (by cases eq), fun e eq => perform e (Progress.stopped.inj eq)⟩
      · rename_i next pc' performed
        cases stepped
        rw [performed] at perform
        refine ⟨fun _ => ⟨?_, fetch⟩, fun e eq => by cases eq⟩
        exact congrArg (· + 1) (perform.trans record)
      · cases stepped
        exact ⟨fun eq => (by cases eq), fun e eq => by cases eq⟩

/-- A run with blanks ends with a step that does not go on, and no file stops it. -/
theorem run_stops {fuel : Nat} {m' : Hollow} {how : Progress}
    (ran : m.run maxSteps tracing fuel = some (m', how)) :
    how ≠ .running ∧ ∀ e, how ≠ .stopped (.broken (.file e)) := by
  induction fuel generalizing m with
  | zero => cases ran
  | succ fuel ih =>
    unfold run at ran
    split at ran
    · exact ih ran
    · rename_i ends
      have last : m.step maxSteps tracing = (m', how) := Option.some.inj ran
      refine ⟨?_, (step_cases last).2⟩
      rintro rfl
      exact ends m' last

/-- A run with blanks and a budget ends, after at most one step more than it allows. -/
theorem exists_run_of_budget (m : Hollow) (tracing : Bool) {fuel : Nat}
    (enough : limit.toNat - m.steps < fuel) :
    ∃ ended, m.run (some limit) tracing fuel = some ended := by
  induction fuel generalizing m with
  | zero => exact absurd enough (Nat.not_lt_zero _)
  | succ fuel ih =>
    unfold run
    split
    · rename_i m' goes
      -- What is left of the budget gets smaller with each step.
      obtain ⟨counted, within⟩ := (step_cases goes).1 rfl
      have within := within limit rfl
      exact ih m' (by omega)
    · exact ⟨_, rfl⟩

end Hollow

/-! ### Reports -/

/-- How a session ends that has set up its log: with `0`, with `2` and the name of a fault, or with
`1` and an error message. If there is a blank, it may break down as well, but not because of a file.
-/
inductive Reported (blank : Prop) : Ending × World → Prop
  | done (w : World) : Reported blank (.finished 0, w)
  | faulted (w : World) (name message : String) :
      Reported blank (.finished 2, w.printError ("Fault: " ++ name ++ ": " ++ message))
  | failed (w : World) (message : String) : Reported blank (w.giveUp message)
  | broken (w : World) {why : Breakdown} (given : blank) (other : ∀ e, why ≠ .file e) :
      Reported blank (.broken why, w)

section Reported

variable {blank : Prop}

theorem reported_refuse (w : World) (why : Refusal) : Reported blank (w.refuse why) :=
  .failed w why.message

theorem reported_blankUsed (w : World) (given : blank) : Reported blank (.broken .blankUsed, w) :=
  .broken w given fun _ eq => by cases eq

theorem reported_reportFault (w : World) (name : String) (message? : Option String) :
    Reported blank (reportFault w name message?) := by
  unfold reportFault
  split
  · exact reported_refuse w _
  · exact .faulted w name _

theorem reported_reportHalt (w : World) (steps : Nat) (value? : Option String) :
    Reported blank (reportHalt w steps value?) := by
  unfold reportHalt
  split
  · exact .done _
  · exact reported_refuse w _

theorem reported_reportOutcome (w : World) (outcome : Outcome) :
    Reported blank (reportOutcome w outcome) := by
  unfold reportOutcome
  split
  · exact reported_reportFault w _ _
  · exact reported_reportHalt w _ _

theorem reported_reportRun {σ : Type} (w : World) (options : RunOptions) (m : Machine σ)
    (outcome : Outcome) : Reported blank (reportRun w options m outcome) := by
  unfold reportRun
  dsimp only
  split
  · split
    · exact reported_refuse _ _
    · exact reported_reportOutcome _ _
  · exact reported_reportOutcome _ _

/-- A run that has ended is reported, however much of it was heard. -/
theorem reported_concludeRun {σ : Type} (w : World) (options : RunOptions) (printed : σ → String)
    {report : Report σ} (ends : report.answer ≠ .ok none) :
    Reported blank (concludeRun w options printed report) := by
  unfold concludeRun
  dsimp only
  split
  · exact reported_refuse _ _
  · rename_i heard
    -- A run that was heard out has an outcome, so that there is nothing left to do here.
    unfold Report.heardBy at heard
    split at heard
    · cases heard
    · exact absurd heard ends
  · exact reported_reportRun _ _ _ _

theorem reported_runOn {σ : Type} [Port σ] {fuel : Nat} {w : World} {options : RunOptions}
    {maxSteps : Option Int} {path : String} {program : List Int} {port : σ} {printed : σ → String}
    {result : Ending × World}
    (ran : runOn (·.run fuel) w options maxSteps path program port printed = some result) :
    Reported blank result := by
  unfold runOn at ran
  split at ran
  · cases ran
    exact reported_refuse _ _
  · obtain ⟨report, run, rfl⟩ := Option.map_eq_some_iff.mp ran
    obtain ⟨k, x, -, -, ends, -, answer⟩ := Machine.run_eq_some run
    exact reported_concludeRun _ _ _ (answer ▸ ends)

/-! ### Reports of runs with blanks -/

theorem reported_reportHollow {w : World} {options : RunOptions} {m : Hollow} (given : blank)
    {goOn : World → Ending × World} (reported : ∀ w, Reported blank (goOn w)) :
    Reported blank (reportHollow w options m goOn) := by
  unfold reportHollow
  dsimp only
  split
  · split
    · exact reported_refuse _ _
    · exact reported_blankUsed _ given
    · split
      · exact reported_refuse _ _
      · exact reported _
  · exact reported _

theorem reported_concludeHollowHalt (w : World) (options : RunOptions) (m : Hollow)
    (given : blank) : Reported blank (concludeHollowHalt w options m) := by
  have reported : ∀ w, Reported blank (reportHollow w options m fun w =>
      reportHalt w m.steps (cellText? (m.cells[0]?.getD .blank))) :=
    fun w => reported_reportHollow given fun w => reported_reportHalt _ _ _
  unfold concludeHollowHalt
  dsimp only
  split
  · exact reported _
  · split
    · exact reported_refuse _ _
    · exact reported _
  · split
    · exact reported_blankUsed _ given
    · exact reported _

theorem reported_concludeHollowFault (w : World) (options : RunOptions) (m : Hollow)
    (name text : String) (given : blank) :
    Reported blank (concludeHollowFault w options m name text) := by
  have reported : ∀ w message?, Reported blank (reportHollow w options m fun w =>
      reportFault w name message?) :=
    fun w message? => reported_reportHollow given fun w => reported_reportFault _ _ _
  unfold concludeHollowFault
  dsimp only
  split
  · exact reported _ _
  · split
    · exact reported_refuse _ _
    · exact reported _ _

theorem reported_concludeHollow (w : World) (options : RunOptions) (m : Hollow)
    {how : Hollow.Progress} (given : blank) (ends : how ≠ .running)
    (other : ∀ e, how ≠ .stopped (.broken (.file e))) :
    Reported blank (concludeHollow w options m how) := by
  unfold concludeHollow
  dsimp only
  split
  · exact absurd rfl ends
  · exact reported_concludeHollowHalt _ _ _ given
  · exact reported_concludeHollowFault _ _ _ _ _ given
  · exact reported_refuse _ _
  · refine .broken _ given fun e eq => other e ?_
    rw [eq]

end Reported

/-! ### Reports of jobs -/

/-- Whether a blank stands in place of a value. -/
def Job.hasBlank : Job → Bool
  | run options _ => options.inputs.contains .blank || options.maxSteps == some .blank
  | disasm options _ => options.start == .blank || options.count == some .blank
  | info _ => false

/-- A job that takes at most a number of steps. Only a run takes any, and it needs a budget to be
sure of an end. -/
def Job.Within (fuel : Nat) : Job → Prop
  | run options _ => ∃ budget, options.maxSteps = some budget ∧
      ∀ limit, budget = .value limit → limit.toNat < fuel
  | disasm .. | info _ => True

/-- A blank stands in place of a value, for the toolkit or for the job. -/
def HasBlank (globals : Globals) (job : Job) : Prop :=
  globals.logFile = some .blank ∨ job.hasBlank

theorem blank_mem_of_mapM_value? {inputs : List (Given Int)}
    (blank : inputs.mapM Given.value? = none) : .blank ∈ inputs := by
  induction inputs with
  | nil => cases blank
  | cons x inputs ih =>
    rw [List.mapM_cons] at blank
    cases x with
    | blank => exact List.mem_cons_self
    | value a =>
      cases rest : inputs.mapM Given.value? with
      | none => exact List.mem_cons_of_mem _ (ih rest)
      | some values =>
        rw [rest] at blank
        cases blank

section Jobs

variable {blank : Prop}

theorem reported_runLoaded {fuel : Nat} {w : World} {options : RunOptions} {maxSteps : Option Int}
    {path : String} {program : List Int} {result : Ending × World}
    (given : .blank ∈ options.inputs → blank)
    (ran : runLoaded (.within fuel) w options maxSteps path program = some result) :
    Reported blank result := by
  unfold runLoaded at ran
  split at ran
  · exact reported_runOn ran
  · split at ran
    · exact reported_runOn ran
    · rename_i hollow
      unfold runHollow at ran
      split at ran
      · cases ran
        exact reported_refuse _ _
      · obtain ⟨⟨m, how⟩, run, rfl⟩ := Option.map_eq_some_iff.mp ran
        obtain ⟨ends, other⟩ := Hollow.run_stops run
        exact reported_concludeHollow _ _ _ (given (blank_mem_of_mapM_value? hollow)) ends other

theorem reported_runJob {fuel : Nat} {w : World} {options : RunOptions} {path : String}
    {result : Ending × World} (given : (Job.run options path).hasBlank → blank)
    (ran : runJob (.within fuel) w options path = some result) : Reported blank result := by
  have input : .blank ∈ options.inputs → blank := fun found => given (by simp [Job.hasBlank, found])
  unfold runJob withProgram at ran
  split at ran
  · cases ran
    exact .failed _ _
  · split at ran
    · exact reported_runLoaded input ran
    · exact reported_runLoaded input ran
    · rename_i budget
      cases ran
      exact reported_blankUsed _ (given (by simp [Job.hasBlank, budget]))

theorem reported_listProgram (w : World) (program : List Int) (start : Int)
    {count : Option (Given Int)} (given : count = some .blank → blank) :
    Reported blank (listProgram w program start count) := by
  unfold listProgram
  dsimp only
  split
  · split
    · split
      · exact reported_refuse _ _
      · exact .done _
    · split
      · exact reported_refuse _ _
      · exact .done _
    · exact reported_blankUsed _ (given rfl)
  · split
    · exact reported_refuse _ _
    · exact .failed _ _

theorem reported_disasmJob (w : World) {options : DisasmOptions} {path : String}
    (given : (Job.disasm options path).hasBlank → blank) :
    Reported blank (disasmJob w options path) := by
  unfold disasmJob withProgram
  split
  · exact .failed _ _
  · split
    · refine reported_listProgram _ _ _ fun counted => given ?_
      simp [Job.hasBlank, counted]
    · rename_i start
      exact reported_blankUsed _ (given (by simp [Job.hasBlank, start]))

theorem reported_infoJob (w : World) (path : String) : Reported blank (infoJob w path) := by
  unfold infoJob withProgram
  split
  · exact .failed _ _
  · dsimp only
    split
    · exact reported_refuse _ _
    · split
      · exact .done _
      · exact reported_refuse _ _

/-- Whatever comes of a job is reported. -/
theorem reported_perform {fuel : Nat} {w : World} {job : Job} {result : Ending × World}
    (given : job.hasBlank → blank) (done : perform (.within fuel) w job = some result) :
    Reported blank result := by
  cases job with
  | run options path => exact reported_runJob given done
  | disasm options path =>
    cases done
    exact reported_disasmJob w given
  | info path =>
    cases done
    exact reported_infoJob w path

end Jobs

/-! ### Jobs come to an end -/

theorem exists_runOn {σ : Type} [Port σ] {fuel : Nat} {limit : Int} (enough : limit.toNat < fuel)
    (w : World) (options : RunOptions) (path : String) (program : List Int) (port : σ)
    (printed : σ → String) :
    ∃ result,
      runOn (·.run fuel) w options (some limit) path program port printed = some result := by
  unfold runOn
  split
  · exact ⟨_, rfl⟩
  · rename_i m created
    obtain ⟨-, -, rfl⟩ := Machine.create_eq_ok_iff.mp created
    have running := Machine.running_start program.toArray port (some limit) options.trace
    obtain ⟨report, ran⟩ := running.exists_run_of_budget rfl enough
    dsimp only
    rw [ran]
    exact ⟨_, rfl⟩

theorem exists_runLoaded {fuel : Nat} {limit : Int} (enough : limit.toNat < fuel) (w : World)
    (options : RunOptions) (path : String) (program : List Int) :
    ∃ result, runLoaded (.within fuel) w options (some limit) path program = some result := by
  unfold runLoaded
  split
  · exact exists_runOn enough _ _ _ _ _ _
  · split
    · exact exists_runOn enough _ _ _ _ _ _
    · unfold runHollow
      split
      · exact ⟨_, rfl⟩
      · obtain ⟨ended, ran⟩ := Hollow.exists_run_of_budget (.ofProgram program options.inputs)
          options.trace (Nat.lt_of_le_of_lt (Nat.sub_le _ _) enough)
        dsimp only [Runner.within]
        rw [ran]
        exact ⟨_, rfl⟩

/-- A job comes to an end within the steps that it may take. -/
theorem exists_perform {fuel : Nat} (w : World) {job : Job} (within : job.Within fuel) :
    ∃ result, perform (.within fuel) w job = some result := by
  cases job with
  | disasm | info => exact ⟨_, rfl⟩
  | run options path =>
    obtain ⟨budget, given, enough⟩ := within
    unfold perform runJob withProgram
    dsimp only
    split
    · exact ⟨_, rfl⟩
    · rw [given]
      cases budget with
      | value limit => exact exists_runLoaded (enough limit rfl) _ _ _ _
      | blank => exact ⟨_, rfl⟩

theorem withProgram_of_error {α : Type} {w : World} {path : String} {e : Program.LoadError}
    (unloaded : Program.load w.ledger.files path = .error e) (giveUp : Ending × World → α)
    (goOn : World → List Int → α) :
    withProgram w path giveUp goOn = giveUp (w.giveUp e.message) := by
  unfold withProgram
  rw [unloaded]

/-- If the program cannot be loaded, a job is given up for that reason. -/
theorem perform_of_unloaded {fuel : Nat} {w : World} {job : Job} {e : Program.LoadError}
    (unloaded : Program.load w.ledger.files job.program = .error e) :
    perform (.within fuel) w job = some (w.giveUp e.message) := by
  cases job with
  | run options path =>
    unfold perform runJob
    exact withProgram_of_error unloaded some _
  | disasm options path => exact congrArg some (withProgram_of_error unloaded id _)
  | info path => exact congrArg some (withProgram_of_error unloaded id _)

/-! ### Sessions -/

section Sessions

variable {fuel : Nat} {arguments : List String} {w : World} {globals : Globals} {job : Job}
  {e : Files.Error}

/-- The log is not set up yet, and its file cannot be opened. -/
def LogFails (w : World) (globals : Globals) (e : Files.Error) : Prop :=
  (w.ledger.logger logName).handlers = [] ∧ ∃ path files, globals.logFile = some (.value path) ∧
    w.ledger.files.Opens (.ofString path) files (.error e)

theorem filePath?_of_file (l : Log.Ledger) (name : String) (consoleLevel : Int)
    (file : Option String) :
    l.filePath? name ⟨consoleLevel, file, none⟩ = file.map .ofString := by
  cases file <;> rfl

/-- The log is not set up because of its file if that cannot be opened. -/
theorem setUpLog_eq_file_iff :
    (setUpLog w globals).2 = some (.file e) ↔ LogFails w globals e := by
  have fails := w.ledger.setUp_fails_iff logName
    ⟨Log.levelOf globals.verbose globals.quiet, globals.logFile.bind Given.value?, none⟩ e
  rw [filePath?_of_file] at fails
  unfold setUpLog
  dsimp only
  constructor
  · intro broken
    split at broken
    · cases broken
    · obtain ⟨_, failed, same⟩ := Option.map_eq_some_iff.mp broken
      cases same
      obtain ⟨unset, path, files, asked, opens⟩ := fails.mp ⟨_, Prod.ext rfl failed⟩
      obtain ⟨text, given, rfl⟩ := Option.map_eq_some_iff.mp asked
      obtain ⟨value, given, known⟩ := Option.bind_eq_some_iff.mp given
      cases value with
      | value a =>
        cases known
        exact ⟨unset, _, files, given, opens⟩
      | blank => cases known
  · rintro ⟨unset, text, files, given, opens⟩
    obtain ⟨l', failed⟩ := fails.mpr ⟨unset, _, files, by rw [given]; rfl, opens⟩
    rw [failed, if_neg (by simp [given])]
    rfl

/-- If it is not set up for another reason, then because of a blank. -/
theorem setUpLog_cases {why : Breakdown} (broken : (setUpLog w globals).2 = some why) :
    (∃ e, why = .file e) ∨ why = .blankUsed ∧ globals.logFile = some .blank := by
  unfold setUpLog at broken
  dsimp only at broken
  split at broken
  · rename_i blank
    cases broken
    exact .inr ⟨rfl, blank.2⟩
  · obtain ⟨e, -, same⟩ := Option.map_eq_some_iff.mp broken
    exact .inl ⟨e, same.symm⟩

variable (accepted : Request.ofArguments arguments = .job globals job)

include accepted

/-- A session without a log breaks down. -/
theorem session_of_broken {why : Breakdown} (broken : (setUpLog w globals).2 = some why) :
    session fuel arguments w = some (.broken why, (setUpLog w globals).1) := by
  unfold session
  rw [accepted]
  unfold serve
  dsimp only
  split
  · rename_i same
    rw [same] at broken ⊢
    cases broken
    rfl
  · rename_i same
    rw [same] at broken
    cases broken

/-- A session with a log does its job. -/
theorem session_of_ready (ready : (setUpLog w globals).2 = none) :
    session fuel arguments w = perform (.within fuel) (setUpLog w globals).1 job := by
  unfold session
  rw [accepted]
  unfold serve
  dsimp only
  split
  · rename_i same
    rw [same] at ready
    cases ready
  · rename_i same
    rw [same]

/-- A session that can open its log file is reported. -/
theorem reported_session (opens : ∀ e, ¬ LogFails w globals e) {result : Ending × World}
    (served : session fuel arguments w = some result) :
    Reported (HasBlank globals job) result := by
  cases broken : (setUpLog w globals).2 with
  | none =>
    rw [session_of_ready accepted broken] at served
    exact reported_perform .inr served
  | some why =>
    rw [session_of_broken accepted broken] at served
    cases served
    rcases setUpLog_cases broken with ⟨e, rfl⟩ | ⟨rfl, blank⟩
    · exact absurd (setUpLog_eq_file_iff.mp broken) (opens e)
    · exact reported_blankUsed _ (.inl blank)

/-- A session is broken by a file if that is its log file and cannot be opened. -/
theorem session_broken_iff :
    (∃ w', session fuel arguments w = some (.broken (.file e), w')) ↔ LogFails w globals e := by
  constructor
  · rintro ⟨w', served⟩
    cases broken : (setUpLog w globals).2 with
    | none =>
      -- Whatever breaks down the job, it is no file, not even if there are blanks.
      rw [session_of_ready accepted broken] at served
      have reported : Reported True _ := reported_perform (fun _ => trivial) served
      cases reported with
      | broken _ _ other => exact absurd rfl (other e)
    | some why =>
      rw [session_of_broken accepted broken] at served
      cases served
      exact setUpLog_eq_file_iff.mp broken
  · intro fails
    exact ⟨_, session_of_broken accepted (setUpLog_eq_file_iff.mpr fails)⟩

end Sessions

/-- Which errors break down a session for a job.

An error of the log file does, exactly if the log was not set up yet and the file cannot be opened.
Then nothing is printed. In all other cases what comes of the job is reported: the session ends with
`0`, with `2` and a fault, or with `1` and an error message, if no blank stands in place of a value.
It does end if the job takes no more steps than it may. If the program cannot be loaded, the error
message is the reason for that. -/
theorem log_file_error_escapes (fuel : Nat) (arguments : List String) (w : World) (globals : Globals)
    (job : Job) (accepted : Request.ofArguments arguments = .job globals job) :
    (∀ e, (∃ w', session fuel arguments w = some (.broken (.file e), w')) ↔ LogFails w globals e) ∧
    (∀ e w', session fuel arguments w = some (.broken (.file e), w') →
      w'.output = w.output ∧ w'.errors = w.errors) ∧
    ((∀ e, ¬ LogFails w globals e) →
      (∀ result, session fuel arguments w = some result →
        Reported (HasBlank globals job) result) ∧
      (job.Within fuel → ∃ result, session fuel arguments w = some result) ∧
      (globals.logFile ≠ some .blank →
        let v := (setUpLog w globals).1
        ∀ e, Program.load v.ledger.files job.program = .error e →
          session fuel arguments w = some (v.giveUp e.message))) := by
  refine ⟨fun e => session_broken_iff accepted, fun e w' served => ?_, fun opens =>
    ⟨fun result => reported_session accepted opens, fun within => ?_, fun given e unloaded => ?_⟩⟩
  · have fails := (session_broken_iff accepted).mp ⟨w', served⟩
    rw [session_of_broken accepted (setUpLog_eq_file_iff.mpr fails)] at served
    cases served
    exact ⟨rfl, rfl⟩
  · cases broken : (setUpLog w globals).2 with
    | none =>
      rw [session_of_ready accepted broken]
      exact exists_perform _ within
    | some why => exact ⟨_, session_of_broken accepted broken⟩
  · have ready : (setUpLog w globals).2 = none := by
      refine Option.eq_none_iff_forall_ne_some.mpr fun why broken => ?_
      rcases setUpLog_cases broken with ⟨e, rfl⟩ | ⟨-, blank⟩
      · exact opens e (setUpLog_eq_file_iff.mp broken)
      · exact given blank
    rw [session_of_ready accepted ready]
    exact perform_of_unloaded unloaded

/-- A log file that lies below the program file breaks a session down without a word, although a
missing program file is reported. -/
theorem log_file_error_escapes_below_program :
    let w : World := ⟨.ofFiles ⟨[(["p.txt"], .file "99".toUTF8)], []⟩ ⟨"", "", ""⟩, "", false, "", ""⟩
    let arguments := ["--log-file", "p.txt/x.log", "info", "p.txt"]
    let globals : Globals := ⟨0, false, some (.value "p.txt/x.log")⟩
    let e : Files.Error := .blocked .exists "p.txt"
    Request.ofArguments arguments = .job globals (.info "p.txt") ∧ LogFails w globals e ∧
      (∃ w', session 0 arguments w = some (.broken (.file e), w') ∧ w'.output = "" ∧ w'.errors = "") ∧
      ∃ w', session 0 ["info", "q.txt"] w = some (.finished 1, w') ∧
        w'.errors = "Error: [Errno 2] No such file or directory: 'q.txt'\n" := by
  intro w arguments globals e
  have accepted : Request.ofArguments arguments = .job globals (.info "p.txt") := by decide +kernel
  have fails : LogFails w globals e := ⟨rfl, _, _, rfl, .unmade rfl⟩
  have accepted' : Request.ofArguments ["info", "q.txt"] = .job ⟨0, false, none⟩ (.info "q.txt") := by
    decide +kernel
  refine ⟨accepted, fails, ?_, ?_⟩
  · obtain ⟨escapes, silent, -⟩ := log_file_error_escapes 0 arguments w globals _ accepted
    obtain ⟨w', broken⟩ := (escapes e).mpr fails
    exact ⟨w', broken, silent e w' broken⟩
  · obtain ⟨-, -, reported⟩ := log_file_error_escapes 0 _ w _ _ accepted'
    obtain ⟨-, -, unloaded⟩ := reported (by rintro e ⟨-, path, files, given, -⟩; cases given)
    exact ⟨_, unloaded (by decide) (.file (.blocked .noSuchFile "q.txt")) rfl, by decide +kernel⟩

end Toolkit

end Intcode
