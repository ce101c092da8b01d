import Intcode.Proofs.CommandLine
import Intcode.Proofs.Usage
import Intcode.Toolkit.Session

/-!
# The status of a session

A session that ends with status `2` has run a machine that stopped with a fault, or it was given a
command line that cannot be understood. The two cannot be told apart by the status. A command line
that cannot be understood never ends with `1`: that status is for everything else that goes wrong,
and for a command line without a command.

## Main definitions

* `Toolkit.Ending.status?` — the status of a session
* `Toolkit.RunFaults` — a run that stops with a fault

## Main results

* `Toolkit.faulted_of_concludeRun`, `Toolkit.stopped_of_concludeHollow` — reports with status `2`
* `Toolkit.runFaults_of_runJob` — a run with status `2` stopped with a fault
* `Toolkit.status_two` — when a session ends with `2`
-/

namespace Intcode.Toolkit

open CommandLine

/-! ### Runs that stop with a fault -/

/-- The status of a session, unless it breaks down. -/
def Ending.status? : Ending → Option Nat
  | finished status | dismissed status => some status
  | broken _ => none

/-- A run of a machine, within `fuel` steps, that stops with a fault. -/
def MachineFaults {σ : Type} [Port σ] (fuel : Nat) (m : Machine σ) : Prop :=
  ∃ report outcome, m.run fuel = some report ∧ report.answer = .ok (some outcome) ∧
    outcome.state = .faulted

/-- A run of a program that was loaded, on the port that its options ask for, that stops with a
fault. -/
inductive LoadedFaults (fuel : Nat) (w : World) (options : RunOptions) (maxSteps : Option Int)
    (program : List Int) : Prop
  | console {m : Machine Port.Console} (asked : options.console)
      (created : Machine.create program.toArray (.ofText w.input (prompt w.terminal)) maxSteps
        options.trace = .ok m) (faults : MachineFaults fuel m)
  | script {inputs : List Int} {m : Machine Port.Echo} (scripted : ¬ options.console)
      (values : options.inputs.mapM Given.value? = some inputs)
      (created : Machine.create program.toArray (.ofInputs inputs) maxSteps options.trace = .ok m)
      (faults : MachineFaults fuel m)
  | blanks {m : Hollow} {name text : String} (scripted : ¬ options.console)
      (blank : options.inputs.mapM Given.value? = none)
      (ran : (Hollow.ofProgram program options.inputs).run maxSteps options.trace fuel =
        some (m, .stopped (.fault name text)))

/-- A run of the program in a file, with the options of a command, that stops with a fault. -/
def RunFaults (fuel : Nat) (w : World) (options : RunOptions) (path : String) : Prop :=
  ∃ program maxSteps, Program.load w.ledger.files path = .ok program ∧
    options.maxSteps = maxSteps.map .value ∧ LoadedFaults fuel w options maxSteps program

theorem status?_giveUp (w : World) (message : String) : (w.giveUp message).1.status? ≠ some 2 := by
  simp [World.giveUp, Ending.status?]

theorem status?_refuse (w : World) (why : Refusal) : (w.refuse why).1.status? ≠ some 2 :=
  status?_giveUp w _

theorem status?_reportHalt (w : World) (steps : Nat) (value? : Option String) :
    (reportHalt w steps value?).1.status? ≠ some 2 := by
  unfold reportHalt
  split
  · simp [Ending.status?]
  · exact status?_refuse w _

theorem faulted_of_reportOutcome {w : World} {outcome : Outcome}
    (two : (reportOutcome w outcome).1.status? = some 2) : outcome.state = .faulted := by
  unfold reportOutcome at two
  split at two
  · rename_i fault pc ending
    simp [Outcome.state, ending]
  · exact absurd two (status?_reportHalt _ _ _)

theorem faulted_of_reportRun {σ : Type} {w : World} {options : RunOptions} {m : Machine σ}
    {outcome : Outcome} (two : (reportRun w options m outcome).1.status? = some 2) :
    outcome.state = .faulted := by
  unfold reportRun at two
  dsimp only at two
  split at two
  · split at two
    · exact absurd two (status?_refuse _ _)
    · exact faulted_of_reportOutcome two
  · exact faulted_of_reportOutcome two

/-- A run is reported with `2` only if it stopped with a fault, however much of it was heard. -/
theorem faulted_of_concludeRun {σ : Type} {w : World} {options : RunOptions} {printed : σ → String}
    {report : Report σ} (two : (concludeRun w options printed report).1.status? = some 2) :
    ∃ outcome, report.answer = .ok (some outcome) ∧ outcome.state = .faulted := by
  unfold concludeRun at two
  dsimp only at two
  split at two
  · exact absurd two (status?_refuse _ _)
  · simp [Ending.status?] at two
  · rename_i outcome heard
    -- What is heard of a report has its answer, or is refused and then no outcome at all.
    refine ⟨outcome, ?_, faulted_of_reportRun two⟩
    unfold Report.heardBy at heard
    split at heard
    · cases heard
    · exact heard

theorem faults_of_runOn {σ : Type} [Port σ] {fuel : Nat} {w : World} {options : RunOptions}
    {maxSteps : Option Int} {path : String} {program : List Int} {port : σ} {printed : σ → String}
    {result : Ending × World}
    (ran : runOn (·.run fuel) w options maxSteps path program port printed = some result)
    (two : result.1.status? = some 2) :
    ∃ m, Machine.create program.toArray port maxSteps options.trace = .ok m ∧
      MachineFaults fuel m := by
  unfold runOn at ran
  split at ran
  · cases ran
    exact absurd two (status?_refuse _ _)
  · rename_i m created
    obtain ⟨report, run, rfl⟩ := Option.map_eq_some_iff.mp ran
    obtain ⟨outcome, answer, faulted⟩ := faulted_of_concludeRun two
    exact ⟨m, created, report, outcome, run, answer, faulted⟩

/-! ### Runs with blanks -/

theorem status?_reportHollow {w : World} {options : RunOptions} {m : Hollow}
    {goOn : World → Ending × World} (never : ∀ w, (goOn w).1.status? ≠ some 2) :
    (reportHollow w options m goOn).1.status? ≠ some 2 := by
  unfold reportHollow
  dsimp only
  split
  · split
    · exact status?_refuse _ _
    · simp [Ending.status?]
    · split
      · exact status?_refuse _ _
      · exact never _
  · exact never _

theorem status?_concludeHollowHalt (w : World) (options : RunOptions) (m : Hollow) :
    (concludeHollowHalt w options m).1.status? ≠ some 2 := by
  have reported : ∀ w, (reportHollow w options m fun w =>
      reportHalt w m.steps (cellText? (m.cells[0]?.getD .blank))).1.status? ≠ some 2 :=
    fun w => status?_reportHollow fun w => status?_reportHalt _ _ _
  unfold concludeHollowHalt
  dsimp only
  split
  · exact reported _
  · split
    · exact status?_refuse _ _
    · exact reported _
  · split
    · simp [Ending.status?]
    · exact reported _

/-- A run with blanks is reported with `2` only if it stopped with a fault. -/
theorem stopped_of_concludeHollow {w : World} {options : RunOptions} {m : Hollow}
    {how : Hollow.Progress} (two : (concludeHollow w options m how).1.status? = some 2) :
    ∃ name text, how = .stopped (.fault name text) := by
  unfold concludeHollow at two
  dsimp only at two
  split at two
  · simp [Ending.status?] at two
  · exact absurd two (status?_concludeHollowHalt _ _ _)
  · exact ⟨_, _, rfl⟩
  · exact absurd two (status?_refuse _ _)
  · simp [Ending.status?] at two

/-! ### The three commands -/

theorem faults_of_runLoaded {fuel : Nat} {w : World} {options : RunOptions}
    {maxSteps : Option Int} {path : String} {program : List Int} {result : Ending × World}
    (ran : runLoaded (.within fuel) w options maxSteps path program = some result)
    (two : result.1.status? = some 2) : LoadedFaults fuel w options maxSteps program := by
  unfold runLoaded at ran
  split at ran
  · rename_i asked
    obtain ⟨m, created, faults⟩ := faults_of_runOn ran two
    exact .console asked created faults
  · rename_i scripted
    split at ran
    · rename_i inputs values
      obtain ⟨m, created, faults⟩ := faults_of_runOn ran two
      exact .script scripted values created faults
    · rename_i blank
      unfold runHollow at ran
      split at ran
      · cases ran
        exact absurd two (status?_refuse _ _)
      · obtain ⟨⟨m, how⟩, run, rfl⟩ := Option.map_eq_some_iff.mp ran
        obtain ⟨name, text, rfl⟩ := stopped_of_concludeHollow two
        exact .blanks scripted blank run

theorem runFaults_of_runJob {fuel : Nat} {w : World} {options : RunOptions} {path : String}
    {result : Ending × World} (ran : runJob (.within fuel) w options path = some result)
    (two : result.1.status? = some 2) : RunFaults fuel w options path := by
  unfold runJob withProgram at ran
  split at ran
  · cases ran
    exact absurd two (status?_giveUp _ _)
  · rename_i program loaded
    have faults : ∀ {maxSteps : Option Int},
        runLoaded (.within fuel) (w.log [Program.loadRecord path program]) options maxSteps path
            program =
          some result → LoadedFaults fuel w options maxSteps program := by
      intro maxSteps ran
      -- The log makes no difference to the input that a console reads.
      cases faults_of_runLoaded ran two with
      | console asked created faults => exact .console asked created faults
      | script scripted values created faults => exact .script scripted values created faults
      | blanks scripted blank ran => exact .blanks scripted blank ran
    split at ran
    · rename_i unlimited
      exact ⟨program, none, loaded, unlimited, faults ran⟩
    · rename_i limit limited
      exact ⟨program, some limit, loaded, limited, faults ran⟩
    · cases ran
      cases two

theorem status?_listProgram (w : World) (program : List Int) (start : Int)
    (count : Option (Given Int)) : (listProgram w program start count).1.status? ≠ some 2 := by
  unfold listProgram
  dsimp only
  split
  · split
    · split
      · exact status?_refuse _ _
      · simp [Ending.status?]
    · split
      · exact status?_refuse _ _
      · simp [Ending.status?]
    · simp [Ending.status?]
  · split
    · exact status?_refuse _ _
    · exact status?_giveUp _ _

theorem status?_disasmJob (w : World) (options : DisasmOptions) (path : String) :
    (disasmJob w options path).1.status? ≠ some 2 := by
  unfold disasmJob withProgram
  split
  · exact status?_giveUp _ _
  · split
    · exact status?_listProgram _ _ _ _
    · simp [Ending.status?]

theorem status?_infoJob (w : World) (path : String) : (infoJob w path).1.status? ≠ some 2 := by
  unfold infoJob withProgram
  split
  · exact status?_giveUp _ _
  · dsimp only
    split
    · exact status?_refuse _ _
    · split
      · simp [Ending.status?]
      · exact status?_refuse _ _

/-! ### Sessions -/

theorem session_of_isMistake {arguments : List String}
    (h : (Request.ofArguments arguments).isMistake) (fuel : Nat) (w : World) :
    ∃ w', session fuel arguments w = some (.dismissed 2, w') := by
  unfold session
  cases request : Request.ofArguments arguments with
  | mistake topic message => exact ⟨_, rfl⟩
  | help | version | nothing | job =>
    rw [request] at h
    cases h

theorem session_of_informs {arguments : List String}
    (h : (Request.ofArguments arguments).informs) (fuel : Nat) (w : World) :
    ∃ w', session fuel arguments w = some (.dismissed 0, w') := by
  unfold session
  cases request : Request.ofArguments arguments with
  | help | version => exact ⟨_, rfl⟩
  | mistake | nothing | job =>
    rw [request] at h
    cases h

/-- Only a mistake or a job can end with `2`, and a job only if it runs a program that stops with a
fault. -/
theorem mistake_or_faults_of_session {fuel : Nat} {arguments : List String} {w w' : World}
    {ending : Ending} (served : session fuel arguments w = some (ending, w'))
    (two : ending.status? = some 2) :
    (Request.ofArguments arguments).isMistake ∨
      ∃ globals options path, Request.ofArguments arguments = .job globals (.run options path) ∧
        RunFaults fuel (setUpLog w globals).1 options path := by
  unfold session at served
  cases request : Request.ofArguments arguments with
  | help | version | nothing =>
    rw [request] at served
    cases served
    cases two
  | mistake topic message => exact .inl rfl
  | job globals job =>
    rw [request] at served
    unfold serve at served
    dsimp only at served
    rcases setUp : setUpLog w globals with ⟨v, _ | why⟩
    · rw [setUp] at served
      cases job with
      | run options path =>
        refine .inr ⟨globals, options, path, rfl, ?_⟩
        rw [setUp]
        exact runFaults_of_runJob served two
      | disasm options path =>
        have same : disasmJob v options path = (ending, w') := Option.some.inj served
        exact absurd (same ▸ two) (status?_disasmJob v options path)
      | info path =>
        have same : infoJob v path = (ending, w') := Option.some.inj served
        exact absurd (same ▸ two) (status?_infoJob v path)
    · rw [setUp] at served
      cases served
      cases two

/-- When a session ends with `2`, for every command line, every world and any number of steps. It
does so only if the command line has an error, or if a machine was run and stopped with a fault.
Every error in a command line ends a session with `2`, unless there is a call for help in it that
comes first and ends the session with `0`. A command line without a command and without an error
ends it with `1`. -/
theorem status_two (fuel : Nat) (arguments : List String) (w : World) :
    (∀ ending w', session fuel arguments w = some (ending, w') → ending.status? = some 2 →
      UsageError arguments ∨
        ∃ globals options path, Request.ofArguments arguments = .job globals (.run options path) ∧
          RunFaults fuel (setUpLog w globals).1 options path) ∧
    (UsageError arguments → ∃ ending w', session fuel arguments w = some (ending, w') ∧
      (ending.status? = some 2 ∨ CallsForHelp arguments ∧ ending.status? = some 0)) ∧
    (∀ tokens, Invokes arguments tokens none → ¬ UsageError arguments →
      ¬ CallsForHelp arguments → ∃ ending w', session fuel arguments w = some (ending, w') ∧
        ending.status? = some 1) := by
  refine ⟨?_, ?_, ?_⟩
  · intro ending w' served two
    exact (mistake_or_faults_of_session served two).imp_left usageError_of_isMistake
  · intro error
    rcases request_of_usageError error with mistake | ⟨help, informs⟩
    · obtain ⟨w', served⟩ := session_of_isMistake mistake fuel w
      exact ⟨_, w', served, .inl rfl⟩
    · obtain ⟨w', served⟩ := session_of_informs informs fuel w
      exact ⟨_, w', served, .inr ⟨help, rfl⟩⟩
  · intro tokens scanned right silent
    have served : session fuel arguments w =
        some (.finished 1, { w with output := w.output ++ Topic.toolkit.help }) := by
      rw [session, ofArguments_of_no_command scanned right silent]
      rfl
    exact ⟨_, _, served, rfl⟩

/-- A session for a command without its program ends with `2`, although no machine was run. -/
theorem status_two_without_program :
    let w : World := ⟨.ofFiles ⟨[], []⟩ ⟨"", "", ""⟩, "", false, "", ""⟩
    UsageError ["run"] ∧ ¬ CallsForHelp ["run"] ∧
      ∃ ending w', session 0 ["run"] w = some (ending, w') ∧ ending.status? = some 2 := by
  intro w
  have scanned : Invokes ["run"] [] (some ⟨"run", []⟩) :=
    ⟨⟨[("run", .plain)], none⟩, rfl, scanCommand_plain⟩
  have inner : Scanned runSwitches [] [] := ⟨⟨[], none⟩, rfl, by simp [scanOne]⟩
  have error : UsageError ["run"] :=
    .command scanned (Misread.noProgram inner (by simp) : Misread runSwitches _ [])
  have silent : ¬ CallsForHelp ["run"] := by
    rintro (⟨scanned', t, found, -⟩ | ⟨scanned', help⟩)
    · obtain ⟨rfl, -⟩ := scanned.unique scanned'
      cases found
    · obtain ⟨-, same⟩ := scanned.unique scanned'
      cases same
      obtain ⟨tokens, inner', t, found, -⟩ := (help : Consulted runSwitches _ [])
      cases inner.unique inner'
      cases found
  obtain ⟨ending, w', served, two | ⟨help, -⟩⟩ := (status_two 0 ["run"] w).2.1 error
  · exact ⟨error, silent, ending, w', served, two⟩
  · exact absurd help silent

end Intcode.Toolkit
