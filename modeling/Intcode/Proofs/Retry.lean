import Intcode.Proofs.Ledger

/-!
# A logger is set up once

A set-up attaches the console before it opens the file. If the file cannot be opened, the console
stays, and with it the logger counts as set up: no later attempt changes it, and its records are
never written to any file. A set-up that does open its file writes all records from the level of
details on to the end of it, from then on and whatever else is asked for.

## Main results

* `Log.Ledger.setUp_fails_iff` — when a set-up fails
* `Log.Ledger.failed_setUp_sticks` — what becomes of a set-up that fails, and of one that does not
-/

namespace Intcode.Log.Ledger

open Files (Tree)

variable {l : Ledger} {name : String} {options : Options}

/-- A set-up fails if the logger has no handlers and its file cannot be opened. -/
theorem setUp_fails_iff (l : Ledger) (name : String) (options : Options) (e : Files.Error) :
    (∃ l', l.setUp name options = (l', some e)) ↔ (l.logger (canonical name)).handlers = [] ∧
      ∃ path files, l.filePath? name options = some path ∧ l.files.Opens path files (.error e) := by
  constructor
  · rintro ⟨l', eq⟩
    cases setsUp_iff.mpr eq with
    | failed unset asked opens => exact ⟨unset, _, _, asked, opens⟩
  · rintro ⟨unset, path, files, asked, opens⟩
    exact ⟨_, setsUp_iff.mp (.failed unset asked opens)⟩

/-- After a set-up the name is entered, and stays so. -/
theorem SetsUp.entered {l' : Ledger} {error? : Option Files.Error}
    (h : SetsUp l name options l' error?) (calls : List Call) :
    canonical name = rootName ∨ (l'.serveAll calls).names.isLogger (canonical name) := by
  refine isLogger_serveAll ?_ calls
  rw [h.names]
  exact Register.isLogger_enter_self _ _

/-! ### Records of a logger that was set up -/

section Own

variable {c : String} {consoleLevel : Int} {place? : Option (List String)}

/-- A record that a logger which was set up hears goes to its own file. -/
theorem files_write_self (active : l.logger c = .ofSetUp consoleLevel place?) (named : c ≠ "")
    {r : Record} (own : r.logger = c) :
    (l.write r).files =
      if (l.enter c).hears c r.level = true ∧ Level.debug ≤ r.level then
        place?.elim l.files fun place => l.files.append place (l.line r).toUTF8
      else l.files := by
  subst own
  obtain ⟨after, line⟩ := exists_lineage_eq_cons (l.names.enter r.logger) named
  rw [← List.nil_append (r.logger :: after)] at line
  exact files_write_of_first line (List.forall_mem_nil _) active

/-- Without a file, a logger that was set up writes none, at any level. -/
theorem files_log_of_bare (active : l.logger c = .ofSetUp consoleLevel none) (named : c ≠ "")
    {r : Record} (own : r.logger = c) : (l.log r).1.files = l.files := by
  cases nameable : Level.isNameable r.level with
  | true =>
    rw [log_of_isNameable l nameable, files_write_self active named own]
    exact ite_self l.files
  | false => exact files_log_of_not_isNameable l nameable

/-- With a file, it writes all records from the level of details on to the end of it. -/
theorem read_log_of_place {place : List String} {path : Files.Path} {content : ByteArray}
    (active : l.logger c = .ofSetUp consoleLevel (some place)) (named : c ≠ "")
    (recalls : l.Recalls c (Level.debug ≤ ·))
    (found : l.files.locate path = .ok (.taken place (.file content)))
    {r : Record} (own : r.logger = c) (loud : Level.debug ≤ r.level)
    (nameable : Level.isNameable r.level) :
    ∃ l', l.log r = (l', none) ∧
      l'.files.read path = .ok (content ++ (l.line r).toUTF8) := by
  refine ⟨l.write r, log_of_isNameable l nameable, ?_⟩
  have heard : (l.enter c).hears c r.level = true := by
    refine (Recalls.hears_iff (l := l.enter c) (recalls.of_answers rfl) ?_).mpr loud
    rw [effectiveLevel_of_set (l := l.enter c) active named]
  have written := files_write_self active named own
  rw [if_pos ⟨heard, loud⟩] at written
  rw [written]
  exact Tree.read_of_locate (Tree.locate_append found _)

end Own

/-! ### Set-ups that fail and set-ups that do not -/

theorem SetsUp.logger_failed {l' : Ledger} {e : Files.Error}
    (h : SetsUp l name options l' (some e)) :
    l'.logger (canonical name) = .ofSetUp options.consoleLevel none := by
  cases h with
  | failed => exact logger_putLogger_self _ _ _

/-- What becomes of a logger without handlers when it is set up.

The set-up fails if a file is asked for that cannot be opened. It has attached the console by then,
which stays: no attempt to set up the logger again does anything, however good its file, and the
logger's records are never written to a file, whatever else is asked for.

If the file can be opened, the set-up succeeds and attaches it. From then on, whatever else is asked
for, every record of the logger from the level of details on, if its level can be written, is taken
down at the end of that file, which is found by its path from the root. -/
theorem failed_setUp_sticks (l : Ledger) (name : String) (options : Options)
    (unset : (l.logger (canonical name)).handlers = []) :
    (∀ e, (∃ l₁, l.setUp name options = (l₁, some e)) ↔
      ∃ path files, l.filePath? name options = some path ∧ l.files.Opens path files (.error e)) ∧
    (∀ l₁ e, l.setUp name options = (l₁, some e) →
      (l₁.logger (canonical name)).handlers = [⟨.console, options.consoleLevel⟩] ∧
      ∀ calls, let l₂ := l₁.serveAll calls
        (∀ retry, l₂.setUp name retry = (l₂, none)) ∧
        ∀ level origin message,
          (l₂.log ⟨level, canonical name, origin, message⟩).1.files = l₂.files) ∧
    (∀ path files place, l.filePath? name options = some path →
      l.files.Opens path files (.ok place) →
      ∃ l₁, l.setUp name options = (l₁, none) ∧
        (l₁.logger (canonical name)).handlers =
          [⟨.console, options.consoleLevel⟩, ⟨.file place, Level.debug⟩] ∧
        ∀ calls level origin message, Level.debug ≤ level → Level.isNameable level →
          let l₂ := l₁.serveAll calls
          let r : Record := ⟨level, canonical name, origin, message⟩
          ∃ l₃ content, l₂.log r = (l₃, none) ∧
            l₂.files.read (l.files.absolute path) = .ok content ∧
            l₃.files.read (l.files.absolute path) = .ok (content ++ (l₂.line r).toUTF8)) := by
  have named := canonical_ne_empty name
  refine ⟨fun e => ?_, fun l₁ e fails => ?_, fun path files place asked opens => ?_⟩
  · rw [setUp_fails_iff]
    exact and_iff_right unset
  · have done := setsUp_iff.mpr fails
    have active := done.logger_failed
    have set := handlers_ne_nil active
    refine ⟨by rw [active]; rfl, fun calls => ⟨fun retry => ?_, fun level origin message => ?_⟩⟩
    · refine setUp_of_set ?_ (done.entered calls) retry
      rwa [logger_serveAll set calls]
    · have later := (logger_serveAll set calls).trans active
      exact files_log_of_bare later named rfl
  · have done : SetsUp l name options _ none := .opened unset asked opens
    refine ⟨_, setsUp_iff.mp done, ?_⟩
    obtain ⟨files', place', content, opens', active, found⟩ := done.of_asked unset asked
    obtain ⟨rfl, ⟨⟩⟩ := opens.unique opens'
    refine ⟨by rw [active]; rfl, fun calls level origin message loud nameable => ?_⟩
    have recalls : Recalls _ (canonical name) (Level.debug ≤ ·) :=
      done.recalls (fun set => absurd unset set) fun _ => by decide
    -- The logger stays as it is, knows what it hears, and the path goes on leading to its file.
    have later := (logger_serveAll (handlers_ne_nil active) calls).trans active
    have hears := recalls.serveAll active named calls
    rw [done.keeps.absolute] at found
    obtain ⟨more, found⟩ := (keeps_serveAll _ calls).locate found
    obtain ⟨l₃, logged, written⟩ := read_log_of_place later named hears found
      (r := ⟨level, canonical name, origin, message⟩) rfl loud nameable
    exact ⟨l₃, _, logged, Tree.read_of_locate found, written⟩

/-- The file of a first attempt lies below another file. A second attempt with a good file does
nothing, and the next record is written nowhere; as a first attempt it would have been written. -/
theorem failed_setUp_sticks_below_file :
    let l : Ledger := .ofFiles ⟨[(["a.log"], .file .empty)], []⟩ ⟨"now", "1", ""⟩
    let bad : Options := ⟨Level.warning, some "a.log/b.log", none⟩
    let good : Options := ⟨Level.warning, some "c.log", none⟩
    let r : Record := ⟨Level.info, "t", "emit", "m"⟩
    (∃ l₁, l.setUp "t" bad = (l₁, some (.blocked .exists "a.log")) ∧
      (l₁.logger "t").handlers = [⟨.console, Level.warning⟩] ∧ l₁.setUp "t" good = (l₁, none) ∧
      (l₁.log r).1.files = l₁.files) ∧
    ∃ l₁ l₂ content, l.setUp "t" good = (l₁, none) ∧ l₁.log r = (l₂, none) ∧
      l₂.files.read (.ofString "/c.log") =
        .ok (content ++ "now | INFO    | t | emit:1 | m\n".toUTF8) := by
  intro l bad good r
  have unset : (l.logger (canonical "t")).handlers = [] := rfl
  obtain ⟨-, fails, -⟩ := failed_setUp_sticks l "t" bad unset
  obtain ⟨-, -, opens⟩ := failed_setUp_sticks l "t" good unset
  constructor
  · obtain ⟨l₁, failed⟩ : ∃ l₁, l.setUp "t" bad = (l₁, some (.blocked .exists "a.log")) :=
      ⟨_, Prod.ext rfl (by decide +kernel)⟩
    obtain ⟨console, stuck⟩ := fails _ _ failed
    obtain ⟨again, silent⟩ := stuck []
    exact ⟨l₁, failed, console, again good, silent Level.info "emit" "m"⟩
  · have root : l.files.absolute (.ofString "c.log") = .ofString "/c.log" := by decide +kernel
    have free : l.files.openAppend (l.files.absolute (.ofString "c.log")) =
        .ok (l.files.put ["c.log"] (.file .empty), ["c.log"]) := by
      rw [root]
      rfl
    obtain ⟨l₁, done, -, written⟩ := opens (.ofString "c.log") _ ["c.log"] rfl (.opened rfl free)
    rw [root] at written
    obtain ⟨l₂, content, logged, -, read⟩ :=
      written [] Level.info "emit" "m" (by decide) (by decide +kernel)
    refine ⟨l₁, l₂, content, done, logged, ?_⟩
    have line : l₁.line r = "now | INFO    | t | emit:1 | m\n" := by
      rw [Ledger.line, (setsUp_iff.mpr done).clock]
      decide +kernel
    rw [← line]
    exact read

end Intcode.Log.Ledger
