import Intcode.Log.Ledger
import Intcode.Proofs.Register

/-!
# What a ledger takes down

A record goes to the first logger on the way up that was set up, and no further. So it is written at
most once, at the end of that logger's file if there is one. A logger is set up once: whatever is
asked for afterwards, it stays as it is, and its file goes on being found at its path. What it
remembers of the levels it hears stays right as well.

## Main definitions

* `Log.Logger.ofSetUp` — a logger that was set up
* `Log.Ledger.Recalls` — what a logger remembers is right
* `Log.Ledger.SetsUp` — what a set-up can do
* `Log.Call`, `Log.Ledger.serve` — set-ups and records, and what the ledger makes of them

## Main results

* `Log.Ledger.files_write_of_first` — where a record is written
* `Log.Ledger.setsUp` — a set-up does nothing else
* `Log.Ledger.setUp_of_set` — a logger with handlers is not set up again
* `Log.Ledger.logger_serveAll`, `Log.Ledger.keeps_serveAll`, `Log.Ledger.Recalls.serveAll` — what
  stays, whatever is asked for
-/

namespace Intcode.Log

open Files (Tree)

/-- A logger that was set up, with a console that takes the records from a level on, and perhaps a
file that takes all of them. -/
def Logger.ofSetUp (consoleLevel : Int) (place? : Option (List String)) : Logger :=
  { level := Level.debug
    propagates := false
    handlers := ⟨.console, consoleLevel⟩ ::
      (place?.map fun place => ⟨.file place, Level.debug⟩).toList }

/-- A logger that has not been touched and is not the root. -/
def Logger.idle : Logger := ⟨0, true, []⟩

/-- The place of the file that a handler writes. -/
def Handler.place? (h : Handler) : Option (List String) :=
  match h.sink with
  | .console => none
  | .file place => some place

namespace Ledger

variable {l : Ledger} {r : Record} {name c : String} {options : Options}

/-! ### Loggers by their names -/

theorem logger_putLogger_self (l : Ledger) (name : String) (g : Logger) :
    (l.putLogger name g).logger name = g := by
  simp [logger, putLogger]

theorem logger_putLogger_of_ne (l : Ledger) (ne : c ≠ name) (g : Logger) :
    (l.putLogger name g).logger c = l.logger c := by
  unfold logger putLogger
  rw [find?_replace_of_ne _ ne]

theorem logger_congr {l' : Ledger} (same : l'.loggers = l.loggers) (c : String) :
    l'.logger c = l.logger c := by
  rw [logger, same, logger]

theorem putLogger_putLogger (l : Ledger) (name : String) (g g' : Logger) :
    (l.putLogger name g).putLogger name g' = l.putLogger name g' := by
  unfold putLogger
  simp [List.filter_filter]

/-! ### What loggers remember -/

section Answers

variable {n : String} {level : Int} {heard : Int → Prop}

theorem lookup_ask (l : Ledger) (name : String) (level : Int) (key : String × Int) :
    (l.ask name level).answers.lookup key =
      if key = (name, level) then some (l.hears name level) else l.answers.lookup key := by
  unfold ask
  cases known : l.answers.lookup (name, level) with
  | some answer =>
    by_cases same : key = (name, level)
    · simp [same, known, hears]
    · simp [same]
  | none =>
    by_cases same : key = (name, level)
    · simp [same, List.lookup_cons_self]
    · simp [same, List.lookup_cons, beq_eq_false_iff_ne.mpr same]

theorem ask_of_known {answer : Bool} (known : l.answers.lookup (name, level) = some answer) :
    l.ask name level = l := by
  rw [ask, known]

theorem ask_ask (l : Ledger) (name : String) (level : Int) :
    (l.ask name level).ask name level = l.ask name level := by
  have known := lookup_ask l name level (name, level)
  rw [if_pos rfl] at known
  exact ask_of_known known

/-- Asking a logger changes nothing but what it remembers. -/
theorem ask_eq (l : Ledger) (name : String) (level : Int) :
    l.ask name level = { l with answers := (l.ask name level).answers } := by
  unfold ask
  split <;> rfl

theorem effectiveLevel_ask (l : Ledger) (name : String) (level : Int) (n : String) :
    (l.ask name level).effectiveLevel n = l.effectiveLevel n := by
  rw [ask_eq]
  rfl

/-- A logger that is asked answers as before. -/
theorem hears_ask (l : Ledger) (name : String) (level : Int) (n : String) (k : Int) :
    (l.ask name level).hears n k = l.hears n k := by
  rw [hears, lookup_ask, effectiveLevel_ask]
  split
  · rename_i same
    cases same
    rfl
  · rfl

/-- All that the logger of a name remembers is right by the rule `heard`. -/
def Recalls (l : Ledger) (n : String) (heard : Int → Prop) : Prop :=
  ∀ level answer, l.answers.lookup (n, level) = some answer → (answer = true ↔ heard level)

theorem recalls_of_forgotten (forgotten : l.answers = []) : l.Recalls n heard := by
  intro level answer found
  rw [forgotten] at found
  cases found

theorem Recalls.of_answers {l' : Ledger} (h : l.Recalls n heard) (same : l'.answers = l.answers) :
    l'.Recalls n heard := by
  unfold Recalls
  rw [same]
  exact h

/-- By what it remembers or by where it stands, a logger answers right. -/
theorem Recalls.hears_iff (h : l.Recalls n heard)
    (right : l.effectiveLevel n ≤ level ↔ heard level) :
    l.hears n level = true ↔ heard level := by
  unfold hears
  cases found : l.answers.lookup (n, level) with
  | some answer => exact h level answer found
  | none => rw [Option.getD_none, decide_eq_true_iff, right]

theorem Recalls.ask (h : l.Recalls n heard)
    (right : name = n → (l.effectiveLevel n ≤ level ↔ heard level)) :
    (l.ask name level).Recalls n heard := by
  intro k answer found
  rw [lookup_ask] at found
  split at found
  · -- The answer given just now is the one that is remembered from here on.
    rename_i same
    cases same
    cases found
    exact h.hears_iff (right rfl)
  · exact h k answer found

end Answers

/-! ### Records -/

/-- A record that is taken down enters the name of its logger and asks it, and changes nothing else
but the console and the files. -/
theorem write_eq (l : Ledger) (r : Record) :
    ∃ console files, l.write r =
      { l.enter r.logger with
        answers := ((l.enter r.logger).ask r.logger r.level).answers, console, files } := by
  -- A handler adds a line to the console or to a file, and does nothing else.
  have sent : ∀ (hs : List Handler) (l : Ledger),
      ∃ console files, hs.foldl (send r) l = { l with console, files } := by
    intro hs
    induction hs with
    | nil => exact fun l => ⟨l.console, l.files, rfl⟩
    | cons h hs ih =>
      intro l
      obtain ⟨console, files, eq⟩ := ih (send r l h)
      refine ⟨console, files, ?_⟩
      rw [List.foldl_cons, eq, send]
      split <;> rfl
  obtain ⟨console, files, eq⟩ := sent
    (((l.enter r.logger).ask r.logger r.level).receivers r.logger r.level)
    ((l.enter r.logger).ask r.logger r.level)
  refine ⟨console, files, ?_⟩
  rw [write, eq, ask_eq]

theorem loggers_write (l : Ledger) (r : Record) : (l.write r).loggers = l.loggers := by
  obtain ⟨console, files, eq⟩ := write_eq l r
  rw [eq]
  rfl

theorem names_write (l : Ledger) (r : Record) : (l.write r).names = l.names.enter r.logger := by
  obtain ⟨console, files, eq⟩ := write_eq l r
  rw [eq]
  rfl

theorem clock_write (l : Ledger) (r : Record) : (l.write r).clock = l.clock := by
  obtain ⟨console, files, eq⟩ := write_eq l r
  rw [eq]
  rfl

theorem answers_write (l : Ledger) (r : Record) :
    (l.write r).answers = ((l.enter r.logger).ask r.logger r.level).answers := by
  obtain ⟨console, files, eq⟩ := write_eq l r
  rw [eq]

/-- The files after some handlers have sent a record are those with its line at the end of each file
that they write. -/
theorem files_foldl_send (r : Record) (hs : List Handler) (l : Ledger) :
    (hs.foldl (send r) l).files =
      (hs.filterMap Handler.place?).foldl (fun t place => t.append place (l.line r).toUTF8)
        l.files := by
  induction hs generalizing l with
  | nil => rfl
  | cons h hs ih =>
    rw [List.foldl_cons, ih]
    cases sink : h.sink with
    | console =>
      have none : h.place? = none := by rw [Handler.place?, sink]
      rw [List.filterMap_cons_none none, send, sink]
      rfl
    | file place =>
      have some : h.place? = some place := by rw [Handler.place?, sink]
      rw [List.filterMap_cons_some some, List.foldl_cons, send, sink]
      rfl

/-- A logger that is asked sends records to the same handlers as before. -/
theorem receivers_ask (l : Ledger) (name : String) (level : Int) (n : String) (k : Int) :
    (l.ask name level).receivers n k = l.receivers n k := by
  have along : ∀ answers names, handlersAlong { l with answers } names = l.handlersAlong names := by
    intro answers names
    induction names with
    | nil => rfl
    | cons name above ih =>
      rw [handlersAlong, handlersAlong, ih]
      rfl
  rw [receivers, hears_ask, ask_eq, along, receivers]

theorem files_write (l : Ledger) (r : Record) :
    (l.write r).files =
      (((l.enter r.logger).receivers r.logger r.level).filterMap Handler.place?).foldl
        (fun t place => t.append place (l.line r).toUTF8) l.files := by
  rw [← receivers_ask _ r.logger r.level, write, files_foldl_send, ask_eq]
  rfl

/-- A record that reaches no handler is written nowhere. -/
theorem files_write_of_unheard (unheard : (l.enter r.logger).receivers r.logger r.level = []) :
    (l.write r).files = l.files := by
  rw [files_write, unheard]
  rfl

theorem keeps_write (l : Ledger) (r : Record) : Tree.Keeps l.files (l.write r).files := by
  have written : ∀ (places : List (List String)) (t : Tree),
      Tree.Keeps t (places.foldl (fun t place => t.append place (l.line r).toUTF8) t) := by
    intro places
    induction places with
    | nil => exact Tree.Keeps.refl
    | cons place places ih => exact fun t => (Tree.keeps_append t place _).trans (ih _)
  rw [files_write]
  exact written _ _

/-! ### The first logger on the way up that was set up -/

section First

variable {before after : List String} {consoleLevel level : Int} {place? : Option (List String)}

theorem handlers_ne_nil (active : l.logger c = .ofSetUp consoleLevel place?) :
    (l.logger c).handlers ≠ [] := by
  rw [active]
  exact List.cons_ne_nil _ _

/-- A record goes no further than to the first logger that was set up. -/
theorem handlersAlong_of_first (idle : ∀ n ∈ before, l.logger n = .idle)
    (active : l.logger c = .ofSetUp consoleLevel place?) :
    l.handlersAlong (before ++ c :: after) = (Logger.ofSetUp consoleLevel place?).handlers := by
  induction before with
  | nil =>
    rw [List.nil_append, handlersAlong, active]
    exact List.append_nil _
  | cons n before ih =>
    obtain ⟨first, idle⟩ := List.forall_mem_cons.mp idle
    rw [List.cons_append, handlersAlong, first]
    exact ih idle

/-- Below it, records are heard from the level of details on. -/
theorem effectiveLevel_of_first (line : l.names.lineage name = before ++ c :: after)
    (idle : ∀ n ∈ before, l.logger n = .idle)
    (active : l.logger c = .ofSetUp consoleLevel place?) :
    l.effectiveLevel name = Level.debug := by
  have silent : ∀ level ∈ before.map fun n => (l.logger n).level, ¬ decide (level ≠ 0) = true := by
    intro level found
    obtain ⟨n, member, rfl⟩ := List.mem_map.mp found
    simp [idle n member, Logger.idle]
  unfold effectiveLevel
  rw [line, List.map_append, List.map_cons, List.find?_append, List.find?_eq_none.mpr silent,
    active]
  rfl

/-- The file of a logger takes all records from the level of details on. -/
theorem filterMap_place? (consoleLevel : Int) (place? : Option (List String)) (level : Int) :
    ((Logger.ofSetUp consoleLevel place?).handlers.filter fun h => h.level ≤ level).filterMap
      Handler.place? = if Level.debug ≤ level then place?.toList else [] := by
  have console : Handler.place? ⟨.console, consoleLevel⟩ = none := rfl
  have file : ∀ place, Handler.place? ⟨.file place, Level.debug⟩ = some place := fun _ => rfl
  cases place? <;> by_cases low : consoleLevel ≤ level <;> by_cases loud : Level.debug ≤ level <;>
    simp [Logger.ofSetUp, low, loud, console, file]

/-- A record that is heard is written at the end of the file of the first logger on the way up that
was set up, if there is one, and nowhere else. -/
theorem files_write_of_first
    (line : (l.names.enter r.logger).lineage r.logger = before ++ c :: after)
    (idle : ∀ n ∈ before, l.logger n = .idle)
    (active : l.logger c = .ofSetUp consoleLevel place?) :
    (l.write r).files =
      if (l.enter r.logger).hears r.logger r.level = true ∧ Level.debug ≤ r.level then
        place?.elim l.files fun place => l.files.append place (l.line r).toUTF8
      else l.files := by
  have reached : (l.enter r.logger).handlersAlong ((l.enter r.logger).names.lineage r.logger) =
      (Logger.ofSetUp consoleLevel place?).handlers := by
    rw [enter, line]
    exact handlersAlong_of_first idle active
  rw [files_write, receivers]
  by_cases heard : (l.enter r.logger).hears r.logger r.level = true
  · rw [if_pos heard, reached, filterMap_place?]
    by_cases loud : Level.debug ≤ r.level
    · rw [if_pos loud, if_pos ⟨heard, loud⟩]
      cases place? <;> rfl
    · rw [if_neg loud, if_neg fun both => loud both.2]
      rfl
  · rw [if_neg heard, if_neg fun both => heard both.1]
    rfl

end First

/-- A logger is the first one on the way up from it. -/
theorem exists_lineage_eq_cons (names : Register) (named : c ≠ "") :
    ∃ after, names.lineage c = c :: after := by
  unfold Register.lineage
  obtain ⟨k, eq⟩ := Nat.exists_eq_add_one_of_ne_zero
    (Nat.pos_iff_ne_zero.mp (length_pos_of_named named))
  rw [eq, Register.lineageWithin]
  split
  · rename_i root
    exact ⟨[], by rw [root]⟩
  · exact ⟨_, rfl⟩

/-- A logger that was set up hears from the level of details on, wherever it stands. -/
theorem effectiveLevel_of_set {consoleLevel : Int} {place? : Option (List String)}
    (active : l.logger c = .ofSetUp consoleLevel place?) (named : c ≠ "") :
    l.effectiveLevel c = Level.debug := by
  obtain ⟨after, line⟩ := exists_lineage_eq_cons l.names named
  rw [← List.nil_append (c :: after)] at line
  exact effectiveLevel_of_first line (List.forall_mem_nil _) active

/-! ### Records of any level -/

theorem canonical_ne_empty (name : String) : canonical name ≠ "" := by
  unfold canonical
  split
  · decide
  · assumption

theorem enter_of_isLogger (entered : c = rootName ∨ l.names.isLogger c) : l.enter c = l := by
  rw [enter, Register.enter_of_isLogger entered]

/-- A logger that was asked about a record takes it down as if it had not been. -/
theorem write_ask (l : Ledger) (r : Record) :
    ((l.enter r.logger).ask r.logger r.level).write r = l.write r := by
  have entered : ((l.enter r.logger).ask r.logger r.level).enter r.logger =
      (l.enter r.logger).ask r.logger r.level := by
    refine enter_of_isLogger ?_
    rw [ask_eq]
    exact Register.isLogger_enter_self _ _
  unfold write
  rw [entered, ask_ask]

/-- A record of a level with a name is taken down. -/
theorem log_of_isNameable (l : Ledger) (named : Level.isNameable r.level) :
    l.log r = (l.write r, none) := by
  unfold log
  dsimp only
  rw [named, if_neg (by simp), write_ask]

/-- A record of a level without a name is refused or heard by nobody. -/
theorem files_log_of_not_isNameable (l : Ledger) (unnamed : Level.isNameable r.level = false) :
    (l.log r).1.files = l.files := by
  unfold log
  dsimp only
  rw [unnamed, hears_ask, Bool.not_false, Bool.and_true]
  split
  · rw [ask_eq]
    rfl
  · rename_i unheard
    have none : (l.enter r.logger).receivers r.logger r.level = [] := by
      rw [receivers, if_neg unheard]
    rw [write_ask, files_write_of_unheard none]

/-! ### Setting up -/

/-- What a set-up can do. A logger with handlers is left alone. Any other one gets its console
first, and then its file if one is asked for; when the file cannot be opened, the console stays. -/
inductive SetsUp (l : Ledger) (name : String) (options : Options) :
    Ledger → Option Files.Error → Prop
  | kept (set : (l.logger (canonical name)).handlers ≠ []) :
      SetsUp l name options (l.enter (canonical name)) none
  | bare (unset : (l.logger (canonical name)).handlers = [])
      (unasked : l.filePath? name options = none) :
      SetsUp l name options
        ((l.enter (canonical name)).configure (canonical name) (.ofSetUp options.consoleLevel none))
        none
  | failed {path : Files.Path} {files : Tree} {e : Files.Error}
      (unset : (l.logger (canonical name)).handlers = [])
      (asked : l.filePath? name options = some path) (opens : l.files.Opens path files (.error e)) :
      SetsUp l name options
        { (l.enter (canonical name)).configure (canonical name)
            (.ofSetUp options.consoleLevel none) with files }
        (some e)
  | opened {path : Files.Path} {files : Tree} {place : List String}
      (unset : (l.logger (canonical name)).handlers = [])
      (asked : l.filePath? name options = some path)
      (opens : l.files.Opens path files (.ok place)) :
      SetsUp l name options
        (write { (l.enter (canonical name)).configure (canonical name)
            (.ofSetUp options.consoleLevel (some place)) with files }
          ⟨Level.info, canonical name, "setup_logging", "Log file: " ++ path.text⟩)
        none

theorem openFile_of_error {path : Files.Path} {files : Tree} {e : Files.Error}
    (opens : l.files.Opens path files (.error e)) (name : String) :
    l.openFile name path = ({ l with files }, some e) := by
  unfold openFile
  cases opens with
  | unmade made => rw [made]
  | unopened made opened =>
    rw [made]
    dsimp only
    rw [opened]

theorem openFile_of_ok {path : Files.Path} {files : Tree} {place : List String}
    (opens : l.files.Opens path files (.ok place)) (name : String) :
    l.openFile name path =
      ((addHandler { l with files } name ⟨.file place, Level.debug⟩).write
        ⟨Level.info, name, "setup_logging", "Log file: " ++ path.text⟩, none) := by
  unfold openFile
  cases opens with
  | opened made opened =>
    rw [made]
    dsimp only
    rw [opened]

theorem addHandler_configure (l : Ledger) (files : Tree) (consoleLevel : Int) (name : String)
    (place : List String) :
    addHandler { l.configure name (.ofSetUp consoleLevel none) with files } name
        ⟨.file place, Level.debug⟩ =
      { l.configure name (.ofSetUp consoleLevel (some place)) with files } := by
  have known : logger { l.configure name (.ofSetUp consoleLevel none) with files } name =
      .ofSetUp consoleLevel none := logger_putLogger_self l name _
  unfold addHandler
  dsimp only
  rw [known]
  exact congrArg (fun l : Ledger => { l with files, answers := [] })
    (putLogger_putLogger l name _ _)

/-- A set-up does one of these things. -/
theorem setsUp (l : Ledger) (name : String) (options : Options) :
    SetsUp l name options (l.setUp name options).1 (l.setUp name options).2 := by
  unfold setUp
  dsimp only
  by_cases unset : (l.logger (canonical name)).handlers = []
  · have empty : ((l.enter (canonical name)).logger (canonical name)).handlers.isEmpty :=
      List.isEmpty_iff.mpr unset
    have console : (⟨Level.debug, false, [⟨.console, options.consoleLevel⟩]⟩ : Logger) =
        .ofSetUp options.consoleLevel none := rfl
    rw [if_pos empty, console]
    -- The path depends on the clock only, so that it is the same after the console was added.
    have same : filePath? ((l.enter (canonical name)).configure (canonical name)
        (.ofSetUp options.consoleLevel none)) name options = l.filePath? name options := rfl
    cases asked : l.filePath? name options with
    | none =>
      rw [same, asked]
      exact .bare unset asked
    | some path =>
      rw [same, asked]
      obtain ⟨files, result, opens⟩ := Files.Tree.exists_opens ((l.enter (canonical name)).configure
        (canonical name) (.ofSetUp options.consoleLevel none)).files path
      dsimp only
      cases result with
      | error e =>
        rw [openFile_of_error opens]
        exact .failed unset asked opens
      | ok place =>
        rw [openFile_of_ok opens, addHandler_configure]
        exact .opened unset asked opens
  · have full : ¬ ((l.enter (canonical name)).logger (canonical name)).handlers.isEmpty :=
      fun empty => unset (List.isEmpty_iff.mp empty)
    rw [if_neg full]
    exact .kept unset

/-- A logger without handlers is set up in one way only, according to its file. -/
theorem SetsUp.unique {l' l'' : Ledger} {a b : Option Files.Error}
    (h : SetsUp l name options l' a) (h' : SetsUp l name options l'' b) : l' = l'' ∧ a = b := by
  have same : ∀ {p q : Files.Path} {t t' : Tree} {x y : Except Files.Error (List String)},
      l.filePath? name options = some p → l.filePath? name options = some q →
      l.files.Opens p t x → l.files.Opens q t' y → p = q ∧ t = t' ∧ x = y := by
    intro p q t t' x y asked asked' opens opens'
    obtain rfl : p = q := Option.some.inj (asked.symm.trans asked')
    exact ⟨rfl, opens.unique opens'⟩
  cases h with
  | kept set =>
    cases h' with
    | kept => exact ⟨rfl, rfl⟩
    | bare unset | failed unset | opened unset => exact absurd unset set
  | bare unset unasked =>
    cases h' with
    | kept set => exact absurd unset set
    | bare => exact ⟨rfl, rfl⟩
    | failed _ asked | opened _ asked => cases unasked.symm.trans asked
  | failed unset asked opens =>
    cases h' with
    | kept set => exact absurd unset set
    | bare _ unasked => cases unasked.symm.trans asked
    | failed _ asked' opens' =>
      obtain ⟨-, rfl, eq⟩ := same asked asked' opens opens'
      cases eq
      exact ⟨rfl, rfl⟩
    | opened _ asked' opens' => cases (same asked asked' opens opens').2.2
  | opened unset asked opens =>
    cases h' with
    | kept set => exact absurd unset set
    | bare _ unasked => cases unasked.symm.trans asked
    | failed _ asked' opens' => cases (same asked asked' opens opens').2.2
    | opened _ asked' opens' =>
      obtain ⟨rfl, rfl, eq⟩ := same asked asked' opens opens'
      cases eq
      exact ⟨rfl, rfl⟩

/-- The ways that a set-up can go say all there is to say about it. -/
theorem setsUp_iff {l' : Ledger} {error? : Option Files.Error} :
    SetsUp l name options l' error? ↔ l.setUp name options = (l', error?) := by
  constructor
  · intro h
    obtain ⟨eq, eq'⟩ := (setsUp l name options).unique h
    rw [← eq, ← eq']
  · intro eq
    have done := setsUp l name options
    rwa [eq] at done

/-! ### What stays -/

/-- The logger of another name stays as it is. -/
theorem SetsUp.logger_of_ne {l' : Ledger} {error? : Option Files.Error}
    (h : SetsUp l name options l' error?) (other : c ≠ canonical name) :
    l'.logger c = l.logger c := by
  cases h with
  | kept => rfl
  | bare | failed => exact logger_putLogger_of_ne _ other _
  | opened =>
    rw [logger_congr (loggers_write _ _)]
    exact logger_putLogger_of_ne _ other _

/-- A logger that has handlers stays as it is. -/
theorem SetsUp.logger {l' : Ledger} {error? : Option Files.Error}
    (h : SetsUp l name options l' error?) (set : (l.logger c).handlers ≠ []) :
    l'.logger c = l.logger c := by
  by_cases own : c = canonical name
  · cases h with
    | kept => rfl
    | bare unset | failed unset | opened unset => exact absurd (own ▸ unset) set
  · exact h.logger_of_ne own

theorem SetsUp.names {l' : Ledger} {error? : Option Files.Error}
    (h : SetsUp l name options l' error?) : l'.names = l.names.enter (canonical name) := by
  cases h with
  | kept | bare | failed => rfl
  | opened =>
    rw [names_write]
    exact Register.enter_of_isLogger (Register.isLogger_enter_self _ _)

theorem SetsUp.clock {l' : Ledger} {error? : Option Files.Error}
    (h : SetsUp l name options l' error?) : l'.clock = l.clock := by
  cases h with
  | kept | bare | failed => rfl
  | opened => exact clock_write _ _

theorem SetsUp.keeps {l' : Ledger} {error? : Option Files.Error}
    (h : SetsUp l name options l' error?) : Tree.Keeps l.files l'.files := by
  cases h with
  | kept | bare => exact Tree.Keeps.refl _
  | failed _ _ opens => exact opens.keeps
  | @opened path files place _ _ opens =>
    have written := keeps_write { (l.enter (canonical name)).configure (canonical name)
        (.ofSetUp options.consoleLevel (some place)) with files }
      ⟨Level.info, canonical name, "setup_logging", "Log file: " ++ path.text⟩
    exact opens.keeps.trans written

/-- A set-up that succeeds with a file attaches it, and the path leads to it. -/
theorem SetsUp.of_asked {l' : Ledger} {path : Files.Path} (h : SetsUp l name options l' none)
    (unset : (l.logger (canonical name)).handlers = [])
    (asked : l.filePath? name options = some path) :
    ∃ files place content, l.files.Opens path files (.ok place) ∧
      l'.logger (canonical name) = .ofSetUp options.consoleLevel (some place) ∧
      l'.files.locate (l'.files.absolute path) = .ok (.taken place (.file content)) := by
  cases h with
  | kept set => exact absurd unset set
  | bare _ unasked => cases unasked.symm.trans asked
  | @opened path' files place _ asked' opens =>
    obtain rfl : path' = path := Option.some.inj (asked'.symm.trans asked)
    let l₁ : Ledger := { (l.enter (canonical name)).configure (canonical name)
      (.ofSetUp options.consoleLevel (some place)) with files }
    have written := keeps_write l₁
      ⟨Level.info, canonical name, "setup_logging", "Log file: " ++ path'.text⟩
    obtain ⟨content, found⟩ := opens.locate
    obtain ⟨more, found⟩ := written.locate found
    rw [← written.absolute] at found
    refine ⟨files, place, content ++ more, opens, ?_, found⟩
    rw [logger_congr (loggers_write _ _)]
    exact logger_putLogger_self _ _ _

/-- A set-up without a file attaches a console only. -/
theorem SetsUp.of_unasked {l' : Ledger} {error? : Option Files.Error}
    (h : SetsUp l name options l' error?) (unset : (l.logger (canonical name)).handlers = [])
    (unasked : l.filePath? name options = none) :
    l'.logger (canonical name) = .ofSetUp options.consoleLevel none := by
  cases h with
  | kept set => exact absurd unset set
  | bare => exact logger_putLogger_self _ _ _
  | failed _ asked | opened _ asked => cases unasked.symm.trans asked

/-- A record of any level enters the name of its logger and asks it, and changes nothing else but
the console and the files, which keep what they hold. -/
theorem log_eq (l : Ledger) (r : Record) :
    ∃ console files, Tree.Keeps l.files files ∧ (l.log r).1 =
      { l.enter r.logger with
        answers := ((l.enter r.logger).ask r.logger r.level).answers, console, files } := by
  unfold log
  dsimp only
  split
  · refine ⟨l.console, l.files, .refl _, ?_⟩
    rw [ask_eq]
    rfl
  · obtain ⟨console, files, eq⟩ := write_eq l r
    have keeps := keeps_write l r
    rw [eq] at keeps
    rw [write_ask, eq]
    exact ⟨console, files, keeps, rfl⟩

/-- What a logger remembers stays right when a record is logged, if the answer about its level is.
-/
theorem Recalls.log {n : String} {heard : Int → Prop} (h : l.Recalls n heard)
    (right : r.logger = n → ((l.enter n).effectiveLevel n ≤ r.level ↔ heard r.level)) :
    (l.log r).1.Recalls n heard := by
  have asked : ((l.enter r.logger).ask r.logger r.level).Recalls n heard := by
    refine Recalls.ask (h.of_answers rfl) fun own => ?_
    rw [own]
    exact right own
  obtain ⟨console, files, -, eq⟩ := log_eq l r
  rw [eq]
  exact asked

/-- What a logger remembers stays right in a set-up: nothing changes or all is forgotten, and a
logger that has got a file reports it, which it hears. -/
theorem SetsUp.recalls {l' : Ledger} {error? : Option Files.Error} {n : String}
    {heard : Int → Prop} (h : SetsUp l name options l' error?)
    (kept : (l.logger (canonical name)).handlers ≠ [] → l.Recalls n heard)
    (own : canonical name = n → heard Level.info) : l'.Recalls n heard := by
  cases h with
  | kept set => exact (kept set).of_answers rfl
  | bare | failed => exact recalls_of_forgotten rfl
  | @opened path files place =>
    let l₁ : Ledger := { (l.enter (canonical name)).configure (canonical name)
      (.ofSetUp options.consoleLevel (some place)) with files }
    have active : (l₁.enter (canonical name)).logger (canonical name) =
        .ofSetUp options.consoleLevel (some place) := logger_putLogger_self _ _ _
    have asked : ((l₁.enter (canonical name)).ask (canonical name) Level.info).Recalls n heard := by
      refine Recalls.ask (recalls_of_forgotten rfl) fun eq => ?_
      rw [← eq, effectiveLevel_of_set active (canonical_ne_empty name)]
      exact iff_of_true (by decide) (own eq)
    exact asked.of_answers (answers_write l₁ _)

end Ledger

/-! ### Calls -/

/-- What is asked of a ledger: to set up a logger, or to take a record down. -/
inductive Call where
  | setUp (name : String) (options : Ledger.Options)
  | log (level : Int) (name origin message : String)

/-- The logger that a call is about. -/
def Call.logger : Call → String
  | setUp name _ => canonical name
  | log _ name _ _ => canonical name

namespace Ledger

variable {l : Ledger} {c : String} {call : Call} {calls : List Call}

/-- Does what is asked for. -/
def serve (l : Ledger) : Call → Ledger
  | .setUp name options => (l.setUp name options).1
  | .log level name origin message => (l.log ⟨level, canonical name, origin, message⟩).1

/-- Does what is asked for, one call after the other. -/
def serveAll (l : Ledger) (calls : List Call) : Ledger :=
  calls.foldl serve l

theorem names_serve (l : Ledger) (call : Call) :
    (l.serve call).names = l.names.enter call.logger := by
  cases call with
  | setUp name options => exact (setsUp l name options).names
  | log level name origin message =>
    obtain ⟨console, files, -, eq⟩ := log_eq l ⟨level, canonical name, origin, message⟩
    rw [serve, eq]
    rfl

theorem clock_serve (l : Ledger) (call : Call) : (l.serve call).clock = l.clock := by
  cases call with
  | setUp name options => exact (setsUp l name options).clock
  | log level name origin message =>
    obtain ⟨console, files, -, eq⟩ := log_eq l ⟨level, canonical name, origin, message⟩
    rw [serve, eq]
    rfl

theorem keeps_serve (l : Ledger) (call : Call) : Tree.Keeps l.files (l.serve call).files := by
  cases call with
  | setUp name options => exact (setsUp l name options).keeps
  | log level name origin message =>
    obtain ⟨console, files, keeps, eq⟩ := log_eq l ⟨level, canonical name, origin, message⟩
    rw [serve, eq]
    exact keeps

theorem logger_log (l : Ledger) (r : Record) (c : String) : (l.log r).1.logger c = l.logger c := by
  obtain ⟨console, files, -, eq⟩ := log_eq l r
  rw [eq]
  rfl

theorem logger_serve (set : (l.logger c).handlers ≠ []) (call : Call) :
    (l.serve call).logger c = l.logger c := by
  cases call with
  | setUp name options => exact (setsUp l name options).logger set
  | log level name origin message => exact logger_log l _ c

/-- A logger that was set up stays as it is, whatever is asked for. -/
theorem logger_serveAll (set : (l.logger c).handlers ≠ []) (calls : List Call) :
    (l.serveAll calls).logger c = l.logger c := by
  unfold serveAll
  induction calls generalizing l with
  | nil => rfl
  | cons call calls ih =>
    have first := logger_serve set call
    rw [List.foldl_cons, ih (by rwa [first]), first]

theorem keeps_serveAll (l : Ledger) (calls : List Call) :
    Tree.Keeps l.files (l.serveAll calls).files := by
  unfold serveAll
  induction calls generalizing l with
  | nil => exact Tree.Keeps.refl _
  | cons call calls ih => exact (keeps_serve l call).trans (ih _)

section Recalls

variable {consoleLevel : Int} {place? : Option (List String)}

/-- A logger that was set up goes on knowing what it hears. -/
theorem Recalls.serve (active : l.logger c = .ofSetUp consoleLevel place?) (named : c ≠ "")
    (h : l.Recalls c (Level.debug ≤ ·)) (call : Call) :
    (l.serve call).Recalls c (Level.debug ≤ ·) := by
  cases call with
  | setUp name options => exact (setsUp l name options).recalls (fun _ => h) fun _ => by decide
  | log level name origin message =>
    refine h.log fun _ => ?_
    rw [effectiveLevel_of_set (l := l.enter c) active named]

theorem Recalls.serveAll (active : l.logger c = .ofSetUp consoleLevel place?) (named : c ≠ "")
    (h : l.Recalls c (Level.debug ≤ ·)) (calls : List Call) :
    (l.serveAll calls).Recalls c (Level.debug ≤ ·) := by
  unfold Ledger.serveAll
  induction calls generalizing l with
  | nil => exact h
  | cons call calls ih =>
    have stays := (logger_serve (handlers_ne_nil active) call).trans active
    exact ih stays (h.serve active named call)

end Recalls

/-- A name that was entered stays so. -/
theorem isLogger_serveAll (entered : c = rootName ∨ l.names.isLogger c) (calls : List Call) :
    c = rootName ∨ (l.serveAll calls).names.isLogger c := by
  refine entered.imp_right fun taken => ?_
  unfold serveAll
  induction calls generalizing l with
  | nil => exact taken
  | cons call calls ih =>
    have stays : (l.serve call).names.isLogger c := by
      rw [names_serve]
      exact Register.isLogger_enter _ _ taken
    exact ih (.inr stays) stays

/-- A logger with handlers is not set up again. -/
theorem setUp_of_set {name : String} (set : (l.logger (canonical name)).handlers ≠ [])
    (entered : canonical name = rootName ∨ l.names.isLogger (canonical name)) (options : Options) :
    l.setUp name options = (l, none) := by
  have kept := setsUp_iff.mp (.kept set : SetsUp l name options _ none)
  rwa [enter_of_isLogger entered] at kept

end Ledger

end Intcode.Log
