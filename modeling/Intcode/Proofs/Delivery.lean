import Intcode.Proofs.Ledger
import Intcode.Proofs.Lineage

/-!
# Where a record is delivered

While no set-up fails, a logger is as its first set-up made it. So a record is written at most once,
to the file that the first set-up of one logger asked for, and to no other. Where the rules for
loggers hold, it is written exactly once: of the logger with the record's name and those whose names
stand above it, to the file of the nearest one that was set up, and to that of the root if there is
none.

The rules hold for every name without two dots in a row above which stands no logger whose name
begins the name of the root. For other names a logger may stand elsewhere than its name says, and
may go on answering from before it was moved.

## Main definitions

* `Log.firstSetUp?` — how a logger was first set up
* `Log.Ledger.succeeds` — no set-up fails
* `Log.Ledger.Regular` — the rules for loggers hold for a name
* `Files.Tree.Gains` — what was written at the end of one file, and nothing else
* `Log.Ledger.Tracks` — what a ledger holds after some calls

## Main results

* `Log.Ledger.tracks_serveAll` — the loggers after some calls
* `Log.Ledger.Tracks.regular` — the rules hold for clear names
* `Log.Ledger.delivered_to_nearest` — where a record is delivered
-/

namespace Intcode

/-- The files after some bytes were written at the end of the file that a path leads to, if there is
a path. The file is found by its path from the root, and all others are as they were. -/
inductive Files.Tree.Gains (t : Tree) (bytes : ByteArray) : Option Path → Tree → Prop
  | nothing : Gains t bytes none t
  | file {path : Path} {place : List String} {content : ByteArray} {t' : Tree}
      (before : t.locate (t.absolute path) = .ok (.taken place (.file content)))
      (after : t'.locate (t.absolute path) = .ok (.taken place (.file (content ++ bytes))))
      (others : ∀ other, other ≠ place → t'.find? other = t.find? other) :
      Gains t bytes (some path) t'

theorem Files.Tree.Gains.eq {t t' : Tree} {bytes : ByteArray} (h : t.Gains bytes none t') :
    t' = t := by
  cases h
  rfl

namespace Log

open Files (Tree)

/-! ### Set-ups among the calls -/

/-- The name and the options by which a call sets a logger up. -/
def Call.setUp? (c : String) : Call → Option (String × Ledger.Options)
  | setUp name options => if canonical name = c then some (name, options) else none
  | log .. => none

theorem Call.setUp?_eq_some_iff {call : Call} {c name : String} {options : Ledger.Options} :
    call.setUp? c = some (name, options) ↔ call = .setUp name options ∧ canonical name = c := by
  cases call with
  | setUp name' options' =>
    rw [Call.setUp?, Option.ite_none_right_eq_some]
    constructor
    · rintro ⟨own, eq⟩
      cases eq
      exact ⟨rfl, own⟩
    · rintro ⟨eq, own⟩
      cases eq
      exact ⟨own, rfl⟩
  | log => simp [Call.setUp?]

/-- How a logger was first set up. -/
def firstSetUp? (calls : List Call) (c : String) : Option (String × Ledger.Options) :=
  calls.findSome? (Call.setUp? c)

theorem firstSetUp?_concat (calls : List Call) (call : Call) (c : String) :
    firstSetUp? (calls ++ [call]) c = (firstSetUp? calls c).or (call.setUp? c) := by
  rw [firstSetUp?, List.findSome?_append, firstSetUp?]
  cases eq : call.setUp? c <;> simp [eq]

/-- A logger that was set up is among those that were entered. -/
theorem mem_of_firstSetUp? {calls : List Call} {c : String} (set : (firstSetUp? calls c).isSome) :
    c ∈ calls.map Call.logger := by
  obtain ⟨⟨name, options⟩, found⟩ := Option.isSome_iff_exists.mp set
  obtain ⟨call, member, eq⟩ := List.exists_of_findSome?_eq_some found
  obtain ⟨rfl, own⟩ := Call.setUp?_eq_some_iff.mp eq
  exact List.mem_map.mpr ⟨_, member, own⟩

/-- A logger was set up with a name or with a name above it, or the root was. -/
def Covered (calls : List Call) (n : String) : Prop :=
  ∃ c, (firstSetUp? calls c).isSome ∧ (c = rootName ∨ c = n ∨ Above c n)

/-- Whether a level is heard by the rules: warnings are heard everywhere, and everything from the
level of details on below a logger that was set up. -/
def Heard (calls : List Call) (n : String) (level : Int) : Prop :=
  Level.warning ≤ level ∨ Level.debug ≤ level ∧ Covered calls n

theorem Covered.heard_iff {calls : List Call} {n : String} (h : Covered calls n) (level : Int) :
    Heard calls n level ↔ Level.debug ≤ level := by
  refine ⟨?_, fun loud => .inr ⟨loud, h⟩⟩
  rintro (louder | ⟨loud, -⟩)
  · exact Int.le_trans (by decide) louder
  · exact loud

namespace Ledger

/-- Why a call fails to set a logger up. -/
def error? (l : Ledger) : Call → Option Files.Error
  | .setUp name options => (l.setUp name options).2
  | .log .. => none

/-- No set-up among the calls fails. -/
def succeeds (l : Ledger) : List Call → Bool
  | [] => true
  | call :: calls => (l.error? call).isNone && (l.serve call).succeeds calls

/-! ### The loggers after some calls -/

/-- A path, if there is one, leads from the root to the file at a place. -/
def LeadsTo (l : Ledger) : Option Files.Path → Option (List String) → Prop :=
  Option.Rel fun path place =>
    ∃ content, l.files.locate (l.files.absolute path) = .ok (.taken place (.file content))

/-- What a ledger holds after some calls, none of which failed to set a logger up. A logger that was
not set up is as it was in the beginning, and any other one as its first set-up made it. -/
structure Tracks (calls : List Call) (l : Ledger) : Prop where
  names : l.names.Records (calls.map Call.logger)
  unset : ∀ c, firstSetUp? calls c = none →
    l.logger c = ⟨if c = rootName then Level.warning else 0, true, []⟩
  set : ∀ c name options, firstSetUp? calls c = some (name, options) →
    ∃ place?, l.logger c = .ofSetUp options.consoleLevel place? ∧
      l.LeadsTo (l.filePath? name options) place?

variable {calls : List Call} {l : Ledger} {c : String}

theorem tracks_ofFiles (files : Tree) (clock : Clock) : Tracks [] (ofFiles files clock) where
  names := Register.records_empty
  unset _ _ := rfl
  set _ _ _ found := by cases found

theorem filePath?_congr {l' : Ledger} (same : l'.clock = l.clock) (name : String)
    (options : Options) : l'.filePath? name options = l.filePath? name options := by
  unfold filePath?
  rw [same]

/-- The logger of a name is changed by its own set-ups only. -/
theorem logger_serve_of_setUp?_eq_none {call : Call} (other : call.setUp? c = none) :
    (l.serve call).logger c = l.logger c := by
  cases call with
  | setUp name options =>
    refine (setsUp l name options).logger_of_ne ?_
    rintro rfl
    simp [Call.setUp?] at other
  | log level name origin message => exact logger_log l _ c

/-- A path that leads to a file goes on leading there. -/
theorem LeadsTo.of_keeps {l' : Ledger} {path? : Option Files.Path} {place? : Option (List String)}
    (h : l.LeadsTo path? place?) (keeps : Tree.Keeps l.files l'.files) :
    l'.LeadsTo path? place? := by
  cases h with
  | none => exact .none
  | some found =>
    obtain ⟨content, found⟩ := found
    obtain ⟨more, found⟩ := keeps.locate found
    rw [← keeps.absolute] at found
    exact .some ⟨_, found⟩

/-- The first set-up of a logger makes it what it is. -/
theorem SetsUp.first {l' : Ledger} {name : String} {options : Options}
    (h : SetsUp l name options l' none) (unset : (l.logger (canonical name)).handlers = []) :
    ∃ place?, l'.logger (canonical name) = .ofSetUp options.consoleLevel place? ∧
      l'.LeadsTo (l.filePath? name options) place? := by
  cases asked : l.filePath? name options with
  | none => exact ⟨none, h.of_unasked unset asked, .none⟩
  | some path =>
    obtain ⟨_, place, content, -, active, found⟩ := h.of_asked unset asked
    exact ⟨some place, active, .some ⟨content, found⟩⟩

/-- One call more. -/
theorem Tracks.serve (h : Tracks calls l) {call : Call} (done : l.error? call = none) :
    Tracks (calls ++ [call]) (l.serve call) where
  names := by
    rw [List.map_append, names_serve]
    exact Register.records_enter h.names call.logger
  unset c unset := by
    -- Neither the calls so far nor this one have set the logger up.
    rw [firstSetUp?_concat, Option.or_eq_none_iff] at unset
    rw [logger_serve_of_setUp?_eq_none unset.2]
    exact h.unset c unset.1
  set c name options found := by
    rw [filePath?_congr (clock_serve l call)]
    rw [firstSetUp?_concat] at found
    cases first : firstSetUp? calls c with
    | some old =>
      -- The logger was set up before, and stays as it is.
      rw [first, Option.some_or] at found
      obtain ⟨place?, active, leads⟩ := h.set c name options (first.trans found)
      refine ⟨place?, ?_, leads.of_keeps (keeps_serve l call)⟩
      rw [logger_serve (handlers_ne_nil active) call, active]
    | none =>
      -- This call is its first set-up, and finds it without handlers.
      rw [first, Option.none_or] at found
      obtain ⟨rfl, rfl⟩ := Call.setUp?_eq_some_iff.mp found
      have unset : (l.logger (canonical name)).handlers = [] := by rw [h.unset _ first]
      have made : SetsUp l name options (l.serve (.setUp name options)) none :=
        setsUp_iff.mpr (Prod.ext rfl done)
      exact made.first unset

/-- What holds of a ledger and the calls made so far, and goes on holding with every call that does
not fail, holds after all of them. -/
theorem serveAll_induction {P : List Call → Ledger → Prop}
    (step : ∀ {past l call}, P past l → l.error? call = none → P (past ++ [call]) (l.serve call))
    {past : List Call} (start : P past l) (done : l.succeeds calls) :
    P (past ++ calls) (l.serveAll calls) := by
  induction calls generalizing past l with
  | nil =>
    rw [List.append_nil]
    exact start
  | cons call calls ih =>
    rw [succeeds, Bool.and_eq_true, Option.isNone_iff_eq_none] at done
    rw [List.append_cons]
    exact ih (step start done.1) done.2

/-- The loggers of a new ledger after some calls. -/
theorem tracks_serveAll {files : Tree} {clock : Clock}
    (done : (ofFiles files clock).succeeds calls) :
    Tracks calls ((ofFiles files clock).serveAll calls) :=
  serveAll_induction (fun h done => h.serve done) (tracks_ofFiles files clock) done

/-! ### The way up from a logger -/

/-- The first logger on the way up from a name that was set up. -/
def active? (calls : List Call) (l : Ledger) (n : String) : Option String :=
  ((l.names.enter n).lineage n).find? fun c => (firstSetUp? calls c).isSome

variable {n : String}

theorem isSome_of_active? (met : active? calls l n = some c) : (firstSetUp? calls c).isSome :=
  List.find?_some (p := fun c => (firstSetUp? calls c).isSome) met

/-- The loggers before the first one that was set up pass everything on. -/
theorem Tracks.exists_line (h : Tracks calls l) (named : n ≠ "")
    (met : active? calls l n = some c) :
    ∃ before after, (l.names.enter n).lineage n = before ++ c :: after ∧
      ∀ d ∈ before, l.logger d = .idle := by
  have ordered := (Register.records_enter h.names n).pairwise_lineage named
  obtain ⟨-, before, after, line, silent⟩ := List.find?_eq_some_iff_append.mp met
  rw [line] at ordered
  obtain ⟨-, -, ordered⟩ := List.pairwise_append.mp ordered
  refine ⟨before, after, line, fun d early => ?_⟩
  have unset : firstSetUp? calls d = none := by simpa using silent d early
  rw [h.unset d unset, if_neg (ordered d early c List.mem_cons_self).1]
  rfl

/-- Below a logger that was set up, the level is that of details. -/
theorem Tracks.effectiveLevel_of_active (h : Tracks calls l) (named : n ≠ "")
    (met : active? calls l n = some c) : (l.enter n).effectiveLevel n = Level.debug := by
  obtain ⟨before, after, line, idle⟩ := h.exists_line named met
  obtain ⟨⟨name, options⟩, first⟩ := Option.isSome_iff_exists.mp (isSome_of_active? met)
  obtain ⟨place?, active, -⟩ := h.set c name options first
  exact effectiveLevel_of_first (l := l.enter n) line idle active

/-- Below none, the level is that of the root. -/
theorem Tracks.effectiveLevel_of_inactive (h : Tracks calls l) (named : n ≠ "")
    (unmet : active? calls l n = none) : (l.enter n).effectiveLevel n = Level.warning := by
  have records := Register.records_enter h.names n
  have levels : ∀ d ∈ (l.names.enter n).lineage n,
      (l.logger d).level = if d = rootName then Level.warning else 0 := by
    intro d found
    have unset : firstSetUp? calls d = none := by simpa using List.find?_eq_none.mp unmet d found
    rw [h.unset d unset]
  -- Along the way up only the root, at its end, has a level of its own.
  refine records.lineage_induction (motive := fun _ line =>
    (∀ d ∈ line, (l.logger d).level = if d = rootName then Level.warning else 0) →
      ((line.map fun d => (l.logger d).level).find? (· ≠ 0)).getD 0 = Level.warning)
    ?_ (fun d below _ ih levels => ?_) n named levels
  · intro levels
    rw [List.map_singleton, levels rootName List.mem_cons_self, if_pos rfl]
    rfl
  · obtain ⟨first, levels⟩ := List.forall_mem_cons.mp levels
    rw [List.map_cons, first, if_neg below, List.find?_cons_of_neg (by decide)]
    exact ih levels

/-- The level of a clear name is the one by the rules. -/
theorem Tracks.effectiveLevel_iff (h : Tracks calls l) (named : n ≠ "")
    (clear : Clear (calls.map Call.logger) n) (level : Int) :
    (l.enter n).effectiveLevel n ≤ level ↔ Heard calls n level := by
  have records := Register.records_enter h.names n
  have line := records.mem_lineage_of_clear named clear.append_self
    (List.mem_append_right _ (List.mem_singleton.mpr rfl))
  -- From a clear name, whoever was set up at it or above it is met on the way up.
  cases met : active? calls l n with
  | some c =>
    have covered : Covered calls n := by
      refine ⟨c, isSome_of_active? met, ?_⟩
      have found := (line c).mp (List.mem_of_find?_eq_some met)
      exact found.imp_right (·.imp_right And.left)
    rw [h.effectiveLevel_of_active named met, covered.heard_iff]
  | none =>
    have uncovered : ¬ Covered calls n := by
      rintro ⟨c, set, above⟩
      refine List.find?_eq_none.mp met c ((line c).mpr ?_) set
      exact above.imp_right (·.imp_right fun above =>
        ⟨above, List.mem_append_left _ (mem_of_firstSetUp? set)⟩)
    rw [h.effectiveLevel_of_inactive named met]
    exact (or_iff_left fun both => uncovered both.2).symm

/-! ### What loggers remember after some calls -/

/-- What the loggers of clear names remember is right by the rules. -/
def Remembers (calls : List Call) (l : Ledger) : Prop :=
  ∀ n, n ≠ "" → Clear (calls.map Call.logger) n → l.Recalls n (Heard calls n)

/-- A call that is no first set-up makes no difference to the rules. -/
theorem heard_concat {call : Call}
    (same : ∀ c, (call.setUp? c).isSome → (firstSetUp? calls c).isSome) (n : String) :
    Heard (calls ++ [call]) n = Heard calls n := by
  have set : ∀ c, (firstSetUp? (calls ++ [call]) c).isSome = (firstSetUp? calls c).isSome := by
    intro c
    rw [firstSetUp?_concat, Option.isSome_or, Bool.eq_iff_iff, Bool.or_eq_true]
    exact or_iff_left_of_imp (same c)
  funext level
  unfold Heard Covered
  simp only [set]

theorem Remembers.serve (h : Remembers calls l) (tracks : Tracks calls l) (call : Call) :
    Remembers (calls ++ [call]) (l.serve call) := by
  intro n named clear
  rw [List.map_append] at clear
  have before := h n named clear.of_append
  cases call with
  | log level name origin message =>
    rw [heard_concat (fun c set => by cases set) n]
    exact before.log fun _ => tracks.effectiveLevel_iff named clear.of_append level
  | setUp name options =>
    refine (setsUp l name options).recalls (fun set => ?_) fun own => ?_
    · -- The logger has handlers, and so it was set up before.
      have first : (firstSetUp? calls (canonical name)).isSome := by
        rw [Option.isSome_iff_ne_none]
        intro unset
        rw [tracks.unset _ unset] at set
        exact set rfl
      rw [heard_concat (fun c set => ?_) n]
      · exact before
      · obtain ⟨⟨name', options'⟩, eq⟩ := Option.isSome_iff_exists.mp set
        obtain ⟨⟨⟩, rfl⟩ := Call.setUp?_eq_some_iff.mp eq
        exact first
    · refine .inr ⟨by decide, canonical name, ?_, .inr (.inl own)⟩
      rw [firstSetUp?_concat, Option.isSome_or, Call.setUp?, if_pos rfl]
      exact Bool.or_true _

theorem remembers_serveAll {files : Tree} {clock : Clock}
    (done : (ofFiles files clock).succeeds calls) :
    Remembers calls ((ofFiles files clock).serveAll calls) := by
  -- What a call adds to the memory is right by where the loggers stand, so that is kept along.
  have fresh : Remembers [] (ofFiles files clock) := fun _ _ _ => recalls_of_forgotten rfl
  have both := serveAll_induction (P := fun calls l => Tracks calls l ∧ Remembers calls l)
    (fun {_ _ call} h done => ⟨h.1.serve done, h.2.serve h.1 call⟩)
    ⟨tracks_ofFiles files clock, fresh⟩ done
  exact both.2

/-! ### Where the rules hold -/

/-- The rules for loggers hold for a name. On the way up from it are the loggers with that name and
the names above it, and the root; and whether it hears a level follows from the level that it has by
where it stands. -/
structure Regular (l : Ledger) (n : String) : Prop where
  line : ∀ c, c ∈ (l.names.enter n).lineage n ↔
    c = rootName ∨ c = n ∨ Above c n ∧ l.names.isLogger c
  level : ∀ level, (l.enter n).hears n level = true ↔ (l.enter n).effectiveLevel n ≤ level

/-- The rules hold for clear names. -/
theorem Tracks.regular (h : Tracks calls l) (remembers : Remembers calls l) (named : n ≠ "")
    (clear : Clear (calls.map Call.logger) n) : l.Regular n where
  line c := by
    rw [(Register.records_enter h.names n).mem_lineage_of_clear named clear.append_self
      (List.mem_append_right _ (List.mem_singleton.mpr rfl)), h.names.isLogger]
    -- A name above another one is not that name itself.
    rw [List.mem_append, List.mem_singleton]
    constructor
    · rintro (root | own | ⟨above, found | own⟩)
      · exact .inl root
      · exact .inr (.inl own)
      · by_cases root : c = rootName
        · exact .inl root
        · exact .inr (.inr ⟨above, found, root⟩)
      · exact absurd own above.ne
    · rintro (root | own | ⟨above, found, -⟩)
      · exact .inl root
      · exact .inr (.inl own)
      · exact .inr (.inr ⟨above, .inl found⟩)
  level level := by
    have right := h.effectiveLevel_iff named clear level
    have recalls : (l.enter n).Recalls n (Heard calls n) := remembers n named clear
    exact (recalls.hears_iff right).trans right.symm

/-- Where the rules hold, the first logger on the way up that was set up is the nearest one. -/
theorem Tracks.active?_eq_some_iff (h : Tracks calls l) (named : n ≠ "") (regular : l.Regular n) :
    active? calls l n = some c ↔ Nearest (fun c => (firstSetUp? calls c).isSome) n c := by
  refine find?_eq_some_iff_nearest ((Register.records_enter h.names n).pairwise_lineage named)
    fun d set => ?_
  rw [regular.line]
  refine ⟨fun line => line.imp_right (·.imp_right And.left), fun line => ?_⟩
  by_cases root : d = rootName
  · exact .inl root
  · refine line.imp_right (·.imp_right fun above => ⟨above, ?_⟩)
    exact (h.names.isLogger d).mpr ⟨mem_of_firstSetUp? set, root⟩

/-! ### Records -/

variable {r : Record}

/-- A record that meets no handlers is written nowhere. -/
theorem files_write_of_silent (silent : ∀ n ∈ (l.names.enter r.logger).lineage r.logger,
    (l.logger n).handlers = []) : (l.write r).files = l.files := by
  have none : ∀ line : List String, (∀ n ∈ line, (l.logger n).handlers = []) →
      (l.enter r.logger).handlersAlong line = [] := by
    intro line
    induction line with
    | nil => exact fun _ => rfl
    | cons n line ih =>
      intro silent
      obtain ⟨first, silent⟩ := List.forall_mem_cons.mp silent
      have same : (l.enter r.logger).logger n = l.logger n := rfl
      rw [handlersAlong, same, first, ih silent]
      exact ite_self []
  refine files_write_of_unheard ?_
  rw [receivers, none ((l.enter r.logger).names.lineage r.logger) silent]
  exact ite_self []

/-- A record that is heard is written to the file of the first logger on the way up that was set up.
-/
theorem Tracks.gains (h : Tracks calls l) (named : r.logger ≠ "") (loud : Level.debug ≤ r.level)
    (heard : (l.enter r.logger).hears r.logger r.level = true)
    (met : active? calls l r.logger = some c)
    {name : String} {options : Options} (first : firstSetUp? calls c = some (name, options)) :
    l.files.Gains (l.line r).toUTF8 (l.filePath? name options) (l.write r).files := by
  obtain ⟨before, after, line, idle⟩ := h.exists_line named met
  obtain ⟨place?, active, leads⟩ := h.set c name options first
  have written := files_write_of_first line idle active
  rw [if_pos ⟨heard, loud⟩] at written
  rw [written]
  generalize l.filePath? name options = path? at leads ⊢
  cases leads with
  | none => exact .nothing
  | some found =>
    obtain ⟨content, found⟩ := found
    exact .file found (Tree.locate_append found _) fun other ne => Tree.find?_append_of_ne _ ne _

/-- If no logger on the way up was set up, a record is written nowhere. -/
theorem Tracks.files_write (h : Tracks calls l) (unmet : active? calls l r.logger = none) :
    (l.write r).files = l.files := by
  refine files_write_of_silent fun n found => ?_
  have unset : firstSetUp? calls n = none := by simpa using List.find?_eq_none.mp unmet n found
  rw [h.unset n unset]

/-- A record is written to at most one file, that of a logger on the way up. -/
theorem Tracks.exists_gains (h : Tracks calls l) (named : r.logger ≠ "")
    (loud : Level.debug ≤ r.level) :
    ∃ path?, l.files.Gains (l.line r).toUTF8 path? (l.write r).files ∧
      ∀ path ∈ path?, ∃ c name options, (c = r.logger ∨ Above c r.logger ∨ c = rootName) ∧
        firstSetUp? calls c = some (name, options) ∧ l.filePath? name options = some path := by
  have nowhere (same : (l.write r).files = l.files) :
      l.files.Gains (l.line r).toUTF8 none (l.write r).files := by
    rw [same]
    exact .nothing
  by_cases heard : (l.enter r.logger).hears r.logger r.level = true
  · cases met : active? calls l r.logger with
    | none => exact ⟨none, nowhere (h.files_write met), fun _ none => by cases none⟩
    | some c =>
      obtain ⟨⟨name, options⟩, first⟩ := Option.isSome_iff_exists.mp (isSome_of_active? met)
      refine ⟨l.filePath? name options, h.gains named loud heard met first, fun path asked => ?_⟩
      refine ⟨c, name, options, ?_, first, asked⟩
      have records := Register.records_enter h.names r.logger
      rcases records.of_mem_lineage named c (List.mem_of_find?_eq_some met) with
        own | root | ⟨above, -⟩
      · exact .inl own
      · exact .inr (.inr root)
      · exact .inr (.inl above)
  · have unheard : (l.enter r.logger).receivers r.logger r.level = [] := by
      rw [receivers, if_neg heard]
    exact ⟨none, nowhere (files_write_of_unheard unheard), fun _ none => by cases none⟩

/-- Where the rules hold, a record is written to the file of the nearest logger that was set up. -/
theorem Tracks.gains_of_regular (h : Tracks calls l) (named : r.logger ≠ "")
    (loud : Level.debug ≤ r.level) (regular : l.Regular r.logger)
    (nearest : Nearest (fun c => (firstSetUp? calls c).isSome) r.logger c)
    {name : String} {options : Options} (first : firstSetUp? calls c = some (name, options)) :
    l.files.Gains (l.line r).toUTF8 (l.filePath? name options) (l.write r).files := by
  have met := (h.active?_eq_some_iff named regular).mpr nearest
  refine h.gains named loud ((regular.level r.level).mpr ?_) met first
  rw [h.effectiveLevel_of_active named met]
  exact loud

/-- Where records are delivered after some calls, none of which failed to set a logger up.

A logger that was set up is not set up again. The rules for loggers hold for every name that has no
two dots in a row, and above which no logger stands whose name begins the name of the root.

A record from the level of details on, if its level can be written, is taken down. Where the rules
hold for its name, it is written once, at the end of the file that the first set-up of the nearest
logger asked for, and to no other file. It is written to no file if that set-up asked for none, or
if there is no such logger. Whether the rules hold or not, it is written at most once, to the file
of a logger with its name or a name above it or of the root. A level that cannot be written makes no
record. -/
theorem delivered_to_nearest (files : Tree) (clock : Clock) (calls : List Call)
    (done : (ofFiles files clock).succeeds calls) :
    let l := (ofFiles files clock).serveAll calls
    (∀ name options, (firstSetUp? calls (canonical name)).isSome →
      l.setUp name options = (l, none)) ∧
    (∀ name, Clear (calls.map Call.logger) (canonical name) → l.Regular (canonical name)) ∧
    ∀ level name origin message, Level.debug ≤ level →
      let n := canonical name
      let r : Record := ⟨level, n, origin, message⟩
      let l' := (l.log r).1
      (Level.isNameable level →
        (l.log r).2 = none ∧
        (l.Regular n →
          (∀ c first options, Nearest (fun c => (firstSetUp? calls c).isSome) n c →
            firstSetUp? calls c = some (first, options) →
            l.files.Gains (l.line r).toUTF8 (l.filePath? first options) l'.files) ∧
          ((∀ c, ¬ Nearest (fun c => (firstSetUp? calls c).isSome) n c) → l'.files = l.files)) ∧
        ∃ path?, l.files.Gains (l.line r).toUTF8 path? l'.files ∧
          ∀ path ∈ path?, ∃ c first options, (c = n ∨ Above c n ∨ c = rootName) ∧
            firstSetUp? calls c = some (first, options) ∧ l.filePath? first options = some path) ∧
      (Level.isNameable level = false → l'.files = l.files) := by
  intro l
  have h := tracks_serveAll done
  have remembers := remembers_serveAll done
  refine ⟨fun name options set => ?_, fun name => h.regular remembers (canonical_ne_empty name),
    fun level name origin message loud => ?_⟩
  · obtain ⟨⟨first, options'⟩, found⟩ := Option.isSome_iff_exists.mp set
    obtain ⟨place?, active, -⟩ := h.set _ first options' found
    refine setUp_of_set (handlers_ne_nil active) ?_ options
    refine or_iff_not_imp_left.mpr fun below => (h.names.isLogger _).mpr ⟨?_, below⟩
    exact mem_of_firstSetUp? set
  · intro n r l'
    have named : r.logger ≠ "" := canonical_ne_empty name
    refine ⟨fun nameable => ?_, fun unnamed => files_log_of_not_isNameable l unnamed⟩
    have logged : l.log r = (l.write r, none) := log_of_isNameable l nameable
    have same : l' = l.write r := congrArg Prod.fst logged
    rw [same]
    refine ⟨congrArg Prod.snd logged, fun regular => ⟨?_, fun far => ?_⟩, h.exists_gains named loud⟩
    · intro c first options nearest found
      exact h.gains_of_regular named loud regular nearest found
    · refine h.files_write (Option.eq_none_iff_forall_ne_some.mpr fun c met => far c ?_)
      exact (h.active?_eq_some_iff named regular).mp met

/-- A logger with a file, and one below it that was set up later, without a file. The upper one is
not set up again, with another file. Records from below the lower one are written nowhere, and the
others to the first file. -/
theorem delivered_to_nearest_of_two :
    let l₀ : Ledger := .ofFiles (.empty []) ⟨"now", "1", ""⟩
    let calls : List Call := [.setUp "a" ⟨Level.warning, some "a.log", none⟩,
      .log Level.error "a.b.c" "emit" "early", .setUp "a.b" ⟨Level.warning, none, none⟩]
    let l := l₀.serveAll calls
    let low : Record := ⟨Level.debug, "a.b.c", "emit", "low"⟩
    let high : Record := ⟨Level.debug, "a.k", "emit", "high"⟩
    l₀.succeeds calls ∧ l.setUp "a" ⟨Level.warning, some "b.log", none⟩ = (l, none) ∧
      (l.log low).1.files = l.files ∧
      l.files.Gains "now | DEBUG   | a.k | emit:1 | high\n".toUTF8 (some (.ofString "a.log"))
        (l.log high).1.files := by
  intro l₀ calls l low high
  have done : l₀.succeeds calls := by decide +kernel
  have own : ∀ name, name ≠ "" → canonical name = name := fun _ named => if_neg named
  have line : l.line high = "now | DEBUG   | a.k | emit:1 | high\n" := by decide +kernel
  obtain ⟨again, regular, written⟩ := delivered_to_nearest (.empty []) ⟨"now", "1", ""⟩ calls done
  -- Without its value, the ledger is not worked out to compare the records below.
  have made : l = (ofFiles (.empty []) ⟨"now", "1", ""⟩).serveAll calls := rfl
  clear_value l
  subst made
  refine ⟨done, again "a" _ (by decide +kernel), ?_, ?_⟩
  · obtain ⟨-, ruled, -⟩ :=
      (written Level.debug "a.b.c" "emit" "low" (by decide)).1 (by decide +kernel)
    have ruled := ruled (regular "a.b.c" (by decide +kernel))
    rw [own "a.b.c" (by decide)] at ruled
    have unwritten := ruled.1 "a.b" "a.b" ⟨Level.warning, none, none⟩
      (.of_inits (by decide +kernel) (by decide +kernel) (by decide +kernel)) (by decide +kernel)
    exact unwritten.eq
  · obtain ⟨-, ruled, -⟩ :=
      (written Level.debug "a.k" "emit" "high" (by decide)).1 (by decide +kernel)
    have ruled := ruled (regular "a.k" (by decide +kernel))
    rw [own "a.k" (by decide)] at ruled
    rw [← line]
    exact ruled.1 "a" "a" ⟨Level.warning, some "a.log", none⟩
      (.of_inits (by decide +kernel) (by decide +kernel) (by decide +kernel)) (by decide +kernel)

/-- Below a logger whose name begins the name of the root, a logger that was moved may go on
answering as it did before. -/
example :
    let calls : List Call := [.log Level.info "ro.a.b" "emit" "m",
      .setUp "ro" ⟨Level.warning, none, none⟩, .log Level.info "ro.a.b" "emit" "m",
      .log Level.info "ro.a" "emit" "m"]
    let l := (Ledger.ofFiles (.empty []) ⟨"now", "1", ""⟩).serveAll calls
    l.effectiveLevel "ro.a.b" = Level.debug ∧ l.hears "ro.a.b" Level.info = false := by
  decide +kernel

end Ledger

end Log

end Intcode
