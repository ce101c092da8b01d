import Mathlib.Data.List.Basic
import Intcode.Toolkit.Request

/-!
# Command lines that cannot be understood

What is wrong with a command line is said in terms of its scan, the list of the switches, plain
arguments and other arguments in it: some switch is used wrongly or is unknown, a switch that takes
a number is given something else, there is no such command, or its program is missing. A command
line with such an error comes to a mistake, and only one with such an error does. The one thing that
can come before the mistake is a call for help or for the version, which ends the reading as well.

## Main definitions

* `Toolkit.IsSlip`, `Toolkit.IsHelp` — tokens that interrupt the reading
* `Toolkit.Misread`, `Toolkit.Consulted` — errors and calls for help in the arguments of a command
* `Toolkit.UsageError`, `Toolkit.CallsForHelp` — the same for whole command lines

## Main results

* `Toolkit.interrupted_of_error`, `Toolkit.read_of_ok` — what the reading of tokens comes to
* `Toolkit.commandRequest_answers`, `Toolkit.namedRequest_answers` — the request of a command
* `Toolkit.ofArguments_answers` — the request of a command line
* `Toolkit.usageError_of_isMistake`, `Toolkit.request_of_usageError` — errors and mistakes
-/

namespace Intcode.Toolkit

open CommandLine

/-! ### Mistakes among tokens -/

/-- Whether the value of a switch is an integer or a blank. -/
def IsInteger (value : Option String) : Prop :=
  value.getD "" = Given.blankText ∨ (Numeral.read? (value.getD "").toList).isSome

/-- An interruption that is a mistake. -/
def Interruption.isMistake : Interruption → Bool
  | mistake _ => true
  | _ => false

theorem intValue_eq_error {κ : Type} {s : Switch κ} {value : Option String} {i : Interruption}
    (h : intValue s value = .error i) : ¬ IsInteger value ∧ i.isMistake := by
  unfold intValue at h
  dsimp only at h
  split at h
  · cases h
  · rename_i named
    split at h
    · cases h
    · rename_i unread
      cases h
      refine ⟨?_, rfl⟩
      rintro (blank | number)
      · exact named blank
      · rw [unread] at number
        cases number

theorem isInteger_of_intValue {κ : Type} {s : Switch κ} {value : Option String} {n : Given Int}
    (h : intValue s value = .ok n) : IsInteger value := by
  unfold intValue at h
  dsimp only at h
  split at h
  · rename_i blank
    exact .inl blank
  · split at h
    · rename_i read
      exact .inr (Option.isSome_of_eq_some read)
    · cases h

section Tokens

variable {κ : Type}

/-- A token that is a slip: a switch that is used wrongly, or one that takes a number and is given
something else. -/
def IsSlip (isNumber : κ → Bool) : Token κ → Prop
  | .wrong _ _ => True
  | .use s value => isNumber s.key ∧ ¬ IsInteger value
  | _ => False

/-- A token that calls for help. -/
def IsHelp (isHelp : κ → Bool) : Token κ → Prop
  | .use s _ => isHelp s.key
  | _ => False

/-- A token that is a plain argument. -/
def IsWord : Token κ → Prop
  | .word _ => True
  | _ => False

/-- A token that nothing takes. -/
def IsExtra : Token κ → Prop
  | .extra _ => True
  | _ => False

/-- The effect of switches of which some call for help and others take a number: only these
interrupt the reading, and a number is read only if there is one. -/
structure Heeds {α : Type} (act : α → Switch κ → Option String → Except Interruption α)
    (isHelp isNumber : κ → Bool) : Prop where
  interrupted : ∀ {o : α} {s : Switch κ} {value : Option String} {i : Interruption},
    act o s value = .error i →
      isHelp s.key ∧ i.isMistake = false ∨ isNumber s.key ∧ ¬ IsInteger value ∧ i.isMistake
  read : ∀ {o o' : α} {s : Switch κ} {value : Option String}, act o s value = .ok o' →
    isNumber s.key → IsInteger value

variable {α : Type} {act : α → Switch κ → Option String → Except Interruption α}
  {isHelp isNumber : κ → Bool} {tokens : List (Token κ)} {r r' : Reading α} {i : Interruption}

/-- Whatever interrupts the reading of tokens is a call for help or a slip. -/
theorem interrupted_of_error (heeds : Heeds act isHelp isNumber)
    (h : readTokens act r tokens = .error i) :
    (∃ t ∈ tokens, IsHelp isHelp t) ∧ i.isMistake = false ∨
      (∃ t ∈ tokens, IsSlip isNumber t) ∧ i.isMistake := by
  -- Only a switch can interrupt; after any other token the rest is read.
  induction tokens generalizing r with
  | nil => cases h
  | cons t tokens ih =>
    simp only [List.exists_mem_cons_iff]
    cases t with
    | word text | extra text => exact (ih h).imp (And.imp_left .inr) (And.imp_left .inr)
    | wrong s problem =>
      cases h
      exact .inr ⟨.inl trivial, rfl⟩
    | use s value =>
      rw [readTokens] at h
      cases effect : act r.options s value with
      | ok o =>
        rw [effect] at h
        exact (ih h).imp (And.imp_left .inr) (And.imp_left .inr)
      | error i' =>
        rw [effect] at h
        cases h
        refine (heeds.interrupted effect).imp (And.imp_left .inl) ?_
        rintro ⟨number, bad, told⟩
        exact ⟨.inl ⟨number, bad⟩, told⟩

/-- If nothing interrupts the reading of tokens, there is no slip among them, and no plain or other
argument is lost. -/
theorem read_of_ok (heeds : Heeds act isHelp isNumber) (h : readTokens act r tokens = .ok r') :
    (∀ t ∈ tokens, ¬ IsSlip isNumber t) ∧
      (r'.words = [] ↔ r.words = [] ∧ ∀ t ∈ tokens, ¬ IsWord t) ∧
      (r'.extras = [] ↔ r.extras = [] ∧ ∀ t ∈ tokens, ¬ IsExtra t) := by
  -- The reading so far is general, since each token adds to what the rest starts from.
  induction tokens generalizing r with
  | nil =>
    cases h
    simp
  | cons t tokens ih =>
    simp only [List.forall_mem_cons]
    cases t with
    | word text | extra text =>
      obtain ⟨clean, words, extras⟩ := ih h
      simpa [IsSlip, IsWord, IsExtra, words, extras] using clean
    | wrong s problem => cases h
    | use s value =>
      rw [readTokens] at h
      cases effect : act r.options s value with
      | error i =>
        rw [effect] at h
        cases h
      | ok o =>
        rw [effect] at h
        obtain ⟨clean, words, extras⟩ := ih h
        have number := heeds.read effect
        simpa [IsSlip, IsWord, IsExtra, words, extras] using ⟨number, clean⟩

end Tokens

/-! ### The switches -/

/-- The switches of the toolkit as a whole that call for help or for the version. -/
def GlobalKey.isHelp : GlobalKey → Bool
  | help | version => true
  | _ => false

/-- The switch of a run that calls for help. -/
def RunKey.isHelp : RunKey → Bool
  | help => true
  | _ => false

/-- The switches of a run that take a number. -/
def RunKey.isNumber : RunKey → Bool
  | input | maxSteps => true
  | _ => false

/-- The switch of a listing that calls for help. -/
def DisasmKey.isHelp : DisasmKey → Bool
  | help => true
  | _ => false

/-- The switches of a listing that take a number. -/
def DisasmKey.isNumber : DisasmKey → Bool
  | start | count => true
  | _ => false

theorem heeds_globalSwitch : Heeds globalSwitch GlobalKey.isHelp fun _ => false where
  interrupted {o s value i} h := by
    unfold globalSwitch at h
    cases key : s.key with
    | help | version =>
      rw [key] at h
      cases h
      exact .inl ⟨rfl, rfl⟩
    | verbose | quiet | logFile =>
      rw [key] at h
      cases h
  read _ number := by cases number

/-- A switch that takes a number interrupts the reading only if there is none. -/
theorem interrupted_of_number {κ α : Type} {s : Switch κ} {value : Option String}
    {f : Given Int → α} {i : Interruption}
    (h : (do return f (← intValue s value) : Except Interruption α) = .error i) :
    ¬ IsInteger value ∧ i.isMistake := by
  cases read : intValue s value with
  | error i' =>
    rw [read] at h
    cases h
    exact intValue_eq_error read
  | ok n =>
    rw [read] at h
    cases h

theorem isInteger_of_number {κ α : Type} {s : Switch κ} {value : Option String}
    {f : Given Int → α} {o : α}
    (h : (do return f (← intValue s value) : Except Interruption α) = .ok o) :
    IsInteger value := by
  cases read : intValue s value with
  | error i =>
    rw [read] at h
    cases h
  | ok n => exact isInteger_of_intValue read

theorem heeds_runSwitch : Heeds runSwitch RunKey.isHelp RunKey.isNumber where
  interrupted {o s value i} h := by
    unfold runSwitch at h
    cases key : s.key with
    | help =>
      rw [key] at h
      cases h
      exact .inl ⟨rfl, rfl⟩
    | input | maxSteps =>
      rw [key] at h
      exact .inr ⟨rfl, interrupted_of_number h⟩
    | console | trace | dump =>
      rw [key] at h
      cases h
  read {o o' s value} h number := by
    unfold runSwitch at h
    cases key : s.key with
    | input | maxSteps =>
      rw [key] at h
      exact isInteger_of_number h
    | help | console | trace | dump =>
      rw [key] at number
      cases number

theorem heeds_disasmSwitch : Heeds disasmSwitch DisasmKey.isHelp DisasmKey.isNumber where
  interrupted {o s value i} h := by
    unfold disasmSwitch at h
    cases key : s.key with
    | help =>
      rw [key] at h
      cases h
      exact .inl ⟨rfl, rfl⟩
    | start | count =>
      rw [key] at h
      exact .inr ⟨rfl, interrupted_of_number h⟩
  read {o o' s value} h number := by
    unfold disasmSwitch at h
    cases key : s.key with
    | start | count =>
      rw [key] at h
      exact isInteger_of_number h
    | help =>
      rw [key] at number
      cases number

theorem heeds_infoSwitch : Heeds infoSwitch (fun _ => true) fun _ => false where
  interrupted h := by
    cases h
    exact .inl ⟨rfl, rfl⟩
  read _ number := by cases number

/-! ### The arguments of a command -/

/-- A request that is a mistake. -/
def Request.isMistake : Request → Bool
  | mistake .. => true
  | _ => false

/-- A request for help or for the version. -/
def Request.informs : Request → Bool
  | help _ | version => true
  | _ => false

theorem isMistake_request (topic : Topic) {i : Interruption} (h : i.isMistake) :
    (i.request topic).isMistake := by
  cases i with
  | mistake message => rfl
  | help | version => cases h

theorem informs_request (topic : Topic) {i : Interruption} (h : i.isMistake = false) :
    (i.request topic).informs := by
  cases i with
  | mistake message => cases h
  | help | version => rfl

/-- A request gives information if there is a call for help, is a mistake if there is an error, and
otherwise gets to work. With both a call for help and an error, the one that comes first counts. -/
def Request.Answers (request : Request) (help error : Prop) : Prop :=
  request.informs ∧ help ∨ request.isMistake ∧ error ∨ (∃ g j, request = .job g j) ∧ ¬ error

theorem Request.Answers.imp {request : Request} {help help' error error' : Prop}
    (h : request.Answers help error) (helped : help → help') (same : error ↔ error') :
    request.Answers help' error' := by
  rw [Request.Answers, same] at h
  exact h.imp_left (And.imp_right helped)

section Command

variable {κ α : Type} (switches : List (Switch κ)) (isHelp isNumber : κ → Bool)
  (arguments : List String)

/-- The arguments of a command are scanned into some tokens. -/
def Scanned (tokens : List (Token κ)) : Prop :=
  ∃ a, Arguments.ofList switches arguments = .ok a ∧
    scanOne switches a.after true a.shaped = tokens

/-- What is wrong with the arguments of a command: a switch that may stand for several, a slip, no
program, or an argument that nothing takes, such as an unknown switch. -/
inductive Misread : Prop
  | ambiguous {a : Ambiguous} (shapes : Arguments.ofList switches arguments = .error a)
  | slip {tokens : List (Token κ)} (scanned : Scanned switches arguments tokens)
      (found : ∃ t ∈ tokens, IsSlip isNumber t)
  | noProgram {tokens : List (Token κ)} (scanned : Scanned switches arguments tokens)
      (missing : ∀ t ∈ tokens, ¬ IsWord t)
  | unknown {tokens : List (Token κ)} (scanned : Scanned switches arguments tokens)
      (found : ∃ t ∈ tokens, IsExtra t)

/-- The arguments of a command call for help. -/
def Consulted : Prop :=
  ∃ tokens, Scanned switches arguments tokens ∧ ∃ t ∈ tokens, IsHelp isHelp t

variable {switches isHelp isNumber arguments}
  {act : α → Switch κ → Option String → Except Interruption α} {topic : Topic} {options : α}
  {job : α → String → Job} {globals : Reading Globals}

theorem Scanned.unique {tokens tokens' : List (Token κ)}
    (h : Scanned switches arguments tokens) (h' : Scanned switches arguments tokens') :
    tokens = tokens' := by
  obtain ⟨a, shapes, rfl⟩ := h
  obtain ⟨a', shapes', rfl⟩ := h'
  cases shapes.symm.trans shapes'
  rfl

/-- Nothing is wrong with arguments that were read without a slip, with a program and nothing left
over. -/
theorem not_misread {tokens : List (Token κ)} (scanned : Scanned switches arguments tokens)
    (clean : ∀ t ∈ tokens, ¬ IsSlip isNumber t) (program : ¬ ∀ t ∈ tokens, ¬ IsWord t)
    (clear : ∀ t ∈ tokens, ¬ IsExtra t) : ¬ Misread switches isNumber arguments := by
  intro misread
  cases misread with
  | ambiguous shapes =>
    obtain ⟨a, shapes', -⟩ := scanned
    cases shapes.symm.trans shapes'
  | slip scanned' found =>
    cases scanned.unique scanned'
    obtain ⟨t, found, slip⟩ := found
    exact clean t found slip
  | noProgram scanned' missing =>
    cases scanned.unique scanned'
    exact program missing
  | unknown scanned' found =>
    cases scanned.unique scanned'
    obtain ⟨t, found, extra⟩ := found
    exact clear t found extra

/-- A command answers a call for help among its arguments, makes a mistake of them if something is
wrong with them or something was left over before it, or else gets to work. -/
theorem commandRequest_answers (heeds : Heeds act isHelp isNumber) :
    (commandRequest topic switches act options job globals arguments).Answers
      (Consulted switches isHelp arguments)
      (Misread switches isNumber arguments ∨ globals.extras ≠ []) := by
  unfold commandRequest
  cases shapes : Arguments.ofList switches arguments with
  | error a => exact .inr (.inl ⟨rfl, .inl (.ambiguous shapes)⟩)
  | ok a =>
    have scanned : Scanned switches arguments (scanOne switches a.after true a.shaped) :=
      ⟨a, shapes, rfl⟩
    dsimp only
    cases reading : readTokens act ⟨options, [], []⟩ (scanOne switches a.after true a.shaped) with
    | error i =>
      rcases interrupted_of_error heeds reading with ⟨help, told⟩ | ⟨slip, told⟩
      · exact .inl ⟨informs_request topic told, _, scanned, help⟩
      · exact .inr (.inl ⟨isMistake_request topic told, .inl (.slip scanned slip)⟩)
    | ok r =>
      obtain ⟨clean, words, extras⟩ := read_of_ok heeds reading
      simp only [true_and] at words extras
      dsimp only
      cases program : r.words with
      | nil => exact .inr (.inl ⟨rfl, .inl (.noProgram scanned (words.mp program))⟩)
      | cons path rest =>
        have present : r.words ≠ [] := by
          rw [program]
          exact List.cons_ne_nil _ _
        rw [ne_eq, words] at present
        dsimp only
        -- Both what was left over before and what is left over now is complained about at the end.
        cases left : globals.extras ++ r.extras with
        | nil =>
          obtain ⟨before, after⟩ := List.append_eq_nil_iff.mp left
          refine .inr (.inr ⟨⟨_, _, rfl⟩, ?_⟩)
          rintro (misread | some)
          · exact not_misread scanned clean present (extras.mp after) misread
          · exact some before
        | cons text texts =>
          refine .inr (.inl ⟨rfl, ?_⟩)
          by_cases before : globals.extras = []
          · have after : r.extras ≠ [] := by
              intro none
              rw [before, none] at left
              cases left
            rw [ne_eq, extras] at after
            exact .inl (.unknown scanned (by simpa using after))
          · exact .inr before

end Command

/-! ### Whole command lines -/

/-- A command line is scanned into the switches of the toolkit as a whole and perhaps a command. -/
def Invokes (arguments : List String) (tokens : List (Token GlobalKey))
    (invocation : Option Invocation) : Prop :=
  ∃ a, Arguments.ofList globalSwitches arguments = .ok a ∧
    scanCommand globalSwitches a.after a.shaped = (tokens, invocation)

theorem Invokes.unique {arguments : List String} {tokens tokens' : List (Token GlobalKey)}
    {invocation invocation' : Option Invocation} (h : Invokes arguments tokens invocation)
    (h' : Invokes arguments tokens' invocation') : tokens = tokens' ∧ invocation = invocation' := by
  obtain ⟨a, shapes, scan⟩ := h
  obtain ⟨a', shapes', scan'⟩ := h'
  cases shapes.symm.trans shapes'
  exact Prod.mk.inj (scan.symm.trans scan')

/-- Something is wrong with a command: its arguments are misread, or there is no such command. -/
def CommandError (c : Invocation) : Prop :=
  match c.name with
  | "run" => Misread runSwitches RunKey.isNumber c.arguments
  | "disasm" => Misread disasmSwitches DisasmKey.isNumber c.arguments
  | "info" => Misread infoSwitches (fun _ => false) c.arguments
  | _ => True

/-- The arguments of a command call for help. -/
def CommandHelp (c : Invocation) : Prop :=
  match c.name with
  | "run" => Consulted runSwitches RunKey.isHelp c.arguments
  | "disasm" => Consulted disasmSwitches DisasmKey.isHelp c.arguments
  | "info" => Consulted infoSwitches (fun _ => true) c.arguments
  | _ => False

/-- A command line that cannot be understood: a switch of it may stand for several, is used wrongly
or is unknown, or something is wrong with the command. -/
inductive UsageError (arguments : List String) : Prop
  | ambiguous {a : Ambiguous} (shapes : Arguments.ofList globalSwitches arguments = .error a)
  | misused {tokens : List (Token GlobalKey)} {invocation : Option Invocation}
      (scanned : Invokes arguments tokens invocation)
      (found : ∃ t ∈ tokens, IsSlip (fun _ => false) t)
  | unknown {tokens : List (Token GlobalKey)} {invocation : Option Invocation}
      (scanned : Invokes arguments tokens invocation) (found : ∃ t ∈ tokens, IsExtra t)
  | command {tokens : List (Token GlobalKey)} {invocation : Invocation}
      (scanned : Invokes arguments tokens invocation) (error : CommandError invocation)

/-- A command line that calls for help or for the version. -/
inductive CallsForHelp (arguments : List String) : Prop
  | toolkit {tokens : List (Token GlobalKey)} {invocation : Option Invocation}
      (scanned : Invokes arguments tokens invocation)
      (found : ∃ t ∈ tokens, IsHelp GlobalKey.isHelp t)
  | command {tokens : List (Token GlobalKey)} {invocation : Invocation}
      (scanned : Invokes arguments tokens invocation) (help : CommandHelp invocation)

theorem commandError_of_unknown {c : Invocation} (run : c.name ≠ "run")
    (disasm : c.name ≠ "disasm") (info : c.name ≠ "info") : CommandError c := by
  unfold CommandError
  split
  · rename_i named
    exact absurd named run
  · rename_i named
    exact absurd named disasm
  · rename_i named
    exact absurd named info
  · trivial

theorem namedRequest_of_unknown (globals : Reading Globals) {c : Invocation} (run : c.name ≠ "run")
    (disasm : c.name ≠ "disasm") (info : c.name ≠ "info") :
    (namedRequest globals c).isMistake := by
  unfold namedRequest
  dsimp only
  split
  · rename_i named
    exact absurd named run
  · rename_i named
    exact absurd named disasm
  · rename_i named
    exact absurd named info
  · rfl

/-- The request of a command, by its name. -/
theorem namedRequest_answers (globals : Reading Globals) (c : Invocation) :
    (namedRequest globals c).Answers (CommandHelp c) (CommandError c ∨ globals.extras ≠ []) := by
  by_cases run : c.name = "run"
  · obtain ⟨name, arguments⟩ := c
    cases run
    exact commandRequest_answers heeds_runSwitch
  · by_cases disasm : c.name = "disasm"
    · obtain ⟨name, arguments⟩ := c
      cases disasm
      exact commandRequest_answers heeds_disasmSwitch
    · by_cases info : c.name = "info"
      · obtain ⟨name, arguments⟩ := c
        cases info
        change (commandRequest .info infoSwitches infoSwitch () (fun _ => .info) globals
          arguments).Answers (Consulted infoSwitches _ arguments)
            (Misread infoSwitches _ arguments ∨ _)
        exact commandRequest_answers heeds_infoSwitch
      · exact .inr (.inl ⟨namedRequest_of_unknown globals run disasm info,
          .inl (commandError_of_unknown run disasm info)⟩)

/-- There is no error in a command line that was read without a slip, with nothing left over, unless
it is in the command. -/
theorem not_usageError {arguments : List String} {tokens : List (Token GlobalKey)}
    {invocation : Option Invocation} (scanned : Invokes arguments tokens invocation)
    (clean : ∀ t ∈ tokens, ¬ IsSlip (fun _ => false) t) (clear : ∀ t ∈ tokens, ¬ IsExtra t)
    (right : ∀ c, invocation = some c → ¬ CommandError c) : ¬ UsageError arguments := by
  intro error
  cases error with
  | ambiguous shapes =>
    obtain ⟨a, shapes', -⟩ := scanned
    cases shapes.symm.trans shapes'
  | misused scanned' found =>
    obtain ⟨t, found, slip⟩ := found
    obtain ⟨rfl, -⟩ := scanned.unique scanned'
    exact clean t found slip
  | unknown scanned' found =>
    obtain ⟨t, found, extra⟩ := found
    obtain ⟨rfl, -⟩ := scanned.unique scanned'
    exact clear t found extra
  | command scanned' error => exact right _ (scanned.unique scanned').2 error

/-- The request of a command line whose own switches do not settle it already is nothing or a
mistake without a command, and with a command it is that of the command. -/
theorem ofArguments_of_invokes {arguments : List String} {tokens : List (Token GlobalKey)}
    {invocation : Option Invocation} (scanned : Invokes arguments tokens invocation) :
    let request := Request.ofArguments arguments
    request.informs ∧ CallsForHelp arguments ∨ request.isMistake ∧ UsageError arguments ∨
      ∃ r : Reading Globals, (∀ t ∈ tokens, ¬ IsSlip (fun _ => false) t) ∧
        (r.extras = [] ↔ ∀ t ∈ tokens, ¬ IsExtra t) ∧
        (invocation = none → r.extras = [] ∧ request = .nothing ∨
          r.extras ≠ [] ∧ request.isMistake) ∧
        ∀ c, invocation = some c → request = namedRequest r c := by
  intro request
  subst request
  have ⟨a, shapes, scan⟩ := scanned
  unfold Request.ofArguments
  rw [shapes]
  dsimp only
  rw [scan]
  dsimp only
  cases reading : readTokens globalSwitch ⟨⟨0, false, none⟩, [], []⟩ tokens with
  | error i =>
    rcases interrupted_of_error heeds_globalSwitch reading with ⟨help, told⟩ | ⟨slip, told⟩
    · exact .inl ⟨informs_request _ told, .toolkit scanned help⟩
    · exact .inr (.inl ⟨isMistake_request _ told, .misused scanned slip⟩)
  | ok r =>
    -- The switches say nothing more, so all depends on the command and on what is left over.
    obtain ⟨clean, -, extras⟩ := read_of_ok heeds_globalSwitch reading
    simp only [true_and] at extras
    refine .inr (.inr ⟨r, clean, extras, ?_, ?_⟩)
    · rintro rfl
      dsimp only
      cases r.extras with
      | nil => exact .inl ⟨rfl, rfl⟩
      | cons text texts => exact .inr ⟨List.cons_ne_nil _ _, rfl⟩
    · rintro c rfl
      rfl

/-- The request of a command line answers it, unless there is nothing to answer. -/
theorem ofArguments_answers (arguments : List String) :
    (Request.ofArguments arguments).Answers (CallsForHelp arguments) (UsageError arguments) ∨
      Request.ofArguments arguments = .nothing ∧ ¬ UsageError arguments := by
  cases shapes : Arguments.ofList globalSwitches arguments with
  | error a =>
    refine .inl (.inr (.inl ⟨?_, .ambiguous shapes⟩))
    unfold Request.ofArguments
    rw [shapes]
    rfl
  | ok a =>
    rcases scan : scanCommand globalSwitches a.after a.shaped with ⟨tokens, invocation⟩
    have scanned : Invokes arguments tokens invocation := ⟨a, shapes, scan⟩
    rcases ofArguments_of_invokes scanned with help | mistake | ⟨r, clean, extras, none, some⟩
    · exact .inl (.inl help)
    · exact .inl (.inr (.inl mistake))
    · cases invocation with
      | none =>
        rcases none rfl with ⟨clear, request⟩ | ⟨left, request⟩
        · exact .inr ⟨request, not_usageError scanned clean (extras.mp clear) (by simp)⟩
        · rw [ne_eq, extras] at left
          exact .inl (.inr (.inl ⟨request, .unknown scanned (by simpa using left)⟩))
      | some c =>
        refine .inl ?_
        rw [some c rfl]
        refine (namedRequest_answers r c).imp (.command scanned) ⟨?_, ?_⟩
        · rintro (error | left)
          · exact .command scanned error
          · rw [ne_eq, extras] at left
            exact .unknown scanned (by simpa using left)
        · intro error
          by_contra right
          rw [not_or, not_not] at right
          refine not_usageError scanned clean (extras.mp right.2) ?_ error
          rintro c' same
          cases same
          exact right.1

/-- A command line without a command, without an error and without a call for help asks for nothing.
-/
theorem ofArguments_of_no_command {arguments : List String} {tokens : List (Token GlobalKey)}
    (scanned : Invokes arguments tokens none) (right : ¬ UsageError arguments)
    (silent : ¬ CallsForHelp arguments) : Request.ofArguments arguments = .nothing := by
  rcases ofArguments_of_invokes scanned with ⟨-, help⟩ | ⟨-, error⟩ | ⟨r, clean, extras, none, -⟩
  · exact absurd help silent
  · exact absurd error right
  · rcases none rfl with ⟨-, request⟩ | ⟨left, -⟩
    · exact request
    · rw [ne_eq, extras] at left
      exact absurd (.unknown scanned (by simpa using left)) right

/-- A command line is an error if its request is a mistake. -/
theorem usageError_of_isMistake {arguments : List String}
    (h : (Request.ofArguments arguments).isMistake) : UsageError arguments := by
  rcases ofArguments_answers arguments with (⟨informs, -⟩ | ⟨-, error⟩ | ⟨⟨g, j, job⟩, -⟩) |
    ⟨nothing, -⟩
  · generalize Request.ofArguments arguments = request at h informs
    cases request with
    | mistake => cases informs
    | _ => cases h
  · exact error
  · rw [job] at h
    cases h
  · rw [nothing] at h
    cases h

/-- The request of a command line with an error is a mistake, unless a call for help is answered. -/
theorem request_of_usageError {arguments : List String} (error : UsageError arguments) :
    (Request.ofArguments arguments).isMistake ∨
      CallsForHelp arguments ∧ (Request.ofArguments arguments).informs := by
  rcases ofArguments_answers arguments with (⟨informs, help⟩ | ⟨mistake, -⟩ | ⟨-, right⟩) |
    ⟨-, right⟩
  · exact .inr ⟨help, informs⟩
  · exact .inl mistake
  · exact absurd error right
  · exact absurd error right

end Intcode.Toolkit
