import Intcode.Numeral.Digit

/-!
# Switches

A command line offers switches, each with one or more names, short ones of one dash and a letter
and long ones of two dashes and a word. A long name may be cut short as long as it stays unique,
a value may be joined to any name by an equals sign and to a short one directly.

What an argument looks like is decided before anything is done with it: a switch, an unknown switch,
or a plain argument. Negative numbers and texts with spaces are plain.

## Main definitions

* `CommandLine.Switch` — a switch with the key that stands for it
* `CommandLine.Shape` — what an argument looks like
* `CommandLine.shape` — the shape of an argument among some switches
-/

namespace Intcode.CommandLine

/-- A switch: its key, its names, and whether it takes a value. -/
structure Switch (κ : Type) where
  key : κ
  names : List String
  takesValue : Bool
  deriving DecidableEq, Repr

/-- The names of a switch, as messages show them. -/
def Switch.label {κ : Type} (s : Switch κ) : String := "/".intercalate s.names

/-- A name of a switch found in an argument, and the text joined to it. -/
structure Match (κ : Type) where
  switch : Switch κ
  name : List Char
  joined : Option (List Char)
  deriving DecidableEq, Repr

/-- Whether the name is a short one. -/
def Match.isShort {κ : Type} (found : Match κ) : Bool :=
  (found.name.drop 1).head? ≠ some '-'

/-- What an argument looks like. -/
inductive Shape (κ : Type) where
  | plain
  | known (found : Match κ)
  | unknown
  deriving DecidableEq, Repr

/-- An argument that may be cut short from several names. -/
structure Ambiguous where
  argument : String
  names : List String
  deriving DecidableEq, Repr

/-- The wording for an ambiguous argument. -/
def Ambiguous.message (a : Ambiguous) : String :=
  "ambiguous option: " ++ a.argument ++ " could match " ++ ", ".intercalate a.names

variable {κ : Type}

/-- The names of some switches, in order, each with its switch. -/
def namesOf (switches : List (Switch κ)) : List (List Char × Switch κ) :=
  switches.flatMap fun s => s.names.map fun name => (name.toList, s)

/-- The switch of a name. -/
def find? (switches : List (Switch κ)) (name : List Char) : Option (Switch κ) :=
  ((namesOf switches).find? fun item => item.1 = name).map (·.2)

/-- An argument cut at its first equals sign. -/
def cutEquals (argument : List Char) : List Char × Option (List Char) :=
  match argument.dropWhile (· ≠ '=') with
  | [] => (argument, none)
  | _ :: value => (argument.takeWhile (· ≠ '='), some value)

/-- The names that an argument may be cut short from, or that a value is joined to. -/
def candidates (switches : List (Switch κ)) (argument : List Char) : List (Match κ) :=
  match argument with
  | '-' :: '-' :: _ =>
    let (stem, value) := cutEquals argument
    (namesOf switches).filterMap fun item =>
      if stem.isPrefixOf item.1 then some ⟨item.2, item.1, value⟩ else none
  | _ =>
    (namesOf switches).filterMap fun item =>
      if item.1 = argument.take 2 then some ⟨item.2, item.1, some (argument.drop 2)⟩
      else if argument.isPrefixOf item.1 then some ⟨item.2, item.1, none⟩
      else none

/-- Digits and at least one of them. -/
def isDigits (text : List Char) : Bool :=
  !text.isEmpty && text.all fun c => (Numeral.digit? c).isSome

/-- Whether an argument is a negative number, whole or with a decimal point. A line feed may follow
it. -/
def isNegativeNumber (argument : List Char) : Bool :=
  let body := if argument.getLast? = some '\n' then argument.dropLast else argument
  match body with
  | '-' :: number =>
    isDigits number ||
      match number.dropWhile (· ≠ '.') with
      | [] => false
      | _ :: fraction =>
        (number.takeWhile (· ≠ '.')).all (fun c => (Numeral.digit? c).isSome) && isDigits fraction
  | _ => false

/-- The shape of an argument with at least two characters that begins with a dash and is no name
as it stands. -/
def dashedShape (switches : List (Switch κ)) (argument : List Char) :
    Except Ambiguous (Shape κ) :=
  let (stem, value) := cutEquals argument
  match value, find? switches stem with
  | some text, some s => .ok (.known ⟨s, stem, some text⟩)
  | _, _ =>
    match candidates switches argument with
    | [found] => .ok (.known found)
    | [] =>
      if isNegativeNumber argument || argument.contains ' ' then .ok .plain else .ok .unknown
    | several =>
      .error ⟨String.ofList argument, several.map fun found => String.ofList found.name⟩

/-- The shape of an argument. -/
def shape (switches : List (Switch κ)) (argument : String) : Except Ambiguous (Shape κ) :=
  let text := argument.toList
  match text with
  | '-' :: rest =>
    match find? switches text with
    | some s => .ok (.known ⟨s, text, none⟩)
    | none => if rest.isEmpty then .ok .plain else dashedShape switches text
  | _ => .ok .plain

end Intcode.CommandLine
