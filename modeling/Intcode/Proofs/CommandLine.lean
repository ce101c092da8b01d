import Mathlib.Data.List.TakeWhile
import Intcode.CommandLine.Scan
import Intcode.Proofs.Numeral

/-!
# Command lines that are read as they were meant

A decimal text is a plain argument whatever its sign, unless some switch has a digit for its letter:
it begins with a digit, or it is a negative number and the beginning of no name. So a switch may be
followed by any number as its value. A command line of one word and of such settings is scanned into
that word and those settings, in order.

## Main definitions

* `CommandLine.Lettered` — switches whose names have no digit after the dash
* `CommandLine.Shaped` — arguments with the shapes that they have
* `CommandLine.Setting` — a switch by one of its names, followed by its value

## Main results

* `CommandLine.shape_decimal` — decimal texts are plain
* `CommandLine.scanCommand_plain` — the first plain argument takes all the rest
* `CommandLine.scanOne_word_settings` — a word and settings are scanned in order
-/

namespace Intcode.CommandLine

variable {κ : Type} {switches : List (Switch κ)}

/-! ### Shapes -/

/-- An argument that begins with no dash is plain. -/
theorem shape_of_undashed {argument : String} (h : argument.toList.head? ≠ some '-') :
    shape switches argument = .ok .plain := by
  unfold shape
  cases text : argument.toList with
  | nil => rfl
  | cons c rest =>
    rw [text] at h
    dsimp only
    split
    · rename_i same
      cases same
      exact absurd rfl h
    · rfl

/-- Switches whose names have no digit right after the dash. -/
def Lettered (switches : List (Switch κ)) : Prop :=
  ∀ item ∈ namesOf switches, ¬ item.1[1]?.any Char.isDigit

instance (switches : List (Switch κ)) : Decidable (Lettered switches) :=
  List.decidableBAll _ (namesOf switches)

/-- No name begins like a negative number. -/
theorem Lettered.not_prefix (lettered : Lettered switches) {item : List Char × Switch κ}
    (found : item ∈ namesOf switches) {d : Char} (digit : d.isDigit) (rest : List Char) :
    ¬ '-' :: d :: rest <+: item.1 := by
  rintro ⟨tail, same⟩
  refine lettered item found ?_
  rw [← same]
  exact digit

theorem find?_negative (lettered : Lettered switches) {d : Char} (digit : d.isDigit)
    (rest : List Char) : find? switches ('-' :: d :: rest) = none := by
  unfold find?
  rw [Option.map_eq_none_iff, List.find?_eq_none]
  intro item found same
  exact lettered.not_prefix found digit rest (by simp [of_decide_eq_true same])

theorem candidates_negative (lettered : Lettered switches) {d : Char} (digit : d.isDigit)
    (rest : List Char) : candidates switches ('-' :: d :: rest) = [] := by
  have short : d ≠ '-' := by
    rintro rfl
    exact absurd digit (by decide)
  unfold candidates
  split
  · rename_i same
    cases same
    exact absurd rfl short
  · rw [List.filterMap_eq_nil_iff]
    intro item found
    have unlike := lettered.not_prefix found digit
    rw [if_neg, if_neg]
    · exact fun longer => unlike rest (List.isPrefixOf_iff_prefix.mp longer)
    · exact fun same => unlike [] (by simp [same])

theorem isNegativeNumber_of_digits {number : List Char} (digits : ∀ c ∈ number, c.isDigit)
    (full : number ≠ []) : isNegativeNumber ('-' :: number) = true := by
  have last : ('-' :: number).getLast? ≠ some '\n' := by
    intro feed
    rcases List.mem_cons.mp (List.mem_of_getLast? feed) with minus | found
    · exact absurd minus (by decide)
    · exact absurd (digits _ found) (by decide)
  have all : isDigits number = true := by
    simp only [isDigits, Bool.and_eq_true, Bool.not_eq_true', List.isEmpty_eq_false_iff,
      List.all_eq_true]
    exact ⟨full, fun c found => by rw [Numeral.digit?_of_isDigit (digits c found)]; rfl⟩
  unfold isNegativeNumber
  rw [if_neg last]
  simp [all]

theorem cutEquals_of_not_mem {argument : List Char} (h : '=' ∉ argument) :
    cutEquals argument = (argument, none) := by
  have uncut : argument.dropWhile (· ≠ '=') = [] := by
    rw [List.dropWhile_eq_nil_iff]
    intro c found
    simpa using ne_of_mem_of_not_mem found h
  unfold cutEquals
  rw [uncut]

/-- A decimal text is plain, if no switch has a digit for its letter. -/
theorem shape_decimal (lettered : Lettered switches) (n : Int) :
    shape switches (Numeral.decimal n) = .ok .plain := by
  have uncut : '=' ∉ (Numeral.decimal n).toList := by
    intro found
    exact absurd (Numeral.isPlain_of_mem_decimal found) (by decide)
  have digits := Numeral.isDigit_of_mem_toDigits (k := n.natAbs)
  have text := Numeral.toList_decimal n
  obtain ⟨d, rest, first⟩ :=
    List.exists_cons_of_ne_nil (Nat.toDigits_ne_nil (n := n.natAbs) (b := 10))
  rw [first] at digits text
  have digit := digits d List.mem_cons_self
  by_cases negative : n < 0
  · rw [if_pos negative] at text
    rw [text] at uncut
    unfold shape
    rw [text]
    simp only [find?_negative lettered digit, dashedShape, cutEquals_of_not_mem uncut,
      candidates_negative lettered digit, isNegativeNumber_of_digits digits (by simp)]
    simp
  · rw [if_neg negative] at text
    apply shape_of_undashed
    rw [text]
    intro minus
    cases minus
    exact absurd digit (by decide)

theorem decimal_ne_dashes (n : Int) : Numeral.decimal n ≠ "--" := by
  intro same
  have plain : shape ([] : List (Switch Unit)) (Numeral.decimal n) = .ok .plain :=
    shape_decimal (by simp [Lettered, namesOf]) n
  rw [same] at plain
  cases plain

/-! ### Arguments without a double dash -/

/-- Arguments with shapes that they have, none of them a double dash. -/
def Shaped (switches : List (Switch κ)) (shaped : List (String × Shape κ)) : Prop :=
  ∀ item ∈ shaped, item.1 ≠ "--" ∧ shape switches item.1 = .ok item.2

theorem ofList_of_shaped {shaped : List (String × Shape κ)} (h : Shaped switches shaped) :
    Arguments.ofList switches (shaped.map (·.1)) = .ok ⟨shaped, none⟩ := by
  have undashed : ∀ a ∈ shaped.map (·.1), decide (a ≠ "--") = true := by
    intro a found
    obtain ⟨item, present, rfl⟩ := List.mem_map.mp found
    exact decide_eq_true (h item present).1
  have shapes : (shaped.map (·.1)).mapM (fun a => do return (a, ← shape switches a)) =
      (.ok shaped : Except Ambiguous _) := by
    clear undashed
    induction shaped with
    | nil => rfl
    | cons item shaped ih =>
      have known := (h item List.mem_cons_self).2
      rw [List.map_cons, List.mapM_cons, known, ih fun item found => h item (.tail _ found)]
      rfl
  unfold Arguments.ofList
  rw [List.takeWhile_eq_self_iff.mpr undashed, List.dropWhile_eq_nil_iff.mpr undashed, shapes]
  rfl

/-- The first plain argument takes all the rest, as it was given. -/
theorem scanCommand_plain {name : String} {shaped : List (String × Shape κ)} :
    scanCommand switches none ((name, .plain) :: shaped) =
      ([], some ⟨name, shaped.map (·.1)⟩) := by
  simp [scanCommand, texts]

/-! ### Settings -/

/-- A switch by one of its names, followed by its value. -/
structure Setting (κ : Type) where
  switch : Switch κ
  name : String
  value : String

/-- The two arguments of a setting, its value plain. -/
def Setting.arguments {κ' : Type} (s : Setting κ) (shape : Shape κ') : List (String × Shape κ') :=
  [(s.name, shape), (s.value, .plain)]

/-- The shape of the name of a setting among the switches that it belongs to. -/
def Setting.known (s : Setting κ) : Shape κ := .known ⟨s.switch, s.name.toList, none⟩

/-- The two arguments of a setting as they are given. -/
def Setting.texts (s : Setting κ) : List String := [s.name, s.value]

theorem map_flatMap_arguments {κ' : Type} (settings : List (Setting κ)) (f : Setting κ → Shape κ') :
    (settings.flatMap fun s => s.arguments (f s)).map (·.1) = settings.flatMap Setting.texts := by
  rw [List.map_flatMap]
  rfl

/-- What a scan makes of a setting. -/
def Setting.token (s : Setting κ) : Token κ := .use s.switch (some s.value)

/-- Settings to numbers have their shapes, if their names do. -/
theorem shaped_settings {κ' : Type} (lettered : Lettered switches) {settings : List (Setting κ')}
    {shapeOf : Setting κ' → Shape κ}
    (names : ∀ s ∈ settings, s.name ≠ "--" ∧ shape switches s.name = .ok (shapeOf s))
    (values : ∀ s ∈ settings, ∃ n, s.value = Numeral.decimal n) :
    Shaped switches (settings.flatMap fun s => s.arguments (shapeOf s)) := by
  intro item found
  obtain ⟨s, member, found⟩ := List.mem_flatMap.mp found
  obtain ⟨n, value⟩ := values s member
  simp only [Setting.arguments, value, List.mem_cons, List.not_mem_nil, or_false] at found
  rcases found with rfl | rfl
  · exact names s member
  · exact ⟨decimal_ne_dashes n, shape_decimal lettered n⟩

/-- A switch that takes a value finds it in the next argument. -/
theorem takeSwitch_setting (switches : List (Switch κ)) {s : Setting κ}
    (takes : s.switch.takesValue) (rest : List (String × Shape κ)) :
    takeSwitch switches ⟨s.switch, s.name.toList, none⟩ ((s.value, .plain) :: rest) =
      ([s.token], rest) := by
  simp [takeSwitch, cluster, takes, Setting.token]

/-- Settings are scanned in order. -/
theorem scanOne_settings (switches : List (Switch κ)) {settings : List (Setting κ)}
    (take : ∀ s ∈ settings, s.switch.takesValue) :
    scanOne switches none false (settings.flatMap fun s => s.arguments s.known) =
      settings.map Setting.token := by
  induction settings with
  | nil => simp [scanOne]
  | cons s settings ih =>
    have first := takeSwitch_setting switches (take s List.mem_cons_self)
      (settings.flatMap fun s => s.arguments s.known)
    rw [List.flatMap_cons, Setting.arguments, List.cons_append, List.cons_append, List.nil_append,
      Setting.known, scanOne, first, ih fun s found => take s (.tail _ found)]
    rfl

/-- A word and settings after it are scanned in order. -/
theorem scanOne_word_settings {word : String} {settings : List (Setting κ)}
    (take : ∀ s ∈ settings, s.switch.takesValue) :
    scanOne switches none true
        ((word, .plain) :: settings.flatMap fun s => s.arguments s.known) =
      .word word :: settings.map Setting.token := by
  cases settings with
  | nil => simp [scanOne]
  | cons s settings =>
    have rest := scanOne_settings switches take
    rw [← rest, List.flatMap_cons, Setting.arguments, List.cons_append, scanOne]
    simp

end Intcode.CommandLine
