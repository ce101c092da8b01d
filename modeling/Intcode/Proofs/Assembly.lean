import Intcode.Proofs.Encoding
import Intcode.Proofs.Histogram
import Intcode.Proofs.Literal
import Intcode.Proofs.Reload

/-!
# Assembly texts are unambiguous

The text of an instruction is its name in four columns, a space, and the operands with commas
between them; what blanks there are at the end is trimmed, so that an instruction without operands
is just its name. This text can be read again. The name ends at the first space, the operands are
what is left between the commas once the spaces are gone, and the mark of an operand says its mode.
So no two instructions have the same text, and none has that of a data cell, whose name is no
operation's.

## Main definitions

* `Operand.shown`, `Command.shown` — the texts of operands and instructions, however many digits
  they have
* `Operand.ofText?`, `Command.ofText?` — what such a text stands for

## Main results

* `Command.text?_eq_shown` — the text of an instruction whose numbers can be written
* `Command.ofText?_shown` — the text of an instruction is read as that instruction
* `Command.assembly_unambiguous` — different instructions and data cells have different texts
-/

namespace Intcode

/-! ### Texts with glue between them -/

namespace Text

variable {p : Char → Bool}

/-- Nothing is trimmed off a text that ends with a piece outside the class. -/
theorem trimEnd_append_of_forall_not {piece : List Char} (full : piece ≠ [])
    (h : ∀ c ∈ piece, ¬ p c) (text : List Char) : trimEnd p (text ++ piece) = text ++ piece := by
  have reversed : ∀ c ∈ (text ++ piece).reverse.head?, ¬ p c := by
    rw [List.head?_reverse, List.getLast?_append,
      Option.or_of_isSome (List.getLast?_isSome.mpr full)]
    exact fun c last => h c (List.mem_of_getLast? last)
  rw [trimEnd, Tight.dropWhile reversed, List.reverse_reverse]

/-- What is kept of joined texts is what is kept of each, between what is kept of the glue. -/
theorem filter_intercalate (glue : List Char) (texts : List (List Char)) :
    (glue.intercalate texts).filter p =
      (glue.filter p).intercalate (texts.map (List.filter p)) := by
  induction texts with
  | nil => rfl
  | cons text texts ih =>
    cases texts with
    | nil => simp
    | cons next texts =>
      rw [List.intercalate_cons_cons, List.filter_append, List.filter_append, ih, List.map_cons,
        List.map_cons, List.map_cons, List.intercalate_cons_cons]

end Text

/-! ### Operands -/

namespace Operand

variable {o : Operand Int} {c : Char}

/-- The text of an operand, with any number of digits. -/
def shown : Operand Int → List Char
  | immediate value => '#' :: (Numeral.decimal value).toList
  | position address => '[' :: (Numeral.decimal address).toList ++ [']']

/-- The operand that a text stands for. -/
def ofText? : List Char → Option (Operand Int)
  | '#' :: text => (Numeral.read? text).map immediate
  | '[' :: text =>
    if text.getLast? = some ']' then (Numeral.read? text.dropLast).map position else none
  | _ => none

theorem text?_eq_shown (short : Numeral.Writable o.raw) :
    o.text? = some (String.ofList o.shown) := by
  cases o with
  | immediate n | position n =>
    have digits : Numeral.write? n = some (Numeral.decimal n) := Numeral.write?_of_writable short
    rw [text?, textBy?, digits]
    refine congrArg some (String.toList_inj.mp ?_)
    simp [shown]

/-- The text of an operand is read as that operand. -/
theorem ofText?_shown (short : Numeral.Writable o.raw) : ofText? o.shown = some o := by
  cases o with
  | immediate value =>
    have value : Numeral.read? (Numeral.decimal value).toList = some value :=
      Numeral.read?_decimal short
    rw [shown, ofText?, value]
    rfl
  | position address =>
    have address : Numeral.read? (Numeral.decimal address).toList = some address :=
      Numeral.read?_decimal short
    rw [shown, List.cons_append, ofText?, if_pos (by simp), List.dropLast_concat, address]
    rfl

/-- An operand is a mark or two and a number. -/
theorem mem_shown (h : c ∈ o.shown) : c = '#' ∨ c = '[' ∨ c = ']' ∨ Numeral.isPlain c := by
  cases o with
  | immediate value =>
    rcases List.mem_cons.mp h with mark | digit
    · exact .inl mark
    · exact .inr (.inr (.inr (Numeral.isPlain_of_mem_decimal digit)))
  | position address =>
    rw [shown, List.cons_append, List.mem_cons, List.mem_append, List.mem_singleton] at h
    rcases h with mark | digit | mark
    · exact .inr (.inl mark)
    · exact .inr (.inr (.inr (Numeral.isPlain_of_mem_decimal digit)))
    · exact .inr (.inr (.inl mark))

theorem not_isBlank_of_mem_shown (h : c ∈ o.shown) : ¬ Text.isBlank c := by
  rcases mem_shown h with rfl | rfl | rfl | plain
  · decide
  · decide
  · decide
  · exact Numeral.not_isBlank_of_isPlain plain

theorem comma_not_mem_shown : ',' ∉ o.shown := by
  intro h
  rcases mem_shown h with mark | mark | mark | plain
  · exact absurd mark (by decide)
  · exact absurd mark (by decide)
  · exact absurd mark (by decide)
  · exact absurd plain (by decide)

theorem shown_ne_nil (o : Operand Int) : o.shown ≠ [] := by
  cases o <;> simp [shown]

end Operand

/-! ### Instructions -/

theorem Opcode.not_isBlank_of_mem_mnemonic (op : Opcode) {d : Char} (h : d ∈ op.mnemonic.toList) :
    ¬ Text.isBlank d := by
  have all : op.mnemonic.toList.all (fun d => !Text.isBlank d) = true := by
    cases op <;> decide
  simpa using List.all_eq_true.mp all d h

namespace Command

variable {c : Command Int}

/-- The operands of an instruction with commas between them. -/
def operandList (c : Command Int) : List Char :=
  [',', ' '].intercalate (c.operands.map Operand.shown)

/-- What follows the name in the text of an instruction: the rest of its four columns, a space and
the operands, if there are any. -/
def afterName (c : Command Int) : List Char :=
  if c.operands = [] then []
  else List.replicate (4 - c.mnemonic.length) ' ' ++ ' ' :: c.operandList

/-- The text of an instruction, with any number of digits: its name in four columns, a space and its
operands, without the blanks at the end. -/
def shown (c : Command Int) : String :=
  String.ofList <| Text.trimEnd Text.isBlank <|
    (Text.padRight 4 c.mnemonic).toList ++ ' ' :: c.operandList

/-- The texts of the operands in what follows the name of an instruction. -/
def operandTexts (text : List Char) : List (List Char) :=
  match text.filter (· ≠ ' ') with
  | [] => []
  | dense => dense.splitOn ','

/-- The instruction of an operation with the given operands. -/
def ofOperands? (op : Opcode) (operands : List (Operand Int)) : Option (Command Int) :=
  let modeAt (i : Nat) : Mode := (operands[i]?.map Operand.mode).getD .position
  ofWord? ⟨op, modeAt 0, modeAt 1, modeAt 2⟩ (operands.map Operand.raw)

/-- The instruction that a text stands for. -/
def ofText? (text : List Char) : Option (Command Int) := do
  let op ← Opcode.ofMnemonic? (String.ofList (text.takeWhile (· ≠ ' ')))
  let operands ← (operandTexts (text.dropWhile (· ≠ ' '))).mapM Operand.ofText?
  ofOperands? op operands

theorem ofOperands?_operands (c : Command Int) : ofOperands? c.opcode c.operands = some c :=
  ofWord?_raws (Word.spells_word c)

/-- The spaces after a name without operands are trimmed, and else nothing. -/
theorem toList_shown (c : Command Int) : c.shown.toList = c.mnemonic.toList ++ c.afterName := by
  rw [shown, String.toList_ofList, Text.padRight, String.toList_append, String.toList_ofList,
    afterName]
  by_cases bare : c.operands = []
  · have name : ∀ d ∈ c.mnemonic.toList, ¬ Text.isBlank d :=
      fun d => c.opcode.not_isBlank_of_mem_mnemonic
    have spaces : ∀ d ∈ List.replicate (4 - c.mnemonic.length) ' ' ++ [' '], Text.isBlank d := by
      intro d found
      rcases List.mem_append.mp found with column | gap
      · rw [List.eq_of_mem_replicate column]
        decide
      · rw [List.mem_singleton.mp gap]
        decide
    -- All that follows the name is blank, and the name is not.
    have none : c.operandList = [] := by rw [operandList, bare]; rfl
    rw [if_pos bare, none, List.append_assoc, Text.trimEnd_append spaces,
      Text.trimEnd_of_forall_not name, List.append_nil]
  · -- The text ends with an operand, and there is no blank in it.
    have present : c.operands.map Operand.shown ≠ [] := by simpa using bare
    obtain ⟨before, last, found, eq⟩ := Text.exists_intercalate_eq_append [',', ' '] present
    obtain ⟨o, -, rfl⟩ := List.mem_map.mp found
    have list : c.operandList = before ++ o.shown := eq
    rw [if_neg bare, list, ← List.cons_append, ← List.append_assoc,
      Text.trimEnd_append_of_forall_not o.shown_ne_nil fun d => Operand.not_isBlank_of_mem_shown]
    simp

/-- The text of an instruction whose numbers can be written. -/
theorem text?_eq_shown (short : ∀ o ∈ c.operands, Numeral.Writable o.raw) :
    c.text? = some c.shown := by
  have texts : c.operands.mapM (Operand.textBy? Numeral.write?) =
      some (c.operands.map fun o => String.ofList o.shown) :=
    mapM_eq_some_map fun o found => Operand.text?_eq_shown (short o found)
  rw [text?, textBy?, texts]
  refine congrArg some ?_
  simp [shown, operandList, String.toList_intercalate, Function.comp_def]

theorem ne_space_of_mem_mnemonic (c : Command Int) :
    ∀ d ∈ c.mnemonic.toList, decide (d ≠ ' ') = true := by
  intro d found
  refine decide_eq_true fun space => c.opcode.not_isBlank_of_mem_mnemonic found ?_
  rw [space]
  decide

/-- The first space of a text is where the name ends. -/
theorem head?_afterName (c : Command Int) : ∀ d ∈ c.afterName.head?, d = ' ' := by
  unfold afterName
  split
  · simp
  · -- The space is that of the padding, or the one after it.
    cases 4 - c.mnemonic.length <;> simp [List.replicate_succ]

/-- Without the spaces, there are the operands between commas. -/
theorem filter_afterName (c : Command Int) :
    c.afterName.filter (· ≠ ' ') = [','].intercalate (c.operands.map Operand.shown) := by
  have dense : (c.operands.map Operand.shown).map (List.filter (· ≠ ' ')) =
      c.operands.map Operand.shown := by
    rw [List.map_map]
    refine List.map_congr_left fun o _ => List.filter_eq_self.mpr fun d found => ?_
    refine decide_eq_true fun space => Operand.not_isBlank_of_mem_shown found ?_
    rw [space]
    decide
  have glue : [',', ' '].filter (· ≠ ' ') = [','] := by decide
  unfold afterName
  split
  · next bare => simp [bare]
  · rw [List.filter_append, List.filter_cons_of_neg (by simp), operandList, Text.filter_intercalate,
      glue, dense]
    simp

/-- The name of an instruction is cut out of its text. -/
theorem takeWhile_shown (c : Command Int) :
    c.shown.toList.takeWhile (· ≠ ' ') = c.mnemonic.toList := by
  have stop : c.afterName.takeWhile (· ≠ ' ') = [] := by
    rw [List.takeWhile_eq_nil_iff]
    intro present
    have first := c.head?_afterName _ (List.head?_eq_some_head (List.ne_nil_of_length_pos present))
    simpa [List.head_eq_getElem] using first
  rw [toList_shown, List.takeWhile_append_of_pos c.ne_space_of_mem_mnemonic, stop, List.append_nil]

/-- The texts of the operands are cut out of what follows the name. -/
theorem operandTexts_afterName (c : Command Int) :
    operandTexts c.afterName = c.operands.map Operand.shown := by
  rw [operandTexts, filter_afterName]
  by_cases bare : c.operands = []
  · rw [bare]
    rfl
  · have present : c.operands.map Operand.shown ≠ [] := by simpa using bare
    have full : [','].intercalate (c.operands.map Operand.shown) ≠ [] := by
      obtain ⟨before, last, found, eq⟩ := Text.exists_intercalate_eq_append [','] present
      obtain ⟨o, -, rfl⟩ := List.mem_map.mp found
      rw [eq]
      exact List.append_ne_nil_of_right_ne_nil before o.shown_ne_nil
    have commaless : ∀ text ∈ c.operands.map Operand.shown, ',' ∉ text := by
      intro text found
      obtain ⟨o, -, rfl⟩ := List.mem_map.mp found
      exact Operand.comma_not_mem_shown
    obtain ⟨d, rest, eq⟩ := List.exists_cons_of_ne_nil full
    rw [eq]
    dsimp only
    rw [← eq, List.splitOn_intercalate ',' commaless present]

/-- The text of an instruction is read as that instruction. -/
theorem ofText?_shown (short : ∀ o ∈ c.operands, Numeral.Writable o.raw) :
    ofText? c.shown.toList = some c := by
  have after : c.shown.toList.dropWhile (· ≠ ' ') = c.afterName := by
    rw [toList_shown, List.dropWhile_append_of_pos c.ne_space_of_mem_mnemonic, Text.Tight.dropWhile]
    intro d first
    simpa using c.head?_afterName d first
  have operands : (c.operands.map Operand.shown).mapM Operand.ofText? = some c.operands := by
    rw [List.mapM_map]
    refine (mapM_eq_some_map fun o found => ?_).trans (congrArg some c.operands.map_id')
    exact Operand.ofText?_shown (short o found)
  rw [ofText?, takeWhile_shown, String.ofList_toList, after, operandTexts_afterName, operands]
  change (Opcode.ofMnemonic? c.opcode.mnemonic >>= fun op => ofOperands? op c.operands) = some c
  rw [Opcode.ofMnemonic?_mnemonic]
  exact c.ofOperands?_operands

/-- A text that begins with the name of data is that of no instruction. -/
theorem ofText?_data (text : List Char) : ofText? ("DATA ".toList ++ text) = none := by
  have name : ("DATA ".toList ++ text).takeWhile (· ≠ ' ') = "DATA".toList := by simp
  have unknown : Opcode.ofMnemonic? "DATA" = none := by decide +kernel
  rw [ofText?, name, String.ofList_toList, unknown]
  rfl

/-- Every instruction whose numbers can be written has a text: its name in four columns, a space and
the operands with commas between them, without the blanks at the end. Two instructions with the same
text are the same, and no number makes the text of a data cell that of an instruction. -/
theorem assembly_unambiguous (c d : Command Int)
    (short : ∀ o ∈ c.operands, Numeral.Writable o.raw)
    (short' : ∀ o ∈ d.operands, Numeral.Writable o.raw) :
    c.text? = some c.shown ∧ d.text? = some d.shown ∧ (c.text? = d.text? → c = d) ∧
      (∀ n : Int, c.text? ≠ some ("DATA " ++ Numeral.decimal n)) ∧
      ∀ l : Listing.Line, l.command = none → c.text? ≠ l.assembly? := by
  have text := text?_eq_shown short
  have text' := text?_eq_shown short'
  have data : ∀ n : Int, c.text? ≠ some ("DATA " ++ Numeral.decimal n) := by
    intro n same
    have read := ofText?_shown short
    rw [Option.some.inj (text.symm.trans same), String.toList_append, ofText?_data] at read
    exact Option.some_ne_none c read.symm
  refine ⟨text, text', ?_, data, ?_⟩
  · intro same
    -- One text is read as both instructions.
    have shown : c.shown = d.shown := Option.some.inj (text.symm.trans (same.trans text'))
    have read := ofText?_shown short
    rw [shown, ofText?_shown short'] at read
    exact (Option.some.inj read).symm
  · intro l plain same
    rw [Listing.Line.assembly?, plain] at same
    dsimp only at same
    cases written : Numeral.write? l.cell with
    | none =>
      -- A cell that is too long has no text at all.
      rw [written, text] at same
      cases same
    | some digits =>
      rw [written, Numeral.eq_decimal_of_write? written] at same
      exact data l.cell same

/-- Two sums that differ in the mode of an operand only, with a negative number. -/
theorem assembly_unambiguous_mode :
    let c : Command Int := .compute .add (.immediate (-5)) (.position 7) (.position 0)
    let d : Command Int := .compute .add (.position (-5)) (.position 7) (.position 0)
    c.text? = some "ADD  #-5, [7], [0]" ∧ d.text? = some "ADD  [-5], [7], [0]" ∧
      c.text? ≠ d.text? ∧ c.text? ≠ some ("DATA " ++ Numeral.decimal (-5)) := by
  intro c d
  have short : ∀ o ∈ c.operands, Numeral.Writable o.raw := by decide +kernel
  have short' : ∀ o ∈ d.operands, Numeral.Writable o.raw := by decide +kernel
  obtain ⟨text, text', injective, data, -⟩ := assembly_unambiguous c d short short'
  refine ⟨text.trans ?_, text'.trans ?_, mt injective ?_, data (-5)⟩
  · decide +kernel
  · decide +kernel
  · decide

end Command

end Intcode
