import Intcode.Program.Load
import Intcode.Proofs.ProgramText
import Intcode.Proofs.Utf8

/-!
# A program file stands for its text

A file holds a text if its bytes are those of the text in UTF-8, and then they are read as this text
only. The carriage returns in it become line feeds before it is cut into lines, but every one of
them ends a line anyway, alone or with the line feed after it, so the lines are those of the text as
it was. Loading the file therefore gives what the text gives, be it a program or an error. A file
that holds no text gives no program.

## Main results

* `Utf8.eq_toUTF8_iff` — a file holds a text exactly if it is read as that text
* `Text.lines_unifyBreaks` — the lines of a text do not depend on how its line feeds are written
* `Program.load_eq_parse` — loading a file is reading its text
-/

namespace Intcode

/-! ### The bytes of a file -/

namespace Utf8

variable {content : ByteArray} {text : String}

theorem toList_loop {i : Nat} {done : List UInt8}
    (before : done = (content.data.toList.take i).reverse) :
    ByteArray.toList.loop content i done = content.data.toList := by
  fun_induction ByteArray.toList.loop content i done with
  | case1 i done inside ih =>
    have bound : i < content.data.toList.length := inside
    apply ih
    rw [List.take_succ_eq_append_getElem bound, List.reverse_append, ← before]
    simp [ByteArray.get!, inside]
  | case2 i done outside =>
    have bound : content.data.toList.length ≤ i := Nat.not_lt.mp outside
    rw [before, List.reverse_reverse, List.take_of_length_le bound]

theorem toList_eq (content : ByteArray) : content.toList = content.data.toList :=
  toList_loop rfl

theorem toList_toUTF8 (text : String) : text.toUTF8.toList = encode text.toList := by
  rw [String.toUTF8_eq_toByteArray, ← String.utf8Encode_toList, toList_eq]
  exact List.toList_data_toByteArray

/-- A file holds a text exactly if its bytes are read as that text. -/
theorem eq_toUTF8_iff : content = text.toUTF8 ↔ decode content.toList = .ok text.toList := by
  rw [decode_eq_ok_iff, ← toList_toUTF8]
  constructor
  · rintro rfl
    rfl
  · intro same
    rw [toList_eq, toList_eq, Array.toList_inj] at same
    exact ByteArray.ext same

end Utf8

/-! ### Line breaks -/

namespace Text

theorem linesFrom_unifyBreaks (line text : List Char) :
    linesFrom line (unifyBreaks text) = linesFrom line text := by
  have feed (line text : List Char) :
      linesFrom line ('\n' :: text) = line.reverse :: linesFrom [] text :=
    linesFrom_break (by decide) (by simp) line
  fun_induction unifyBreaks text generalizing line with
  | case1 => rfl
  | case2 text ih => rw [feed, ih, linesFrom]
  | case3 c text unpaired ih =>
    by_cases carriage : c = '\r'
    · subst carriage
      -- It has no line feed after it here, so it ends the line by itself.
      have alone : text.head? ≠ some '\n' := by
        intro next
        obtain ⟨rest, rfl⟩ := List.head?_eq_some_iff.mp next
        exact unpaired rest rfl rfl
      rw [if_pos rfl, feed, ih, linesFrom_break (by decide) fun both => alone both.2]
    · rw [if_neg carriage]
      by_cases broken : isLineBreak c
      · rw [linesFrom_break broken fun both => carriage both.1,
          linesFrom_break broken fun both => carriage both.1, ih]
      · rw [linesFrom_cons broken, linesFrom_cons broken, ih]

/-- The lines of a text do not depend on how its line feeds are written. -/
theorem lines_unifyBreaks (text : List Char) : lines (unifyBreaks text) = lines text :=
  linesFrom_unifyBreaks [] text

end Text

/-! ### Program files -/

namespace Program

variable {files : Files.Tree} {path : String} {place : List String} {content : ByteArray}

theorem parse_unifyBreaks (text : List Char) : parse (Text.unifyBreaks text) = parse text := by
  unfold parse tokens
  rw [Text.lines_unifyBreaks]

theorem ofBytes_of_decode {bytes : List UInt8} {text : List Char}
    (read : Utf8.decode bytes = .ok text) : ofBytes bytes = (parse text).mapError .format := by
  unfold ofBytes
  rw [read]
  exact congrArg (Except.mapError _) (parse_unifyBreaks text)

theorem load_of_located
    (there : files.locate (.ofString path) = .ok (.taken place (.file content))) :
    load files path = ofBytes content.toList := by
  unfold load Files.Tree.read
  rw [there]
  rfl

/-- Loading a file is reading its text. Take a path that leads to a file. If the file holds the
bytes of a text, whatever line breaks are in it, then it gives the program of the text, or the same
format error with the same message. If it holds the bytes of no text, loading fails for that reason,
and there is no program. -/
theorem load_eq_parse (files : Files.Tree) (path : String) {place : List String} {content : ByteArray}
    (there : files.locate (.ofString path) = .ok (.taken place (.file content))) :
    (∀ text : String, content = text.toUTF8 →
        load files path = (parse text.toList).mapError .format ∧
          (load files path).mapError LoadError.message =
            (parse text.toList).mapError FormatError.message) ∧
      ((∀ text : String, content ≠ text.toUTF8) →
        ∃ malformed, load files path = .error (.encoding malformed)) := by
  rw [load_of_located there]
  constructor
  · intro text holds
    rw [ofBytes_of_decode (Utf8.eq_toUTF8_iff.mp holds)]
    refine ⟨rfl, ?_⟩
    cases parse text.toList <;> rfl
  · intro textless
    cases read : Utf8.decode content.toList with
    | error malformed =>
      unfold ofBytes
      rw [read]
      exact ⟨malformed, rfl⟩
    | ok text =>
      refine absurd (Utf8.eq_toUTF8_iff.mpr ?_) (textless (String.ofList text))
      rw [read, String.toList_ofList]

/-- A file with breaks of four kinds, and one in which a surrogate is encoded. -/
theorem load_eq_parse_breaks :
    let text := "1,-2,\r\n\r\r\n3,\u2028 4\r5\n"
    let broken : ByteArray := ⟨#[0x31, 0xed, 0xa0, 0x80]⟩
    let files : Files.Tree := ⟨[(["p"], .file text.toUTF8), (["q"], .file broken)], []⟩
    (load files "p").toOption = some [1, -2, 3, 4, 5] ∧
      ∃ malformed, load files "q" = .error (.encoding malformed) := by
  intro text broken files
  have first : files.locate (.ofString "p") = .ok (.taken ["p"] (.file text.toUTF8)) := by rfl
  have second : files.locate (.ofString "q") = .ok (.taken ["q"] (.file broken)) := by rfl
  have unreadable : (Utf8.decode broken.toList).isOk = false := by decide +kernel
  constructor
  · rw [((load_eq_parse files "p" first).1 text rfl).1]
    decide +kernel
  · apply (load_eq_parse files "q" second).2
    intro text holds
    rw [Utf8.eq_toUTF8_iff.mp holds] at unreadable
    cases unreadable

end Program

end Intcode
