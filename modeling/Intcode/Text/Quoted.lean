import Intcode.Text.Printable

/-!
# Quoted text

A text in a message stands between quotes, so that its ends and its invisible characters show. The
quotes are single, unless the text holds a single quote and no double one. Inside, a backslash
marks the quote in use, the backslash, and the characters that are not printable.

## Main definitions

* `Text.quoteMark` — the quote that a text is written in
* `Text.quoteChar` — one character between quotes
* `Text.quote` — a text between quotes
-/

namespace Intcode.Text

/-- A number in hexadecimal, lower case, with zeros before it up to `width` digits. -/
def hex (width n : Nat) : String :=
  let digits := Nat.toDigits 16 n
  String.ofList (List.replicate (width - digits.length) '0' ++ digits)

/-- The quote that a text is written in. -/
def quoteMark (text : List Char) : Char :=
  if text.contains '\'' && !text.contains '"' then '"' else '\''

/-- One character between quotes `mark`. -/
def quoteChar (mark c : Char) : String :=
  if c = mark || c = '\\' then String.ofList ['\\', c]
  else if c = '\n' then "\\n"
  else if c = '\r' then "\\r"
  else if c = '\t' then "\\t"
  else if isPrintable c then String.ofList [c]
  else if c.toNat < 0x100 then "\\x" ++ hex 2 c.toNat
  else if c.toNat < 0x10000 then "\\u" ++ hex 4 c.toNat
  else "\\U" ++ hex 8 c.toNat

/-- A text between quotes. -/
def quote (text : String) : String :=
  let mark := quoteMark text.toList
  let inner := String.join (text.toList.map (quoteChar mark))
  String.ofList [mark] ++ inner ++ String.ofList [mark]

end Intcode.Text
