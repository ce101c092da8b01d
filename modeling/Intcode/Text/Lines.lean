/-!
# Lines

Three ways to see lines in a text. A program is cut at every line break of any kind
(`lines`); a file is read with its carriage returns turned into line feeds (`unifyBreaks`);
a stream hands out one line at a time, each ended by a line feed (`takeLine`).

## Main definitions

* `Text.lines` — the lines of a text, without their breaks
* `Text.unifyBreaks` — carriage returns, alone or before a line feed, become line feeds
* `Text.takeLine` — the first line of a stream, with its line feed, and what follows it
-/

namespace Intcode.Text

/-- The characters that end a line. A carriage return and the line feed after it are one break. -/
def isLineBreak (c : Char) : Bool :=
  let n := c.toNat
  (0x0a ≤ n && n ≤ 0x0d) || (0x1c ≤ n && n ≤ 0x1e) || n == 0x85 || n == 0x2028 || n == 0x2029

/-- The lines of a text when the characters `line`, in reverse, have been read of the first. -/
def linesFrom : List Char → List Char → List (List Char)
  | [], [] => []
  | c :: line, [] => [(c :: line).reverse]
  | line, '\r' :: '\n' :: text => line.reverse :: linesFrom [] text
  | line, c :: text =>
    if isLineBreak c then line.reverse :: linesFrom [] text else linesFrom (c :: line) text

/-- The lines of a text. A break at the very end opens no further line. -/
def lines (text : List Char) : List (List Char) :=
  linesFrom [] text

/-- Turns each carriage return, together with a line feed after it, into one line feed. -/
def unifyBreaks : List Char → List Char
  | [] => []
  | '\r' :: '\n' :: text => '\n' :: unifyBreaks text
  | c :: text => (if c = '\r' then '\n' else c) :: unifyBreaks text

/-- The first line of a stream, up to and with its line feed, and the rest of the stream. The
line is empty only at the end of the stream. -/
def takeLine (stream : List Char) : List Char × List Char :=
  match stream.dropWhile (· ≠ '\n') with
  | [] => (stream, [])
  | feed :: rest => (stream.takeWhile (· ≠ '\n') ++ [feed], rest)

end Intcode.Text
