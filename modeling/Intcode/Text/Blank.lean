/-!
# Blanks

The blank characters of all scripts, and the removal of blanks from the ends of a text. Two classes
are told apart: the separators `U+001C` to `U+001F` are blank at the ends of a line, but not around
a numeral.

## Main definitions

* `Text.isBlank` — the blanks at the ends of a line
* `Text.isNumeralBlank` — the blanks that may stand around a numeral
* `Text.trim` — a text without the blanks at its ends
-/

namespace Intcode.Text

/-- The blanks outside ASCII. -/
def isWideBlank (c : Char) : Bool :=
  let n := c.toNat
  n == 0x85 || n == 0xa0 || n == 0x1680 || (0x2000 ≤ n && n ≤ 0x200a) || n == 0x2028 ||
    n == 0x2029 || n == 0x202f || n == 0x205f || n == 0x3000

/-- The blanks that may stand around a numeral: tabulators, line ends, spaces. -/
def isNumeralBlank (c : Char) : Bool :=
  let n := c.toNat
  (0x09 ≤ n && n ≤ 0x0d) || n == 0x20 || isWideBlank c

/-- The blanks at the ends of a line: those around a numeral and the four ASCII separators. -/
def isBlank (c : Char) : Bool :=
  let n := c.toNat
  (0x1c ≤ n && n ≤ 0x1f) || isNumeralBlank c

/-- A text without the characters of class `p` at its end. -/
def trimEnd (p : Char → Bool) (text : List Char) : List Char :=
  (text.reverse.dropWhile p).reverse

/-- A text without the characters of class `p` at its two ends. -/
def trim (p : Char → Bool) (text : List Char) : List Char :=
  trimEnd p (text.dropWhile p)

theorem isBlank_of_isNumeralBlank {c : Char} (h : isNumeralBlank c) : isBlank c := by
  simp [isBlank, h]

end Intcode.Text
