import Intcode.Numeral

/-!
# Nearest binary64 numbers of decimals

A decimal text stands for the binary64 number nearest to it, the one with the even last bit where
two are equally near. A decimal is a sign, digits with a point among them or without, and perhaps an
exponent; single underscores may stand between digits, and blanks around the whole.

## Main definitions

* `Binary64.nearest` — the number nearest to a fraction, by its bits
* `Binary64.ofDecimal` — the number nearest to a multiple of a power of ten
* `Binary64.read?` — the number that a text stands for
-/

namespace Intcode.Binary64

/-- The whole number nearest to `num / den`, the even one if two are. -/
def roundDiv (num den : Nat) : Nat :=
  let whole := num / den
  match compare (2 * (num % den)) den with
  | .lt => whole
  | .gt => whole + 1
  | .eq => whole + whole % 2

/-- `num / den` over `2 ^ q`, as a fraction. -/
def scaled (num den : Nat) (q : Int) : Nat × Nat :=
  (num * Nat.pow 2 (-q).toNat, den * Nat.pow 2 q.toNat)

/-- The bits of infinity. -/
def infinity : Nat := 2047 * Nat.pow 2 52

/-- The bits of the number nearest to the positive fraction `num / den`. -/
def nearest (num den : Nat) : Nat :=
  let low : Int := (num.log2 : Int) - den.log2 - 53
  let (a, b) := scaled num den low
  let q := max (if a / b < Nat.pow 2 53 then low else low + 1) (-1074)
  let (a, b) := scaled num den q
  let m := roundDiv a b
  if m < Nat.pow 2 52 then m
  else min ((q + 1075).toNat * Nat.pow 2 52 + (m - Nat.pow 2 52)) infinity

/-- The bits of the number nearest to `n · 10 ^ e`. Beyond `10 ^ 310` that is infinity, and below
`10 ^ (-330)` it is zero. -/
def ofDecimal (n : Nat) (e : Int) : Nat :=
  let top := (Nat.toDigits 10 n).length + e
  if n = 0 ∨ top < -330 then 0
  else if 310 < top then infinity
  else nearest (n * Nat.pow 10 e.toNat) (Nat.pow 10 (-e).toNat)

/-- The digits of a part of a decimal, of which there may be none. -/
def part? (text : List Char) : Option (List Nat) :=
  if text.isEmpty then some [] else Numeral.digits? text

/-- The digits of a decimal without sign and exponent, and how many stand after the point. -/
def mantissa? (text : List Char) : Option (Nat × Nat) := do
  let whole ← part? (text.takeWhile (· ≠ '.'))
  let fraction ← part? ((text.dropWhile (· ≠ '.')).drop 1)
  if (whole ++ fraction).isEmpty then none
  else some (Numeral.value (whole ++ fraction), fraction.length)

/-- A whole number with a sign or without, of any length. -/
def exponent? : List Char → Option Int
  | '-' :: text => (Numeral.digits? text).map fun ds => -(Numeral.value ds : Int)
  | '+' :: text => (Numeral.digits? text).map fun ds => (Numeral.value ds : Int)
  | text => (Numeral.digits? text).map fun ds => (Numeral.value ds : Int)

/-- Whether a character begins an exponent. -/
def marksExponent (c : Char) : Bool := c == 'e' || c == 'E'

/-- The bits of the number that a text without sign stands for. -/
def unsigned? (text : List Char) : Option Nat := do
  let (n, places) ← mantissa? (text.takeWhile fun c => !marksExponent c)
  let e ←
    match text.dropWhile fun c => !marksExponent c with
    | [] => some 0
    | _ :: rest => exponent? rest
  return ofDecimal n (e - places)

/-- The number that a text stands for. -/
def read? (text : List Char) : Option UInt64 :=
  match Text.trim Text.isNumeralBlank text with
  | '-' :: body => (unsigned? body).map fun bits => (Nat.pow 2 63 + bits).toUInt64
  | '+' :: body => (unsigned? body).map Nat.toUInt64
  | body => (unsigned? body).map Nat.toUInt64

end Intcode.Binary64
