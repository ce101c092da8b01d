/-!
# Shortest decimals of binary64 numbers

A finite binary64 number is `m · 2 ^ q`, and the reals that round to it form an interval around it,
which holds its ends exactly when `m` is even. Of the decimals in that interval the shortest is
written, and of several shortest ones the nearest; the multiples of a power of ten next to the
number are the only candidates.

## Main definitions

* `Binary64.Magnitude` — the number and its interval, in exact arithmetic
* `Binary64.shortest` — the digits and the exponent of the shortest decimal
* `Binary64.text` — the number as it is shown: positional between `0.0001` and `10 ^ 16`
-/

namespace Intcode.Binary64

/-- A positive number `4 · m · unit / den`, where `unit / den` is a quarter of the spacing of its
neighbours. The interval of reals that round to it reaches `below` quarters down and `2` up. -/
structure Magnitude where
  m : Nat
  unit : Nat
  den : Nat
  below : Nat

/-- The magnitude of a finite number that is not zero, from its two bit fields. -/
def Magnitude.ofFields (exponent fraction : Nat) : Magnitude :=
  let m := if exponent = 0 then fraction else fraction + Nat.pow 2 52
  let scale := max exponent 1
  { m
    unit := Nat.pow 2 (scale - 1077)
    den := Nat.pow 2 (1077 - scale)
    below := if fraction = 0 ∧ 1 < exponent then 1 else 2 }

/-- Compares `quarters · unit / den` with the multiple `d` of `10 ^ p`. -/
def Magnitude.compare (x : Magnitude) (quarters d : Nat) (p : Int) : Ordering :=
  Ord.compare (quarters * x.unit * Nat.pow 10 (-p).toNat) (d * x.den * Nat.pow 10 p.toNat)

/-- Whether the multiple `d` of `10 ^ p` rounds to the number. -/
def Magnitude.covers (x : Magnitude) (d : Nat) (p : Int) : Bool :=
  let lower := x.compare (4 * x.m - x.below) d p
  let upper := x.compare (4 * x.m + 2) d p
  (lower == .lt || (lower == .eq && x.m % 2 == 0)) &&
    (upper == .gt || (upper == .eq && x.m % 2 == 0))

/-- The multiple of `10 ^ p` next to the number that rounds to it, the nearer one if both do, and
the even one if they are equally near. -/
def Magnitude.candidate? (x : Magnitude) (p : Int) : Option Nat :=
  let whole := 4 * x.m * x.unit * Nat.pow 10 (-p).toNat
  let part := x.den * Nat.pow 10 p.toNat
  let d := whole / part
  match x.covers d p, x.covers (d + 1) p with
  | true, true =>
    match Ord.compare (2 * (whole % part)) part with
    | .lt => some d
    | .gt => some (d + 1)
    | .eq => some (if d % 2 = 0 then d else d + 1)
  | true, false => some d
  | false, true => some (d + 1)
  | false, false => none

/-- The least `e` with the number below `10 ^ e`, sought from `10 ^ (-330)` on. -/
def Magnitude.order (x : Magnitude) : Int :=
  let orders := (List.range 700).map fun (i : Nat) => (i : Int) - 330
  (orders.find? fun e => x.compare (4 * x.m) 1 e == .lt).getD 0

/-- The shortest decimal `d · 10 ^ p` that rounds to the number, as the pair `(d, p)`. -/
def Magnitude.shortest (x : Magnitude) : Nat × Int :=
  let exponents := (List.range 17).map fun (i : Nat) => x.order - 1 - (i : Int)
  let found := exponents.findSome? fun p => (x.candidate? p).map (·, p)
  found.getD (0, 0)

/-- A text of digits without the zeros at its end. -/
def dropZeros (digits : List Char) : List Char :=
  (digits.reverse.dropWhile (· == '0')).reverse

/-- An exponent: a sign and at least two digits. -/
def exponentText (e : Int) : String :=
  let digits := Nat.repr e.natAbs
  (if e < 0 then "e-" else "e+") ++ (if digits.length < 2 then "0" else "") ++ digits

/-- The decimal `0.d₁d₂… · 10 ^ point`, positional when `point` lies in `-3, …, 16` and
scientific otherwise. -/
def layOut (digits : List Char) (point : Int) : String :=
  if point < -3 ∨ 16 < point then
    match digits with
    | [] => ""
    | [d] => String.ofList [d] ++ exponentText (point - 1)
    | d :: ds => String.ofList (d :: '.' :: ds) ++ exponentText (point - 1)
  else if point ≤ 0 then
    "0." ++ String.ofList (List.replicate (-point).toNat '0' ++ digits)
  else
    let whole := digits.take point.toNat
    let rest := digits.drop point.toNat
    String.ofList (whole ++ List.replicate (point.toNat - whole.length) '0') ++ "." ++
      (if rest.isEmpty then "0" else String.ofList rest)

/-- The text of a binary64 number, given by its bits. -/
def text (bits : UInt64) : String :=
  let n := bits.toNat
  let sign := if Nat.pow 2 63 ≤ n then "-" else ""
  let exponent := n / Nat.pow 2 52 % Nat.pow 2 11
  let fraction := n % Nat.pow 2 52
  if exponent = 2047 then (if fraction = 0 then sign ++ "inf" else "nan")
  else if exponent = 0 ∧ fraction = 0 then sign ++ "0.0"
  else
    let (d, p) := (Magnitude.ofFields exponent fraction).shortest
    let digits := Nat.toDigits 10 d
    sign ++ layOut (dropZeros digits) (digits.length + p)

end Intcode.Binary64
