import Intcode.Text.Quoted

/-!
# Strict UTF-8

Reading UTF-8 byte by byte. A lead byte announces how many bytes follow it and what range the
first of them lies in; the ranges leave out overlong forms, surrogates, and code points past the
last. The first byte that breaks this rule ends the reading: the flaw names the bytes of the
character under way, up to and without the offending one.

## Main definitions

* `Utf8.Flaw`, `Utf8.Malformed` — what is wrong, and where
* `Utf8.Pending` — a character of which some bytes have been read
* `Utf8.begin?` — the effect of a lead byte
* `Utf8.decode` — the text of a sequence of bytes
* `Utf8.encode` — the bytes of a text
-/

namespace Intcode.Utf8

/-- The ways in which bytes fail to be UTF-8. -/
inductive Flaw where
  /-- A byte that begins no character. -/
  | badStart
  /-- A byte that cannot go on with the character under way. -/
  | badContinuation
  /-- The bytes end inside a character. -/
  | cutOff
  deriving DecidableEq, Repr

/-- The wording of a flaw. -/
def Flaw.message : Flaw → String
  | .badStart => "invalid start byte"
  | .badContinuation => "invalid continuation byte"
  | .cutOff => "unexpected end of data"

/-- Bytes that are not UTF-8: the positions of the first and the last byte at fault, the first of
these bytes, and what is wrong. -/
structure Malformed where
  first : Nat
  last : Nat
  byte : UInt8
  flaw : Flaw
  deriving DecidableEq, Repr

/-- The message for malformed bytes. -/
def Malformed.message (m : Malformed) : String :=
  if m.first = m.last then
    "'utf-8' codec can't decode byte 0x" ++ Text.hex 2 m.byte.toNat ++ " in position " ++
      Nat.repr m.first ++ ": " ++ m.flaw.message
  else
    "'utf-8' codec can't decode bytes in position " ++ Nat.repr m.first ++ "-" ++
      Nat.repr m.last ++ ": " ++ m.flaw.message

/-- A character under way: where it began, its lead byte, how many bytes are missing, the range
of the next one, and the bits so far. -/
structure Pending where
  first : Nat
  byte : UInt8
  missing : Nat
  low : Nat
  high : Nat
  bits : Nat
  deriving DecidableEq, Repr

/-- What a byte between characters begins: a whole character, a character with bytes missing, or
nothing. -/
def begin? (position : Nat) (byte : UInt8) : Option (Char ⊕ Pending) :=
  let b := byte.toNat
  let long (missing low high mark : Nat) : Option (Char ⊕ Pending) :=
    some (.inr ⟨position, byte, missing, low, high, b - mark⟩)
  if b < 0x80 then some (.inl (Char.ofNat b))
  else if b < 0xc2 then none
  else if b < 0xe0 then long 1 0x80 0xbf 0xc0
  else if b = 0xe0 then long 2 0xa0 0xbf 0xe0
  else if b = 0xed then long 2 0x80 0x9f 0xe0
  else if b < 0xf0 then long 2 0x80 0xbf 0xe0
  else if b = 0xf0 then long 3 0x90 0xbf 0xf0
  else if b = 0xf4 then long 3 0x80 0x8f 0xf0
  else if b < 0xf4 then long 3 0x80 0xbf 0xf0
  else none

/-- Reads bytes from `position` on, with a character perhaps under way and the characters `done`,
in reverse, read before. -/
def decodeFrom (position : Nat) : Option Pending → List Char → List UInt8 →
    Except Malformed (List Char)
  | none, done, [] => .ok done.reverse
  | some p, _, [] => .error ⟨p.first, position - 1, p.byte, .cutOff⟩
  | none, done, byte :: bytes =>
    match begin? position byte with
    | none => .error ⟨position, position, byte, .badStart⟩
    | some (.inl c) => decodeFrom (position + 1) none (c :: done) bytes
    | some (.inr p) => decodeFrom (position + 1) (some p) done bytes
  | some p, done, byte :: bytes =>
    if p.low ≤ byte.toNat && byte.toNat ≤ p.high then
      let bits := 64 * p.bits + (byte.toNat - 0x80)
      if p.missing ≤ 1 then decodeFrom (position + 1) none (Char.ofNat bits :: done) bytes
      else
        decodeFrom (position + 1)
          (some { p with missing := p.missing - 1, low := 0x80, high := 0xbf, bits }) done bytes
    else .error ⟨p.first, position - 1, p.byte, .badContinuation⟩

/-- The text that a sequence of bytes encodes. -/
def decode (bytes : List UInt8) : Except Malformed (List Char) :=
  decodeFrom 0 none [] bytes

/-- The bytes that encode a text. -/
def encode (text : List Char) : List UInt8 :=
  text.flatMap String.utf8EncodeChar

end Intcode.Utf8
