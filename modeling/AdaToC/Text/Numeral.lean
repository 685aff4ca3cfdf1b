import AdaToC.Text.Utf8

/-!
# Numbers as text

Whole numbers are written in decimal. They are read in two ways: a plain decimal numeral with an
optional sign, and the numerals of program text, which may name their base and may group digits
with underscores. A number that is read has to fit 64 bits with sign.
-/

namespace AdaToC

/-- The decimal digits of a number. -/
def decimal (n : Nat) : Bytes :=
  (Nat.toDigits 10 n).map fun c => c.toNat.toUInt8

/-- A whole number in decimal, with a minus sign if it is negative. -/
def decimalInt : Int → Bytes
  | .ofNat n => decimal n
  | .negSucc n => 0x2D :: decimal (n + 1)

/-- Hexadecimal digits of a number, lower case, padded with zeros to `width` digits. -/
def hexadecimal (width n : Nat) : Bytes :=
  let digits := (Nat.toDigits 16 n).map fun c => c.toNat.toUInt8
  List.replicate (width - digits.length) 0x30 ++ digits

namespace Numeral

/-- Why a text is not the numeral of a 64-bit number. -/
inductive Error where
  | malformed
  | outOfRange
  deriving DecidableEq, Repr

/-- The value of a digit or letter as a digit of a base up to 36. -/
def digit? (b : UInt8) : Option Nat :=
  if 0x30 ≤ b && b ≤ 0x39 then some (b.toNat - 0x30)
  else if 0x41 ≤ b && b ≤ 0x5A then some (b.toNat - 0x41 + 10)
  else if 0x61 ≤ b && b ≤ 0x7A then some (b.toNat - 0x61 + 10)
  else none

/-- Reads digits of a base behind a number already read. Reading stops with `outOfRange` at the
digit that takes the number past 64 bits, before anything behind that digit is looked at. -/
def readDigits (base : Nat) (grouped : Bool) : Nat → Bytes → Except Error Nat
  | n, [] => .ok n
  | n, b :: rest =>
    if grouped && b == 0x5F then readDigits base grouped n rest
    else
      match digit? b with
      | none => .error .malformed
      | some d =>
        if d < base then
          if n * base + d < Nat.pow 2 64 then readDigits base grouped (n * base + d) rest
          else .error .outOfRange
        else .error .malformed

/-- The base a numeral names and the text behind the name. A leading zero alone names base 8. -/
def base : Bytes → Nat × Bytes
  | 0x30 :: b :: c :: rest =>
    if b == 0x62 || b == 0x42 then (2, c :: rest)
    else if b == 0x6F || b == 0x4F then (8, c :: rest)
    else if b == 0x78 || b == 0x58 then (16, c :: rest)
    else (8, b :: c :: rest)
  | 0x30 :: rest => (8, rest)
  | s => (10, s)

/-- What stood before a byte of a numeral, as far as underscores are concerned. -/
inductive Before where
  | start
  | digit
  | underscore
  deriving DecidableEq, Repr

/-- Whether each underscore follows a digit and is followed by one. -/
def underscoresSeparate : Before → Bytes → Bool
  | before, [] => before != .underscore
  | before, b :: rest =>
    if b == 0x5F then before == .digit && underscoresSeparate .underscore rest
    else underscoresSeparate .digit rest

/-- Whether the underscores of an unsigned numeral stand between digits or behind the name of its
base. -/
def underscoresFit (s : Bytes) : Bool :=
  match s with
  | 0x30 :: b :: rest =>
    if [0x62, 0x42, 0x6F, 0x4F, 0x78, 0x58].contains b then underscoresSeparate .digit rest
    else underscoresSeparate .start s
  | _ => underscoresSeparate .start s

/-- The sign of a numeral, `true` for minus, and the text behind it. -/
def sign : Bytes → Bool × Bytes
  | 0x2D :: rest => (true, rest)
  | 0x2B :: rest => (false, rest)
  | s => (false, s)

/-- A magnitude with its sign, if it fits 64 bits. -/
def signed (negative : Bool) (n : Nat) : Except Error Int :=
  if negative then
    if n ≤ Nat.pow 2 63 then .ok (-(n : Int)) else .error .outOfRange
  else
    if n < Nat.pow 2 63 then .ok n else .error .outOfRange

/-- Reads a numeral of program text: an optional sign, an optional base, digits that underscores
may separate. -/
def read (s : Bytes) : Except Error Int := do
  let (negative, unsigned) := sign s
  if unsigned.isEmpty then throw .malformed
  let (radix, digits) := base unsigned
  let n ← readDigits radix true 0 digits
  if digits.contains 0x5F && !underscoresFit unsigned then throw .malformed
  signed negative n

/-- Reads a decimal numeral: an optional sign and digits. -/
def readDecimal (s : Bytes) : Except Error Int := do
  let (negative, unsigned) := sign s
  if unsigned.isEmpty then throw .malformed
  let n ← readDigits 10 false 0 unsigned
  signed negative n

end Numeral

end AdaToC
