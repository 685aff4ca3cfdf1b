import AdaToC.Text.Utf8

/-!
# UTF-8, UTF-16 and Latin-1

These readers turn bytes into well-formed UTF-8 and never fail. What cannot be read becomes the
replacement character. A byte order mark is a character like any other.
-/

namespace AdaToC.Encoding

/-- Whether a byte may follow a lead byte in second place. -/
def isSecond (lead b : UInt8) : Bool :=
  let low : UInt8 := if lead == 0xE0 then 0xA0 else if lead == 0xF0 then 0x90 else 0x80
  let high : UInt8 := if lead == 0xED then 0x9F else if lead == 0xF4 then 0x8F else 0xBF
  low ≤ b && b ≤ high

/-- The number of bytes at the front of `lead :: rest` that begin a character but do not complete
one. They are replaced together. -/
def brokenLength (lead : UInt8) (rest : Bytes) : Nat :=
  if lead < 0xE0 || 0xF4 < lead then 1
  else
    match rest with
    | [] => 1
    | [b] => if isSecond lead b then 2 else 1
    | b :: c :: _ =>
      if !isSecond lead b then 1
      else if 0xF0 ≤ lead && 0x80 ≤ c && c ≤ 0xBF then 3
      else 2

/-- Well-formed UTF-8 from a point where `passed` bytes are still to be passed over. -/
def repairFrom : Nat → Bytes → Bytes
  | _, [] => []
  | passed + 1, _ :: rest => repairFrom passed rest
  | 0, b :: rest =>
    match Utf8.front b rest with
    | .char c => Utf8.encode c ++ repairFrom ((Utf8.encode c).length - 1) rest
    | .stray _ => Utf8.encode replacementChar ++ repairFrom (brokenLength b rest - 1) rest

/-- UTF-8 text with everything ill-formed replaced, as much as possible at a time. -/
def repair (data : Bytes) : Bytes :=
  repairFrom 0 data

/-- Which byte of a 16-bit unit comes first. -/
inductive ByteOrder where
  | big
  | little
  deriving DecidableEq, Repr

/-- The 16-bit units of a text; a byte left over at the end gives `none`. -/
def codeUnits (order : ByteOrder) : Bytes → List (Option Nat)
  | [] => []
  | [_] => [none]
  | a :: b :: rest =>
    let unit :=
      match order with
      | .big => a.toNat * 256 + b.toNat
      | .little => b.toNat * 256 + a.toNat
    some unit :: codeUnits order rest

def isSurrogate (u : Nat) : Bool := 0xD800 ≤ u && u < 0xE000

def isLowSurrogate (u : Nat) : Bool := 0xDC00 ≤ u && u < 0xE000

/-- The character of two surrogates, the second being a low one. -/
def pairChar (u v : Nat) : Char :=
  if isLowSurrogate u then replacementChar
  else Char.ofNat ((u - 0xD800) * 0x400 + (v - 0xDC00) + 0x10000)

/-- The characters of a sequence of 16-bit units. A surrogate takes a low surrogate behind it with
it, whether or not the two make a character. -/
def unitChars : List (Option Nat) → List Char
  | [] => []
  | none :: rest => replacementChar :: unitChars rest
  | some u :: some v :: rest =>
    if isSurrogate u then
      if isLowSurrogate v then pairChar u v :: unitChars rest
      else replacementChar :: unitChars (some v :: rest)
    else Char.ofNat u :: unitChars (some v :: rest)
  | some u :: rest =>
    (if isSurrogate u then replacementChar else Char.ofNat u) :: unitChars rest

/-- UTF-16 text with a given byte order, as UTF-8. -/
def readUtf16 (order : ByteOrder) (data : Bytes) : Bytes :=
  Utf8.encodeAll (unitChars (codeUnits order data))

/-- Text in which every byte is the character with that number, as UTF-8. -/
def latin1 (data : Bytes) : Bytes :=
  data.flatMap fun b => Utf8.encode (Char.ofNat b.toNat)

end AdaToC.Encoding
