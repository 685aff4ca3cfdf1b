import AdaToC.Text.Utf8

/-!
# East Asian encodings

In these encodings a character outside ASCII takes two bytes, a lead byte and a trail byte, and some
take more. Which character it is stands in the tables of the standards. The tables are not part of
this library, and text is read with any `Tables`. What is not in them becomes the replacement
character, as does a lead byte without a fitting trail byte. Such a trail byte is in most cases read
again on its own. Half-width katakana take one byte, in EUC-JP behind a shift byte. ISO-2022-JP has
only seven-bit bytes and says with an escape sequence what they mean.
-/

namespace AdaToC.Encoding

/-- The encodings with lead and trail bytes. -/
inductive DoubleByte where
  | shiftJis
  | eucJp
  | gbk
  | gb18030
  | big5
  | eucKr
  deriving DecidableEq, Repr

/-- Whether a byte lies in a range, both ends included. -/
def within (first last b : UInt8) : Bool :=
  first ≤ b && b ≤ last

/-- The half-width katakana with a given byte. -/
def katakana (b : UInt8) : Char :=
  Char.ofNat (0xFF61 + (b.toNat - 0xA1))

/-! ### Tables -/

/-- A few characters with two bytes. -/
def samplePairs : DoubleByte → List ((UInt8 × UInt8) × Char)
  | .shiftJis => [((0x93, 0xFA), '日'), ((0x96, 0x7B), '本'), ((0x8C, 0xEA), '語')]
  | .eucJp => [((0xC6, 0xFC), '日'), ((0xCB, 0xDC), '本'), ((0xB8, 0xEC), '語')]
  | .gbk => [((0xD6, 0xD0), '中'), ((0xCE, 0xC4), '文')]
  | .gb18030 => [((0xD6, 0xD0), '中'), ((0xCE, 0xC4), '文')]
  | .big5 => [((0xA4, 0xA4), '中'), ((0xA4, 0xE5), '文')]
  | .eucKr => [((0xC7, 0xD1), '한'), ((0xB1, 0xB9), '국')]

/-- A few characters that ISO-2022-JP writes with two bytes. -/
def sampleShiftedPairs : List ((UInt8 × UInt8) × Char) :=
  [((0x46, 0x7C), '日'), ((0x4B, 0x5C), '本'), ((0x38, 0x6C), '語')]

/-- The tables of the standards. Unless others are given they have a few characters only, to try
out the encodings with. -/
structure Tables where
  /-- What a lead byte and a trail byte stand for, which may be two characters in Big5; nothing if
  they stand for no character. -/
  pair : DoubleByte → UInt8 × UInt8 → List Char :=
    fun e bytes => ((samplePairs e).lookup bytes).toList
  /-- The characters of two bytes in ISO-2022-JP. -/
  shiftedPair? : UInt8 × UInt8 → Option Char := fun bytes => sampleShiftedPairs.lookup bytes
  /-- The characters of JIS X 0212, by the two bytes that they have in ISO-2022-JP. -/
  supplement? : UInt8 × UInt8 → Option Char := fun _ => none
  /-- The characters of the basic plane that GB 18030 writes with four bytes, by their numbers. -/
  fourByte? : Nat → Option Char := fun _ => none

namespace DoubleByte

/-- A character that is one byte alone. -/
def single? : DoubleByte → UInt8 → Option Char
  | .shiftJis, b =>
    if within 0xA1 0xDF b then some (katakana b) else if b == 0x80 then some '\x80' else none
  | .gbk, b => if b == 0x80 then some '€' else none
  | .gb18030, b => if b == 0x80 then some '€' else none
  | _, _ => none

def isLead : DoubleByte → UInt8 → Bool
  | .shiftJis, b => within 0x81 0x9F b || within 0xE0 0xFC b
  | .eucJp, b => b == 0x8E || b == 0x8F || within 0xA1 0xFE b
  | _, b => within 0x81 0xFE b

/-- Whether a byte that follows a lead byte is passed over together with it, even if the two make
no character. -/
def takesTrail : DoubleByte → UInt8 → UInt8 → Bool
  | .shiftJis, _, t => 0x40 ≤ t && t != 0x7F
  | .eucJp, lead, t => within 0xA1 0xFE t && lead != 0x8F
  | .gbk, _, t => within 0x40 0x7E t || within 0x80 0xFE t
  | .gb18030, _, t => within 0x40 0x7E t || within 0x80 0xFE t
  | .big5, _, t => 0x40 ≤ t
  | .eucKr, _, t => 0x80 ≤ t

/-- What a lead byte and the byte behind it stand for, if they stand for anything. -/
def pair (e : DoubleByte) (tables : Tables) (lead t : UInt8) : List Char :=
  if e == .eucJp && lead == 0x8E then
    if within 0xA1 0xDF t then [katakana t] else []
  else tables.pair e (lead, t)

/-- The character of four bytes of GB 18030 and the number of bytes to pass over. The first numbers
are in the basic plane, and those from 189000 on stand for the code points beyond it in order. -/
def fourByteChar (tables : Tables) (a b c d : UInt8) : Char × Nat :=
  let number := (((a.toNat - 0x81) * 10 + (b.toNat - 0x30)) * 126 + (c.toNat - 0x81)) * 10 +
    (d.toNat - 0x30)
  if number < 39420 then ((tables.fourByte? number).getD replacementChar, 4)
  else if 189000 ≤ number && number < 189000 + 0x100000 then
    (Char.ofNat (number - 189000 + 0x10000), 4)
  else (replacementChar, 1)

/-- Reads a character of more than two bytes, if a lead byte and what follows call for one. Gives
the character and the number of bytes. -/
def long? (e : DoubleByte) (tables : Tables) (lead : UInt8) (rest : Bytes) : Option (Char × Nat) :=
  match e, rest with
  | .gb18030, b :: c :: d :: _ =>
    if within 0x30 0x3F b && within 0x81 0xFE c && within 0x30 0x39 d then
      some (fourByteChar tables lead b c d)
    else none
  | .eucJp, b :: c :: _ =>
    if lead == 0x8F && within 0xA1 0xFE b then
      if within 0xA1 0xFE c then
        some ((tables.supplement? (b - 0x80, c - 0x80)).getD replacementChar, 3)
      else some (replacementChar, 2)
    else none
  | .eucJp, [b] =>
    if lead == 0x8F && within 0xA1 0xFD b then some (replacementChar, 2) else none
  | _, _ => none

/-- The characters at the front of the text `b :: rest` that stand together, mostly one, and the
number of their bytes. -/
def front (e : DoubleByte) (tables : Tables) (b : UInt8) (rest : Bytes) : List Char × Nat :=
  if b < 0x80 then ([Char.ofNat b.toNat], 1)
  else if !e.isLead b then ([(e.single? b).getD replacementChar], 1)
  else
    match e.long? tables b rest, rest with
    | some (c, length), _ => ([c], length)
    | none, [] => ([replacementChar], 1)
    | none, t :: _ =>
      match e.pair tables b t with
      | [] => ([replacementChar], if e.takesTrail b t then 2 else 1)
      | cs => (cs, 2)

/-- The characters of a text from a point where `passed` bytes of the last character are still to
come. -/
def charsFrom (e : DoubleByte) (tables : Tables) : Nat → Bytes → List Char
  | _, [] => []
  | passed + 1, _ :: rest => charsFrom e tables passed rest
  | 0, b :: rest =>
    let (cs, length) := e.front tables b rest
    cs ++ charsFrom e tables (length - 1) rest

/-- The characters of a text. -/
def chars (e : DoubleByte) (tables : Tables) (data : Bytes) : List Char :=
  e.charsFrom tables 0 data

end DoubleByte

/-- What the bytes of ISO-2022-JP text mean. -/
inductive Shift where
  | ascii
  | katakana
  | pairs
  | supplement
  deriving DecidableEq, Repr

/-- The characters of two bytes that can be written after an escape sequence. -/
def Shift.pair? (tables : Tables) : Shift → UInt8 × UInt8 → Option Char
  | .supplement => tables.supplement?
  | _ => tables.shiftedPair?

/-- The characters of ISO-2022-JP text. The end of a line brings ASCII back, and so does its escape
sequence. -/
def iso2022JpChars (tables : Tables) : Shift → Bytes → List Char
  | _, [] => []
  | _, 0x1B :: 0x24 :: 0x40 :: rest => iso2022JpChars tables .pairs rest
  | _, 0x1B :: 0x24 :: 0x42 :: rest => iso2022JpChars tables .pairs rest
  | _, 0x1B :: 0x24 :: 0x28 :: 0x44 :: rest => iso2022JpChars tables .supplement rest
  | _, 0x1B :: 0x28 :: 0x42 :: rest => iso2022JpChars tables .ascii rest
  | _, 0x1B :: 0x28 :: 0x4A :: rest => iso2022JpChars tables .ascii rest
  | _, 0x1B :: 0x28 :: 0x49 :: rest => iso2022JpChars tables .katakana rest
  | shift, 0x1B :: rest => replacementChar :: iso2022JpChars tables shift rest
  | .ascii, b :: rest =>
    (if b < 0x80 then Char.ofNat b.toNat else replacementChar) :: iso2022JpChars tables .ascii rest
  | .katakana, b :: rest =>
    (if 0x21 ≤ b && b < 0x60 then katakana (b + 0x80) else replacementChar) ::
      iso2022JpChars tables .katakana rest
  | _, 0x0A :: rest => '\n' :: iso2022JpChars tables .ascii rest
  | _, [_] => [replacementChar]
  | shift, b :: t :: rest =>
    if 0x80 ≤ b then replacementChar :: iso2022JpChars tables shift (t :: rest)
    else (shift.pair? tables (b, t)).getD replacementChar :: iso2022JpChars tables shift rest

end AdaToC.Encoding
