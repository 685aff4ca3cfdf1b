import AdaToC.Text.Bytes

/-!
# Characters in byte text

`Utf8.encode` writes a character as UTF-8. Reading goes the other way and never fails: `glyphs`
cuts a text into characters and stray bytes, a stray byte being one that does not begin the UTF-8
form of a character. A character is recognised by writing it again and comparing, so overlong
forms, surrogates and numbers beyond the last code point are stray bytes by construction.
-/

namespace AdaToC

/-- The UTF-8 form of a character, one to four bytes. -/
def Utf8.encode (c : Char) : Bytes :=
  let n := c.toNat
  let tail (k : Nat) : UInt8 := (0x80 + k % 64).toUInt8
  if n < 0x80 then [n.toUInt8]
  else if n < 0x800 then [(0xC0 + n / 64).toUInt8, tail n]
  else if n < 0x10000 then [(0xE0 + n / 4096).toUInt8, tail (n / 64), tail n]
  else [(0xF0 + n / 262144).toUInt8, tail (n / 4096), tail (n / 64), tail n]

/-- The bytes of a text written in the source of this library. -/
def bytes (s : String) : Bytes :=
  s.toList.flatMap Utf8.encode

/-- The character that stands for what cannot be read. -/
def replacementChar : Char := '�'

/-- One step of reading a text: a character, or a byte that begins none. -/
inductive Glyph where
  | char (c : Char)
  | stray (b : UInt8)
  deriving DecidableEq, Repr

namespace Glyph

/-- The bytes the glyph was read from. -/
def bytes : Glyph → Bytes
  | .char c => Utf8.encode c
  | .stray b => [b]

/-- The character the glyph shows; a stray byte shows the replacement character. -/
def scalar : Glyph → Char
  | .char c => c
  | .stray _ => replacementChar

def isChar : Glyph → Bool
  | .char _ => true
  | .stray _ => false

end Glyph

namespace Utf8

/-- The number that a lead byte and the bytes behind it spell. Nothing is checked here; with too
few bytes the number is 0. -/
def codePoint (lead : UInt8) (rest : Bytes) : Nat :=
  let tail (b : UInt8) : Nat := b.toNat % 64
  if lead < 0x80 then lead.toNat
  else if lead < 0xE0 then
    match rest with
    | b :: _ => lead.toNat % 32 * 64 + tail b
    | _ => 0
  else if lead < 0xF0 then
    match rest with
    | b :: c :: _ => lead.toNat % 16 * 4096 + tail b * 64 + tail c
    | _ => 0
  else
    match rest with
    | b :: c :: d :: _ => lead.toNat % 8 * 262144 + tail b * 4096 + tail c * 64 + tail d
    | _ => 0

/-- The glyph at the front of the text `lead :: rest`. -/
def front (lead : UInt8) (rest : Bytes) : Glyph :=
  let c := Char.ofNat (codePoint lead rest)
  if (encode c).isPrefixOf (lead :: rest) then .char c else .stray lead

/-- The glyphs of a text from a point where `passed` bytes of the last glyph are still to come. -/
def glyphsFrom : Nat → Bytes → List Glyph
  | _, [] => []
  | passed + 1, _ :: rest => glyphsFrom passed rest
  | 0, b :: rest =>
    let g := front b rest
    g :: glyphsFrom (g.bytes.length - 1) rest

/-- A text as characters and stray bytes, in order. -/
def glyphs (s : Bytes) : List Glyph :=
  glyphsFrom 0 s

/-- Whether a text is well-formed UTF-8 from a point where `passed` bytes of the last character
are still to come. -/
def isValidFrom : Nat → Bytes → Bool
  | _, [] => true
  | passed + 1, _ :: rest => isValidFrom passed rest
  | 0, b :: rest =>
    let g := front b rest
    g.isChar && isValidFrom (g.bytes.length - 1) rest

/-- Whether a text is well-formed UTF-8. -/
def isValid (s : Bytes) : Bool :=
  isValidFrom 0 s

/-- The characters of a text, each stray byte read as the replacement character. -/
def scalars (s : Bytes) : List Char :=
  (glyphs s).map Glyph.scalar

/-- A list of characters as UTF-8 text. -/
def encodeAll (cs : List Char) : Bytes :=
  cs.flatMap encode

end Utf8

end AdaToC
