import AdaToC.Text.Blank
import AdaToC.Text.Case

/-!
# Words of Ada text

A function definition is recognised word by word, without regard to letter case. Two characters
outside ASCII take part: the long s `ſ` counts as a form of `s` and the Kelvin sign `K` as a form
of `k`. Both may stand in a name, and a name may be repeated with any of its letters in another
form. A word is compared by its *folded* form, lower-case ASCII.
-/

namespace AdaToC.Ada

/-- Whether a byte alone is a character of a word: an ASCII letter, digit or underscore. -/
def isWordByte (b : UInt8) : Bool :=
  (0x30 ≤ b && b ≤ 0x39) || (0x41 ≤ b && b ≤ 0x5A) || b == 0x5F || (0x61 ≤ b && b ≤ 0x7A)

/-- The longest run of word characters at the front of a text. -/
def word : Bytes → Bytes
  | 0xC5 :: 0xBF :: rest => 0xC5 :: 0xBF :: word rest
  | 0xE2 :: 0x84 :: 0xAA :: rest => 0xE2 :: 0x84 :: 0xAA :: word rest
  | b :: rest => if isWordByte b then b :: word rest else []
  | [] => []

/-- A text with its letters in folded form. -/
def foldWord : Bytes → Bytes
  | 0xC5 :: 0xBF :: rest => 0x73 :: foldWord rest
  | 0xE2 :: 0x84 :: 0xAA :: rest => 0x6B :: foldWord rest
  | b :: rest => lowerByte b :: foldWord rest
  | [] => []

/-- The first character of a text in folded form, and the text behind it. -/
def foldedFront : Bytes → Option (UInt8 × Bytes)
  | 0xC5 :: 0xBF :: rest => some (0x73, rest)
  | 0xE2 :: 0x84 :: 0xAA :: rest => some (0x6B, rest)
  | b :: rest => some (lowerByte b, rest)
  | [] => none

/-- The text behind a word given in folded form, if the text starts with some form of it. -/
def strip? : (folded s : Bytes) → Option Bytes
  | [], s => some s
  | f :: folded, s =>
    match foldedFront s with
    | some (c, rest) => if c == f then strip? folded rest else none
    | none => none

/-- The text without the white space at its front. -/
def skipSpace (s : Bytes) : Bytes :=
  s.dropWhile isSpaceByte

/-- The text without the white space at its front, of which there has to be some. -/
def space? : Bytes → Option Bytes
  | [] => none
  | b :: rest => if isSpaceByte b then some (skipSpace rest) else none

/-- The word at the front of a text and the text behind it, if there is a word. -/
def word? (s : Bytes) : Option (Bytes × Bytes) :=
  let w := word s
  if w.isEmpty then none else some (w, s.drop w.length)

/-- The first place where `read` succeeds, counted from `k`, and what it read there. -/
def firstAt? {α : Type} (read : Bytes → Option α) : Nat → Bytes → Option (Nat × α)
  | _, [] => none
  | k, b :: rest =>
    match read (b :: rest) with
    | some a => some (k, a)
    | none => firstAt? read (k + 1) rest

end AdaToC.Ada
