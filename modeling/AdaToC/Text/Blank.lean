import AdaToC.Text.Utf8

/-!
# White space

Two notions of white space are in use. `isBlank` is the white space of Unicode and is what
trimming removes. `isSpaceByte` is the white space that may separate the words of a function
definition: tab, line feed, form feed, carriage return and space.
-/

namespace AdaToC

/-- The white space of Unicode. -/
def isBlank (c : Char) : Bool :=
  let n := c.toNat
  (0x09 ≤ n && n ≤ 0x0D) || n == 0x20 || n == 0x85 || n == 0xA0 || n == 0x1680 ||
  (0x2000 ≤ n && n ≤ 0x200A) || n == 0x2028 || n == 0x2029 || n == 0x202F || n == 0x205F ||
  n == 0x3000

/-- The white space between the words of a function definition. -/
def isSpaceByte (b : UInt8) : Bool :=
  b == 0x09 || b == 0x0A || b == 0x0C || b == 0x0D || b == 0x20

namespace Bytes

/-- The text without the white space at its two ends. -/
def trim (s : Bytes) : Bytes :=
  let blank (g : Glyph) : Bool := g.isChar && isBlank g.scalar
  let inner := ((Utf8.glyphs s).dropWhile blank).reverse.dropWhile blank
  inner.reverse.flatMap Glyph.bytes

end Bytes

end AdaToC
