import AdaToC.Text.Numeral
import AdaToC.Text.Printable

/-!
# Quoted text

A quoted text stands between double quotes. Printable characters are written as they are, the
usual control characters by a letter, other control characters and stray bytes by two hexadecimal
digits, and the remaining characters by their code point.
-/

namespace AdaToC

namespace Quoted

/-- How a character is written between quotes. -/
def escapeChar (c : Char) : Bytes :=
  let n := c.toNat
  if c == '"' then bytes "\\\""
  else if c == '\\' then bytes "\\\\"
  else if isPrintable c then Utf8.encode c
  else if n == 0x07 then bytes "\\a"
  else if n == 0x08 then bytes "\\b"
  else if n == 0x09 then bytes "\\t"
  else if n == 0x0A then bytes "\\n"
  else if n == 0x0B then bytes "\\v"
  else if n == 0x0C then bytes "\\f"
  else if n == 0x0D then bytes "\\r"
  else if n < 0x20 || n == 0x7F then bytes "\\x" ++ hexadecimal 2 n
  else if n < 0x10000 then bytes "\\u" ++ hexadecimal 4 n
  else bytes "\\U" ++ hexadecimal 8 n

/-- How a glyph is written between quotes. -/
def escape : Glyph → Bytes
  | .char c => escapeChar c
  | .stray b => bytes "\\x" ++ hexadecimal 2 b.toNat

end Quoted

/-- The text between double quotes, with everything escaped that could be misread. -/
def Bytes.quoted (s : Bytes) : Bytes :=
  0x22 :: (Utf8.glyphs s).flatMap Quoted.escape ++ [0x22]

end AdaToC
