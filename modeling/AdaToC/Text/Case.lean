import AdaToC.Text.CaseTable
import AdaToC.Text.Utf8

/-!
# Letter case

Case is changed character by character with the simple mappings, so the number of characters
never changes. A stray byte has no case: in a changed text it appears as the replacement character.
Two texts are equal up to case if their characters have the same folded forms.
-/

namespace AdaToC

/-- An ASCII letter in lower case; any other byte unchanged. -/
def lowerByte (b : UInt8) : UInt8 :=
  if 0x41 ≤ b && b ≤ 0x5A then b + 0x20 else b

namespace CaseTable

/-- The character that a table maps `c` to; `c` itself where the table does not mention it. -/
def apply (table : List CaseRun) (c : Char) : Char :=
  match table.find? (·.covers c.toNat) with
  | some run => Char.ofNat (c.toNat + run.shift).toNat
  | none => c

end CaseTable

/-- The lower-case form of a character. -/
def lowerChar (c : Char) : Char :=
  CaseTable.apply CaseTable.lowerRuns c

/-- The upper-case form of a character. -/
def upperChar (c : Char) : Char :=
  CaseTable.apply CaseTable.upperRuns c

/-- The form that a character shares with all characters equal to it up to case. -/
def foldChar (c : Char) : Char :=
  CaseTable.apply CaseTable.foldRuns c

namespace Bytes

/-- The text in lower case. -/
def lower (s : Bytes) : Bytes :=
  Utf8.encodeAll ((Utf8.scalars s).map lowerChar)

/-- The characters of the text in upper case. -/
def upperScalars (s : Bytes) : List Char :=
  (Utf8.scalars s).map upperChar

/-- The characters of the text with case removed. -/
def folded (s : Bytes) : List Char :=
  (Utf8.scalars s).map foldChar

/-- Whether two texts are equal up to letter case. -/
def equalFold (s t : Bytes) : Bool :=
  s.folded == t.folded

end Bytes

end AdaToC
