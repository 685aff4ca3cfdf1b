import AdaToC.Text.Numeral

/-!
# Places outside a text or list

Offsets and indices come from outside as whole numbers with sign. A negative one names no place.
-/

namespace AdaToC

/-- A number that names no place. -/
inductive BoundsError where
  /-- A text was to be cut at a negative offset. -/
  | offset (n : Int)
  /-- A list was to be read at a negative index. -/
  | index (n : Int)
  deriving DecidableEq, Repr

def BoundsError.message : BoundsError → Bytes
  | .offset n => bytes "runtime error: slice bounds out of range [:" ++ decimalInt n ++ bytes "]"
  | .index n => bytes "runtime error: index out of range [" ++ decimalInt n ++ bytes "]"

end AdaToC
