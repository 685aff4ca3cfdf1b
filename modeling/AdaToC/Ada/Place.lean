import AdaToC.Bounds

/-!
# Lines and columns

Lines are numbered from 1, and so are the bytes of a line. A line feed belongs to the line it
ends. An offset beyond the text counts as its end.
-/

namespace AdaToC.Ada

/-- A place in a text by line and column, both counted from 1. -/
structure Place where
  line : Nat
  column : Nat
  deriving DecidableEq, Repr

namespace Place

/-- The place of a byte offset. -/
def ofOffset (source : Bytes) (offset : Nat) : Place :=
  let before := source.take offset
  { line := before.count 0x0A + 1
    column := (before.reverse.takeWhile (· != 0x0A)).length + 1 }

/-- The place of an offset that may be negative. -/
def ofOffset? (source : Bytes) (offset : Int) : Except BoundsError Place :=
  if offset < 0 then .error (.offset offset) else .ok (ofOffset source offset.toNat)

end Place

end AdaToC.Ada
