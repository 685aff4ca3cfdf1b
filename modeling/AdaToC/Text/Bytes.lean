/-!
# Byte text

Every text the tool reads or writes is a list of bytes. It need not be well-formed in any
encoding: offsets, columns and sizes count bytes, and text that cannot be read as characters is
still carried unchanged from a source file into the generated files.
-/

namespace AdaToC

/-- Text as it stands in a file: its bytes in order. -/
abbrev Bytes := List UInt8

namespace Bytes

/-- The pieces between the occurrences of `sep`. There is always at least one piece. -/
def split (sep : UInt8) (s : Bytes) : List Bytes :=
  s.foldr
    (fun b pieces =>
      if b = sep then [] :: pieces
      else match pieces with
        | [] => [[b]]
        | piece :: rest => (b :: piece) :: rest)
    [[]]

/-- The text before and the text after the first `sep`, if there is one. -/
def cut? (sep : UInt8) (s : Bytes) : Option (Bytes × Bytes) :=
  match s.dropWhile (· != sep) with
  | [] => none
  | _ :: rest => some (s.takeWhile (· != sep), rest)

/-- Whether `piece` stands somewhere in the text. -/
def occursIn (piece : Bytes) : Bytes → Bool
  | [] => piece.isEmpty
  | b :: rest => piece.isPrefixOf (b :: rest) || occursIn piece rest

/-- Replaces the occurrences of `old`, taken from left to right without overlap. The counter is
the number of bytes of the current occurrence that are still to be passed over. -/
def replaceFrom (old new : Bytes) : Nat → Bytes → Bytes
  | _, [] => []
  | passed + 1, _ :: rest => replaceFrom old new passed rest
  | 0, b :: rest =>
    if old.isPrefixOf (b :: rest) then new ++ replaceFrom old new (old.length - 1) rest
    else b :: replaceFrom old new 0 rest

/-- The text with every occurrence of the non-empty text `old` replaced by `new`. -/
def replaceAll (old new s : Bytes) : Bytes :=
  replaceFrom old new 0 s

/-- The texts in order, with `sep` between neighbours. -/
def joinWith (sep : Bytes) : List Bytes → Bytes
  | [] => []
  | [s] => s
  | s :: rest => s ++ sep ++ joinWith sep rest

/-- The text, or `fallback` where it is empty. -/
def orElse (s fallback : Bytes) : Bytes :=
  if s.isEmpty then fallback else s

end Bytes

end AdaToC
