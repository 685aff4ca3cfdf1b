import AdaToC.Ada.Place
import AdaToC.Ada.Scan

/-!
# Diagnostics

A diagnostic tells which function header of which file was skipped, and shows the lines around it.
-/

namespace AdaToC

/-- A number right-justified in a field. -/
def padded (width n : Nat) : Bytes :=
  let digits := decimal n
  List.replicate (width - digits.length) 0x20 ++ digits

/-- The text without the carriage returns at its end. -/
def dropReturns (s : Bytes) : Bytes :=
  (s.reverse.dropWhile (· == 0x0D)).reverse

/-- The lines around a place: up to two lines before and two behind, each with its number, and
under the line itself a pointer to the column. The excerpt is empty if the text has no such
line. -/
def excerpt (source : Bytes) (line column : Int) : Bytes :=
  let lines := source.split 0x0A
  let here := line.toNat
  if source.isEmpty || line ≤ 0 || here > lines.length then []
  else
    let first := here - 3
    let last := min (here + 2) lines.length
    let width := (decimal last).length
    let numbered (mark : String) (number : Nat) (text : Bytes) : Bytes :=
      bytes mark ++ padded width number ++ bytes " | " ++ dropReturns text ++ bytes "\n"
    (((lines.take last).drop first).zipIdx (first + 1)).flatMap fun (text, number) =>
      if number = here then
        numbered "> " number text ++
          List.replicate (2 + width + 3 + (column - 1).toNat) 0x20 ++ bytes "^\n"
      else numbered "  " number text

/-- A function header that was skipped. -/
structure Diagnostic where
  /-- The name of the source file, empty for text that comes from no file. -/
  file : Bytes
  /-- The name in the header. -/
  function : Bytes
  line : Int
  column : Int
  message : Bytes
  /-- The lines around the header. -/
  context : Bytes
  deriving DecidableEq, Repr

namespace Diagnostic

def ofSkipped (file source : Bytes) (s : Ada.Skipped) : Diagnostic :=
  let place := Ada.Place.ofOffset source s.offset
  { file
    function := s.name
    line := place.line
    column := place.column
    message := s.message
    context := excerpt source place.line place.column }

/-- The diagnostic as one text. -/
def text (d : Diagnostic) : Bytes :=
  let file := if d.file.isEmpty then [] else d.file ++ bytes ": "
  let context := if d.context.isEmpty then [] else bytes "\n" ++ d.context
  file ++ bytes "line " ++ decimalInt d.line ++ bytes ", column " ++ decimalInt d.column ++
    bytes ": " ++ d.message ++ context

end Diagnostic

end AdaToC
