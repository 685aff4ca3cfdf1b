import AdaToC.Toml.Literal

/-!
# The grammar of TOML files

A file is a sequence of statements, one a line. White space is a space or a tab; between the items
of an array and the fields of an inline table there may also be line ends and comments. The
nesting of values is bounded by a count that starts above the length of the file, so it is never
what ends the reading of a value.
-/

namespace AdaToC.Toml

/-- The text without the spaces and tabs at its front. -/
def skipBlank (cs : List Char) : List Char :=
  cs.dropWhile fun c => c == ' ' || c == '\t'

/-- The text without the white space, line ends and comments at its front. -/
def skipTrivia : (inComment : Bool) → List Char → List Char
  | _, [] => []
  | true, c :: rest => skipTrivia (c != '\n') rest
  | false, c :: rest =>
    if c == '#' then skipTrivia true rest
    else if isLineBlank c then skipTrivia false rest
    else c :: rest

/-- What follows the end of a line, before which only white space and a comment may stand. -/
def lineEnd? (cs : List Char) : Option (List Char) :=
  match skipBlank cs with
  | [] => some []
  | '\n' :: rest => some rest
  | '\r' :: '\n' :: rest => some rest
  | '#' :: rest => some (rest.dropWhile (· != '\n'))
  | _ => none

/-- A character of a key that is not quoted. -/
def isBareChar (c : Char) : Bool :=
  c.isAlphanum || c == '_' || c == '-'

/-- Reads one name of a key. -/
def name? (cs : List Char) : Option (Bytes × List Char) :=
  match lineString? cs with
  | some (s, rest) => some (Utf8.encodeAll s, rest)
  | none =>
    let (bare, rest) := run isBareChar cs
    if bare.isEmpty then none else some (Utf8.encodeAll bare, rest)

/-- Reads a key. -/
def key? : Nat → List Char → Option (Key × List Char)
  | 0, _ => none
  | bound + 1, cs => do
    let (name, rest) ← name? (skipBlank cs)
    match skipBlank rest with
    | '.' :: rest =>
      let (names, behind) ← key? bound rest
      some (name :: names, behind)
    | rest => some ([name], rest)

mutual

/-- Reads a value. -/
def value? : Nat → List Char → Option (Value × List Char)
  | 0, _ => none
  | bound + 1, cs =>
    match cs with
    | '[' :: rest => (items? bound rest).map fun (items, behind) => (.array items, behind)
    | '\x7b' :: rest =>
      (fields? bound rest).map fun (fields, behind) => (.inlineTable fields, behind)
    | _ => (scalar? cs).map fun (s, behind) => (.scalar s, behind)

/-- Reads the items of an array and its closing bracket. -/
def items? : Nat → List Char → Option (List Value × List Char)
  | 0, _ => none
  | bound + 1, cs =>
    match skipTrivia false cs with
    | ']' :: behind => some ([], behind)
    | cs =>
      match value? bound cs with
      | none => none
      | some (item, rest) =>
        match skipTrivia false rest with
        | ',' :: rest => (items? bound rest).map fun (items, behind) => (item :: items, behind)
        | ']' :: behind => some ([item], behind)
        | _ => none

/-- Reads the fields of an inline table and its closing brace. -/
def fields? : Nat → List Char → Option (List (Key × Value) × List Char)
  | 0, _ => none
  | bound + 1, cs =>
    match skipTrivia false cs with
    | '\x7d' :: behind => some ([], behind)
    | cs =>
      match key? bound cs with
      | some (key, '=' :: rest) =>
        match value? bound (skipBlank rest) with
        | none => none
        | some (value, rest) =>
          match skipTrivia false rest with
          | ',' :: rest =>
            (fields? bound rest).map fun (fields, behind) => ((key, value) :: fields, behind)
          | '\x7d' :: behind => some ([(key, value)], behind)
          | _ => none
      | _ => none

end

/-- Reads the name in a header and its closing bracket. -/
def headerKey? (bound : Nat) (cs : List Char) : Option (Key × List Char) :=
  match key? bound cs with
  | some (key, ']' :: rest) => some (key, rest)
  | _ => none

/-- Reads one statement, up to the end of its line. -/
def statement? (bound : Nat) (cs : List Char) : Option (Statement × List Char) :=
  match cs with
  | '[' :: '[' :: rest =>
    match headerKey? bound rest with
    | some (key, ']' :: rest) => (lineEnd? rest).map (.element key, ·)
    | _ => none
  | '[' :: rest =>
    match headerKey? bound rest with
    | some (key, rest) => (lineEnd? rest).map (.table key, ·)
    | none => none
  | _ =>
    match key? bound cs with
    | some (key, '=' :: rest) =>
      match value? bound (skipBlank rest) with
      | some (value, rest) => (lineEnd? rest).map (.assign key value, ·)
      | none => none
    | _ => none

/-- Reads statements to the end of the file; `bound` is more than the number of characters left,
and `depth` bounds the nesting of values. -/
def statements? (depth : Nat) : (bound : Nat) → List Char → Option (List Statement)
  | 0, _ => none
  | bound + 1, cs =>
    match skipTrivia false cs with
    | [] => some []
    | cs =>
      match statement? depth cs with
      | some (statement, rest) => (statements? depth bound rest).map (statement :: ·)
      | none => none

/-- Whether no control character stands in the file but tabs and line ends. A carriage return
belongs to a line end or is an error. -/
def isClean : List Char → Bool
  | [] => true
  | '\r' :: rest => rest.head? == some '\n' && isClean rest
  | c :: rest =>
    (c == '\t' || c == '\n' || (0x20 ≤ c.toNat && c.toNat != 0x7F)) && isClean rest

/-- The data without a byte order mark at its front. -/
def dropMark : Bytes → Bytes
  | 0xFF :: 0xFE :: rest => rest
  | 0xFE :: 0xFF :: rest => rest
  | 0xEF :: 0xBB :: 0xBF :: rest => rest
  | data => data

/-- The statements of a file, if it is a TOML file. -/
def parse? (data : Bytes) : Option (List Statement) :=
  let text := dropMark data
  let cs := Utf8.scalars text
  if Utf8.isValid text && isClean cs then statements? (2 * cs.length + 2) (cs.length + 1) cs
  else none

end AdaToC.Toml
