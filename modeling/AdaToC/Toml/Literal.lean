import AdaToC.Toml.Moment

/-!
# TOML literals

Readers for values without parts: strings of four kinds, numbers, dates and times, booleans. Each
takes the characters of the file from some point on and gives the value and what follows it, or
nothing.
-/

namespace AdaToC.Toml

/-- The character that a letter behind a backslash stands for. -/
def escapeLetter? (c : Char) : Option Char :=
  if c == 'b' then some '\x08'
  else if c == 't' then some '\t'
  else if c == 'n' then some '\n'
  else if c == 'f' then some '\x0c'
  else if c == 'r' then some '\r'
  else if c == 'e' then some '\x1b'
  else if c == '"' then some '"'
  else if c == '\\' then some '\\'
  else none

/-- The character with a code point in hexadecimal. -/
def hexChar? (digits : List Char) : Option Char :=
  if digits.all isHexDigit then
    let n := digits.foldl
      (fun n c => n * 16 + ((Numeral.digit? c.toNat.toUInt8).getD 0)) 0
    if n.isValidChar then some (Char.ofNat n) else none
  else none

/-- The character that an escape stands for, from what follows its backslash, and the number of
characters that belong to the escape. -/
def escape? : List Char → Option (Char × Nat)
  | 'x' :: a :: b :: _ => (hexChar? [a, b]).map (·, 3)
  | 'u' :: a :: b :: c :: d :: _ => (hexChar? [a, b, c, d]).map (·, 5)
  | 'U' :: a :: b :: c :: d :: e :: f :: g :: h :: _ =>
    (hexChar? [a, b, c, d, e, f, g, h]).map (·, 9)
  | letter :: _ => (escapeLetter? letter).map (·, 1)
  | [] => none

/-- The quote around literal strings. -/
def apostrophe : Char := Char.ofNat 0x27

def isLineEnd (c : Char) : Bool := c == '\n' || c == '\r'

/-- A text with one more character in front. -/
def prepend (c : Char) (read : Option (List Char × List Char)) : Option (List Char × List Char) :=
  read.map fun (s, behind) => (c :: s, behind)

/-- Reads the rest of a string on one line, behind its opening quote, from a point where `passed`
characters of an escape are still to be passed over. -/
def basicString : (passed : Nat) → List Char → Option (List Char × List Char)
  | _, [] => none
  | passed + 1, _ :: rest => basicString passed rest
  | 0, c :: rest =>
    if c == '"' then some ([], rest)
    else if c == '\\' then
      match escape? rest with
      | some (e, length) => prepend e (basicString length rest)
      | none => none
    else if isLineEnd c then none
    else prepend c (basicString 0 rest)

/-- Reads the rest of a literal string on one line, behind its opening quote. -/
def literalString : List Char → Option (List Char × List Char)
  | [] => none
  | c :: rest =>
    if c == apostrophe then some ([], rest)
    else if isLineEnd c then none
    else prepend c (literalString rest)

/-- White space inside a string of several lines. -/
def isLineBlank (c : Char) : Bool :=
  c == ' ' || c == '\t' || isLineEnd c

/-- Whether a backslash in front of some text ends a line: only white space, with the end of the
line among it, comes next. -/
def endsLine (cs : List Char) : Bool :=
  (cs.takeWhile isLineBlank).contains '\n'

/-- What stands before a point of a string of several lines: the length of the run of quotes that
ends there, and whether a backslash stands before that run. -/
structure QuoteRun where
  length : Nat := 0
  escaped : Bool := false

namespace QuoteRun

/-- Whether three more quotes, with another one behind them, are too many to be closed. -/
def tooLong (run : QuoteRun) : Bool :=
  run.length ≥ 2 && !(run.length == 2 && run.escaped)

/-- The run behind a character that stands for itself. -/
def after (run : QuoteRun) (quote c : Char) : QuoteRun :=
  if c == quote then { run with length := run.length + 1 } else {}

/-- The run behind an escape, told from what follows its backslash. -/
def afterEscape : List Char → QuoteRun
  | '"' :: _ => ⟨1, true⟩
  | '\\' :: _ => ⟨0, true⟩
  | _ => {}

end QuoteRun

/-- The text behind three quotes, the first of which has been read, if they are there. -/
def closing? (quote : Char) : List Char → Option (List Char)
  | a :: b :: rest => if a == quote && b == quote then some rest else none
  | _ => none

/-- Reads the rest of a string of several lines, behind its opening quotes, from a point where
`passed` characters of an escape are still to be passed over. While `skipping`, white space behind
a backslash at the end of a line is passed over too. -/
def multilineString : (passed : Nat) → (skipping : Bool) → QuoteRun → List Char →
    Option (List Char × List Char)
  | _, _, _, [] => none
  | passed + 1, skipping, run, _ :: rest => multilineString passed skipping run rest
  | 0, skipping, run, c :: rest =>
    if c == '\\' then
      if endsLine rest then multilineString 0 true {} rest
      else
        match escape? rest with
        | some (e, length) =>
          prepend e (multilineString length false (QuoteRun.afterEscape rest) rest)
        | none => none
    else if skipping && isLineBlank c then multilineString 0 true {} rest
    else
      match (if c == '"' then closing? '"' rest else none) with
      | some behind =>
        if behind.head? == some '"' then
          if run.tooLong then none
          else prepend c (multilineString 0 false (run.after '"' c) rest)
        else some ([], behind)
      | none => prepend c (multilineString 0 false (run.after '"' c) rest)

/-- Reads the rest of a literal string of several lines, behind its opening quotes. -/
def multilineLiteral : QuoteRun → List Char → Option (List Char × List Char)
  | _, [] => none
  | run, c :: rest =>
    match (if c == apostrophe then closing? apostrophe rest else none) with
    | some behind =>
      if behind.head? == some apostrophe then
        if run.tooLong then none
        else prepend c (multilineLiteral (run.after apostrophe c) rest)
      else some ([], behind)
    | none => prepend c (multilineLiteral (run.after apostrophe c) rest)

/-- The text of a string of several lines starts behind a line end that follows its quotes. -/
def skipFirstLineEnd : List Char → List Char
  | '\n' :: rest => rest
  | '\r' :: '\n' :: rest => rest
  | cs => cs

/-- Reads a string on one line, as keys may be. -/
def lineString? : List Char → Option (List Char × List Char)
  | c :: rest =>
    if c == '"' then basicString 0 rest
    else if c == apostrophe then literalString rest
    else none
  | [] => none

/-- Reads a string of any kind. -/
def string? : List Char → Option (List Char × List Char)
  | c :: rest =>
    match closing? c rest with
    | some text =>
      if c == '"' then multilineString 0 false {} (skipFirstLineEnd text)
      else if c == apostrophe then multilineLiteral {} (skipFirstLineEnd text)
      else none
    | none => lineString? (c :: rest)
  | [] => none

/-- A character of a date or time. -/
def isMomentChar (c : Char) : Bool :=
  c.isDigit || ['-', ':', 'T', 't', ' ', '.', 'Z', 'z', '+'].contains c

/-- A character of a float behind its first point or exponent mark. -/
def isFloatChar (c : Char) : Bool :=
  c.isDigit || ['_', '.', '-', '+', 'e', 'E'].contains c

/-- The run of characters with a property at the front, and what follows it. -/
def run (p : Char → Bool) (cs : List Char) : List Char × List Char :=
  let taken := cs.takeWhile p
  (taken, cs.drop taken.length)

/-- A scalar with what follows its literal. -/
def withRest (value : Option Scalar) (rest : List Char) : Option (Scalar × List Char) :=
  value.map fun v => (v, rest)

/-- Reads a decimal integer or a float. -/
def decimalNumber? (cs : List Char) : Option (Scalar × List Char) :=
  let (sign, unsigned) := match cs with
    | c :: rest => if c == '+' || c == '-' then ([c], rest) else ([], cs)
    | [] => ([], [])
  let (digits, rest) := run (fun c => c.isDigit || c == '_') unsigned
  match rest with
  | c :: _ =>
    if c == '.' || c == 'e' || c == 'E' then
      let (tail, behind) := run isFloatChar rest
      withRest (float? (sign ++ digits ++ tail)) behind
    else withRest (integer? (sign ++ digits)) rest
  | [] => withRest (integer? (sign ++ digits)) rest

/-- Reads an integer whose base is named, behind the name. -/
def basedNumber? (base : List Char) (isDigit : Char → Bool) (cs : List Char) :
    Option (Scalar × List Char) :=
  match cs with
  | c :: _ =>
    if isDigit c then
      let (digits, rest) := run (fun c => isDigit c || c == '_') cs
      withRest (integer? (base ++ digits)) rest
    else none
  | [] => none

/-- Reads a value that starts with a digit: a number, a date or a time. -/
def digitValue? (cs : List Char) : Option (Scalar × List Char) :=
  match cs with
  | '0' :: 'x' :: rest => basedNumber? ['0', 'x'] isHexDigit rest
  | '0' :: 'o' :: rest => basedNumber? ['0', 'o'] isOctalDigit rest
  | '0' :: 'b' :: rest => basedNumber? ['0', 'b'] isBinaryDigit rest
  | _ =>
    match (run Char.isDigit cs).2 with
    | c :: _ =>
      if c == '-' || c == ':' then
        let (literal, rest) := run isMomentChar cs
        withRest (moment? literal) rest
      else decimalNumber? cs
    | [] => decimalNumber? cs

/-- Reads a value without parts. -/
def scalar? (cs : List Char) : Option (Scalar × List Char) :=
  match cs with
  | 't' :: 'r' :: 'u' :: 'e' :: rest => some (.boolean true, rest)
  | 'f' :: 'a' :: 'l' :: 's' :: 'e' :: rest => some (.boolean false, rest)
  | 'i' :: 'n' :: 'f' :: rest => some (.float (bytes "inf"), rest)
  | 'n' :: 'a' :: 'n' :: rest => some (.float (bytes "nan"), rest)
  | c :: rest =>
    if c == '"' || c == apostrophe then
      (string? cs).map fun (s, behind) => (.text (Utf8.encodeAll s), behind)
    else if c.isDigit then digitValue? cs
    else if c == '+' || c == '-' then
      match rest with
      | 'i' :: 'n' :: 'f' :: behind => some (.float (Utf8.encodeAll [c, 'i', 'n', 'f']), behind)
      | 'n' :: 'a' :: 'n' :: behind => some (.float (Utf8.encodeAll [c, 'n', 'a', 'n']), behind)
      | d :: _ => if d.isDigit then decimalNumber? cs else none
      | [] => none
    else none
  | [] => none

end AdaToC.Toml
