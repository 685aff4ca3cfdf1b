import AdaToC.Toml.Number

/-!
# TOML dates and times

A moment is a date, a time, or a date with a time and perhaps an offset from universal time. A
letter `T`, in either case, or a space stands between date and time. Seconds may be left out.
-/

namespace AdaToC.Toml

/-- Reads a number with a fixed count of digits. -/
def fixed? (count : Nat) (cs : List Char) : Option (Nat × List Char) :=
  let ds := cs.take count
  if ds.length == count && ds.all Char.isDigit then some (decimalValue ds, cs.drop count) else none

/-- Reads one given character. -/
def expect? (c : Char) : List Char → Option (List Char)
  | d :: rest => if c == d then some rest else none
  | [] => none

def isLeapYear (y : Nat) : Bool := y % 4 == 0 && (y % 100 != 0 || y % 400 == 0)

/-- The number of days of a month. -/
def daysOf (year month : Nat) : Nat :=
  if month == 2 then (if isLeapYear year then 29 else 28)
  else if [4, 6, 9, 11].contains month then 30
  else 31

/-- Reads `YYYY-MM-DD`. -/
def date? (cs : List Char) : Option (List Char) := do
  let (year, cs) ← fixed? 4 cs
  let (month, cs) ← fixed? 2 (← expect? '-' cs)
  let (day, cs) ← fixed? 2 (← expect? '-' cs)
  if 1 ≤ month && month ≤ 12 && 1 ≤ day && day ≤ daysOf year month then some cs else none

/-- Reads the fraction of a second, if there is one. -/
def skipFraction : List Char → List Char
  | '.' :: rest =>
    match digits1? rest with
    | some (_, behind) => behind
    | none => '.' :: rest
  | cs => cs

/-- Reads `hh:mm`, with seconds and their fraction if they follow. -/
def time? (cs : List Char) : Option (List Char) := do
  let (hour, cs) ← fixed? 2 cs
  let (minute, cs) ← fixed? 2 (← expect? ':' cs)
  if hour < 24 && minute < 60 then
    match cs with
    | ':' :: rest =>
      let (second, behind) ← fixed? 2 rest
      if second < 60 then some (skipFraction behind) else none
    | _ => some cs
  else none

/-- Reads an offset from universal time: `Z`, or hours and minutes with a sign. -/
def offset? : List Char → Option (List Char)
  | 'Z' :: rest => some rest
  | sign :: rest => do
    let (hour, rest) ← fixed? 2 rest
    let (minute, rest) ← fixed? 2 (← expect? ':' rest)
    if (sign == '+' || sign == '-') && hour ≤ 24 && minute ≤ 60 then some rest else none
  | [] => none

/-- Whether a literal, with `T` between date and time and no lower-case letter, is a moment. -/
def isMoment (cs : List Char) : Bool :=
  match date? cs with
  | some [] => true
  | some ('T' :: rest) =>
    match time? rest with
    | some [] => true
    | some behind => offset? behind == some []
    | none => false
  | _ => time? cs == some []

/-- The moment of a literal that may have blanks at its end. -/
def moment? (literal : List Char) : Option Scalar :=
  let trimmed := (literal.reverse.dropWhile (· == ' ')).reverse
  let plain := trimmed.map fun c =>
    if c == 'z' then 'Z' else if c == 't' || c == ' ' then 'T' else c
  if isMoment plain then some (.moment (Utf8.encodeAll trimmed)) else none

end AdaToC.Toml
