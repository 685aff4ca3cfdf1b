import AdaToC.Text.Numeral
import AdaToC.Toml.Value

/-!
# TOML numbers

A number is first taken as the longest run of characters that may belong to it and then checked.
Integers have to fit 64 bits with sign. A float has to be less in size than everything that rounds
to the infinity of 64-bit floats; it may be as small as it likes.
-/

namespace AdaToC.Toml

def isHexDigit (c : Char) : Bool :=
  c.isDigit || ('a' ≤ c && c ≤ 'f') || ('A' ≤ c && c ≤ 'F')

def isOctalDigit (c : Char) : Bool := '0' ≤ c && c ≤ '7'

def isBinaryDigit (c : Char) : Bool := c == '0' || c == '1'

/-- Whether the characters are digits, of any base, and each underscore stands between two. The
first argument tells whether a digit stands before the characters. -/
def digitsGrouped : Bool → List Char → Bool
  | afterDigit, [] => afterDigit
  | afterDigit, c :: rest =>
    if c == '_' then afterDigit && digitsGrouped false rest else digitsGrouped (isHexDigit c) rest

/-- Whether a literal has a zero in front of its digits. A zero alone is no such zero, nor is one
that names a base. -/
def hasLeadingZero : List Char → Bool
  | '0' :: c :: _ => !(c == 'b' || c == 'o' || c == 'x')
  | sign :: '0' :: _ :: _ => sign == '-' || sign == '+'
  | _ => false

/-- The integer of a literal. -/
def integer? (literal : List Char) : Option Scalar :=
  if digitsGrouped false literal && !hasLeadingZero literal then
    (Numeral.read (Utf8.encodeAll literal)).toOption.map .integer
  else none

/-- The value of a run of decimal digits. -/
def decimalValue (digits : List Char) : Nat :=
  digits.foldl (fun n c => n * 10 + (c.toNat - '0'.toNat)) 0

/-- Everything from here on rounds to the infinity of 64-bit floats. -/
def floatLimit : Nat := Nat.pow 2 1024 - Nat.pow 2 970

/-- Whether `m * 10 ^ e` is below the limit of 64-bit floats. Far from the limit the number of
digits decides. -/
def floatFits (m : Nat) (e : Int) : Bool :=
  let top := (decimal m).length + e
  if m == 0 || top < 300 then true
  else if top > 400 then false
  else if e < 0 then m < floatLimit * Nat.pow 10 e.natAbs
  else m * Nat.pow 10 e.toNat < floatLimit

/-- A run of digits and what follows it, if there is at least one digit. -/
def digits1? (cs : List Char) : Option (List Char × List Char) :=
  let ds := cs.takeWhile Char.isDigit
  if ds.isEmpty then none else some (ds, cs.drop ds.length)

/-- The text behind a sign, if there is one; `true` stands for minus. -/
def signOf : List Char → Bool × List Char
  | '-' :: rest => (true, rest)
  | '+' :: rest => (false, rest)
  | cs => (false, cs)

/-- The exponent at the end of a float literal; none counts as zero. -/
def exponent? : List Char → Option Int
  | [] => some 0
  | c :: rest =>
    if c == 'e' || c == 'E' then
      let (negative, digits) := signOf rest
      match digits1? digits with
      | some (ds, []) =>
        let n : Int := decimalValue ds
        some (if negative then -n else n)
      | _ => none
    else none

/-- Whether a literal without underscores is a decimal float that is not too large. -/
def isFloat (literal : List Char) : Bool :=
  match digits1? (signOf literal).2 with
  | none => false
  | some (whole, rest) =>
    let fraction := match rest with
      | '.' :: rest => rest.takeWhile Char.isDigit
      | _ => []
    let rest := match rest with
      | '.' :: rest => rest.drop fraction.length
      | _ => rest
    match exponent? rest with
    | none => false
    | some e => floatFits (decimalValue (whole ++ fraction)) (e - fraction.length)

/-- The parts of a float literal between points and exponent marks. -/
def floatParts (literal : List Char) : List (List Char) :=
  (literal.foldr
    (fun c parts =>
      if c == '.' || c == 'e' || c == 'E' then [] :: parts
      else match parts with
        | [] => [[c]]
        | part :: rest => (c :: part) :: rest)
    [[]]).filter (! ·.isEmpty)

/-- Whether a digit follows each point. -/
def pointsFollowed : List Char → Bool
  | [] => true
  | ['.'] => false
  | '.' :: c :: rest => c.isDigit && pointsFollowed (c :: rest)
  | _ :: rest => pointsFollowed rest

/-- The float of a literal. -/
def float? (literal : List Char) : Option Scalar :=
  let parts := floatParts literal
  if parts.all (digitsGrouped false) && !(parts.head?.any hasLeadingZero) &&
      pointsFollowed literal && isFloat (literal.filter (· != '_')) then
    some (.float (Utf8.encodeAll literal))
  else none

end AdaToC.Toml
