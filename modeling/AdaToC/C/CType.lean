import AdaToC.Text.Utf8

/-!
# C types

Four Ada types have a C type of their own. Every other Ada type becomes `float`.
-/

namespace AdaToC.C

/-- A C value type. -/
inductive CType where
  | float
  | int
  | bool
  | charPointer
  deriving DecidableEq, Repr

namespace CType

/-- All C types, in the order of their codes. -/
def all : List CType := [.float, .int, .bool, .charPointer]

/-- The number of the type in `all`. -/
def code : CType → Nat
  | .float => 0
  | .int => 1
  | .bool => 2
  | .charPointer => 3

/-- The type with a given number; a number that belongs to no type gives `float`. -/
def ofCode (n : Int) : CType :=
  if n < 0 then .float else all.getD n.toNat .float

/-- How the type is written in C. -/
def spelling : CType → Bytes
  | .float => bytes "float"
  | .int => bytes "int"
  | .bool => bytes "bool"
  | .charPointer => bytes "char*"

/-- The C type of an Ada type that has one of its own. Names are compared byte by byte. -/
def ofAda? (name : Bytes) : Option CType :=
  if name = bytes "Float" then some .float
  else if name = bytes "Integer" then some .int
  else if name = bytes "Boolean" then some .bool
  else if name = bytes "String" then some .charPointer
  else none

/-- The C type of an Ada type. -/
def ofAda (name : Bytes) : CType :=
  (ofAda? name).getD .float

end CType

end AdaToC.C
