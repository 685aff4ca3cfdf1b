import AdaToC.Text.Utf8

/-!
# TOML values

`Value` is a value as it is written in a TOML file, and `Statement` a line of the file: a header or
an assignment. Keys are lists of names, since a key may be dotted.
-/

namespace AdaToC.Toml

/-- A key by its names; `a.b` has two. -/
abbrev Key := List Bytes

/-- A value without parts. -/
inductive Scalar where
  | text (s : Bytes)
  | integer (n : Int)
  /-- A number with a fraction or exponent, an infinity, or a value that is no number; as
  written. -/
  | float (literal : Bytes)
  | boolean (b : Bool)
  /-- A date, a time, or both; as written. -/
  | moment (literal : Bytes)
  deriving DecidableEq, Repr

/-- A value as written. -/
inductive Value where
  | scalar (s : Scalar)
  | array (items : List Value)
  /-- A table between braces. -/
  | inlineTable (fields : List (Key × Value))
  deriving Repr

inductive Statement where
  /-- The header `[key]`. -/
  | table (key : Key)
  /-- The header `[[key]]`. -/
  | element (key : Key)
  /-- The assignment `key = value`. -/
  | assign (key : Key) (value : Value)
  deriving Repr

end AdaToC.Toml
