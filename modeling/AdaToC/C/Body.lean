import AdaToC.Ada.Parameter
import AdaToC.Bounds
import AdaToC.Text.Case

/-!
# C bodies for Ada bodies

An Ada body is not parsed. It has a *shape* if the marker of that shape stands anywhere in it; of
several shapes the first in the list `Shape.all` counts. Each shape has a C block in which the
parameters of the function take the places of the operands. A body without a shape gets a
placeholder that still compiles.
-/

namespace AdaToC.C

/-- The operands of a block: the parameter names in lower case, in the order of declaration. -/
structure Operands where
  names : List Bytes
  deriving DecidableEq, Repr

namespace Operands

def ofParameters (params : List Ada.Parameter) : Operands :=
  ⟨params.map (·.name.lower)⟩

/-- The operand at index `i`, or `fallback` where there is none or its name is empty. -/
def get (o : Operands) (i : Nat) (fallback : Bytes) : Bytes :=
  (o.names.getD i []).orElse fallback

/-- The operand at an index that may be negative. -/
def get? (o : Operands) (i : Int) (fallback : Bytes) : Except BoundsError Bytes :=
  if i < 0 then .error (.index i) else .ok (o.get i.toNat fallback)

end Operands

/-- The shapes of Ada bodies that have a C block. -/
inductive Shape where
  | add
  | subtract
  | multiply
  | divide
  | sqrt
  | power
  | abs
  | max
  | min
  deriving DecidableEq, Repr

namespace Shape

/-- The shapes in the order in which they are tried: arithmetic, then library calls. -/
def all : List Shape :=
  [.add, .subtract, .multiply, .divide, .sqrt, .power, .abs, .max, .min]

def name : Shape → Bytes
  | .add => bytes "add"
  | .subtract => bytes "subtract"
  | .multiply => bytes "multiply"
  | .divide => bytes "divide"
  | .sqrt => bytes "sqrt"
  | .power => bytes "power"
  | .abs => bytes "abs"
  | .max => bytes "max"
  | .min => bytes "min"

/-- The text by which a shape is recognised. -/
def marker : Shape → Bytes
  | .add => bytes "return A + B"
  | .subtract => bytes "return A - B"
  | .multiply => bytes "return A * B"
  | .divide => bytes "return A / B"
  | .sqrt => bytes "Ada.Numerics.Elementary_Functions.Sqrt"
  | .power => bytes "Ada.Numerics.Elementary_Functions.\"**\""
  | .abs => bytes "abs("
  | .max => bytes "Float'Max"
  | .min => bytes "Float'Min"

/-- The first shape whose marker stands in the body. -/
def ofBody? (body : Bytes) : Option Shape :=
  all.find? fun shape => shape.marker.occursIn body

/-- The statement `return E;`, indented. -/
def returns (expression : Bytes) : Bytes :=
  bytes "    return " ++ expression ++ bytes ";"

/-- Returns NAN under a condition on which Ada would raise `exception`, and goes on below. -/
def guarded (condition exception : Bytes) (below : Bytes) : Bytes :=
  bytes "    if (" ++ condition ++ bytes ") \x7b\n" ++
  bytes "        return NAN;  // Ada would raise " ++ exception ++ bytes "\n" ++
  bytes "    \x7d\n" ++ below

/-- The choice of `a` where `a op b` holds and of `b` elsewhere. -/
def choice (op a b : Bytes) : Bytes :=
  a ++ op ++ b ++ bytes " ? " ++ a ++ bytes " : " ++ b

/-- The C block of a shape. -/
def render (shape : Shape) (o : Operands) : Bytes :=
  let a := o.get 0 (bytes "a")
  let b := o.get 1 (bytes "b")
  let x := o.get 0 (bytes "x")
  match shape with
  | .add => returns (a ++ bytes " + " ++ b)
  | .subtract => returns (a ++ bytes " - " ++ b)
  | .multiply => returns (a ++ bytes " * " ++ b)
  | .divide =>
    guarded (b ++ bytes " == 0.0f") (bytes "Constraint_Error") (returns (a ++ bytes " / " ++ b))
  | .sqrt =>
    guarded (x ++ bytes " < 0.0f") (bytes "Argument_Error")
      (returns (bytes "sqrtf(" ++ x ++ bytes ")"))
  | .power =>
    returns (bytes "powf(" ++ o.get 0 (bytes "base") ++ bytes ", " ++
      o.get 1 (bytes "exponent") ++ bytes ")")
  | .abs => returns (bytes "fabsf(" ++ x ++ bytes ")")
  | .max => returns (choice (bytes " > ") a b)
  | .min => returns (choice (bytes " < ") a b)

end Shape

/-- The block of a body without a shape. -/
def placeholder : Bytes :=
  bytes "    // TODO: Convert this Ada code to C\n    return 0.0f;"

/-- The C block for an Ada body and the parameters of its function. -/
def block (body : Bytes) (params : List Ada.Parameter) : Bytes :=
  match Shape.ofBody? body with
  | some shape => shape.render (Operands.ofParameters params)
  | none => placeholder

end AdaToC.C
