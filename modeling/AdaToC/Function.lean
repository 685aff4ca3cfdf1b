import AdaToC.Ada.Scan
import AdaToC.C.Body
import AdaToC.C.CType

/-!
# Functions

A function keeps its Ada names. Its C symbol, prototype and definition are computed from them.
-/

namespace AdaToC

/-- An Ada function with its parameters read. -/
structure Function where
  name : Bytes
  params : List Ada.Parameter
  returnType : Bytes
  body : Bytes
  deriving DecidableEq, Repr

namespace Function

def ofUnit (u : Ada.FunctionUnit) : Function where
  name := u.name
  params := Ada.Parameter.parse u.params
  returnType := u.returnType
  body := u.body

/-- The name of the function in C. -/
def symbol (f : Function) : Bytes :=
  bytes "ada_" ++ f.name.lower

/-- A parameter as it stands in a prototype. -/
def declareParameter (p : Ada.Parameter) : Bytes :=
  (C.CType.ofAda p.type).spelling ++ bytes " " ++ p.name.lower

/-- The parameter list of the prototype. -/
def parameterList (f : Function) : Bytes :=
  match f.params with
  | [] => bytes "void"
  | params => Bytes.joinWith (bytes ", ") (params.map declareParameter)

/-- The prototype, without a semicolon. -/
def declaration (f : Function) : Bytes :=
  (C.CType.ofAda f.returnType).spelling ++ bytes " " ++ f.symbol ++ bytes "(" ++
    f.parameterList ++ bytes ")"

/-- The statements of the function in C. -/
def block (f : Function) : Bytes :=
  C.block f.body f.params

/-- The function in C. -/
def definition (f : Function) : Bytes :=
  f.declaration ++ bytes " \x7b\n" ++ f.block ++ bytes "\n\x7d"

/-- The function in one line, with its Ada names. -/
def signature (f : Function) : Bytes :=
  f.name ++ bytes "(" ++ Bytes.joinWith (bytes ", ") (f.params.map (·.name)) ++ bytes ") -> " ++
    f.returnType

end Function

end AdaToC
