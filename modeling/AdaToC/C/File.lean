import AdaToC.Function

/-!
# The generated C files

A header declares the functions between an include guard; an implementation includes the header
and defines them. Both list the functions in the order given.
-/

namespace AdaToC.C

/-- The names that are written into the generated files. -/
structure Naming where
  /-- The name under which the implementation includes the header. -/
  header : Bytes := []
  /-- The name of the program in the comment at the top. -/
  generator : Bytes := []
  deriving DecidableEq, Repr

namespace Naming

/-- The naming with its empty names filled in. -/
def complete (n : Naming) : Naming where
  header := n.header.orElse (bytes "ada_math.h")
  generator := n.generator.orElse (bytes "ada2c")

end Naming

/-- A character of an upper-case header name as it appears in the guard. -/
def guardChar (c : Char) : Char :=
  if ('A' ≤ c && c ≤ 'Z') || c == '_' || ('0' ≤ c && c ≤ '9') then c else '_'

/-- The include guard for a header name: the name in upper case, an underscore for each character
that C does not allow in a name, and one more in front of a leading digit. -/
def includeGuard (header : Bytes) : Bytes :=
  let name := header.upperScalars
  let lead :=
    match name with
    | c :: _ => if '0' ≤ c && c ≤ '9' then ['_'] else []
    | [] => []
  Utf8.encodeAll (lead ++ name.map guardChar)

/-- The text of the generated header. -/
def headerText (fns : List Function) (naming : Naming) : Bytes :=
  let name := includeGuard naming.complete.header
  bytes "#ifndef " ++ name ++ bytes "\n#define " ++ name ++
  bytes "\n\n#ifdef __cplusplus\nextern \"C\" \x7b\n#endif\n\n" ++
  fns.flatMap (fun f => f.declaration ++ bytes ";\n") ++
  bytes "\n#ifdef __cplusplus\n\x7d\n#endif\n\n#endif /* " ++ name ++ bytes " */\n"

/-- The lines above the first definition of the generated implementation. -/
def preamble (naming : Naming) : Bytes :=
  let names := naming.complete
  bytes "#include \"" ++ names.header ++ bytes "\"\n#include <math.h>\n\n" ++
  bytes "// Auto-generated from Ada source - DO NOT EDIT MANUALLY\n" ++
  bytes "// Generated by " ++ names.generator ++ bytes "\n\n"

/-- The text of the generated implementation. -/
def implementationText (fns : List Function) (naming : Naming) : Bytes :=
  preamble naming ++ fns.flatMap fun f => f.definition ++ bytes "\n\n"

end AdaToC.C
