import AdaToC.Text.Blank

/-!
# Parameters of a function

A parameter list is a sequence of groups separated by semicolons. A group `A, B : T` declares the
names before its first colon with the type behind it. A group without a colon declares nothing.
-/

namespace AdaToC.Ada

/-- A declared parameter: its name and the name of its Ada type. -/
structure Parameter where
  name : Bytes
  type : Bytes
  deriving DecidableEq, Repr

namespace Parameter

/-- The parameters that one group declares. -/
def ofGroup (group : Bytes) : List Parameter :=
  match group.cut? 0x3A with
  | none => []
  | some (names, type) => (names.split 0x2C).map fun name => ⟨name.trim, type.trim⟩

/-- The parameters of a parameter list, in the order of declaration. A blank list has none. -/
def parse (raw : Bytes) : List Parameter :=
  if raw.trim.isEmpty then [] else (raw.split 0x3B).flatMap ofGroup

end Parameter

end AdaToC.Ada
