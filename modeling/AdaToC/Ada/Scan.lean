import AdaToC.Ada.Word

/-!
# Function definitions in Ada text

A function definition is found by its words alone:

    function NAME ( PARAMETERS ) return TYPE is BODY end NAME;

`Header` is the part up to the opening parenthesis, `Signature` the part from the closing
parenthesis to `is`, and the terminator is `end NAME;`. The parameters end at the first closing
parenthesis that starts a signature, and the body at the first terminator behind it. `scan` goes
through a text from left to right. A header that can be completed gives a unit, and scanning goes
on behind its terminator; one that cannot is reported, and scanning goes on one byte further.
-/

namespace AdaToC.Ada

/-- The start of a function definition: its name, and the text behind the parenthesis. -/
structure Header where
  name : Bytes
  rest : Bytes
  deriving DecidableEq, Repr

/-- Reads `function NAME (` at the front of a text. -/
def Header.read? (s : Bytes) : Option Header := do
  let s ← strip? (bytes "function") s
  let s ← space? s
  let (name, s) ← word? s
  match skipSpace s with
  | 0x28 :: rest => some { name, rest }
  | _ => none

/-- What stands between the parameters of a function and its body: the return type, and the text
behind the white space that follows `is`. -/
structure Signature where
  returnType : Bytes
  rest : Bytes
  deriving DecidableEq, Repr

/-- Reads `) return TYPE is` at the front of a text. -/
def Signature.read? : Bytes → Option Signature
  | 0x29 :: s => do
    let s ← strip? (bytes "return") (skipSpace s)
    let s ← space? s
    let (returnType, s) ← word? s
    let s ← space? s
    let s ← strip? (bytes "is") s
    some { returnType, rest := skipSpace s }
  | _ => none

/-- Reads `end NAME;` at the front of a text, for a name given in folded form, and gives the text
behind it. -/
def terminator? (folded s : Bytes) : Option Bytes := do
  let s ← strip? (bytes "end") s
  let s ← space? s
  match ← strip? folded s with
  | 0x3B :: rest => some rest
  | _ => none

/-- A function definition cut into its parts. The offset is that of the word `function`. -/
structure FunctionUnit where
  name : Bytes
  params : Bytes
  returnType : Bytes
  body : Bytes
  offset : Nat
  deriving DecidableEq, Repr

/-- Why a header does not begin a function definition. -/
inductive Fault where
  /-- No closing parenthesis behind the header starts a signature. -/
  | noSignature
  /-- There is a signature, but no terminator behind it. -/
  | noTerminator
  deriving DecidableEq, Repr

/-- A header that does not begin a function definition. -/
structure Skipped where
  name : Bytes
  offset : Nat
  fault : Fault
  deriving DecidableEq, Repr

/-- The definition that a header at `offset` begins, and the text behind its terminator. -/
def Header.complete (h : Header) (offset : Nat) : Except Fault (FunctionUnit × Bytes) :=
  match firstAt? Signature.read? 0 h.rest with
  | none => .error .noSignature
  | some (k, signature) =>
    match firstAt? (terminator? (foldWord h.name)) 0 signature.rest with
    | none => .error .noTerminator
    | some (m, rest) =>
      .ok ({ name := h.name
             params := h.rest.take k
             returnType := signature.returnType
             body := signature.rest.take m
             offset }, rest)

/-- What scanning finds at a header. -/
inductive Finding where
  | unit (u : FunctionUnit)
  | skipped (s : Skipped)
  deriving DecidableEq, Repr

namespace Finding

def unit? : Finding → Option FunctionUnit
  | .unit u => some u
  | .skipped _ => none

def skipped? : Finding → Option Skipped
  | .unit _ => none
  | .skipped s => some s

end Finding

/-- The findings of the text that starts at `offset`, the first `passed` bytes of which belong to
the definition found last. -/
def scanFrom : (passed offset : Nat) → Bytes → List Finding
  | _, _, [] => []
  | passed + 1, offset, _ :: rest => scanFrom passed (offset + 1) rest
  | 0, offset, b :: rest =>
    match Header.read? (b :: rest) with
    | none => scanFrom 0 (offset + 1) rest
    | some h =>
      match h.complete offset with
      | .ok (u, behind) =>
        .unit u :: scanFrom (rest.length - behind.length) (offset + 1) rest
      | .error fault =>
        .skipped { name := h.name, offset, fault } :: scanFrom 0 (offset + 1) rest

/-- All headers of a text that are not inside a definition found before them, each with what
became of it, from left to right. -/
def scan (source : Bytes) : List Finding :=
  scanFrom 0 0 source

/-- The function definitions of a text. -/
def units (source : Bytes) : List FunctionUnit :=
  (scan source).filterMap Finding.unit?

/-- The headers of a text that begin no definition. -/
def skipped (source : Bytes) : List Skipped :=
  (scan source).filterMap Finding.skipped?

/-- What is said about a header that begins no definition. -/
def Skipped.message (s : Skipped) : Bytes :=
  let reason :=
    match s.fault with
    | .noSignature => bytes "missing \"return TYPE is\" after parameter list"
    | .noTerminator => bytes "missing \"end " ++ s.name ++ bytes ";\""
  bytes "function " ++ s.name ++ bytes " skipped: " ++ reason

end AdaToC.Ada
