import AdaToC.FileTree

/-!
# Comparison with a reference implementation

The generated implementation is compared with a file kept by hand. It matches if it stands in that
file as a whole, after the name of the generated header has been replaced by the name under which
the file includes it.
-/

namespace AdaToC

namespace Reference

/-- The generated text with the header named as in the reference. -/
def normalize (generated generatedHeader canonicalHeader : Bytes) : Bytes :=
  if generatedHeader.isEmpty || generatedHeader == canonicalHeader then generated
  else Bytes.replaceAll generatedHeader canonicalHeader generated

/-- Whether the generated text stands in the reference text. -/
def agrees (generated existing generatedHeader canonicalHeader : Bytes) : Bool :=
  (normalize generated generatedHeader canonicalHeader).occursIn existing

/-- What a comparison showed. -/
inductive Verdict where
  /-- There is no reference file. -/
  | absent
  | agrees
  | differs
  deriving DecidableEq, Repr

/-- Why the reference file could not be read. -/
structure Error where
  path : Bytes
  cause : PathError
  deriving DecidableEq, Repr

def Error.message (e : Error) : Bytes :=
  bytes "failed to read reference " ++ e.path ++ bytes ": " ++ e.cause.message

/-- Compares the generated text with the file at a path. -/
def check (t : FileTree) (path generated generatedHeader canonicalHeader : Bytes) :
    Except Error Verdict :=
  match t.readFile path path with
  | .ok existing =>
    .ok (if Reference.agrees generated existing generatedHeader canonicalHeader then .agrees
      else .differs)
  | .error e => if e.reason = .noSuchEntry then .ok .absent else .error ⟨path, e⟩

end Reference

end AdaToC
