import AdaToC.Text.Utf8

/-!
# Paths

A path is a text of elements separated by slashes. Paths are joined and shortened as text; no file
is looked at.
-/

namespace AdaToC

namespace Path

def slash : UInt8 := 0x2F

def isAbsolute : Bytes → Bool
  | b :: _ => b == slash
  | [] => false

/-- A name that can stand for an entry of a directory. -/
def IsName (e : Bytes) : Prop :=
  e ≠ [] ∧ e ≠ bytes "." ∧ e ≠ bytes ".."

instance (e : Bytes) : Decidable (IsName e) :=
  inferInstanceAs (Decidable (e ≠ [] ∧ e ≠ bytes "." ∧ e ≠ bytes ".."))

/-- The elements of a path without those that say nothing: empty elements, `.`, and `..` together
with the element before it. The list of elements kept so far is in reverse order; at the root `..`
says nothing either. -/
def reduce (absolute : Bool) : (kept elements : List Bytes) → List Bytes
  | kept, [] => kept.reverse
  | kept, e :: rest =>
    if e.isEmpty || e == bytes "." then reduce absolute kept rest
    else if e == bytes ".." then
      match kept with
      | last :: earlier =>
        if last == bytes ".." then reduce absolute (e :: kept) rest
        else reduce absolute earlier rest
      | [] => reduce absolute (if absolute then [] else [e]) rest
    else reduce absolute (e :: kept) rest

/-- The elements of a path that shortening keeps. -/
def elements (p : Bytes) : List Bytes :=
  reduce (isAbsolute p) [] (p.split slash)

/-- The shortest path that names the same place. The empty path becomes `.`. -/
def clean (p : Bytes) : Bytes :=
  let joined := Bytes.joinWith [slash] (elements p)
  if isAbsolute p then slash :: joined else joined.orElse (bytes ".")

/-- The paths one after the other, shortened. Empty paths are left out, and of none the join is
empty. -/
def join (paths : List Bytes) : Bytes :=
  match paths.filter (! ·.isEmpty) with
  | [] => []
  | parts => clean (Bytes.joinWith [slash] parts)

/-- The path up to and including its last slash, and the rest. -/
def splitLast (p : Bytes) : Bytes × Bytes :=
  let base := (p.reverse.takeWhile (· != slash)).reverse
  (p.take (p.length - base.length), base)

/-- The path of the directory that holds the last element. -/
def parent (p : Bytes) : Bytes :=
  clean (splitLast p).1

/-- The last element, trailing slashes left aside. The empty path gives `.` and the root `/`. -/
def base (p : Bytes) : Bytes :=
  if p.isEmpty then bytes "."
  else
    let trimmed := (p.reverse.dropWhile (· == slash)).reverse
    (splitLast trimmed).2.orElse (bytes "/")

/-- The last element from its last dot on; empty if it has no dot. -/
def extension (p : Bytes) : Bytes :=
  let last := (splitLast p).2
  if last.contains 0x2E then 0x2E :: (last.reverse.takeWhile (· != 0x2E)).reverse else []

/-- A path as seen from a directory: absolute paths stay as they are. -/
def resolve (dir p : Bytes) : Bytes :=
  if isAbsolute p then p else join [dir, p]

/-- Whether a path names a place below a directory in the strict form that the source loader
asks for: well-formed text, no slash at the ends, and no element that is empty, `.` or `..`. The
path `.` alone names the directory itself. -/
def isLocal (p : Bytes) : Bool :=
  Utf8.isValid p &&
    (p == bytes "." ||
      (p.split slash).all fun e => !e.isEmpty && e != bytes "." && e != bytes "..")

end Path

end AdaToC
