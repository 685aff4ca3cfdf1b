import AdaToC.Basis
import AdaToC.FileTree
import AdaToC.Text.Case

/-!
# The manifest of a project

A project may have a manifest, a TOML file with the name `ada2c.toml`, in its directory. It says
where the Ada sources are, what the generated files are called and what they are compared with.
Everything it leaves out has a default. Keys are recognised without regard to letter case, and of
two spellings of one key the one that is come to last counts. But whether a list of files or a
switch was given at all is decided by the exact spelling of its key.
-/

namespace AdaToC

/-- Where the Ada sources are. -/
structure SourceSection where
  dir : Bytes := []
  files : List Bytes := []
  encoding : Bytes := []
  deriving DecidableEq, Repr

/-- The generated files. -/
structure OutputSection where
  dir : Bytes := []
  header : Bytes := []
  implementation : Bytes := []
  /-- The name under which the reference implementation includes the header. -/
  canonicalHeader : Bytes := []
  deriving DecidableEq, Repr

/-- The comparison with a reference implementation. -/
structure CompareSection where
  enabled : Bool := false
  reference : Bytes := []
  deriving DecidableEq, Repr

structure Manifest where
  source : SourceSection := {}
  output : OutputSection := {}
  compare : CompareSection := {}
  /-- The directory of the manifest. -/
  dir : Bytes := []
  deriving DecidableEq, Repr

/-- Why there is no manifest. -/
inductive ManifestError where
  | unreadable (path : Bytes) (e : PathError)
  /-- The file is not a manifest, for the reason that stands in `text`. -/
  | malformed (path text : Bytes)
  | notFound
  deriving DecidableEq, Repr

namespace Manifest

/-- The name of manifest files. -/
def fileName : Bytes := bytes "ada2c.toml"

end Manifest

def ManifestError.message : ManifestError → Bytes
  | .unreadable path e => bytes "cannot read " ++ path ++ bytes ": " ++ e.message
  | .malformed path text => bytes "parse error in " ++ path ++ bytes ": " ++ text
  | .notFound => Manifest.fileName ++ bytes " not found"

namespace Manifest

open Toml

/-! ### Values of the file -/

/-- A text. -/
def text? : Node → Option Bytes
  | .scalar (.text s) => some s
  | _ => none

/-- A list of texts. -/
def texts? : Node → Option (List Bytes)
  | .array items => items.mapM text?
  | _ => none

def boolean? : Node → Option Bool
  | .scalar (.boolean b) => some b
  | _ => none

/-- Sets one key of the section `source`; a key that the section does not have is passed over. -/
def SourceSection.set (s : SourceSection) (key : Bytes) (n : Node) : Option SourceSection :=
  if key.equalFold (bytes "dir") then (text? n).map fun v => { s with dir := v }
  else if key.equalFold (bytes "files") then (texts? n).map fun v => { s with files := v }
  else if key.equalFold (bytes "encoding") then (text? n).map fun v => { s with encoding := v }
  else some s

/-- Sets one key of the section `output`. -/
def OutputSection.set (o : OutputSection) (key : Bytes) (n : Node) : Option OutputSection :=
  if key.equalFold (bytes "dir") then (text? n).map fun v => { o with dir := v }
  else if key.equalFold (bytes "header") then (text? n).map fun v => { o with header := v }
  else if key.equalFold (bytes "implementation") then
    (text? n).map fun v => { o with implementation := v }
  else if key.equalFold (bytes "canonical-header") then
    (text? n).map fun v => { o with canonicalHeader := v }
  else some o

/-- Sets one key of the section `compare`. -/
def CompareSection.set (c : CompareSection) (key : Bytes) (n : Node) : Option CompareSection :=
  if key.equalFold (bytes "enabled") then (boolean? n).map fun v => { c with enabled := v }
  else if key.equalFold (bytes "reference") then (text? n).map fun v => { c with reference := v }
  else some c

/-- Sets the keys of the section with a given name one after the other. -/
def setAll {α : Type} (order : EntryOrder) (name : Bytes) (set : α → Bytes → Node → Option α)
    (start : α) : Node → Option α
  | .table entries => (order.arrange [name] entries).foldlM (fun s (key, n) => set s key n) start
  | _ => none

/-- Sets one section of the manifest; one that it does not have is passed over. -/
def setSection (order : EntryOrder) (m : Manifest) (key : Bytes) (n : Node) : Option Manifest :=
  if key.equalFold (bytes "source") then
    (setAll order key SourceSection.set m.source n).map fun s => { m with source := s }
  else if key.equalFold (bytes "output") then
    (setAll order key OutputSection.set m.output n).map fun o => { m with output := o }
  else if key.equalFold (bytes "compare") then
    (setAll order key CompareSection.set m.compare n).map fun c => { m with compare := c }
  else some m

/-- The manifest that a document holds, with nothing filled in. -/
def ofDocument? (order : EntryOrder) (document : Entries) : Option Manifest :=
  (order.arrange [] document).foldlM (fun m (key, n) => setSection order m key n) {}

/-! ### Defaults -/

/-- The Ada files of a project that does not list its files. -/
def defaultFiles : List Bytes := [bytes "library.adb", bytes "library_c_wrapper.adb"]

/-- The manifest with everything filled in that the document leaves out. -/
def withDefaults (m : Manifest) (document : Entries) : Manifest where
  dir := m.dir
  source :=
    { dir := m.source.dir.orElse (bytes ".")
      files :=
        if Entries.defines [bytes "source", bytes "files"] document then m.source.files
        else defaultFiles
      encoding := m.source.encoding.orElse (bytes "auto") }
  output :=
    { dir := m.output.dir.orElse (bytes ".")
      header := m.output.header.orElse (bytes "ada_math_generated.h")
      implementation := m.output.implementation.orElse (bytes "ada_math_generated.c")
      canonicalHeader := m.output.canonicalHeader.orElse (bytes "ada_math.h") }
  compare :=
    { enabled :=
        if Entries.defines [bytes "compare", bytes "enabled"] document then m.compare.enabled
        else true
      reference := m.compare.reference.orElse (bytes "ada_math_android.c") }

/-- The manifest of a project that has none, in a given directory. -/
def default (dir : Bytes) : Manifest :=
  withDefaults { dir } []

/-! ### Loading -/

/-- The manifest that a file in a given directory holds. -/
def ofData? (order : EntryOrder) (data dir : Bytes) : Option Manifest := do
  let document ← document? data
  let m ← ofDocument? order document
  some ({ m with dir }.withDefaults document)

/-- Reads the manifest at a path. -/
def load (t : FileTree) (basis : Basis) (path : Bytes) : Except ManifestError Manifest :=
  match t.readFile path path with
  | .error e => .error (.unreadable path e)
  | .ok data =>
    match ofData? basis.order data (t.absolute (Path.parent path)) with
    | some m => .ok m
    | none => .error (.malformed path (basis.complaint data))

/-- Reads the manifest of the directory with given names, innermost first, if it has one. -/
def loadAt? (t : FileTree) (basis : Basis) (names : List Bytes) :
    Option (Except ManifestError Manifest) :=
  let path := Path.join [Location.path names.reverse, fileName]
  match t.find path with
  | .ok _ => some (load t basis path)
  | .error _ => none

/-- Reads the manifest of the directory with given names, innermost first, or of the nearest
directory around it that has one. -/
def loadNearest (t : FileTree) (basis : Basis) : List Bytes → Except ManifestError Manifest
  | [] => (loadAt? t basis []).getD (.error .notFound)
  | name :: around =>
    match loadAt? t basis (name :: around) with
    | some loaded => loaded
    | none => loadNearest t basis around

/-- Reads the manifest of a directory, or of the nearest directory around it that has one. -/
def search (t : FileTree) (basis : Basis) (dir : Bytes) : Except ManifestError Manifest :=
  loadNearest t basis (t.locationOf dir).reverse

/-! ### Paths -/

/-- A path as seen from the directory of the manifest. -/
def resolve (m : Manifest) (p : Bytes) : Bytes :=
  Path.resolve m.dir p

def sourceDir (m : Manifest) : Bytes :=
  m.resolve m.source.dir

def headerPath (m : Manifest) : Bytes :=
  Path.join [m.resolve m.output.dir, m.output.header]

def implementationPath (m : Manifest) : Bytes :=
  Path.join [m.resolve m.output.dir, m.output.implementation]

def referencePath (m : Manifest) : Bytes :=
  m.resolve m.compare.reference

end Manifest

end AdaToC
