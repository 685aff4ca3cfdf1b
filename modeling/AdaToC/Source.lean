import AdaToC.Encoding
import AdaToC.FileTree

/-!
# Ada source files

A source folder is a directory together with the encoding of the files in it. Files are named by
their paths from the folder. Names given by the user are looked up without regard to letter case;
where several files fit, one with exactly the name is preferred, then the first in byte order.
-/

namespace AdaToC

/-- A source file that was read. -/
structure SourceFile where
  /-- The last element of the path. -/
  name : Bytes
  /-- The path from the source folder. -/
  path : Bytes
  /-- The text, as UTF-8 unless the file itself is not. -/
  content : Bytes
  /-- The number of bytes on disk. -/
  size : Nat
  deriving DecidableEq, Repr

/-- Why a name was not found in a directory. -/
inductive FindError where
  | unlistable (dir : Bytes) (e : PathError)
  | missing (name dir : Bytes)
  deriving DecidableEq, Repr

def FindError.message : FindError → Bytes
  | .unlistable dir e => bytes "failed to read directory " ++ dir ++ bytes ": " ++ e.message
  | .missing name dir =>
    bytes "file not found: " ++ name ++ bytes " (searched in " ++ dir ++
      bytes "): file does not exist"

/-- Why source files could not be loaded. -/
inductive SourceError where
  | unreadable (name : Bytes) (e : PathError)
  | undecodable (name : Bytes) (e : Encoding.Error)
  | unwalkable (dir : Bytes) (e : PathError)
  | inaccessible (input : Bytes) (e : PathError)
  | noSources (dir : Bytes)
  deriving DecidableEq, Repr

def SourceError.message : SourceError → Bytes
  | .unreadable name e => bytes "failed to read file " ++ name ++ bytes ": " ++ e.message
  | .undecodable name e =>
    bytes "failed to convert encoding for " ++ name ++ bytes ": " ++ e.message
  | .unwalkable dir e => bytes "failed to walk " ++ dir ++ bytes ": " ++ e.message
  | .inaccessible input e => bytes "cannot access " ++ input ++ bytes ": " ++ e.message
  | .noSources dir => bytes "no Ada files found in " ++ dir

/-- Whether the extension of a name is one of the given ones up to letter case. -/
def hasExtension (name : Bytes) (extensions : List Bytes) : Bool :=
  extensions.any fun e => (Path.extension name).equalFold e

/-- Whether a name is that of an Ada file. -/
def isAdaName (name : Bytes) : Bool :=
  hasExtension name [bytes ".adb", bytes ".ads"]

/-- A directory with source files, the label of their encoding, and the tables it is read with. -/
structure SourceFolder where
  dir : Bytes
  encoding : Bytes
  tables : Encoding.Tables

namespace SourceFolder

/-- The folder at a directory; without a label the encoding is guessed. -/
def new (dir label : Bytes) (tables : Encoding.Tables := {}) : SourceFolder :=
  ⟨dir, label.orElse Encoding.auto, tables⟩

/-- The path of a file of the folder. -/
def pathOf (folder : SourceFolder) (name : Bytes) : Bytes :=
  folder.dir ++ bytes "/" ++ name

/-- The path under which a file of the folder is looked for. Names have to be in the strict form,
and a folder without a directory has no files. -/
def path? (folder : SourceFolder) (name : Bytes) : Except Reason Bytes :=
  if folder.dir.isEmpty then .error .noRoot
  else if Path.isLocal name && !name.contains 0 then .ok (folder.pathOf name)
  else .error .invalidArgument

/-- The entries of a directory of the folder. -/
def list (folder : SourceFolder) (t : FileTree) (dir : Bytes) :
    Except PathError (List (Bytes × Entry)) :=
  match folder.path? dir with
  | .error reason => .error ⟨.readDirectory, dir, reason⟩
  | .ok path => t.readDirectory dir path

/-- The path of the file with a given name in a directory of the folder. -/
def findName (folder : SourceFolder) (t : FileTree) (dir name : Bytes) : Except FindError Bytes :=
  match folder.list t dir with
  | .error e => .error (.unlistable dir e)
  | .ok entries =>
    let files := (entries.filter fun (_, e) => e != .directory).map (·.1)
    match (files.find? (· == name)).or (files.find? (·.equalFold name)) with
    | some found => .ok (Path.join [dir, found])
    | none => .error (.missing name dir)

/-- The paths of the files with given names, in the order of the names. Names that are not found
are left out. -/
def find (folder : SourceFolder) (t : FileTree) (names : List Bytes) : List Bytes :=
  names.filterMap fun name =>
    let (dir, base) := Path.splitLast name
    (folder.findName t (Bytes.orElse dir.dropLast (bytes ".")) base).toOption

/-- The paths of all Ada files below the folder, in the order of the tree. A directory whose name
is not well-formed text cannot be entered. -/
def findAll (folder : SourceFolder) (t : FileTree) : Except SourceError (List Bytes) :=
  let fail (e : PathError) : Except SourceError (List Bytes) := .error (.unwalkable folder.dir e)
  match folder.path? (bytes ".") with
  | .error reason => fail ⟨.stat, bytes ".", reason⟩
  | .ok path =>
    match t.stat (bytes ".") path with
    | .error e => fail e
    | .ok (l, _) =>
      let found := (t.below l).map fun (names, e) => (Bytes.joinWith [Path.slash] names, e)
      match found.find? fun (p, e) => e == .directory && !Path.isLocal p with
      | some (p, _) => fail ⟨.readDirectory, p, .invalidArgument⟩
      | none =>
        .ok (found.filterMap fun (p, e) => if e != .directory && isAdaName p then some p else none)

/-- Reads a file of the folder. -/
def load (folder : SourceFolder) (t : FileTree) (name : Bytes) : Except SourceError SourceFile :=
  let data : Except PathError Bytes :=
    match folder.path? name with
    | .error reason => .error ⟨.readWhole, name, reason⟩
    | .ok path => t.readFile name path
  match data with
  | .error e => .error (.unreadable name e)
  | .ok data =>
    match Encoding.decode data folder.encoding folder.tables with
    | .error e => .error (.undecodable name e)
    | .ok content => .ok { name := Path.base name, path := name, content, size := data.length }

/-- Reads files of the folder in order. There has to be at least one. -/
def loadAll (folder : SourceFolder) (t : FileTree) (names : List Bytes) :
    Except SourceError (List SourceFile) :=
  if names.isEmpty then .error (.noSources folder.dir) else names.mapM (folder.load t)

end SourceFolder

end AdaToC
