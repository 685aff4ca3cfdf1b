import AdaToC.FileTree.Listing

/-!
# File trees

A file tree is a value: the files and directories below a root, in a well-formed listing, and the
directory in it from which relative paths are followed. Operations that can fail tell what was
attempted, the path as the caller wrote it, and the reason.

There are no links and no special files, and whatever stands in the tree can be looked at and read.
Writing is different: besides what stands in the way, a tree has faults, by which a file may be
refused or lose its end, and a directory be refused, for any reason that a system has.
-/

namespace AdaToC

/-- What was attempted when a file operation failed. -/
inductive Operation where
  | openFile
  | read
  | stat
  | makeDirectory
  | readWhole
  | readDirectory
  | write
  | close
  deriving DecidableEq, Repr

def Operation.name : Operation → Bytes
  | .openFile => bytes "open"
  | .read => bytes "read"
  | .stat => bytes "stat"
  | .makeDirectory => bytes "mkdir"
  | .readWhole => bytes "readfile"
  | .readDirectory => bytes "readdir"
  | .write => bytes "write"
  | .close => bytes "close"

/-- Why a file operation failed. -/
inductive Reason where
  | noSuchEntry
  | notDirectory
  | isDirectory
  | invalidArgument
  /-- A folder of files was asked for without saying where it is. -/
  | noRoot
  /-- A reason of the system that has nothing to do with what stands in the tree. -/
  | other (text : Bytes)
  deriving DecidableEq, Repr

def Reason.message : Reason → Bytes
  | .noSuchEntry => bytes "no such file or directory"
  | .notDirectory => bytes "not a directory"
  | .isDirectory => bytes "is a directory"
  | .invalidArgument => bytes "invalid argument"
  | .noRoot => bytes "os: DirFS with empty root"
  | .other text => text

/-- A file operation that failed. -/
structure PathError where
  operation : Operation
  path : Bytes
  reason : Reason
  deriving DecidableEq, Repr

def PathError.message (e : PathError) : Bytes :=
  e.operation.name ++ bytes " " ++ e.path ++ bytes ": " ++ e.reason.message

/-- What keeps a place from being written, though nothing stands in the way. -/
inductive Fault where
  /-- Neither a file can be opened there for writing nor a directory be made. -/
  | refused (reason : Reason)
  /-- A file can be opened, and then keeps only the first bytes of what is written. This shows while
  it is written or, with `closing`, only when it is closed. -/
  | cut (kept : Nat) (closing : Bool) (reason : Reason)
  deriving DecidableEq, Repr

/-- The files and directories below a root, and how a run can work on them. -/
structure FileTree where
  entries : Listing := []
  /-- The directory from which relative paths are followed. -/
  current : Location := []
  /-- The places that cannot be written as they should. -/
  faults : List (Location × Fault) := []
  wellFormed : entries.WellFormed := by decide +kernel
  current_directory : entries.entryAt current = some .directory := by decide +kernel
  deriving DecidableEq, Repr

namespace FileTree

/-- The tree that has nothing but its root. -/
def empty : FileTree where
  wellFormed :=
    { ordered := .nil
      ne_nil := fun _ h => absurd h List.not_mem_nil
      proper := fun _ h => absurd h List.not_mem_nil
      parent := fun _ h => absurd h List.not_mem_nil }
  current_directory := rfl

/-- What stands at a location. -/
def lookup (t : FileTree) (l : Location) : Option Entry :=
  t.entries.entryAt l

/-- The tree with an entry added or replaced, if there is a place for it. -/
def insert (t : FileTree) (l : Location) (e : Entry) : FileTree :=
  if h : t.entries.Admits l e then
    { t with
      entries := t.entries.put l e
      wellFormed := t.wellFormed.put h
      current_directory := h.entryAt_put_directory t.current_directory }
  else t

/-- The tree without a location and everything below it, unless the current directory is there. -/
def erase (t : FileTree) (l : Location) : FileTree :=
  if h : l.isPrefixOf t.current = false then
    { t with
      entries := t.entries.without l
      wellFormed := t.wellFormed.without l
      current_directory := (t.wellFormed.entryAt_without h).trans t.current_directory }
  else t

/-- The tree with another current directory, if there is such a directory. -/
def enter (t : FileTree) (l : Location) : FileTree :=
  if h : t.entries.entryAt l = some .directory then { t with current := l, current_directory := h }
  else t

/-- The entries below a location, each with the names that lead to it from there. -/
def below (t : FileTree) (l : Location) : List (Location × Entry) :=
  t.entries.filterMap fun (l', e) =>
    match l.isPrefixOf? l' with
    | some (name :: names) => some (name :: names, e)
    | _ => none

/-- The entries of the directory at a location, by name. -/
def children (t : FileTree) (l : Location) : List (Bytes × Entry) :=
  (t.below l).filterMap fun (names, e) =>
    match names with
    | [name] => some (name, e)
    | _ => none

/-! ### From paths to locations -/

/-- Follows the elements of a path from a location. Every element that has another one behind it
has to be a directory, also where the other one says nothing. -/
def locateFrom (t : FileTree) : Location → List Bytes → Except Reason Location
  | here, [] => .ok here
  | here, e :: rest =>
    match t.lookup here with
    | some .directory =>
      if e.isEmpty || e == bytes "." then locateFrom t here rest
      else if e == bytes ".." then locateFrom t here.dropLast rest
      else
        match t.lookup (here ++ [e]) with
        | some _ => locateFrom t (here ++ [e]) rest
        | none => .error .noSuchEntry
    | _ => .error .notDirectory

/-- Where a path is followed from. -/
def start (t : FileTree) (p : Bytes) : Location :=
  if Path.isAbsolute p then [] else t.current

/-- The location that a path leads to. A path with a zero byte names nothing. -/
def locate (t : FileTree) (p : Bytes) : Except Reason Location :=
  if p.contains 0 then .error .invalidArgument
  else if p.isEmpty then .error .noSuchEntry
  else t.locateFrom (t.start p) (p.split Path.slash)

/-- The location that a path names. -/
def locationOf (t : FileTree) (p : Bytes) : Location :=
  (t.start p).follow p

/-- The absolute form of a path. -/
def absolute (t : FileTree) (p : Bytes) : Bytes :=
  if Path.isAbsolute p then Path.clean p else Path.join [t.current.path, p]

/-- The location and the entry that a path leads to. -/
def find (t : FileTree) (p : Bytes) : Except Reason (Location × Entry) := do
  let l ← t.locate p
  match t.lookup l with
  | some e => .ok (l, e)
  | none => .error .noSuchEntry

/-! ### Operations

Where a path is shown to the reader in another form than the one followed, the shown form comes
first. -/

/-- What a path leads to. -/
def stat (t : FileTree) (shown p : Bytes) : Except PathError (Location × Entry) :=
  match t.find p with
  | .ok found => .ok found
  | .error reason => .error ⟨.stat, shown, reason⟩

/-- The content of a file. -/
def readFile (t : FileTree) (shown p : Bytes) : Except PathError Bytes :=
  match t.find p with
  | .ok (_, .file data) => .ok data
  | .ok (_, .directory) => .error ⟨.read, shown, .isDirectory⟩
  | .error reason => .error ⟨.openFile, shown, reason⟩

/-- The entries of a directory. -/
def readDirectory (t : FileTree) (shown p : Bytes) : Except PathError (List (Bytes × Entry)) :=
  match t.find p with
  | .ok (l, .directory) => .ok (t.children l)
  | .ok (_, .file _) => .error ⟨.openFile, shown, .notDirectory⟩
  | .error reason => .error ⟨.openFile, shown, reason⟩

/-- Makes a directory where nothing stands. -/
def makeDirectory (t : FileTree) (l : Location) : Except Reason FileTree :=
  if l.any (·.contains 0) then .error .invalidArgument
  else
    match t.faults.lookup l with
    | some (.refused reason) => .error reason
    | _ => .ok (t.insert l .directory)

/-- Makes the directories to which the elements of a shortened path lead from a location. Those made
before a failure stay; the path of the one that failed is `shown` with the elements up to it. -/
def makeDirectoriesFrom (t : FileTree) (here : Location) (shown : Bytes) :
    List Bytes → FileTree × Option PathError
  | [] => (t, none)
  | e :: rest =>
    if e == bytes ".." then
      makeDirectoriesFrom t here.dropLast (shown ++ e ++ [Path.slash]) rest
    else
      let next := here ++ [e]
      let fail (reason : Reason) : FileTree × Option PathError :=
        (t, some ⟨.makeDirectory, shown ++ e, reason⟩)
      match t.lookup next with
      | some .directory => makeDirectoriesFrom t next (shown ++ e ++ [Path.slash]) rest
      | some (.file _) => fail .notDirectory
      | none =>
        match t.makeDirectory next with
        | .ok t => makeDirectoriesFrom t next (shown ++ e ++ [Path.slash]) rest
        | .error reason => fail reason

/-- Makes the directory with a shortened path and all that lead to it, where they are missing. -/
def makeDirectories (t : FileTree) (p : Bytes) : FileTree × Option PathError :=
  t.makeDirectoriesFrom (t.start p) (if Path.isAbsolute p then [Path.slash] else [])
    (Path.elements p)

/-- Writes a file at a location where no directory stands, as far as there is no fault. -/
def store (t : FileTree) (l : Location) (p data : Bytes) : FileTree × Option PathError :=
  match t.faults.lookup l with
  | none => (t.insert l (.file data), none)
  | some (.refused reason) => (t, some ⟨.openFile, p, reason⟩)
  | some (.cut kept closing reason) =>
    (t.insert l (.file (data.take kept)), some ⟨if closing then .close else .write, p, reason⟩)

/-- Writes a file into a directory that exists. If that fails, a part may be written. -/
def writeFile (t : FileTree) (p data : Bytes) : FileTree × Option PathError :=
  let fail (reason : Reason) : FileTree × Option PathError := (t, some ⟨.openFile, p, reason⟩)
  match t.find p with
  | .ok (l, .file _) => t.store l p data
  | .ok (_, .directory) => fail .isDirectory
  | .error .noSuchEntry =>
    let (dir, name) := Path.splitLast p
    if name.isEmpty then fail .noSuchEntry
    else
      match t.find (dir.orElse (bytes ".")) with
      | .ok (l, .directory) => t.store (l ++ [name]) p data
      | .ok (_, .file _) => fail .notDirectory
      | .error reason => fail reason
  | .error reason => fail reason

/-- The entries that are new in `after` or not the same as before, in the order of their paths. -/
def changes (before after : FileTree) : List (Location × Entry) :=
  (after.entries.filter fun (l, e) => before.lookup l != some e).mergeSort
    fun a b => a.1.path ≤ b.1.path

end FileTree

end AdaToC
