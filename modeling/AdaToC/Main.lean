import AdaToC.Run

/-!
# The command line

The tool works on a file tree that is a value. Here the part of the disk that a run can look at is
read into such a tree, the run is made, and what it printed, logged and changed is put out.
-/

namespace AdaToC.CommandLine

/-- A text as the operating system takes it. Bytes that are not well-formed become replacement
characters. -/
def display (s : Bytes) : String :=
  String.ofList (Utf8.scalars s)

def put (stream : IO.FS.Stream) (s : Bytes) : IO Unit :=
  stream.write ⟨s.toArray⟩

/-! ### Reading the disk -/

/-- What stands on the disk at a location. -/
def entryAt? (l : Location) : IO (Option Entry) := do
  let place := (← IO.currentDir) / display l.path
  try
    match (← place.metadata).type with
    | .dir => return some .directory
    | .file => return some (.file (← IO.FS.readBinFile place).toList)
    | _ => return none
  catch _ => return none

/-- Adds what stands on the disk along a path. -/
def addPath (t : FileTree) (path : Bytes) : IO FileTree := do
  let names := t.locationOf path
  let mut tree := t
  for n in List.range names.length do
    let l := names.take (n + 1)
    if let some e ← entryAt? l then tree := tree.insert l e
  return tree

/-- Adds the entries of a directory on the disk, and with `deep` all that is below them. Links to
directories are not followed. -/
partial def addEntries (deep : Bool) (t : FileTree) (l : Location) : IO FileTree := do
  let place := (← IO.currentDir) / display l.path
  if !(← place.isDir) then return t
  let mut tree := t
  for child in ← place.readDir do
    let next := l ++ [bytes child.fileName]
    if let some e ← entryAt? next then
      tree := tree.insert next e
      if deep && (← child.path.symlinkMetadata).type == .dir then
        tree ← addEntries deep tree next
  return tree

/-- Adds a path and, if it leads to a directory, what is below. -/
def addInput (deep : Bool) (t : FileTree) (path : Bytes) : IO FileTree := do
  addEntries deep (← addPath t path) (t.locationOf path)

/-- The paths at which a manifest is looked for. -/
def manifestPaths (t : FileTree) (workDir : Bytes) (s : Settings) : List Bytes :=
  if s.config.isEmpty then
    let names := t.locationOf workDir
    (List.range (names.length + 1)).map fun n =>
      Path.join [Location.path (names.take n), Manifest.fileName]
  else [Path.resolve workDir s.config]

/-- The directories that a run lists, and whether it goes down into them. -/
def inputPaths (workDir : Bytes) (s : Settings) (m : Manifest) : List Bytes × Bool :=
  if !s.inputs.isEmpty then (s.inputs.map (Path.resolve workDir), true)
  else if m.source.files.isEmpty then ([m.sourceDir], true)
  else (m.source.files.map fun f => Path.join [m.sourceDir, Path.parent f], false)

/-- The part of the disk that a run in the current directory can look at. -/
def snapshot (inv : Invocation) (s : Settings) : IO FileTree := do
  let current := bytes (← IO.currentDir).toString
  let tree := (← addPath .empty current).enter (Location.ofPath current)
  let tree ← addPath tree inv.workDir
  let tree ← (manifestPaths tree inv.workDir s).foldlM addPath tree
  match Run.chooseManifest tree inv.basis inv.workDir s with
  | .error _ => return tree
  | .ok (m, _) =>
    let (inputs, deep) := inputPaths inv.workDir s m
    let tree ← inputs.foldlM (addInput deep) tree
    let (headerPath, implementationPath) := Run.outputPaths inv.workDir s m
    [headerPath, implementationPath, m.referencePath].foldlM addPath tree

/-! ### Making the run -/

/-- Writes an entry to the disk. -/
def store : Location × Entry → IO Unit
  | (l, .directory) => IO.FS.createDirAll (display l.path)
  | (l, .file data) => IO.FS.writeBinFile (display l.path) ⟨data.toArray⟩

/-- The text of an environment variable, empty if it is not set. -/
def environmentText (name : String) : IO Bytes :=
  return bytes ((← IO.getEnv name).getD "")

/-- Makes a run on the disk. Gives the exit code. -/
def perform (inv : Invocation) : IO UInt32 := do
  let tree ← match Settings.read inv.args inv.env with
    | .ok s => if s.help then pure .empty else snapshot inv s
    | .error _ => pure .empty
  let outcome := run tree inv
  for r in outcome.log do put (← IO.getStderr) (r.line ++ bytes "\n")
  put (← IO.getStdout) outcome.stdout
  for change in tree.changes outcome.tree do store change
  match outcome.failure with
  | none => return 0
  | some e =>
    put (← IO.getStderr) (bytes "Error: " ++ e.message ++ bytes "\n")
    return 1

end AdaToC.CommandLine

open AdaToC AdaToC.CommandLine in
/-- Runs the tool on the disk with the arguments given to it. -/
def main (args : List String) : IO UInt32 := do
  let env : Environment :=
    { logLevel := ← environmentText "LOG_LEVEL", jobs := ← environmentText "ADA2C_JOBS" }
  perform { args := args.map bytes, env, workDir := bytes ".", cancelled := false }
