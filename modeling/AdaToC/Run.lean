import AdaToC.Artifacts
import AdaToC.Help
import AdaToC.Manifest
import AdaToC.Reference
import AdaToC.Settings
import AdaToC.Source

/-!
# A run of the tool

A run takes a file tree and gives another one, together with what was printed and logged and, if it
failed, the failure. Its stages come one after the other: settings, manifest, sources, conversion,
output, comparison. A stage that fails ends the run; what earlier stages did stays done.
-/

namespace AdaToC

/-- What a run is given besides the file tree. -/
structure Invocation where
  args : List Bytes
  env : Environment
  /-- The directory that relative paths are joined to. It may be relative itself, as `.` is, and is
  then followed from the current directory of the tree. -/
  workDir : Bytes
  /-- Whether the run was told to stop before it began. -/
  cancelled : Bool
  basis : Basis := {}

/-- Why a run failed. -/
inductive Failure where
  | arguments (e : ArgumentError)
  | manifest (e : ManifestError)
  | sources (e : SourceError)
  | cancelled
  | output (e : PathError)
  | comparison (e : Reference.Error)
  deriving DecidableEq, Repr

def Failure.message : Failure → Bytes
  | .arguments e => bytes "failed to parse args: " ++ e.message
  | .manifest e => bytes "failed to load manifest: " ++ e.message
  | .sources e => bytes "failed to load sources: " ++ e.message
  | .cancelled => bytes "failed to translate sources: context canceled"
  | .output e => bytes "failed to write generated files: " ++ e.message
  | .comparison e => bytes "failed to compare with existing implementation: " ++ e.message

/-- What a run leaves behind. -/
structure Outcome where
  tree : FileTree
  stdout : Bytes := []
  log : List Log.Record := []
  failure : Option Failure := none
  deriving DecidableEq, Repr

namespace Run

open Log

/-- A record with attributes. -/
def record (level : Level) (message : String) (attributes : List (String × Value)) : Record :=
  ⟨level, bytes message, attributes.map fun (key, value) => ⟨bytes key, value⟩⟩

/-! ### Manifest -/

/-- The manifest of a run and the record of where it came from. -/
def chooseManifest (t : FileTree) (basis : Basis) (workDir : Bytes) (s : Settings) :
    Except ManifestError (Manifest × Record) :=
  let loaded (m : Manifest) : Manifest × Record :=
    (m, record .info "Manifest loaded" [("dir", .text m.dir)])
  if s.config.isEmpty then
    match Manifest.search t basis workDir with
    | .ok m => .ok (loaded m)
    | .error .notFound =>
      .ok (Manifest.default workDir, record .debug "No manifest found, using defaults" [])
    | .error e => .error e
  else (Manifest.load t basis (Path.resolve workDir s.config)).map loaded

/-! ### Sources -/

/-- The files that the manifest names, or all Ada files of its source directory if it names none. -/
def loadProject (t : FileTree) (tables : Encoding.Tables) (m : Manifest) :
    Except SourceError (List SourceFile) :=
  let folder := SourceFolder.new m.sourceDir m.source.encoding tables
  if m.source.files.isEmpty then
    match folder.findAll t with
    | .ok names => folder.loadAll t names
    | .error e => .error e
  else folder.loadAll t (folder.find t m.source.files)

/-- The files of one input: itself, or all Ada files below it if it is a directory. -/
def loadInput (t : FileTree) (tables : Encoding.Tables) (workDir label input : Bytes) :
    Except SourceError (List SourceFile) :=
  let path := Path.resolve workDir input
  match t.stat path path with
  | .error e => .error (.inaccessible input e)
  | .ok (_, .directory) =>
    let folder := SourceFolder.new path label tables
    match folder.findAll t with
    | .ok names => folder.loadAll t names
    | .error e => .error e
  | .ok (_, .file _) =>
    let folder := SourceFolder.new (Path.parent path) label tables
    (folder.load t (Path.base path)).map ([·])

/-- The source files of a run, in order. -/
def loadSources (t : FileTree) (tables : Encoding.Tables) (workDir : Bytes) (s : Settings)
    (m : Manifest) : Except SourceError (List SourceFile) :=
  if s.inputs.isEmpty then loadProject t tables m
  else (s.inputs.mapM (loadInput t tables workDir m.source.encoding)).map List.flatten

/-- A text cut to a length, with dots where something was cut off. -/
def preview (length : Nat) (s : Bytes) : Bytes :=
  if s.length ≤ length then s else s.take length ++ bytes "..."

/-- The records about the loaded files. -/
def sourceRecords (files : List SourceFile) : List Record :=
  record .info "Found Ada files" [("count", .number files.length)] ::
  files.flatMap (fun f =>
    [record .info "Ada file" [("name", .text f.name), ("size", .number f.size)],
     record .debug "Source content preview"
      [("name", .text f.name), ("preview", .text (preview 100 f.content))]]) ++
  [phaseComplete (bytes "load") [.text (bytes "files"), .number files.length]]

/-! ### Conversion -/

/-- The texts that are converted, each with the name of its file. -/
def namedTexts (files : List SourceFile) : List (Bytes × Bytes) :=
  files.map fun f => (f.name, f.content)

/-- The names written into the generated files of a project. -/
def naming (m : Manifest) : C.Naming where
  header := m.output.header
  generator := bytes "ada2c"

/-- The records about a skipped function header. -/
def diagnosticRecords (d : Diagnostic) : List Record :=
  [record .warn "Function definition skipped"
    [("file", .text d.file), ("function", .text d.function), ("line", .number d.line),
     ("column", .number d.column), ("reason", .text d.message)],
   record .debug "Skipped definition context" [("context", .text d.context)]]

/-- The records about the converted functions. -/
def functionRecords (s : Settings) (a : Artifacts) : List Record :=
  a.functions.map (fun f =>
    record .info "Function" [("signature", .text f.signature), ("symbol", .text f.symbol)]) ++
  (if s.diagnostics then a.diagnostics.flatMap diagnosticRecords else []) ++
  [phaseComplete (bytes "translate") [.text (bytes "functions"), .number a.functions.length]]

/-! ### Output -/

/-- The paths of the generated header and implementation. -/
def outputPaths (workDir : Bytes) (s : Settings) (m : Manifest) : Bytes × Bytes :=
  if s.out.isEmpty then (m.headerPath, m.implementationPath)
  else
    let dir := Path.resolve workDir s.out
    (Path.join [dir, m.output.header], Path.join [dir, m.output.implementation])

/-- Writes one generated file, with the directories that lead to it. -/
def writeOne (t : FileTree) (path text : Bytes) : FileTree × Option PathError :=
  match t.makeDirectories (Path.parent path) with
  | (t, some e) => (t, some e)
  | (t, none) => t.writeFile path text

/-- Writes generated files in order, up to the first failure. Gives a record for each file
written. -/
def writeAll (t : FileTree) : List (Bytes × Bytes) → FileTree × List Record × Option PathError
  | [] => (t, [], none)
  | (path, text) :: rest =>
    match writeOne t path text with
    | (t, some e) => (t, [], some e)
    | (t, none) =>
      let (t, records, failure) := writeAll t rest
      let written :=
        record .info "Generated file" [("path", .text path), ("size", .number text.length)]
      (t, written :: records, failure)

/-! ### Comparison -/

/-- The records of the comparison with the reference implementation. -/
def compare (t : FileTree) (s : Settings) (m : Manifest) (implementation : Bytes) :
    Except Reference.Error (List Record) :=
  if s.noCompare || !m.compare.enabled then .ok []
  else
    let path := m.referencePath
    let about : List (String × Value) := [("path", .text path)]
    match Reference.check t path implementation m.output.header m.output.canonicalHeader with
    | .error e => .error e
    | .ok .absent =>
      .ok [record .debug "Reference implementation not found, comparison skipped" about]
    | .ok .agrees => .ok [record .info "Generated code matches existing implementation" about]
    | .ok .differs => .ok [record .warn "Generated code differs from existing implementation" about]

/-! ### The stages together -/

/-- Puts out the generated files: prints them or writes them. Gives the tree, what was printed, and
what writing gave. -/
def emit (t : FileTree) (workDir : Bytes) (s : Settings) (m : Manifest) (a : Artifacts) :
    FileTree × Bytes × List Record × Option PathError :=
  if s.stdout then (t, a.header ++ a.implementation, [], none)
  else
    let (headerPath, implementationPath) := outputPaths workDir s m
    let (t, records, failure) :=
      writeAll t [(headerPath, a.header), (implementationPath, a.implementation)]
    (t, [], records, failure)

/-- The run from the conversion on, which gave nothing if it was cancelled; `log` holds the records
so far. -/
def finish (t : FileTree) (workDir : Bytes) (s : Settings) (m : Manifest) (log : List Record) :
    Option Artifacts → Outcome
  | none => { tree := t, log, failure := some .cancelled }
  | some a =>
    let log := log ++ functionRecords s a
    if a.functions.isEmpty then
      { tree := t
        log := log ++ [record .warn "No functions found in Ada files, nothing generated" []] }
    else
      match emit t workDir s m a with
      | (tree, stdout, records, some e) =>
        { tree, stdout, log := log ++ records, failure := some (.output e) }
      | (tree, stdout, records, none) =>
        let log := log ++ records
        match compare tree s m a.implementation with
        | .error e => { tree, stdout, log, failure := some (.comparison e) }
        | .ok compared =>
          let done := record .info "Ada to C synchronization completed"
            [("functions", .number a.functions.length)]
          { tree, stdout, log := log ++ compared ++ [done] }

/-- The run with settings read, with the records of all levels. -/
def withSettings (t : FileTree) (inv : Invocation) (s : Settings) : Outcome :=
  let started := [record .info "Ada to C synchronization started" []]
  match chooseManifest t inv.basis inv.workDir s with
  | .error e => { tree := t, log := started, failure := some (.manifest e) }
  | .ok (m, found) =>
    let log := started ++ [found, phase (bytes "load") []]
    match loadSources t inv.basis.tables inv.workDir s m with
    | .error e => { tree := t, log, failure := some (.sources e) }
    | .ok files =>
      let log := log ++ sourceRecords files ++ [phase (bytes "translate") []]
      finish t inv.workDir s m log
        (Artifacts.ofSources? inv.cancelled (namedTexts files) (naming m))

end Run

/-- Runs the tool. Of the records, those below the log level asked for are dropped. -/
def run (t : FileTree) (inv : Invocation) : Outcome :=
  match Settings.read inv.args inv.env with
  | .error e => { tree := t, failure := some (.arguments e) }
  | .ok s =>
    if s.help then { tree := t, stdout := helpText }
    else
      let outcome := Run.withSettings t inv s
      { outcome with log := Log.visible s.logLevel outcome.log }

end AdaToC
