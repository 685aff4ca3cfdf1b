import AdaToC.Proofs.Artifacts
import AdaToC.Proofs.Manifest
import AdaToC.Proofs.Traversal
import AdaToC.Run

/-!
# The stages of a run

A run goes through its stages until one of them ends it. `Run.Loads` says that it comes to the
conversion, and with what; `Run.Effect` says once for all what a run can do to the tree and to
standard output and how it can fail. Everything else about runs is read off these two.
-/

namespace AdaToC

namespace SourceFolder

/-! ## Loaded files -/

theorem exists_load_of_loadAll {folder : SourceFolder} {t : FileTree} {names : List Bytes}
    {files : List SourceFile} (h : folder.loadAll t names = .ok files) {f : SourceFile}
    (hf : f ∈ files) : ∃ name, folder.load t name = .ok f := by
  unfold loadAll at h
  split at h
  · cases h
  · obtain ⟨name, -, hload⟩ := exists_of_mapM_eq_ok h hf
    exact ⟨name, hload⟩

/-- The content of a loaded file is the text of some data. -/
theorem exists_decode_of_load {folder : SourceFolder} {t : FileTree} {name : Bytes}
    {f : SourceFile} (h : folder.load t name = .ok f) :
    ∃ data, Encoding.decode data folder.encoding folder.tables = .ok f.content := by
  simp only [load] at h
  split at h
  · cases h
  · next data hdata =>
    split at h
    · cases h
    · next content hdecode =>
      cases h
      exact ⟨data, hdecode⟩

end SourceFolder

namespace Run

open Log

/-- Every source file of a run was loaded from some folder. -/
theorem exists_load_of_loadSources {t : FileTree} {tables : Encoding.Tables} {workDir : Bytes}
    {s : Settings} {m : Manifest} {files : List SourceFile}
    (h : loadSources t tables workDir s m = .ok files) {f : SourceFile} (hf : f ∈ files) :
    ∃ folder name, SourceFolder.load folder t name = .ok f := by
  unfold loadSources at h
  split at h
  · unfold loadProject at h
    simp only at h
    split at h
    · split at h
      · exact ⟨_, SourceFolder.exists_load_of_loadAll h hf⟩
      · cases h
    · exact ⟨_, SourceFolder.exists_load_of_loadAll h hf⟩
  · cases hinputs : s.inputs.mapM (loadInput t tables workDir m.source.encoding) with
    | error e =>
      rw [hinputs] at h
      cases h
    | ok groups =>
      rw [hinputs] at h
      cases h
      obtain ⟨group, hgroup, hf⟩ := List.mem_flatten.mp hf
      obtain ⟨input, -, hinput⟩ := exists_of_mapM_eq_ok hinputs hgroup
      unfold loadInput at hinput
      simp only at hinput
      split at hinput
      · cases hinput
      · split at hinput
        · exact ⟨_, SourceFolder.exists_load_of_loadAll hinput hf⟩
        · cases hinput
      · -- a file is loaded by its name from the directory that holds it
        cases hload : SourceFolder.load _ t (Path.base (Path.resolve workDir input)) with
        | error e =>
          rw [hload] at hinput
          cases hinput
        | ok loaded =>
          rw [hload] at hinput
          cases hinput
          rw [List.mem_singleton] at hf
          exact ⟨_, _, hf ▸ hload⟩

/-- What the stages before the conversion give. -/
structure Load where
  settings : Settings
  manifest : Manifest
  /-- The record of where the manifest came from. -/
  found : Record
  files : List SourceFile

namespace Load

/-- The functions of the loaded files, in the order of the files. -/
def functions (x : Load) : List Function :=
  x.files.flatMap fun f => functionsOf f.content

def header (x : Load) : Bytes :=
  C.headerText x.functions (naming x.manifest)

def implementation (x : Load) : Bytes :=
  C.implementationText x.functions (naming x.manifest)

def headerPath (x : Load) (workDir : Bytes) : Bytes :=
  (outputPaths workDir x.settings x.manifest).1

def implementationPath (x : Load) (workDir : Bytes) : Bytes :=
  (outputPaths workDir x.settings x.manifest).2

/-- The generated files: their paths and texts, in the order in which they are written. -/
def outputs (x : Load) (workDir : Bytes) : List (Bytes × Bytes) :=
  [(x.headerPath workDir, x.header), (x.implementationPath workDir, x.implementation)]

/-- What the conversion gives if it is not cancelled. -/
def artifacts (x : Load) : Artifacts :=
  Artifacts.ofSources (namedTexts x.files) (naming x.manifest)

theorem header_artifacts (x : Load) : x.artifacts.header = x.header := by
  unfold artifacts header functions namedTexts
  rw [Artifacts.header_ofSources, List.flatMap_map]

theorem implementation_artifacts (x : Load) : x.artifacts.implementation = x.implementation := by
  unfold artifacts implementation functions namedTexts
  rw [Artifacts.implementation_ofSources, List.flatMap_map]

theorem functions_artifacts (x : Load) : x.artifacts.functions = x.functions := by
  unfold artifacts functions namedTexts
  rw [Artifacts.functions_ofSources, List.flatMap_map]

/-- The records up to the conversion. -/
def log (x : Load) : List Record :=
  [record .info "Ada to C synchronization started" []] ++ [x.found, phase (bytes "load") []] ++
    sourceRecords x.files ++ [phase (bytes "translate") []]

/-- What the run leaves behind if the conversion gives `converted`. -/
def outcome (x : Load) (t : FileTree) (workDir : Bytes) (converted : Option Artifacts) : Outcome :=
  let o := finish t workDir x.settings x.manifest x.log converted
  { o with log := visible x.settings.logLevel o.log }

end Load

/-- The run comes to the conversion. -/
structure Loads (t : FileTree) (inv : Invocation) (x : Load) : Prop where
  settings : Settings.read inv.args inv.env = .ok x.settings
  help : x.settings.help = false
  manifest : chooseManifest t inv.basis inv.workDir x.settings = .ok (x.manifest, x.found)
  sources : loadSources t inv.basis.tables inv.workDir x.settings x.manifest = .ok x.files

variable {t : FileTree} {inv : Invocation} {x : Load}

theorem Loads.run_eq (h : Loads t inv x) :
    run t inv = x.outcome t inv.workDir
      (Artifacts.ofSources? inv.cancelled (namedTexts x.files) (naming x.manifest)) := by
  unfold run withSettings Load.outcome Load.log
  simp only [h.settings, h.help, h.manifest, h.sources, Bool.false_eq_true, if_false]

theorem Loads.unique {y : Load} (hx : Loads t inv x) (hy : Loads t inv y) : x = y := by
  obtain ⟨sx, mx, rx, fx⟩ := x
  obtain ⟨sy, my, ry, fy⟩ := y
  obtain ⟨hsx, -, hmx, hfx⟩ := hx
  obtain ⟨hsy, -, hmy, hfy⟩ := hy
  simp only at hsx hmx hfx hsy hmy hfy
  rw [hsx, Except.ok.injEq] at hsy
  subst hsy
  rw [hmx, Except.ok.injEq, Prod.mk.injEq] at hmy
  obtain ⟨rfl, rfl⟩ := hmy
  rw [hfx, Except.ok.injEq] at hfy
  rw [hfy]

/-- The manifest of a run is the default one or was loaded. -/
theorem chooseManifest_cases {basis : Basis} {workDir : Bytes} {s : Settings} {m : Manifest}
    {found : Record}
    (h : chooseManifest t basis workDir s = .ok (m, found)) :
    m = Manifest.default workDir ∨ ∃ path, Manifest.load t basis path = .ok m := by
  unfold chooseManifest at h
  simp only at h
  split at h
  · split at h
    · next hsearch =>
      cases h
      exact Or.inr (Manifest.exists_load_of_loadNearest hsearch)
    · cases h
      exact Or.inl rfl
    · cases h
  · cases hload : Manifest.load t basis (Path.resolve workDir s.config) with
    | error e =>
      rw [hload] at h
      cases h
    | ok loaded =>
      rw [hload] at h
      cases h
      exact Or.inr ⟨_, hload⟩

theorem isAbsolute_dir_of_chooseManifest {basis : Basis} {workDir : Bytes} {s : Settings}
    {m : Manifest} {found : Record} (hdir : Path.isAbsolute workDir = true)
    (h : chooseManifest t basis workDir s = .ok (m, found)) : Path.isAbsolute m.dir = true := by
  rcases chooseManifest_cases h with rfl | ⟨path, hload⟩
  · -- no manifest was found, and the default one lies in the working directory
    exact hdir
  · rw [Manifest.dir_of_load hload, t.absolute_eq_path]
    rfl

/-- The directory of the generated files, which the paths of both go through. -/
theorem Loads.exists_outputPaths_eq (h : Loads t inv x)
    (hdir : Path.isAbsolute inv.workDir = true) :
    ∃ out, Path.isAbsolute out = true ∧
      x.headerPath inv.workDir = Path.join [out, x.manifest.output.header] ∧
      x.implementationPath inv.workDir = Path.join [out, x.manifest.output.implementation] := by
  unfold Load.headerPath Load.implementationPath outputPaths
  split
  · have hmanifest := isAbsolute_dir_of_chooseManifest hdir h.manifest
    exact ⟨_, Path.isAbsolute_resolve hmanifest _, rfl, rfl⟩
  · exact ⟨_, Path.isAbsolute_resolve hdir _, rfl, rfl⟩

/-- From an absolute directory, different paths name different locations. -/
theorem Loads.locationOf_ne (h : Loads t inv x) (hdir : Path.isAbsolute inv.workDir = true)
    (hne : x.headerPath inv.workDir ≠ x.implementationPath inv.workDir) :
    t.locationOf (x.headerPath inv.workDir) ≠ t.locationOf (x.implementationPath inv.workDir) := by
  obtain ⟨out, hout, hheader, himplementation⟩ := h.exists_outputPaths_eq hdir
  have hpath : ∀ name, (t.locationOf (Path.join [out, name])).path = Path.join [out, name] := by
    intro name
    rw [FileTree.locationOf_of_isAbsolute (Path.isAbsolute_join hout name),
      Path.path_ofPath_join hout]
  intro hsame
  rw [hheader, himplementation] at hne hsame
  rw [← hpath, hsame, hpath] at hne
  exact hne rfl

/-- The conversion gives nothing only if it was cancelled, and no function if it was cancelled but
had nothing to do. -/
theorem Load.converted_cases (x : Load) (cancelled : Bool) :
    (cancelled = true ∧
        Artifacts.ofSources? cancelled (namedTexts x.files) (naming x.manifest) = none) ∨
      Artifacts.ofSources? cancelled (namedTexts x.files) (naming x.manifest) = some x.artifacts ∧
        (x.functions ≠ [] → cancelled = false) := by
  unfold Artifacts.ofSources?
  cases cancelled with
  | false => exact Or.inr ⟨rfl, fun _ => rfl⟩
  | true =>
    -- nobody looks whether the run was cancelled if there is no text to convert
    cases hfiles : x.files with
    | nil =>
      refine Or.inr ⟨by simp [Load.artifacts, hfiles, namedTexts], fun hsome => ?_⟩
      exact absurd (by simp [Load.functions, hfiles]) hsome
    | cons f rest => exact Or.inl ⟨rfl, by simp [namedTexts]⟩

/-- What a run can do to the tree and print, and how it can fail. -/
inductive Effect (t : FileTree) (inv : Invocation) : FileTree → Bytes → Option Failure → Prop where
  | refused {e : ArgumentError} (hread : Settings.read inv.args inv.env = .error e) :
      Effect t inv t [] (some (.arguments e))
  | helped {s : Settings} (hread : Settings.read inv.args inv.env = .ok s) (hhelp : s.help = true) :
      Effect t inv t helpText none
  | unmanaged {s : Settings} {e : ManifestError} (hread : Settings.read inv.args inv.env = .ok s)
      (hmanifest : chooseManifest t inv.basis inv.workDir s = .error e) :
      Effect t inv t [] (some (.manifest e))
  | unsourced {s : Settings} {m : Manifest} {found : Record} {e : SourceError}
      (hread : Settings.read inv.args inv.env = .ok s)
      (hmanifest : chooseManifest t inv.basis inv.workDir s = .ok (m, found))
      (hsources : loadSources t inv.basis.tables inv.workDir s m = .error e) :
      Effect t inv t [] (some (.sources e))
  | stopped {x : Load} (hloads : Loads t inv x) (hcancelled : inv.cancelled = true) :
      Effect t inv t [] (some .cancelled)
  | idle {x : Load} (hloads : Loads t inv x) (hnone : x.functions = []) : Effect t inv t [] none
  | printed {x : Load} {failure : Option Failure} (hloads : Loads t inv x)
      (hgo : inv.cancelled = false) (hsome : x.functions ≠ []) (hstdout : x.settings.stdout = true)
      (hcompared : failure = none ∨ ∃ e, failure = some (.comparison e)) :
      Effect t inv t (x.header ++ x.implementation) failure
  | unwritten {x : Load} {t' : FileTree} {records : List Record} {e : PathError}
      (hloads : Loads t inv x) (hgo : inv.cancelled = false) (hsome : x.functions ≠ [])
      (hstdout : x.settings.stdout = false)
      (hwrite : writeAll t (x.outputs inv.workDir) = (t', records, some e)) :
      Effect t inv t' [] (some (.output e))
  | written {x : Load} {t' : FileTree} {records : List Record} {failure : Option Failure}
      (hloads : Loads t inv x) (hgo : inv.cancelled = false) (hsome : x.functions ≠ [])
      (hstdout : x.settings.stdout = false)
      (hwrite : writeAll t (x.outputs inv.workDir) = (t', records, none))
      (hcompared : failure = none ∨ ∃ e, failure = some (.comparison e)) :
      Effect t inv t' [] failure

theorem emit_printed {s : Settings} (hstdout : s.stdout = true) (t : FileTree) (workDir : Bytes)
    (m : Manifest) (a : Artifacts) :
    emit t workDir s m a = (t, a.header ++ a.implementation, [], none) := by
  simp [emit, hstdout]

theorem Load.emit_written (x : Load) (hstdout : x.settings.stdout = false) {t t' : FileTree}
    {workDir : Bytes} {records : List Record} {failure : Option PathError}
    (hwrite : writeAll t (x.outputs workDir) = (t', records, failure)) :
    emit t workDir x.settings x.manifest x.artifacts = (t', [], records, failure) := by
  unfold emit
  rw [if_neg (by simp [hstdout]), x.header_artifacts, x.implementation_artifacts]
  unfold Load.outputs Load.headerPath Load.implementationPath at hwrite
  rcases hpaths : outputPaths workDir x.settings x.manifest with ⟨header, implementation⟩
  rw [hpaths] at hwrite
  simp only at hwrite ⊢
  rw [hwrite]

theorem Loads.effect (h : Loads t inv x) :
    Effect t inv (run t inv).tree (run t inv).stdout (run t inv).failure := by
  rw [h.run_eq]
  rcases x.converted_cases inv.cancelled with ⟨hcancelled, hnone⟩ | ⟨hsome, hgo⟩
  · rw [hnone]
    exact Effect.stopped h hcancelled
  · rw [hsome]
    unfold Load.outcome finish
    simp only [x.functions_artifacts]
    by_cases hfunctions : x.functions = []
    · simp only [hfunctions, List.isEmpty_nil, if_true]
      exact Effect.idle h hfunctions
    · have hempty : x.functions.isEmpty = false := by simp [hfunctions]
      simp only [hempty, Bool.false_eq_true, if_false]
      cases hstdout : x.settings.stdout with
      | true =>
        rw [emit_printed hstdout, x.header_artifacts, x.implementation_artifacts]
        dsimp only
        split
        · exact Effect.printed h (hgo hfunctions) hfunctions hstdout (Or.inr ⟨_, rfl⟩)
        · exact Effect.printed h (hgo hfunctions) hfunctions hstdout (Or.inl rfl)
      | false =>
        rcases hwrite : writeAll t (x.outputs inv.workDir) with ⟨t', records, failure⟩
        rw [x.emit_written hstdout hwrite]
        cases failure with
        | some e => exact Effect.unwritten h (hgo hfunctions) hfunctions hstdout hwrite
        | none =>
          dsimp only
          split
          · exact Effect.written h (hgo hfunctions) hfunctions hstdout hwrite (Or.inr ⟨_, rfl⟩)
          · exact Effect.written h (hgo hfunctions) hfunctions hstdout hwrite (Or.inl rfl)

theorem effect_run (t : FileTree) (inv : Invocation) :
    Effect t inv (run t inv).tree (run t inv).stdout (run t inv).failure := by
  cases hread : Settings.read inv.args inv.env with
  | error e =>
    have hrun : run t inv = { tree := t, failure := some (.arguments e) } := by
      simp [run, hread]
    rw [hrun]
    exact Effect.refused hread
  | ok s =>
    cases hhelp : s.help with
    | true =>
      have hrun : run t inv = { tree := t, stdout := helpText } := by simp [run, hread, hhelp]
      rw [hrun]
      exact Effect.helped hread hhelp
    | false =>
      cases hmanifest : chooseManifest t inv.basis inv.workDir s with
      | error e =>
        simp only [run, hread, hhelp, withSettings, hmanifest]
        exact Effect.unmanaged hread hmanifest
      | ok chosen =>
        cases hsources : loadSources t inv.basis.tables inv.workDir s chosen.1 with
        | error e =>
          simp only [run, hread, hhelp, withSettings, hmanifest, hsources]
          exact Effect.unsourced hread hmanifest hsources
        | ok files =>
          have hloads : Loads t inv ⟨s, chosen.1, chosen.2, files⟩ :=
            ⟨hread, hhelp, hmanifest, hsources⟩
          exact hloads.effect

end Run

end AdaToC
