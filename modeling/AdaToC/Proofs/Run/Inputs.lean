import AdaToC.Proofs.Run.Stages
import AdaToC.Proofs.Source

/-!
# Directories among the inputs

An input that is a directory stands for the Ada files below it. A directory is loaded as a folder
whose files are named from there; a file is loaded by its name from the directory that holds it. The
two give files that differ in the path under which they were asked for, and no later stage looks at
that path.
-/

namespace AdaToC

namespace Run

open Log

variable {t : FileTree} {tables : Encoding.Tables} {workDir label dir : Bytes}
  {inputs inputs' : List Bytes}

/-! ## What later stages see of the loaded files -/

/-- The loaded files without their paths, if loading succeeded. -/
def seen (loaded : Except SourceError (List SourceFile)) : Option (List SourceFile) :=
  loaded.toOption.map (List.map SourceFile.unplaced)

/-- The files of two loadings, one behind the other. -/
def combined (first second : Option (List SourceFile)) : Option (List SourceFile) :=
  first.bind fun files => second.map (files ++ ·)

theorem combined_assoc (a b c : Option (List SourceFile)) :
    combined (combined a b) c = combined a (combined b c) := by
  cases a <;> cases b <;> cases c <;> simp [combined]

/-- The files of all inputs, in order. -/
def loadInputs (t : FileTree) (tables : Encoding.Tables) (workDir label : Bytes)
    (inputs : List Bytes) : Except SourceError (List SourceFile) :=
  (inputs.mapM (loadInput t tables workDir label)).map List.flatten

theorem seen_loadInputs_cons (input : Bytes) :
    seen (loadInputs t tables workDir label (input :: inputs)) =
      combined (seen (loadInput t tables workDir label input))
        (seen (loadInputs t tables workDir label inputs)) := by
  unfold loadInputs
  rw [List.mapM_cons]
  cases loadInput t tables workDir label input with
  | error e => rfl
  | ok files =>
    cases inputs.mapM (loadInput t tables workDir label) with
    | error e => rfl
    | ok groups =>
      simp [seen, combined, bind, Except.bind, pure, Except.pure, Except.map, Except.toOption]

theorem seen_loadInputs_append (more : List Bytes) :
    seen (loadInputs t tables workDir label (inputs ++ more)) =
      combined (seen (loadInputs t tables workDir label inputs))
        (seen (loadInputs t tables workDir label more)) := by
  induction inputs with
  | nil =>
    have hnil : seen (loadInputs t tables workDir label []) = some [] := rfl
    rw [hnil]
    simp [combined]
  | cons input inputs ih =>
    rw [List.cons_append, seen_loadInputs_cons, ih, seen_loadInputs_cons, combined_assoc]

theorem seen_mapM_load_cons {folder : SourceFolder} (f : Bytes) (names : List Bytes) :
    seen ((f :: names).mapM (folder.load t)) =
      combined (((folder.load t f).toOption.map SourceFile.unplaced).map ([·]))
        (seen (names.mapM (folder.load t))) := by
  rw [List.mapM_cons]
  cases folder.load t f with
  | error e => rfl
  | ok file =>
    cases names.mapM (folder.load t) with
    | error e => rfl
    | ok files => rfl

theorem sourceRecords_unplaced (files : List SourceFile) :
    sourceRecords (files.map SourceFile.unplaced) = sourceRecords files := by
  simp [sourceRecords, List.flatMap_map, SourceFile.unplaced]

theorem namedTexts_unplaced (files : List SourceFile) :
    namedTexts (files.map SourceFile.unplaced) = namedTexts files := by
  simp [namedTexts, SourceFile.unplaced]

/-! ## A file below a directory -/

theorem seen_loadInput_extend {l : Location} {front : List Bytes} {name data : Bytes}
    (h : t.Leads l (front ++ [name]) data)
    (hdir : t.find (Path.resolve workDir dir) = .ok (l, .directory)) :
    seen (loadInput t tables workDir label
        (Path.extend dir (Bytes.joinWith [Path.slash] (front ++ [name])))) =
      (SourceFolder.reading tables (label.orElse Encoding.auto) name data).map ([·]) := by
  have hfind := h.find_resolve hdir
  generalize Path.extend dir (Bytes.joinWith [Path.slash] (front ++ [name])) = input at hfind
  rw [← List.append_assoc] at hfind
  obtain ⟨hbase, hparent⟩ := FileTree.find_parent hfind
  -- the file is loaded by its name alone from the directory that holds it
  have hload : ((SourceFolder.new (Path.parent (Path.resolve workDir input)) label tables).load t
      name).toOption.map SourceFile.unplaced =
        SourceFolder.reading tables (label.orElse Encoding.auto) name data :=
    SourceFolder.load_of_leads (Path.clean_ne_nil _) [] h.last hparent
  unfold loadInput
  simp only [FileTree.stat_of_find hfind, hbase]
  rw [← hload]
  cases SourceFolder.load _ t name <;> rfl

/-- A directory is loaded like its files one by one. Induction on the files. -/
theorem seen_mapM_load_eq {l : Location}
    (hdir : t.find (Path.resolve workDir dir) = .ok (l, .directory)) {names : List Bytes}
    (hnames : ∀ f ∈ names, ∃ front name data, t.Leads l (front ++ [name]) data ∧
      f = Bytes.joinWith [Path.slash] (front ++ [name])) :
    seen (names.mapM ((SourceFolder.new (Path.resolve workDir dir) label tables).load t)) =
      seen (loadInputs t tables workDir label (names.map (Path.extend dir))) := by
  induction names with
  | nil => rfl
  | cons f names ih =>
    obtain ⟨front, name, data, hleads, rfl⟩ := hnames f List.mem_cons_self
    have hload : ((SourceFolder.new (Path.resolve workDir dir) label tables).load t
        (Bytes.joinWith [Path.slash] (front ++ [name]))).toOption.map SourceFile.unplaced =
          SourceFolder.reading tables (label.orElse Encoding.auto) name data :=
      SourceFolder.load_of_leads (FileTree.ne_nil_of_find hdir) front hleads
        (hleads.find_append hdir)
    rw [seen_mapM_load_cons, List.map_cons, seen_loadInputs_cons, hload,
      seen_loadInput_extend hleads hdir, ih fun f hf => hnames f (List.mem_cons_of_mem _ hf)]

/-! ## Listing the files of a directory -/

/-- Some directories among the inputs are replaced by the Ada files below them, in the order in
which these are found. -/
inductive Expands (t : FileTree) (workDir : Bytes) : List Bytes → List Bytes → Prop where
  | nil : Expands t workDir [] []
  | keep (input : Bytes) {inputs inputs' : List Bytes} (h : Expands t workDir inputs inputs') :
      Expands t workDir (input :: inputs) (input :: inputs')
  | list {dir label : Bytes} {l : Location} {names inputs inputs' : List Bytes}
      (hdir : t.find (Path.resolve workDir dir) = .ok (l, .directory))
      (hfound : (SourceFolder.new (Path.resolve workDir dir) label).findAll t = .ok names)
      (hsome : names ≠ []) (h : Expands t workDir inputs inputs') :
      Expands t workDir (dir :: inputs) (names.map (Path.extend dir) ++ inputs')

theorem Expands.isEmpty_eq (h : Expands t workDir inputs inputs') :
    inputs.isEmpty = inputs'.isEmpty := by
  cases h with
  | nil => rfl
  | keep => rfl
  | list hdir hfound hsome h => simp [hsome]

theorem Expands.seen_eq
    (hvalid : ∀ x ∈ t.entries, ∀ n ∈ x.1, Utf8.isValid n = true)
    (h : Expands t workDir inputs inputs') (label : Bytes) :
    seen (loadInputs t tables workDir label inputs) =
      seen (loadInputs t tables workDir label inputs') := by
  induction h with
  | nil => rfl
  | keep input h ih => rw [seen_loadInputs_cons, seen_loadInputs_cons, ih]
  | @list dir label' l names inputs inputs' hdir hfound hsome h ih =>
    -- finding the files does not depend on how they are read
    have hfound : (SourceFolder.new (Path.resolve workDir dir) label tables).findAll t =
        .ok names := hfound
    have hload : loadInput t tables workDir label dir =
        names.mapM ((SourceFolder.new (Path.resolve workDir dir) label tables).load t) := by
      unfold loadInput SourceFolder.loadAll
      simp [FileTree.stat_of_find hdir, hfound, hsome]
    rw [seen_loadInputs_cons, seen_loadInputs_append, ih, hload, seen_mapM_load_eq hdir]
    exact fun f hf => SourceFolder.exists_leads_of_findAll hvalid hfound hdir hf

theorem Expands.seen_loadSources_eq {s : Settings}
    (hvalid : ∀ x ∈ t.entries, ∀ n ∈ x.1, Utf8.isValid n = true)
    (h : Expands t workDir s.inputs inputs) (m : Manifest) :
    seen (loadSources t tables workDir s m) =
      seen (loadSources t tables workDir { s with inputs } m) := by
  unfold loadSources
  rw [h.isEmpty_eq]
  split
  · rfl
  · exact h.seen_eq hvalid m.source.encoding

theorem eq_of_seen_eq {files files' : List SourceFile}
    (h : seen (.ok files) = seen (.ok files')) :
    sourceRecords files' = sourceRecords files ∧ namedTexts files' = namedTexts files := by
  have hfiles : files.map SourceFile.unplaced = files'.map SourceFile.unplaced := Option.some.inj h
  rw [← sourceRecords_unplaced files, ← namedTexts_unplaced files, hfiles, sourceRecords_unplaced,
    namedTexts_unplaced]
  exact ⟨rfl, rfl⟩

theorem success_iff {o o' : Outcome} (h : o' = o ∨ o.failure ≠ none ∧ o'.failure ≠ none) :
    (o.failure = none ↔ o'.failure = none) ∧ (o.failure = none → o' = o) := by
  rcases h with rfl | ⟨hfirst, hsecond⟩
  · exact ⟨Iff.rfl, fun _ => rfl⟩
  · exact ⟨⟨fun h => absurd h hfirst, fun h => absurd h hsecond⟩, fun h => absurd h hfirst⟩

/-- Nothing after the loading looks at the inputs. -/
theorem finish_inputs (s : Settings) (m : Manifest) (log : List Record)
    (converted : Option Artifacts) :
    finish t workDir { s with inputs } m log converted = finish t workDir s m log converted := by
  cases converted with
  | none => rfl
  | some a => simp only [finish, functionRecords, emit, outputPaths, compare]

/-- Two runs that see the same files go on alike, or neither can load its files. -/
theorem withSettings_cases {inv : Invocation} {s : Settings}
    (h : ∀ m, seen (loadSources t inv.basis.tables inv.workDir s m) =
      seen (loadSources t inv.basis.tables inv.workDir { s with inputs } m)) :
    withSettings t inv { s with inputs } = withSettings t inv s ∨
      (withSettings t inv s).failure ≠ none ∧
        (withSettings t inv { s with inputs }).failure ≠ none := by
  have hchoose : chooseManifest t inv.basis inv.workDir { s with inputs } =
      chooseManifest t inv.basis inv.workDir s := rfl
  unfold withSettings
  rw [hchoose]
  cases chooseManifest t inv.basis inv.workDir s with
  | error e => exact Or.inl rfl
  | ok chosen =>
    obtain ⟨m, found⟩ := chosen
    have hseen := h m
    simp only
    cases hfirst : loadSources t inv.basis.tables inv.workDir s m with
    | error e =>
      cases hsecond : loadSources t inv.basis.tables inv.workDir { s with inputs } m with
      | error e' => exact Or.inr ⟨by simp, by simp⟩
      | ok files' =>
        rw [hfirst, hsecond] at hseen
        cases hseen
    | ok files =>
      cases hsecond : loadSources t inv.basis.tables inv.workDir { s with inputs } m with
      | error e' =>
        rw [hfirst, hsecond] at hseen
        cases hseen
      | ok files' =>
        rw [hfirst, hsecond] at hseen
        obtain ⟨hrecords, htexts⟩ := eq_of_seen_eq hseen
        simp only [hrecords, htexts, finish_inputs]
        exact Or.inl trivial

/-- Naming a directory is naming the Ada files below it one by one, in their order: the run succeeds
with the one if and only if it does with the other, and then leaves the same log, output and tree.
This holds for the settings of a run and for any command lines that give such settings. -/
theorem run_directory_eq_files (t : FileTree) (inv : Invocation) (s : Settings)
    (inputs : List Bytes)
    (hvalid : ∀ x ∈ t.entries, ∀ n ∈ x.1, Utf8.isValid n = true)
    (hinputs : Expands t inv.workDir s.inputs inputs) :
    (((withSettings t inv s).failure = none ↔
        (withSettings t inv { s with inputs }).failure = none) ∧
      ((withSettings t inv s).failure = none →
        withSettings t inv { s with inputs } = withSettings t inv s)) ∧
    ∀ args, Settings.read inv.args inv.env = .ok s →
      Settings.read args inv.env = .ok { s with inputs } →
      ((run t inv).failure = none ↔ (run t { inv with args }).failure = none) ∧
        ((run t inv).failure = none → run t { inv with args } = run t inv) := by
  have hsettings := withSettings_cases fun m => hinputs.seen_loadSources_eq hvalid m
  refine ⟨success_iff hsettings, fun args hread hread' => success_iff ?_⟩
  have hsame : withSettings t { inv with args } { s with inputs } =
      withSettings t inv { s with inputs } := rfl
  unfold run
  simp only [hread, hread', hsame]
  split
  · exact Or.inl rfl
  · rcases hsettings with heq | hfailed
    · rw [heq]
      exact Or.inl rfl
    · exact Or.inr hfailed

/-- A directory whose path goes up and ends in a slash, with a file in it and one further down. -/
theorem run_directory_eq_files_nested :
    let t : FileTree := { entries := [([bytes "p"], .directory),
      ([bytes "p", bytes "src"], .directory),
      ([bytes "p", bytes "src", bytes "a.adb"], .file (bytes "function A() return T is end A;")),
      ([bytes "p", bytes "src", bytes "é"], .directory),
      ([bytes "p", bytes "src", bytes "é", bytes "b.ADS"],
        .file (bytes "function B() return T is end B;")),
      ([bytes "p", bytes "x.adb"], .file (bytes "function X() return T is end X;"))] }
    let inv : Invocation :=
      { args := [bytes "../p/src/", bytes "x.adb"], env := {}, workDir := bytes "/p"
        cancelled := false }
    let args := [bytes "../p/src//a.adb", bytes "../p/src//é/b.ADS", bytes "x.adb"]
    (run t inv).failure = none ∧ run t { inv with args } = run t inv := by
  intro t inv args
  let s : Settings :=
    { inputs := inv.args, config := [], out := [], logLevel := .info, jobs := 0, stdout := false
      noCompare := false, diagnostics := false, help := false }
  have hsuccess : (run t inv).failure = none := by decide +kernel
  have hinputs : Expands t inv.workDir s.inputs args := by
    have hdir : t.find (Path.resolve inv.workDir (bytes "../p/src/")) =
        .ok ([bytes "p", bytes "src"], .directory) := by rfl
    have hfound : (SourceFolder.new (Path.resolve inv.workDir (bytes "../p/src/")) []).findAll t =
        .ok [bytes "a.adb", bytes "é/b.ADS"] := by rfl
    exact .list hdir hfound (List.cons_ne_nil _ _) (.keep _ .nil)
  obtain ⟨-, hruns⟩ := run_directory_eq_files t inv s args (by decide +kernel) hinputs
  exact ⟨hsuccess, (hruns args (by rfl) (by rfl)).2 hsuccess⟩

end Run

end AdaToC
