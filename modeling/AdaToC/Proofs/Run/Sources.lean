import AdaToC.Proofs.Encoding
import AdaToC.Proofs.Source.Walk

/-!
# What the inputs of a run contribute

An input that is a file contributes that file, whatever its name. A directory contributes the Ada
files below it, and it has to contribute some: a run that meets a directory without an Ada file ends
there, also if other inputs have files to offer. If there is no such directory, all that the inputs
contribute is converted, one input after the other.
-/

namespace AdaToC

namespace SourceFolder

variable {t : FileTree} {folder : SourceFolder} {l : Location}

theorem automatic_new {label : Bytes} (h : Encoding.AsksForGuess label) (dir : Bytes)
    (tables : Encoding.Tables) : (SourceFolder.new dir label tables).Automatic := by
  right
  show (label.orElse Encoding.auto).equalFold Encoding.auto = true
  unfold Bytes.orElse
  split
  · exact Bytes.equalFold_refl _
  · next hlabel =>
    rcases h with rfl | hcase
    · exact absurd rfl hlabel
    · exact Bytes.equalFold_iff.mpr hcase.folded_eq

/-! ## The Ada files below a directory -/

/-- What is loaded of an entry below a directory. -/
def adaFile? : Location × Entry → Option SourceFile
  | (_, .directory) => none
  | (names, .file data) =>
    let path := Bytes.joinWith [Path.slash] names
    if isAdaName path then
      some { name := Path.base path, path, content := Encoding.readAuto data, size := data.length }
    else none

theorem adaFile?_eq_none_iff {x : Location × Entry} : adaFile? x = none ↔ adaPath? x = none := by
  obtain ⟨names, e⟩ := x
  cases e with
  | directory => simp [adaFile?, adaPath?]
  | file data => simp [adaFile?, adaPath?]

/-- All the Ada files below a directory can be loaded. -/
theorem load_of_mem_below
    (hvalid : ∀ x ∈ t.entries, ∀ n ∈ x.1, Utf8.isValid n = true) (hauto : folder.Automatic)
    (hdir : t.find folder.dir = .ok (l, .directory)) {x : Location × Entry} (hx : x ∈ t.below l)
    {p : Bytes} (hp : adaPath? x = some p) :
    ∃ f, adaFile? x = some f ∧ folder.load t p = .ok f := by
  obtain ⟨names, e⟩ := x
  obtain ⟨hfile, hada, rfl⟩ := adaPath?_eq_some_iff.mp hp
  cases e with
  | directory => exact absurd rfl hfile
  | file data =>
    have hrel := FileTree.relative_of_mem_below hvalid hx
    obtain ⟨hne, hmem⟩ := FileTree.mem_below_iff.mp hx
    have hlookup := FileTree.lookup_of_mem hmem
    exact ⟨_, if_pos hada, (reaches_of_lookup hdir hrel hlookup).load_eq hauto⟩

theorem mapM_load_adaPath {xs : List (Location × Entry)}
    (h : ∀ x ∈ xs, ∀ p, adaPath? x = some p → ∃ f, adaFile? x = some f ∧ folder.load t p = .ok f) :
    (xs.filterMap adaPath?).mapM (folder.load t) = .ok (xs.filterMap adaFile?) := by
  induction xs with
  | nil => rfl
  | cons x xs ih =>
    have hrest := ih fun y hy => h y (List.mem_cons_of_mem _ hy)
    -- the walk passes over just the entries that are not loaded
    cases hp : adaPath? x with
    | none =>
      rw [List.filterMap_cons_none hp, List.filterMap_cons_none (adaFile?_eq_none_iff.mpr hp)]
      exact hrest
    | some p =>
      obtain ⟨f, hf, hload⟩ := h x List.mem_cons_self p hp
      rw [List.filterMap_cons_some hp, List.filterMap_cons_some hf, List.mapM_cons, hload, hrest]
      rfl

/-- A file can be loaded by its name from the directory that holds it. -/
theorem reaches_of_find
    (hvalid : ∀ x ∈ t.entries, ∀ n ∈ x.1, Utf8.isValid n = true) {p name data : Bytes}
    (hfind : t.find p = .ok (l ++ [name], .file data)) (label : Bytes)
    (tables : Encoding.Tables) :
    (SourceFolder.new (Path.parent p) label tables).Reaches t name data := by
  have hlookup := (FileTree.find_eq_ok_iff.mp hfind).2
  have hmem := FileTree.mem_of_lookup (by simp) hlookup
  obtain ⟨hname, hslash, hzero⟩ := t.wellFormed.proper _ hmem name (by simp)
  have hrel : Path.Relative [name] name :=
    .down (List.cons_ne_nil _ _) (List.forall_mem_singleton.mpr
      ⟨hname, hslash, Utf8.isValid_iff.mp (hvalid _ hmem name (by simp))⟩)
  refine ⟨Path.clean_ne_nil _, Path.isLocal_iff.mpr ⟨_, hrel⟩, hzero, l ++ [name], ?_⟩
  rw [pathOf_eq]
  exact (FileTree.find_parent hfind).2

/-- The Ada files below a directory are loaded in the order of the walk. There has to be one. -/
theorem loadAll_adaPath
    (hvalid : ∀ x ∈ t.entries, ∀ n ∈ x.1, Utf8.isValid n = true) (hauto : folder.Automatic)
    (hdir : t.find folder.dir = .ok (l, .directory)) :
    folder.loadAll t ((t.below l).filterMap adaPath?) =
      if (t.below l).filterMap adaFile? = [] then .error (.noSources folder.dir)
      else .ok ((t.below l).filterMap adaFile?) := by
  have hempty : (t.below l).filterMap adaFile? = [] ↔ (t.below l).filterMap adaPath? = [] := by
    simp only [List.filterMap_eq_nil_iff, adaFile?_eq_none_iff]
  unfold loadAll
  rw [mapM_load_adaPath fun x hx p hp => load_of_mem_below hvalid hauto hdir hx hp]
  simp only [List.isEmpty_iff, hempty]

end SourceFolder

namespace Run

open SourceFolder

variable {t : FileTree} {tables : Encoding.Tables} {workDir label input : Bytes} {l : Location}

/-! ## One input -/

/-- The files that an input contributes. -/
def contribution (t : FileTree) (workDir input : Bytes) : List SourceFile :=
  match t.find (Path.resolve workDir input) with
  | .ok (l, .file data) =>
    let name := l.getLastD []
    [{ name, path := name, content := Encoding.readAuto data, size := data.length }]
  | .ok (l, .directory) => (t.below l).filterMap adaFile?
  | .error _ => []

/-- The input is a directory, and no file below it is an Ada file. -/
def Barren (t : FileTree) (workDir input : Bytes) : Prop :=
  ∃ l, t.find (Path.resolve workDir input) = .ok (l, .directory) ∧
    ∀ dirs name, t.IsFile (l ++ (dirs ++ [name])) → ¬ Path.IsAda name

theorem contribution_file {name data : Bytes}
    (hfind : t.find (Path.resolve workDir input) = .ok (l ++ [name], .file data)) :
    contribution t workDir input =
      [{ name, path := name, content := Encoding.readAuto data, size := data.length }] := by
  unfold contribution
  rw [hfind]
  simp

theorem contribution_directory
    (hfind : t.find (Path.resolve workDir input) = .ok (l, .directory)) :
    contribution t workDir input = (t.below l).filterMap adaFile? := by
  unfold contribution
  rw [hfind]

section

variable (hvalid : ∀ x ∈ t.entries, ∀ n ∈ x.1, Utf8.isValid n = true)
include hvalid

/-- Only a directory without an Ada file contributes nothing. -/
theorem contribution_eq_nil_iff {found : Location × Entry}
    (hfind : t.find (Path.resolve workDir input) = .ok found) :
    contribution t workDir input = [] ↔ Barren t workDir input := by
  obtain ⟨l, e⟩ := found
  unfold Barren
  simp only [hfind, Except.ok.injEq, Prod.mk.injEq]
  cases e with
  | file data =>
    unfold contribution
    simp [hfind]
  | directory =>
    simp only [contribution_directory hfind, and_true, exists_eq_left',
      List.filterMap_eq_nil_iff, adaFile?_eq_none_iff]
    rw [← List.filterMap_eq_nil_iff, List.eq_nil_iff_forall_not_mem]
    simp only [mem_findAll_iff hvalid, not_exists, not_and]
    constructor
    · intro hnone dirs name hfile hada
      obtain ⟨data, hlookup⟩ := hfile
      have hmem : (dirs ++ [name], Entry.file data) ∈ t.below l :=
        FileTree.mem_below_iff.mpr ⟨by simp, FileTree.mem_of_lookup (by simp) hlookup⟩
      exact hnone _ dirs name (FileTree.relative_of_mem_below hvalid hmem) ⟨data, hlookup⟩ hada
    · intro hnone p dirs name hrel hfile
      exact hnone dirs name hfile

variable (hlabel : Encoding.AsksForGuess label)
include hlabel

theorem loadInput_file {data : Bytes}
    (hfind : t.find (Path.resolve workDir input) = .ok (l, .file data)) :
    loadInput t tables workDir label input = .ok (contribution t workDir input) := by
  have hlookup := (FileTree.find_eq_ok_iff.mp hfind).2
  -- the root of the tree is a directory
  have hl : l ≠ [] := by
    rintro rfl
    cases hlookup
  obtain ⟨front, name, rfl⟩ := (List.eq_nil_or_concat' l).resolve_left hl
  obtain ⟨hbase, -⟩ := FileTree.find_parent hfind
  have hmem := FileTree.mem_of_lookup hl hlookup
  obtain ⟨hname, hslash, -⟩ := t.wellFormed.proper _ hmem name (by simp)
  have hsplit : name.split Path.slash = [] ++ [name] := Bytes.split_of_not_mem hslash
  have hload := (reaches_of_find hvalid hfind label tables).load_eq (automatic_new hlabel _ _)
  rw [Path.base_of_split hsplit hname.1] at hload
  unfold loadInput
  simp only [FileTree.stat_of_find hfind, hbase, hload, contribution_file hfind]
  rfl

/-- A directory that contributes nothing is an error of its own. -/
theorem loadInput_directory (hfind : t.find (Path.resolve workDir input) = .ok (l, .directory)) :
    loadInput t tables workDir label input =
      if contribution t workDir input = [] then .error (.noSources (Path.resolve workDir input))
      else .ok (contribution t workDir input) := by
  unfold loadInput
  simp only [FileTree.stat_of_find hfind, contribution_directory hfind]
  rw [findAll_eq hvalid hfind]
  exact loadAll_adaPath hvalid (automatic_new hlabel _ _) hfind

theorem loadInput_eq (tables : Encoding.Tables) {found : Location × Entry}
    (hfind : t.find (Path.resolve workDir input) = .ok found) :
    (Barren t workDir input →
        loadInput t tables workDir label input = .error (.noSources (Path.resolve workDir input))) ∧
      (¬ Barren t workDir input →
        loadInput t tables workDir label input = .ok (contribution t workDir input)) := by
  obtain ⟨l, e⟩ := found
  cases e with
  | file data =>
    refine ⟨fun hbarren => ?_, fun _ => loadInput_file hvalid hlabel hfind⟩
    obtain ⟨l', hdir, -⟩ := hbarren
    rw [hfind] at hdir
    cases hdir
  | directory =>
    rw [← contribution_eq_nil_iff hvalid hfind, loadInput_directory hvalid hlabel hfind]
    exact ⟨fun hnone => if_pos hnone, fun hsome => if_neg hsome⟩

end

/-! ## All inputs -/

/-- The input is the first one that is barren. -/
def FirstBarren (t : FileTree) (workDir : Bytes) (inputs : List Bytes) (input : Bytes) : Prop :=
  ∃ before behind, inputs = before ++ input :: behind ∧ Barren t workDir input ∧
    ∀ other ∈ before, ¬ Barren t workDir other

theorem mapM_loadInput_eq_error_iff
    (hvalid : ∀ x ∈ t.entries, ∀ n ∈ x.1, Utf8.isValid n = true)
    (hlabel : Encoding.AsksForGuess label) {inputs : List Bytes}
    (hexist : ∀ input ∈ inputs, ∃ found, t.find (Path.resolve workDir input) = .ok found)
    {e : SourceError} :
    inputs.mapM (loadInput t tables workDir label) = .error e ↔
      ∃ input, FirstBarren t workDir inputs input ∧
        e = .noSources (Path.resolve workDir input) := by
  -- an input fails just if it is barren
  have herror : ∀ input ∈ inputs, ∀ e', loadInput t tables workDir label input = .error e' ↔
      Barren t workDir input ∧ e' = .noSources (Path.resolve workDir input) := by
    intro input hinput e'
    obtain ⟨found, hfind⟩ := hexist input hinput
    obtain ⟨hfail, hload⟩ := loadInput_eq hvalid hlabel tables hfind
    by_cases hbarren : Barren t workDir input
    · simp [hfail hbarren, hbarren, eq_comm]
    · simp [hload hbarren, hbarren]
  rw [mapM_eq_error_iff]
  constructor
  · rintro ⟨before, input, behind, rfl, hfail, hbefore⟩
    obtain ⟨hbarren, he⟩ := (herror input (by simp) e).mp hfail
    refine ⟨input, ⟨before, behind, rfl, hbarren, fun other hother hbare => ?_⟩, he⟩
    obtain ⟨files, hload⟩ := hbefore other hother
    rw [(herror other (by simp [hother]) _).mpr ⟨hbare, rfl⟩] at hload
    cases hload
  · rintro ⟨input, ⟨before, behind, rfl, hbarren, hbefore⟩, he⟩
    refine ⟨before, input, behind, rfl, (herror input (by simp) e).mpr ⟨hbarren, he⟩,
      fun other hother => ?_⟩
    obtain ⟨found, hfind⟩ := hexist other (by simp [hother])
    exact ⟨_, (loadInput_eq hvalid hlabel _ hfind).2 (hbefore other hother)⟩

theorem exists_firstBarren {inputs : List Bytes} (h : Barren t workDir input)
    (hinput : input ∈ inputs) : ∃ first, FirstBarren t workDir inputs first := by
  induction inputs with
  | nil => cases hinput
  | cons other rest ih =>
    by_cases hother : Barren t workDir other
    · exact ⟨other, [], rest, rfl, hother, by simp⟩
    · have hrest : input ∈ rest := by
        rcases List.mem_cons.mp hinput with rfl | hrest
        · exact absurd h hother
        · exact hrest
      obtain ⟨first, before, behind, rfl, hbarren, hbefore⟩ := ih hrest
      exact ⟨first, other :: before, behind, rfl, hbarren,
        List.forall_mem_cons.mpr ⟨hother, hbefore⟩⟩

/-! ## The run -/

variable {inv : Invocation} {s : Settings} {m : Manifest} {found : Log.Record}

/-- A run fails for want of sources just if its sources cannot be loaded. -/
theorem failure_sources_iff (hread : Settings.read inv.args inv.env = .ok s)
    (hhelp : s.help = false) (hmanifest : chooseManifest t inv.basis inv.workDir s = .ok (m, found))
    {e : SourceError} :
    (run t inv).failure = some (.sources e) ↔
      loadSources t inv.basis.tables inv.workDir s m = .error e := by
  cases hsources : loadSources t inv.basis.tables inv.workDir s m with
  | error e' =>
    have hfailure : (run t inv).failure = some (.sources e') := by
      simp [run, hread, hhelp, withSettings, hmanifest, hsources]
    simp [hfailure]
  | ok files =>
    have hloads : Loads t inv ⟨s, m, found, files⟩ := ⟨hread, hhelp, hmanifest, hsources⟩
    refine ⟨fun hfailure => ?_, fun h => by cases h⟩
    have heffect := hloads.effect
    rw [hfailure] at heffect
    generalize (run t inv).tree = after at heffect
    generalize (run t inv).stdout = printed at heffect
    -- of what a run can do, only a failed load gives this failure
    cases heffect with
    | unsourced hread' hmanifest' hsources' =>
      rw [hread] at hread'
      cases hread'
      rw [hmanifest] at hmanifest'
      cases hmanifest'
      rw [hsources] at hsources'
      exact hsources'
    | printed _ _ _ _ hcompared => simp at hcompared
    | written _ _ _ _ _ hcompared => simp at hcompared

theorem loadSources_inputs (hinputs : s.inputs ≠ []) :
    loadSources t tables workDir s m =
      (s.inputs.mapM (loadInput t tables workDir m.source.encoding)).map List.flatten :=
  if_neg (by simpa using hinputs)

/-- If every input exists, a run is without sources just if some input is a directory with no Ada
file below it, whatever the other inputs contribute, and it names the first such directory. If
there is none, the files of all inputs are converted in the order of the inputs. -/
theorem no_sources_iff_barren_input (t : FileTree) (inv : Invocation) (s : Settings) (m : Manifest)
    (found : Log.Record)
    (hvalid : ∀ x ∈ t.entries, ∀ n ∈ x.1, Utf8.isValid n = true)
    (hread : Settings.read inv.args inv.env = .ok s) (hhelp : s.help = false)
    (hmanifest : chooseManifest t inv.basis inv.workDir s = .ok (m, found))
    (hlabel : Encoding.AsksForGuess m.source.encoding) (hinputs : s.inputs ≠ [])
    (hexist : ∀ input ∈ s.inputs, ∃ entry, t.find (Path.resolve inv.workDir input) = .ok entry) :
    (∀ input ∈ s.inputs,
      contribution t inv.workDir input = [] ↔ Barren t inv.workDir input) ∧
    ((∃ dir, (run t inv).failure = some (.sources (.noSources dir))) ↔
      ∃ input ∈ s.inputs, Barren t inv.workDir input) ∧
    (∀ e, (run t inv).failure = some (.sources e) ↔
      ∃ input, FirstBarren t inv.workDir s.inputs input ∧
        e = .noSources (Path.resolve inv.workDir input)) ∧
    ((∀ input ∈ s.inputs, ¬ Barren t inv.workDir input) →
      let x : Load := ⟨s, m, found, s.inputs.flatMap (contribution t inv.workDir)⟩
      Loads t inv x ∧
        x.artifacts.functions = (s.inputs.flatMap fun input =>
          (contribution t inv.workDir input).flatMap fun f => functionsOf f.content) ∧
        (inv.cancelled = false → run t inv = x.outcome t inv.workDir (some x.artifacts))) := by
  have hfailure : ∀ e, (run t inv).failure = some (.sources e) ↔
      ∃ input, FirstBarren t inv.workDir s.inputs input ∧
        e = .noSources (Path.resolve inv.workDir input) := by
    intro e
    rw [failure_sources_iff hread hhelp hmanifest, loadSources_inputs hinputs,
      ← mapM_loadInput_eq_error_iff hvalid hlabel hexist]
    cases s.inputs.mapM (loadInput t inv.basis.tables inv.workDir m.source.encoding) with
    | error e' => simp [Except.map]
    | ok groups => simp [Except.map]
  refine ⟨fun input hinput => ?_, ⟨?_, ?_⟩, hfailure, fun hfruitful => ?_⟩
  · obtain ⟨entry, hfind⟩ := hexist input hinput
    exact contribution_eq_nil_iff hvalid hfind
  · rintro ⟨dir, hdir⟩
    obtain ⟨input, ⟨before, behind, hsplit, hbarren, -⟩, -⟩ := (hfailure _).mp hdir
    exact ⟨input, by simp [hsplit], hbarren⟩
  · rintro ⟨input, hinput, hbarren⟩
    obtain ⟨first, hfirst⟩ := exists_firstBarren hbarren hinput
    exact ⟨_, (hfailure _).mpr ⟨first, hfirst, rfl⟩⟩
  · intro x
    have hsources : loadSources t inv.basis.tables inv.workDir s m = .ok x.files := by
      rw [loadSources_inputs hinputs, mapM_eq_pure_map fun input hinput =>
        (hexist input hinput).elim fun entry hfind =>
          (loadInput_eq hvalid hlabel _ hfind).2 (hfruitful input hinput)]
      exact congrArg Except.ok List.flatMap_def.symm
    have hloads : Loads t inv x := ⟨hread, hhelp, hmanifest, hsources⟩
    refine ⟨hloads, ?_, fun hgo => ?_⟩
    · rw [x.functions_artifacts]
      exact List.flatMap_assoc
    · rw [hloads.run_eq, hgo]
      rfl

/-- A file without an Ada extension is given twice, and between the two a directory whose only Ada
file is further down. -/
theorem no_sources_iff_barren_input_mixed :
    let t : FileTree := { entries := [([bytes "p"], .directory),
      ([bytes "p", bytes "d"], .directory), ([bytes "p", bytes "d", bytes "e"], .directory),
      ([bytes "p", bytes "d", bytes "e", bytes "b.ADS"],
        .file (bytes "function G() return T is end G;")),
      ([bytes "p", bytes "read.me"], .file (bytes "function F() return T is end F;"))] }
    let inv : Invocation :=
      { args := [bytes "read.me", bytes "d", bytes "./read.me"], env := {}, workDir := bytes "/p"
        cancelled := false }
    ∃ x, Loads t inv x ∧
      x.artifacts.functions.map Function.symbol = [bytes "ada_f", bytes "ada_g", bytes "ada_f"] ∧
      run t inv = x.outcome t inv.workDir (some x.artifacts) := by
  intro t inv
  let s : Settings :=
    { inputs := inv.args, config := [], out := [], logLevel := .info, jobs := 0, stdout := false
      noCompare := false, diagnostics := false, help := false }
  have hok : ∀ input ∈ s.inputs,
      (t.find (Path.resolve inv.workDir input)).isOk = true := by decide +kernel
  have hexist : ∀ input ∈ s.inputs,
      ∃ entry, t.find (Path.resolve inv.workDir input) = .ok entry := by
    intro input hinput
    have hfound := hok input hinput
    cases hfind : t.find (Path.resolve inv.workDir input) with
    | ok entry => exact ⟨entry, rfl⟩
    | error reason =>
      rw [hfind] at hfound
      cases hfound
  obtain ⟨hnil, -, -, hconverted⟩ := no_sources_iff_barren_input t inv s
    (Manifest.default inv.workDir) _ (by decide +kernel) (by rfl) rfl (by rfl)
    (Or.inr (by decide +kernel)) (List.cons_ne_nil _ _) hexist
  have hsome : ∀ input ∈ s.inputs, contribution t inv.workDir input ≠ [] := by decide +kernel
  obtain ⟨hloads, hfunctions, hrun⟩ := hconverted fun input hinput hbarren =>
    hsome input hinput ((hnil input hinput).mpr hbarren)
  refine ⟨_, hloads, ?_, hrun rfl⟩
  rw [hfunctions]
  decide +kernel

/-- A file does not make up for an empty directory. -/
theorem file_beside_barren_directory :
    let t : FileTree := { entries := [([bytes "p"], .directory),
      ([bytes "p", bytes "a.adb"], .file (bytes "function F() return T is end F;")),
      ([bytes "p", bytes "none"], .directory)] }
    let inv : Invocation :=
      { args := [bytes "--stdout", bytes "a.adb", bytes "none"], env := {}, workDir := bytes "/p"
        cancelled := false }
    (contribution t inv.workDir (bytes "a.adb")).map SourceFile.content =
        [bytes "function F() return T is end F;"] ∧
      (run t inv).failure = some (.sources (.noSources (bytes "/p/none"))) := by
  decide +kernel

end Run

end AdaToC
