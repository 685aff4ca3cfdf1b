import AdaToC.Proofs.Run.Stages
import AdaToC.Proofs.Source.Finding

/-!
# The walk of a source folder

Without names to look for, a folder is walked for the files that have an Ada extension. The walk
finds each of them once, in the order of the names on the way to it, which is not the order of the
paths as texts: what is in a directory comes before a file whose name goes on where that of the
directory ends. The functions of the files come in this order, too.
-/

namespace AdaToC

namespace Path

variable {name tail : Bytes} {dirs : List Bytes}

/-- The name ends in a dot and one of the Ada extensions, in upper or lower case letters. -/
def IsAda (name : Bytes) : Prop :=
  ∃ stem tail, name = stem ++ 0x2E :: tail ∧ 0x2E ∉ tail ∧
    (Bytes.equalFold (0x2E :: tail) (bytes ".adb") = true ∨
      Bytes.equalFold (0x2E :: tail) (bytes ".ads") = true)

theorem extension_of_dot {p stem : Bytes} (h : (splitLast p).2 = stem ++ 0x2E :: tail)
    (htail : 0x2E ∉ tail) : extension p = 0x2E :: tail := by
  have hreverse : (stem ++ 0x2E :: tail).reverse = tail.reverse ++ 0x2E :: stem.reverse := by simp
  have htake : (stem ++ 0x2E :: tail).reverse.takeWhile (· != 0x2E) = tail.reverse := by
    rw [hreverse, List.takeWhile_append_of_pos (Bytes.bne_of_not_mem (by simpa using htail)),
      List.takeWhile_cons_of_neg (by simp), List.append_nil]
  simp only [extension, h, htake, List.reverse_reverse]
  simp

theorem extension_of_not_mem {p : Bytes} (h : 0x2E ∉ (splitLast p).2) : extension p = [] :=
  if_neg (by simpa using h)

theorem isAdaName_iff (hslash : ∀ n ∈ dirs ++ [name], slash ∉ n) :
    isAdaName (Bytes.joinWith [slash] (dirs ++ [name])) = true ↔ IsAda name := by
  have hlast := splitLast_joinWith hslash
  have hada : isAdaName (Bytes.joinWith [slash] (dirs ++ [name])) = true ↔
      (extension (Bytes.joinWith [slash] (dirs ++ [name]))).equalFold (bytes ".adb") = true ∨
        (extension (Bytes.joinWith [slash] (dirs ++ [name]))).equalFold (bytes ".ads") = true := by
    simp [isAdaName, hasExtension]
  rw [hada]
  constructor
  · intro h
    by_cases hdot : 0x2E ∈ name
    · obtain ⟨stem, tail, rfl, htail⟩ := Bytes.exists_last hdot
      rw [extension_of_dot hlast htail] at h
      exact ⟨stem, tail, rfl, htail, h⟩
    · -- without a dot the extension is empty
      rw [← hlast] at hdot
      rw [extension_of_not_mem hdot] at h
      exact absurd h (by decide)
  · rintro ⟨stem, tail, rfl, htail, h⟩
    rwa [extension_of_dot hlast htail]

end Path

namespace SourceFolder

variable {t : FileTree} {folder : SourceFolder} {l : Location} {found : List Bytes}

theorem adaPath?_eq_some_iff {names : List Bytes} {e : Entry} {p : Bytes} :
    adaPath? (names, e) = some p ↔
      e ≠ .directory ∧ isAdaName p = true ∧ p = Bytes.joinWith [Path.slash] names := by
  simp only [adaPath?]
  split
  · next h =>
    obtain ⟨hfile, hada⟩ : e ≠ .directory ∧
        isAdaName (Bytes.joinWith [Path.slash] names) = true := by simpa using h
    constructor
    · intro heq
      cases heq
      exact ⟨hfile, hada, rfl⟩
    · rintro ⟨-, -, rfl⟩
      rfl
  · next h =>
    constructor
    · intro heq
      cases heq
    · rintro ⟨hfile, hada, rfl⟩
      exact absurd (by simp [hfile, hada]) h

/-- Where all names are well-formed text, the walk enters every directory. -/
theorem findAll_eq (hvalid : ∀ x ∈ t.entries, ∀ n ∈ x.1, Utf8.isValid n = true)
    (hdir : t.find folder.dir = .ok (l, .directory)) :
    folder.findAll t = .ok ((t.below l).filterMap adaPath?) := by
  refine findAll_eq_ok_iff.mpr ⟨l, hdir, fun names hmem => ?_, rfl⟩
  exact Path.isLocal_iff.mpr ⟨names, FileTree.relative_of_mem_below hvalid hmem⟩

theorem mem_findAll_iff (hvalid : ∀ x ∈ t.entries, ∀ n ∈ x.1, Utf8.isValid n = true) {p : Bytes} :
    p ∈ (t.below l).filterMap adaPath? ↔
      ∃ dirs name, Path.Relative (dirs ++ [name]) p ∧ t.IsFile (l ++ (dirs ++ [name])) ∧
        Path.IsAda name := by
  rw [List.mem_filterMap]
  constructor
  · rintro ⟨⟨names, e⟩, hmem, hada⟩
    obtain ⟨hfile, hada, rfl⟩ := adaPath?_eq_some_iff.mp hada
    have hrel := FileTree.relative_of_mem_below hvalid hmem
    obtain ⟨hne, hmem⟩ := FileTree.mem_below_iff.mp hmem
    obtain ⟨dirs, name, rfl⟩ := (List.eq_nil_or_concat' names).resolve_left hne
    have hlookup := FileTree.lookup_of_mem hmem
    refine ⟨dirs, name, hrel, ?_, ?_⟩
    · cases e with
      | directory => exact absurd rfl hfile
      | file data => exact ⟨data, hlookup⟩
    · exact (Path.isAdaName_iff fun n hn => (hrel.isName n hn).2.1).mp hada
  · rintro ⟨dirs, name, hrel, ⟨data, hlookup⟩, hada⟩
    refine ⟨(dirs ++ [name], .file data), ?_, ?_⟩
    · exact FileTree.mem_below_iff.mpr ⟨by simp, FileTree.mem_of_lookup (by simp) hlookup⟩
    · have hp := hrel.eq_joinWith (by simp)
      have hname := (Path.isAdaName_iff fun n hn => (hrel.isName n hn).2.1).mpr hada
      rw [← hp] at hname
      exact adaPath?_eq_some_iff.mpr ⟨by simp, hname, hp⟩

/-- The order of the walk is that of the names on the way. -/
theorem pairwise_findAll (t : FileTree) (l : Location) :
    ((t.below l).filterMap adaPath?).Pairwise
      fun p q => p.split Path.slash < q.split Path.slash := by
  have hsplit : ∀ x ∈ t.below l, ∀ p, adaPath? x = some p → p.split Path.slash = x.1 := by
    rintro ⟨names, e⟩ hmem p hp
    obtain ⟨-, -, rfl⟩ := adaPath?_eq_some_iff.mp hp
    obtain ⟨hne, hmem⟩ := FileTree.mem_below_iff.mp hmem
    exact Path.split_joinWith_slash hne fun n hn =>
      (t.wellFormed.proper _ hmem n (List.mem_append_right _ hn)).2.1
  refine List.pairwise_filterMap.mpr ((t.pairwise_below l).imp_of_mem ?_)
  intro x y hx hy hlt p hp q hq
  rwa [hsplit x hx p hp, hsplit y hy q hq]

theorem path_of_load {p : Bytes} {f : SourceFile} (h : folder.load t p = .ok f) : f.path = p := by
  simp only [load] at h
  split at h
  · cases h
  · split at h
    · cases h
    · cases h
      rfl

theorem map_path_of_loadAll {files : List SourceFile} (h : folder.loadAll t found = .ok files) :
    files.map SourceFile.path = found := by
  unfold loadAll at h
  split at h
  · cases h
  · next hne =>
    have hall := mapM_eq_ok_iff.mp h
    clear h hne
    induction hall with
    | nil => rfl
    | cons hload hrest ih => rw [List.map_cons, path_of_load hload, ih]

/-- The walk of a folder visits the entries of every directory by name and enters directories where
it comes to them. It finds just the files with an Ada extension, each once, in the order of the
names on the way to them, and this is the order of the functions in the generated files. -/
theorem findAll_in_walk_order (t : FileTree) (folder : SourceFolder) (l : Location)
    (hvalid : ∀ x ∈ t.entries, ∀ n ∈ x.1, Utf8.isValid n = true)
    (hdir : t.find folder.dir = .ok (l, .directory)) :
    ∃ visited found, t.Visits l (t.children l) visited ∧
      folder.findAll t = .ok found ∧ found = visited.filterMap adaPath? ∧
      (∀ p, p ∈ found ↔ ∃ dirs name, Path.Relative (dirs ++ [name]) p ∧
        t.IsFile (l ++ (dirs ++ [name])) ∧ Path.IsAda name) ∧
      found.Nodup ∧ (found.Pairwise fun p q => p.split Path.slash < q.split Path.slash) ∧
      ∀ files, folder.loadAll t found = .ok files →
        files.map SourceFile.path = found ∧
        ∀ naming,
          let artifacts := Artifacts.ofSources (Run.namedTexts files) naming
          artifacts.functions = (files.flatMap fun f => functionsOf f.content) ∧
            artifacts.header = C.headerText artifacts.functions naming ∧
            artifacts.implementation = C.implementationText artifacts.functions naming := by
  have hpairwise := pairwise_findAll t l
  refine ⟨t.below l, _, t.visits_below l, findAll_eq hvalid hdir, rfl,
    fun p => mem_findAll_iff hvalid, ?_, hpairwise, fun files hfiles => ?_⟩
  · refine List.Pairwise.imp ?_ hpairwise
    rintro p q hlt rfl
    exact List.lt_irrefl _ hlt
  · refine ⟨map_path_of_loadAll hfiles, fun naming => ?_⟩
    intro artifacts
    have hfunctions : artifacts.functions =
        (Run.namedTexts files).flatMap fun f => functionsOf f.2 :=
      Artifacts.functions_ofSources _ _
    refine ⟨?_, ?_, ?_⟩
    · rw [hfunctions, Run.namedTexts, List.flatMap_map]
    · rw [hfunctions]
      exact Artifacts.header_ofSources _ _
    · rw [hfunctions]
      exact Artifacts.implementation_ofSources _ _

/-- A directory and a file that both have an Ada extension, a file whose name is only an extension,
and one that comes behind what is in a directory although its path is the lesser text. -/
theorem findAll_in_walk_order_nested :
    let t : FileTree := { entries := [([bytes "p"], .directory),
      ([bytes "p", bytes ".ADB"], .file []), ([bytes "p", bytes "a"], .directory),
      ([bytes "p", bytes "a", bytes "x.adb"], .file []),
      ([bytes "p", bytes "a.adb"], .file []), ([bytes "p", bytes "d.ads"], .directory),
      ([bytes "p", bytes "d.ads", bytes "é.Ads"], .file []),
      ([bytes "p", bytes "read.me"], .file [])] }
    let folder := SourceFolder.new (bytes "/p") []
    folder.findAll t =
        .ok [bytes ".ADB", bytes "a/x.adb", bytes "a.adb", bytes "d.ads/é.Ads"] ∧
      ∃ visited, t.Visits [bytes "p"] (t.children [bytes "p"]) visited ∧
        visited.filterMap adaPath? =
          [bytes ".ADB", bytes "a/x.adb", bytes "a.adb", bytes "d.ads/é.Ads"] := by
  intro t folder
  have hfound : folder.findAll t =
      .ok [bytes ".ADB", bytes "a/x.adb", bytes "a.adb", bytes "d.ads/é.Ads"] := by rfl
  obtain ⟨visited, found, hvisits, hall, hvisited, -⟩ :=
    findAll_in_walk_order t folder [bytes "p"] (by decide +kernel) (by rfl)
  rw [hfound] at hall
  cases hall
  exact ⟨hfound, visited, hvisits, hvisited.symm⟩

end SourceFolder

end AdaToC
