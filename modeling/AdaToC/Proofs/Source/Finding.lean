import AdaToC.Proofs.FileTree.Order
import AdaToC.Proofs.Traversal

/-!
# What a source folder finds and loads

A name that the user gives is divided at its last slash (`Path.Divided`); in the directory before it
an entry is picked (`FileTree.Picks`), and `Selects` retells the search of a whole list of names.
What the search gives, and what the walk of a folder gives, leads to files, and these can be loaded.
-/

namespace AdaToC

namespace FileTree

variable {t : FileTree} {p : Bytes}

theorem readDirectory_eq_ok_iff {entries : List (Bytes × Entry)} (shown : Bytes) :
    t.readDirectory shown p = .ok entries ↔
      ∃ l, t.find p = .ok (l, .directory) ∧ entries = t.children l := by
  unfold readDirectory
  split
  · next l h => simp [h, eq_comm]
  · next h => simp [h]
  · next h => simp [h]

/-- Something other than a directory stands at a location. -/
def IsFile (t : FileTree) (l : Location) : Prop :=
  ∃ data, t.lookup l = some (.file data)

end FileTree

namespace SourceFolder

variable {t : FileTree} {folder : SourceFolder} {l : Location} {names : List Bytes}
  {dir name p data : Bytes}

/-! ## Listing and loading by names -/

/-- A path in strict form leads from the folder, by the given names, to a directory. -/
structure Holds (folder : SourceFolder) (t : FileTree) (dir : Bytes) (names : List Bytes)
    (l : Location) : Prop where
  relative : Path.Relative names dir
  reached : ∃ root, t.find folder.dir = .ok (root, .directory) ∧ l = root ++ names
  directory : t.lookup l = some .directory

theorem list_eq_ok_iff {entries : List (Bytes × Entry)} :
    folder.list t dir = .ok entries ↔
      ∃ names l, folder.Holds t dir names l ∧ entries = t.children l := by
  have hlist : folder.list t dir = .ok entries ↔
      ∃ path, folder.path? dir = .ok path ∧ t.readDirectory dir path = .ok entries := by
    unfold list
    cases folder.path? dir <;> simp
  rw [hlist]
  constructor
  · rintro ⟨path, hpath, hread⟩
    obtain ⟨hdir, hlocal, -, rfl⟩ := path?_eq_ok_iff.mp hpath
    obtain ⟨names, hrel⟩ := Path.isLocal_iff.mp hlocal
    obtain ⟨l, hfind, hentries⟩ := (FileTree.readDirectory_eq_ok_iff _).mp hread
    rw [pathOf_eq] at hfind
    obtain ⟨root, hroot, hl, hdirectory⟩ := (FileTree.find_relative_iff hdir hrel).mp hfind
    exact ⟨names, l, ⟨hrel, ⟨root, hroot, hl⟩, hdirectory⟩, hentries⟩
  · rintro ⟨names, l, ⟨hrel, ⟨root, hroot, rfl⟩, hdirectory⟩, hentries⟩
    have hdir := FileTree.ne_nil_of_find hroot
    -- the names of the tree hold no zero byte, so the path is let through
    have hzero : 0 ∉ dir := hrel.zero_not_mem fun n hn =>
      (FileTree.proper_of_lookup hdirectory n (List.mem_append_right _ hn)).2.2
    refine ⟨folder.pathOf dir,
      path?_eq_ok_iff.mpr ⟨hdir, Path.isLocal_iff.mpr ⟨names, hrel⟩, hzero, rfl⟩, ?_⟩
    refine (FileTree.readDirectory_eq_ok_iff _).mpr ⟨root ++ names, ?_, hentries⟩
    rw [pathOf_eq]
    exact (FileTree.find_relative_iff hdir hrel).mpr ⟨root, hroot, rfl, hdirectory⟩

/-- A path in strict form leads from the folder to a file. -/
structure Reaches (folder : SourceFolder) (t : FileTree) (p data : Bytes) : Prop where
  rooted : folder.dir ≠ []
  strict : Path.isLocal p = true
  zero_not_mem : 0 ∉ p
  found : ∃ l, t.find (folder.pathOf p) = .ok (l, .file data)

theorem reaches_of_lookup {root : Location}
    (hroot : t.find folder.dir = .ok (root, .directory)) (hrel : Path.Relative names p)
    (hlookup : t.lookup (root ++ names) = some (.file data)) : folder.Reaches t p data := by
  have hdir := FileTree.ne_nil_of_find hroot
  refine ⟨hdir, Path.isLocal_iff.mpr ⟨names, hrel⟩, hrel.zero_not_mem ?_, root ++ names, ?_⟩
  · exact fun n hn => (FileTree.proper_of_lookup hlookup n (List.mem_append_right _ hn)).2.2
  · rw [pathOf_eq]
    exact (FileTree.find_relative_iff hdir hrel).mpr ⟨root, hroot, rfl, hlookup⟩

/-- The encoding of the files is guessed. -/
def Automatic (folder : SourceFolder) : Prop :=
  folder.encoding = [] ∨ folder.encoding.equalFold Encoding.auto = true

/-- What is loaded of a file: the path is the one asked for, and the text and the size are those of
the bytes on disk. -/
structure Loaded (folder : SourceFolder) (t : FileTree) (p : Bytes) (f : SourceFile) : Prop where
  path : f.path = p
  name : f.name = Path.base p
  stored : ∃ l data, t.find (folder.pathOf p) = .ok (l, .file data) ∧
    f.content = Encoding.readAuto data ∧ f.size = data.length

theorem Reaches.load_eq (h : folder.Reaches t p data) (hauto : folder.Automatic) :
    folder.load t p = .ok
      { name := Path.base p, path := p, content := Encoding.readAuto data
        size := data.length } := by
  obtain ⟨l, hfind⟩ := h.found
  have hread : t.readFile p (folder.pathOf p) = .ok data :=
    (FileTree.readFile_eq_ok_iff _).mpr ⟨l, hfind⟩
  have hdecode : Encoding.decode data folder.encoding folder.tables =
      .ok (Encoding.readAuto data) :=
    if_pos (by simpa [Automatic] using hauto)
  unfold SourceFolder.load
  simp only [path?_eq_ok_iff.mpr ⟨h.rooted, h.strict, h.zero_not_mem, rfl⟩, hread, hdecode]

theorem Reaches.load (h : folder.Reaches t p data) (hauto : folder.Automatic) :
    ∃ f, folder.load t p = .ok f ∧ folder.Loaded t p f := by
  obtain ⟨l, hfind⟩ := h.found
  exact ⟨_, h.load_eq hauto, rfl, rfl, l, data, hfind, rfl, rfl⟩

/-- Loading a list of files fails for the empty list only, and gives the files in its order. -/
structure LoadsAll (folder : SourceFolder) (t : FileTree) (paths : List Bytes) : Prop where
  error_iff : ∀ e, folder.loadAll t paths = .error e ↔ paths = [] ∧ e = .noSources folder.dir
  files : paths ≠ [] →
    ∃ files, folder.loadAll t paths = .ok files ∧ List.Forall₂ (folder.Loaded t) paths files

theorem loadsAll_of_reaches (hauto : folder.Automatic) {paths : List Bytes}
    (h : ∀ p ∈ paths, ∃ data, folder.Reaches t p data) : folder.LoadsAll t paths := by
  obtain ⟨files, hfiles, hloaded⟩ := exists_mapM_eq_ok (f := folder.load t) fun p hp =>
    (h p hp).elim fun data hreaches => hreaches.load hauto
  by_cases hempty : paths = []
  · subst hempty
    refine ⟨fun e => ?_, fun hne => absurd rfl hne⟩
    simp [loadAll, eq_comm]
  · have hall : folder.loadAll t paths = .ok files := by
      rw [loadAll, if_neg (by simpa using hempty), hfiles]
    refine ⟨fun e => ?_, fun _ => ⟨files, hall, hloaded⟩⟩
    simp [hall, hempty]

end SourceFolder

namespace FileTree

/-! ## The entry that a name picks -/

variable {t : FileTree} {l : Location} {name entry : Bytes}

/-- The file of a directory that a name stands for: the one with this very name, and without such a
file the first one in byte order whose name is the same up to letter case. -/
structure Picks (t : FileTree) (l : Location) (name entry : Bytes) : Prop where
  isFile : t.IsFile (l ++ [entry])
  fits : entry.equalFold name = true
  same : t.IsFile (l ++ [name]) → entry = name
  first : ¬ t.IsFile (l ++ [name]) → ∀ other, t.IsFile (l ++ [other]) →
    other.equalFold name = true → other = entry ∨ entry < other

theorem Picks.unique (h : t.Picks l name entry) {entry' : Bytes} (h' : t.Picks l name entry') :
    entry = entry' := by
  by_cases hname : t.IsFile (l ++ [name])
  · rw [h.same hname, h'.same hname]
  · rcases h.first hname entry' h'.isFile h'.fits with heq | hlt
    · exact heq.symm
    · rcases h'.first hname entry h.isFile h.fits with heq | hlt'
      · exact heq
      · exact absurd (List.lt_trans hlt hlt') (List.lt_irrefl _)

/-- The names of the files among some entries. -/
def fileNames (entries : List (Bytes × Entry)) : List Bytes :=
  (entries.filter fun (_, e) => e != .directory).map (·.1)

theorem mem_fileNames_iff :
    name ∈ fileNames (t.children l) ↔ t.IsFile (l ++ [name]) := by
  unfold fileNames IsFile
  rw [List.mem_map]
  constructor
  · rintro ⟨⟨entry, e⟩, hmem, rfl⟩
    obtain ⟨hmem, hfile⟩ := List.mem_filter.mp hmem
    have hlookup := (mem_entries_iff (by simp)).mp (mem_children_iff.mp hmem)
    cases e with
    | directory => simp at hfile
    | file data => exact ⟨data, hlookup⟩
  · rintro ⟨data, hlookup⟩
    have hmem := mem_children_iff.mpr ((mem_entries_iff (by simp)).mpr hlookup)
    exact ⟨_, List.mem_filter.mpr ⟨hmem, rfl⟩, rfl⟩

theorem pairwise_fileNames (t : FileTree) (l : Location) :
    (fileNames (t.children l)).Pairwise (· < ·) :=
  List.pairwise_map.mpr ((t.pairwise_children l).filter _)

/-- In a list in order, the first match is before all others. -/
theorem eq_or_lt_of_find? {names : List Bytes} (hordered : names.Pairwise (· < ·))
    {fits : Bytes → Bool} (h : names.find? fits = some entry) {other : Bytes}
    (hother : other ∈ names) (hfits : fits other = true) : other = entry ∨ entry < other := by
  obtain ⟨-, before, behind, rfl, hbefore⟩ := List.find?_eq_some_iff_append.mp h
  rcases List.mem_append.mp hother with hmem | hmem
  · have hnot := hbefore other hmem
    rw [hfits] at hnot
    cases hnot
  · rcases List.mem_cons.mp hmem with rfl | hmem
    · exact Or.inl rfl
    · exact Or.inr ((List.pairwise_cons.mp (List.pairwise_append.mp hordered).2.1).1 other hmem)

/-- The name of the file that is looked for, among the names of all files of a directory. -/
def pick (names : List Bytes) (name : Bytes) : Option Bytes :=
  (names.find? (· == name)).or (names.find? (·.equalFold name))

theorem picks_of_pick
    (h : pick (fileNames (t.children l)) name = some entry) : t.Picks l name entry := by
  unfold pick at h
  cases hsame : (fileNames (t.children l)).find? (· == name) with
  | some found =>
    -- a file has the very name
    rw [hsame] at h
    cases h
    obtain rfl : entry = name := by simpa using List.find?_some hsame
    have hfile := mem_fileNames_iff.mp (List.mem_of_find?_eq_some hsame)
    exact ⟨hfile, beq_self_eq_true _, fun _ => rfl, fun hnone => absurd hfile hnone⟩
  | none =>
    -- no file has the very name, so letter case is left aside
    rw [hsame] at h
    have hfirst : (fileNames (t.children l)).find? (·.equalFold name) = some entry := h
    have hnone : ¬ t.IsFile (l ++ [name]) := by
      intro hfile
      have hne := List.find?_eq_none.mp hsame name (mem_fileNames_iff.mpr hfile)
      exact hne (beq_self_eq_true name)
    refine ⟨mem_fileNames_iff.mp (List.mem_of_find?_eq_some hfirst), ?_,
      fun hfile => absurd hfile hnone, fun _ other hother hfits => ?_⟩
    · have hfits := List.find?_some hfirst
      exact hfits
    · exact eq_or_lt_of_find? (t.pairwise_fileNames l) hfirst (mem_fileNames_iff.mpr hother) hfits

/-- A file that fits is reason enough for a file to be picked. -/
theorem exists_pick (hfile : t.IsFile (l ++ [entry]))
    (hfits : entry.equalFold name = true) :
    ∃ found, pick (fileNames (t.children l)) name = some found := by
  rw [← Option.isSome_iff_exists, pick, Option.isSome_or, Bool.or_eq_true]
  right
  rw [List.find?_isSome]
  exact ⟨entry, mem_fileNames_iff.mpr hfile, hfits⟩

theorem pick_eq_some_iff :
    pick (fileNames (t.children l)) name = some entry ↔ t.Picks l name entry := by
  constructor
  · exact picks_of_pick
  · intro h
    obtain ⟨found, hfound⟩ := exists_pick h.isFile h.fits
    rw [hfound, (picks_of_pick hfound).unique h]

end FileTree

namespace Path

variable {name dir base : Bytes}

/-! ## Names divided at the last slash -/

/-- A name divided into the directory it names and the rest. Without a slash, or with nothing before
it, the directory is the folder itself. -/
inductive Divided : Bytes → Bytes → Bytes → Prop where
  | plain {name : Bytes} (h : slash ∉ name) : Divided name (bytes ".") name
  | behind {dir base : Bytes} (h : slash ∉ base) :
      Divided (dir ++ slash :: base) (dir.orElse (bytes ".")) base

theorem divided_iff :
    Divided name dir base ↔
      dir = Bytes.orElse (splitLast name).1.dropLast (bytes ".") ∧ base = (splitLast name).2 := by
  constructor
  · intro h
    cases h with
    | plain h =>
      rw [splitLast_of_not_mem h]
      exact ⟨rfl, rfl⟩
    | behind h =>
      rw [splitLast_append_cons _ h]
      simp
  · rintro ⟨rfl, rfl⟩
    by_cases h : slash ∈ name
    · obtain ⟨front, last, rfl, hlast⟩ := Bytes.exists_last h
      rw [splitLast_append_cons _ hlast]
      simpa using Divided.behind hlast
    · rw [splitLast_of_not_mem h]
      exact .plain h

end Path

namespace SourceFolder

variable {t : FileTree} {folder : SourceFolder} {names paths : List Bytes} {name dir base p : Bytes}

/-! ## The search for a list of names -/

/-- A name stands for the file at a path. -/
inductive Finds (folder : SourceFolder) (t : FileTree) : Bytes → Bytes → Prop where
  | intro {name dir base entry path data : Bytes} {names : List Bytes} {l : Location}
      (divided : Path.Divided name dir base) (holds : folder.Holds t dir names l)
      (picks : t.Picks l base entry) (relative : Path.Relative (names ++ [entry]) path)
      (leads : t.find (folder.pathOf path) = .ok (l ++ [entry], .file data)) :
      Finds folder t name path

/-- There is a file that fits a name in the directory that it names. -/
def Fits (folder : SourceFolder) (t : FileTree) (name : Bytes) : Prop :=
  ∃ dir base names l entry, Path.Divided name dir base ∧ folder.Holds t dir names l ∧
    t.IsFile (l ++ [entry]) ∧ entry.equalFold base = true

/-- The search for some names in order: a name gives the path of the file it stands for, and a name
that nothing fits gives none. -/
inductive Selects (folder : SourceFolder) (t : FileTree) : List Bytes → List Bytes → Prop where
  | nil : Selects folder t [] []
  | found {name path : Bytes} {names paths : List Bytes} (h : folder.Finds t name path)
      (rest : Selects folder t names paths) : Selects folder t (name :: names) (path :: paths)
  | passed {name : Bytes} {names paths : List Bytes} (h : ¬ folder.Fits t name)
      (rest : Selects folder t names paths) : Selects folder t (name :: names) paths

theorem findName_eq_ok_iff_pick :
    folder.findName t dir base = .ok p ↔
      ∃ entries, folder.list t dir = .ok entries ∧
        ∃ entry, FileTree.pick (FileTree.fileNames entries) base = some entry ∧
          p = Path.join [dir, entry] := by
  unfold findName
  cases folder.list t dir with
  | error e => simp
  | ok entries =>
    simp only [Except.ok.injEq, exists_eq_left']
    split
    · next found h =>
      have hpick : FileTree.pick (FileTree.fileNames entries) base = some found := h
      rw [hpick]
      constructor
      · intro hfound
        exact ⟨found, rfl, (Except.ok.inj hfound).symm⟩
      · rintro ⟨entry, heq, rfl⟩
        cases heq
        rfl
    · next h =>
      have hpick : FileTree.pick (FileTree.fileNames entries) base = none := h
      simp [hpick]

theorem findName_eq_ok_iff :
    folder.findName t dir base = .ok p ↔
      ∃ names l entry, folder.Holds t dir names l ∧ t.Picks l base entry ∧
        p = Path.join [dir, entry] := by
  rw [findName_eq_ok_iff_pick]
  constructor
  · rintro ⟨entries, hlist, entry, hpick, hp⟩
    obtain ⟨names, l, hholds, rfl⟩ := list_eq_ok_iff.mp hlist
    exact ⟨names, l, entry, hholds, FileTree.pick_eq_some_iff.mp hpick, hp⟩
  · rintro ⟨names, l, entry, hholds, hpicks, hp⟩
    exact ⟨_, list_eq_ok_iff.mpr ⟨names, l, hholds, rfl⟩, entry,
      FileTree.pick_eq_some_iff.mpr hpicks, hp⟩

theorem toOption_eq_some_iff {ε α : Type} {x : Except ε α} {a : α} :
    x.toOption = some a ↔ x = .ok a := by
  cases x <;> simp [Except.toOption]

/-- The path of the file that a name stands for. -/
def find? (folder : SourceFolder) (t : FileTree) (name : Bytes) : Option Bytes :=
  (folder.findName t (Bytes.orElse (Path.splitLast name).1.dropLast (bytes "."))
    (Path.splitLast name).2).toOption

theorem find_eq_filterMap (folder : SourceFolder) (t : FileTree) (names : List Bytes) :
    folder.find t names = names.filterMap (folder.find? t) :=
  rfl

theorem find?_eq_some_iff
    (hvalid : ∀ x ∈ t.entries, ∀ n ∈ x.1, Utf8.isValid n = true) :
    folder.find? t name = some p ↔ folder.Finds t name p := by
  unfold find?
  rw [toOption_eq_some_iff, findName_eq_ok_iff]
  constructor
  · rintro ⟨names, l, entry, hholds, hpicks, rfl⟩
    obtain ⟨root, hroot, rfl⟩ := hholds.reached
    obtain ⟨data, hlookup⟩ := hpicks.isFile
    have hmem := FileTree.mem_of_lookup (by simp) hlookup
    have hproper := t.wellFormed.proper _ hmem entry (by simp)
    have hrel := hholds.relative.join
      ⟨hproper.1, hproper.2.1, Utf8.isValid_iff.mp (hvalid _ hmem entry (by simp))⟩
    rw [List.append_assoc] at hlookup
    have hleads := (FileTree.find_relative_iff (FileTree.ne_nil_of_find hroot) hrel).mpr
      ⟨root, hroot, rfl, hlookup⟩
    rw [← pathOf_eq, ← List.append_assoc] at hleads
    exact .intro (Path.divided_iff.mpr ⟨rfl, rfl⟩) hholds hpicks hrel hleads
  · rintro ⟨hdivided, hholds, hpicks, hrel, -⟩
    obtain ⟨rfl, rfl⟩ := Path.divided_iff.mp hdivided
    refine ⟨_, _, _, hholds, hpicks, ?_⟩
    -- both paths are made of the names of the directory and that of the entry
    have hjoin := hholds.relative.join (hrel.isName _ List.mem_concat_self)
    rw [hrel.eq_joinWith (by simp), hjoin.eq_joinWith (by simp)]

theorem Finds.fits (h : folder.Finds t name p) : folder.Fits t name := by
  obtain ⟨hdivided, hholds, hpicks, -, -⟩ := h
  exact ⟨_, _, _, _, _, hdivided, hholds, hpicks.isFile, hpicks.fits⟩

theorem find?_eq_none_iff
    (hvalid : ∀ x ∈ t.entries, ∀ n ∈ x.1, Utf8.isValid n = true) :
    folder.find? t name = none ↔ ¬ folder.Fits t name := by
  constructor
  · rintro hnone ⟨dir, base, names, l, entry, hdivided, hholds, hfile, hfits⟩
    obtain ⟨rfl, rfl⟩ := Path.divided_iff.mp hdivided
    obtain ⟨found, hpick⟩ := FileTree.exists_pick hfile hfits
    have hfound := findName_eq_ok_iff.mpr
      ⟨names, l, found, hholds, FileTree.pick_eq_some_iff.mp hpick, rfl⟩
    rw [find?, hfound] at hnone
    cases hnone
  · intro hnot
    rw [Option.eq_none_iff_forall_ne_some]
    exact fun p hfound => hnot ((find?_eq_some_iff hvalid).mp hfound).fits

/-- The search for a list of names, one name after the other. -/
theorem find_eq_iff_selects
    (hvalid : ∀ x ∈ t.entries, ∀ n ∈ x.1, Utf8.isValid n = true) :
    folder.find t names = paths ↔ folder.Selects t names paths := by
  constructor
  · rintro rfl
    rw [find_eq_filterMap]
    induction names with
    | nil => exact .nil
    | cons name names ih =>
      cases hname : folder.find? t name with
      | some p =>
        rw [List.filterMap_cons_some hname]
        exact .found ((find?_eq_some_iff hvalid).mp hname) ih
      | none =>
        rw [List.filterMap_cons_none hname]
        exact .passed ((find?_eq_none_iff hvalid).mp hname) ih
  · intro h
    rw [find_eq_filterMap]
    induction h with
    | nil => rfl
    | found h rest ih =>
      rw [List.filterMap_cons_some ((find?_eq_some_iff hvalid).mpr h), ih]
    | passed h rest ih =>
      rw [List.filterMap_cons_none ((find?_eq_none_iff hvalid).mpr h), ih]

theorem Finds.reaches (h : folder.Finds t name p) :
    ∃ data, folder.Reaches t p data := by
  obtain ⟨-, hholds, hpicks, hrel, -⟩ := h
  obtain ⟨root, hroot, rfl⟩ := hholds.reached
  obtain ⟨data, hlookup⟩ := hpicks.isFile
  rw [List.append_assoc] at hlookup
  exact ⟨data, reaches_of_lookup hroot hrel hlookup⟩

theorem Selects.reaches (h : folder.Selects t names paths) :
    ∀ p ∈ paths, ∃ data, folder.Reaches t p data := by
  induction h with
  | nil => exact fun p hp => absurd hp List.not_mem_nil
  | found h rest ih => exact List.forall_mem_cons.mpr ⟨h.reaches, ih⟩
  | passed h rest ih => exact ih

theorem reaches_of_findAll
    (hvalid : ∀ x ∈ t.entries, ∀ n ∈ x.1, Utf8.isValid n = true)
    (h : folder.findAll t = .ok paths) :
    ∀ p ∈ paths, ∃ data, folder.Reaches t p data := by
  intro p hp
  obtain ⟨l, hroot, -⟩ := findAll_eq_ok_iff.mp h
  obtain ⟨front, name, data, hleads, rfl⟩ := exists_leads_of_findAll hvalid h hroot hp
  exact ⟨data, reaches_of_lookup hroot hleads.relative hleads.lookup⟩

/-- In a tree whose names are well-formed text, the search of a folder gives the files that
the names stand for. What the search gives, and what the walk gives, can be loaded when the encoding
is guessed: there is no failure but for the empty list. -/
theorem find_selects_and_loads (t : FileTree) (folder : SourceFolder)
    (hvalid : ∀ x ∈ t.entries, ∀ n ∈ x.1, Utf8.isValid n = true) :
    (∀ names paths, folder.find t names = paths ↔ folder.Selects t names paths) ∧
      (folder.Automatic →
        (∀ names, folder.LoadsAll t (folder.find t names)) ∧
          ∀ found, folder.findAll t = .ok found → folder.LoadsAll t found) := by
  refine ⟨fun names paths => find_eq_iff_selects hvalid, fun hauto => ⟨?_, ?_⟩⟩
  · intro names
    have hselects := (find_eq_iff_selects hvalid).mp (Eq.refl (folder.find t names))
    exact loadsAll_of_reaches hauto (hselects.reaches)
  · intro found hfound
    exact loadsAll_of_reaches hauto (reaches_of_findAll hvalid hfound)

/-- The exact name, the first of two that fit, a name in a directory, and one behind a lone slash
are found; a directory, a path that goes up and an element that is empty are passed over. -/
theorem find_selects_and_loads_mixed :
    let t : FileTree := { entries := [([bytes "p"], .directory),
      ([bytes "p", bytes "A.adb"], .file (bytes "a")), ([bytes "p", bytes "B.ADB"], .file [0xFF]),
      ([bytes "p", bytes "b.adb"], .file (bytes "b")),
      ([bytes "p", bytes "c.adb"], .directory), ([bytes "p", bytes "s"], .directory),
      ([bytes "p", bytes "s", bytes "é.adb"], .file [])] }
    let folder := SourceFolder.new (bytes "/p") []
    let paths := [bytes "b.adb", bytes "B.ADB", bytes "s/é.adb", bytes "A.adb"]
    folder.Selects t [bytes "b.adb", bytes "B.Adb", bytes "c.adb", bytes "s/É.adb",
        bytes "../p/a.adb", bytes "s//é.adb", bytes "/a.adb"] paths ∧
      folder.LoadsAll t paths := by
  intro t folder paths
  obtain ⟨hfind, hloads⟩ := find_selects_and_loads t folder (by decide +kernel)
  have hpaths : folder.find t [bytes "b.adb", bytes "B.Adb", bytes "c.adb", bytes "s/É.adb",
      bytes "../p/a.adb", bytes "s//é.adb", bytes "/a.adb"] = paths := by decide +kernel
  refine ⟨(hfind _ _).mp hpaths, ?_⟩
  rw [← hpaths]
  exact (hloads (Or.inr (by decide +kernel))).1 _

end SourceFolder

end AdaToC
