import AdaToC.Proofs.FileTree
import AdaToC.Proofs.Path.Relative
import AdaToC.Source

/-!
# Files below a directory

A file below a directory can be asked for in two ways: by the names that lead to it from the
directory, or by its own path, from which the directory that holds it and its name are read off.
`FileTree.Leads` says that names lead to a file; from it both ways are followed, and what is loaded
is the same. The names say all: a path in strict form leads from a directory to the entry under its
names (`find_relative_iff`), and the walk of a folder goes through all that is below its directory
(`findAll_eq_ok_iff`).
-/

namespace AdaToC

namespace FileTree

variable {t : FileTree} {here l : Location} {names : List Bytes} {p data : Bytes}

/-! ## Following names and shortened paths -/

theorem locateFrom_names {e : Entry} (hnames : ∀ n ∈ names, Path.IsName n)
    (hlookup : t.lookup (here ++ names) = some e) :
    t.locateFrom here names = .ok (here ++ names) := by
  induction names generalizing here with
  | nil =>
    rw [List.append_nil]
    rfl
  | cons name rest ih =>
    have hassoc : here ++ name :: rest = here ++ [name] ++ rest := by simp
    have hhere : t.lookup here = some .directory :=
      lookup_above hlookup (List.prefix_append _ _) (by simp)
    have hnext : (t.lookup (here ++ [name])).isSome := by
      cases rest with
      | nil =>
        rw [hlookup]
        rfl
      | cons next more =>
        rw [lookup_above hlookup ⟨next :: more, by simp⟩ (by simp)]
        rfl
    rw [hassoc] at hlookup
    rw [locateFrom_name hhere (hnames name List.mem_cons_self), if_pos hnext, hassoc]
    exact ih (fun n hn => hnames n (List.mem_cons_of_mem _ hn)) hlookup

/-- Looking at one more element keeps the place that the elements kept so far lead to in step. -/
theorem locateFrom_push {absolute : Bool} {start : Location} {kept : List Bytes} {e : Bytes}
    (hstart : absolute = true → start = [])
    (hkept : t.locateFrom start kept.reverse = .ok here)
    (hloud : ∀ x ∈ kept, (x.isEmpty || x == bytes ".") = false)
    (h : t.locateFrom here [e] = .ok l) :
    t.locateFrom start (Path.push absolute kept e).reverse = .ok l := by
  have happend : ∀ x, t.locateFrom start (x :: kept).reverse = t.locateFrom here [x] := by
    intro x
    rw [List.reverse_cons, locateFrom_append, hkept]
    rfl
  rcases Path.element_cases e with hsilent | rfl | hname
  · rw [locateFrom_silent (lookup_of_locateFrom (List.cons_ne_nil _ _) h) hsilent] at h
    rw [Path.push_silent _ _ hsilent, hkept]
    exact h
  · cases kept with
    | nil =>
      cases hkept
      cases absolute with
      | false => exact h
      | true =>
        rw [hstart rfl] at h ⊢
        exact h
    | cons last earlier =>
      rcases Path.eq_up_or_isName (hloud last List.mem_cons_self) with rfl | hname
      · rw [Path.push_up_up, happend, h]
      · -- the way down by the last name and up again
        rw [List.reverse_cons] at hkept
        obtain ⟨dir, hearlier, hdir, hlast⟩ := exists_of_locateFrom_concat hkept
        rw [locateFrom_name hdir hname] at hlast
        split at hlast
        · cases hlast
          rw [locateFrom_up (lookup_of_locateFrom (List.cons_ne_nil _ _) h),
            List.dropLast_concat] at h
          rw [Path.push_up_name _ hname, hearlier]
          exact h
        · cases hlast
  · rw [Path.push_name _ _ hname, happend, h]

theorem locateFrom_reduce {absolute : Bool} {start : Location} {kept elements : List Bytes}
    (hstart : absolute = true → start = [])
    (hkept : t.locateFrom start kept.reverse = .ok here)
    (hloud : ∀ x ∈ kept, (x.isEmpty || x == bytes ".") = false)
    (h : t.locateFrom here elements = .ok l) :
    t.locateFrom start (Path.reduce absolute kept elements) = .ok l := by
  induction elements generalizing kept here with
  | nil =>
    rw [Path.reduce, hkept]
    exact h
  | cons e rest ih =>
    rw [← List.singleton_append, locateFrom_append] at h
    cases hstep : t.locateFrom here [e] with
    | error reason =>
      rw [hstep] at h
      cases h
    | ok next =>
      rw [hstep] at h
      rw [Path.reduce_cons]
      exact ih (locateFrom_push hstart hkept hloud hstep) (Path.loud_of_mem_push hloud) h

/-- A shortened path leads where its elements do. -/
theorem locateFrom_split_clean (hdir : t.lookup here = some .directory) (p : Bytes) :
    t.locateFrom here ((Path.clean p).split Path.slash) = t.locateFrom here (Path.elements p) := by
  have hjoined :
      t.locateFrom here ((Bytes.joinWith [Path.slash] (Path.elements p)).split Path.slash) =
        t.locateFrom here (Path.elements p) := by
    by_cases hnone : Path.elements p = []
    · rw [hnone]
      exact locateFrom_silent hdir rfl []
    · rw [Path.split_joinWith_slash hnone fun n => Path.slash_not_mem_of_mem_elements]
  rcases Path.clean_cases p with h | ⟨hnone, h⟩ | ⟨-, h⟩
  · rw [h, Bytes.split_cons, if_pos rfl, locateFrom_silent hdir rfl, hjoined]
  · rw [h, ← hjoined, hnone]
    exact (locateFrom_silent hdir (by decide) []).trans (locateFrom_silent hdir rfl []).symm
  · rw [h, hjoined]

theorem locate_clean_iff :
    t.locate (Path.clean p) = .ok l ↔
      (∀ e ∈ Path.elements p, 0 ∉ e) ∧ t.locateFrom (t.start p) (Path.elements p) = .ok l := by
  rw [locate_eq_ok_iff, start_eq_of_isAbsolute_eq (Path.isAbsolute_clean p),
    locateFrom_split_clean (t.lookup_start p), Path.mem_clean_iff (by decide) (by decide)]
  simp [Path.clean_ne_nil]

theorem locate_append (h : t.locate p = .ok here) (hne : names ≠ [])
    (hslash : ∀ n ∈ names, Path.slash ∉ n) (hzero : ∀ n ∈ names, 0 ∉ n)
    (hnames : t.locateFrom here names = .ok l) :
    t.locate (p ++ Path.slash :: Bytes.joinWith [Path.slash] names) = .ok l := by
  obtain ⟨hzeroPath, hempty, hfrom⟩ := locate_eq_ok_iff.mp h
  refine locate_eq_ok_iff.mpr ⟨?_, by simp, ?_⟩
  · have hslash : (0 : UInt8) ≠ Path.slash := by decide
    simp [hzeroPath, hslash, Path.not_mem_joinWith hslash hzero]
  · rw [start_eq_of_isAbsolute_eq (Path.isAbsolute_append hempty _), Bytes.split_append,
      Path.split_joinWith_slash hne hslash, locateFrom_append, hfrom]
    exact hnames

/-- Only a name leads from a directory to a file. -/
theorem eq_concat_of_locateFrom_file {dir : Location} {e : Bytes}
    (hdir : t.lookup dir = some .directory) (h : t.locateFrom dir [e] = .ok l)
    (hfile : t.lookup l = some (.file data)) : Path.IsName e ∧ l = dir ++ [e] := by
  rcases Path.element_cases e with hsilent | rfl | hname
  · rw [locateFrom_silent hdir hsilent] at h
    cases h
    rw [hdir] at hfile
    cases hfile
  · rw [locateFrom_up hdir] at h
    cases h
    rw [lookup_dropLast hdir] at hfile
    cases hfile
  · rw [locateFrom_name hdir hname] at h
    split at h
    · exact ⟨hname, (Except.ok.inj h).symm⟩
    · cases h

/-- A file is found again by its name in the directory that its path gives. -/
theorem find_parent {name : Bytes} (h : t.find p = .ok (l ++ [name], .file data)) :
    Path.base p = name ∧
      t.find (Path.parent p ++ Path.slash :: name) = .ok (l ++ [name], .file data) := by
  obtain ⟨hlocate, hlookup⟩ := find_eq_ok_iff.mp h
  obtain ⟨hzero, -, hfrom⟩ := locate_eq_ok_iff.mp hlocate
  obtain ⟨front, hsplit, hdirSplit⟩ := Path.exists_split_splitLast p
  rw [hsplit] at hfrom
  obtain ⟨dir, hfront, hdir, hlast⟩ := exists_of_locateFrom_concat hfrom
  obtain ⟨hname, heq⟩ := eq_concat_of_locateFrom_file hdir hlast hlookup
  have hbase : name = (Path.splitLast p).2 := List.singleton_inj.mp (List.append_inj' heq rfl).2
  rw [← hbase] at hname hsplit hlast
  have helement : ∀ e ∈ front ++ [name], Path.slash ∉ e ∧ 0 ∉ e := by
    intro e he
    rw [← hsplit] at he
    obtain ⟨hslash, hsub⟩ := Bytes.mem_split he
    exact ⟨hslash, fun hmem => hzero (hsub 0 hmem)⟩
  obtain ⟨hslash, hzeroName⟩ := helement name (by simp)
  refine ⟨Path.base_of_split hsplit hname.1, find_eq_ok_iff.mpr ⟨?_, hlookup⟩⟩
  -- the text up to the last slash leads to the directory, also once it is shortened
  have hparent : t.locate (Path.parent p) = .ok dir := by
    have hstart := start_eq_of_isAbsolute_eq (t := t) (Path.isAbsolute_splitLast p)
    refine locate_clean_iff.mpr
      ⟨?_, locateFrom_reduce (fun habsolute => start_eq_nil habsolute) rfl (by simp) ?_⟩
    · intro e he
      rcases Path.mem_reduce he with hnil | ⟨hmem, hloud⟩
      · cases hnil
      · rw [hdirSplit] at hmem
        rcases List.mem_append.mp hmem with hmem | hmem
        · exact (helement e (List.mem_append_left _ hmem)).2
        · rw [List.mem_singleton.mp hmem]
          exact List.not_mem_nil
    · rw [hstart, hdirSplit, locateFrom_append, hfront]
      exact locateFrom_silent hdir rfl []
  exact locate_append hparent (List.cons_ne_nil name [])
    (by simpa using hslash) (by simpa using hzeroName) hlast

/-! ## What is below a directory -/

theorem mem_below_iff {e : Entry} :
    (names, e) ∈ t.below l ↔ names ≠ [] ∧ (l ++ names, e) ∈ t.entries := by
  unfold below
  rw [List.mem_filterMap]
  constructor
  · rintro ⟨⟨l', e'⟩, hmem, hbelow⟩
    simp only at hbelow
    split at hbelow
    · next name rest h =>
      cases hbelow
      exact ⟨List.cons_ne_nil _ _, List.isPrefixOf?_eq_some_iff_append_eq.mp h ▸ hmem⟩
    · cases hbelow
  · rintro ⟨hne, hmem⟩
    obtain ⟨name, rest, rfl⟩ := List.exists_cons_of_ne_nil hne
    refine ⟨_, hmem, ?_⟩
    simp only [List.isPrefixOf?_eq_some_iff_append_eq.mpr rfl]

theorem relative_of_mem_below
    (hvalid : ∀ x ∈ t.entries, ∀ n ∈ x.1, Utf8.isValid n = true) {e : Entry}
    (h : (names, e) ∈ t.below l) : Path.Relative names (Bytes.joinWith [Path.slash] names) := by
  obtain ⟨hne, hmem⟩ := mem_below_iff.mp h
  refine .down hne fun n hn => ?_
  have hn : n ∈ l ++ names := List.mem_append_right _ hn
  obtain ⟨hname, hslash, -⟩ := t.wellFormed.proper _ hmem n hn
  exact ⟨hname, hslash, Utf8.isValid_iff.mp (hvalid _ hmem n hn)⟩

/-! ## Strict paths lead to what stands under their names -/

theorem locateFrom_here {root : Location} (hroot : t.lookup root = some .directory) :
    t.locateFrom root [bytes "."] = .ok root :=
  locateFrom_silent hroot (by decide) []

/-- An entry is found by the path of its location. -/
theorem find_path {e : Entry} (h : t.lookup l = some e) :
    t.find (Location.path l) = .ok (l, e) := by
  have hproper := proper_of_lookup h
  refine find_eq_ok_iff.mpr ⟨locate_eq_ok_iff.mpr ⟨?_, List.cons_ne_nil _ _, ?_⟩, h⟩
  · have hslash : (0 : UInt8) ≠ Path.slash := by decide
    have hjoined := Path.not_mem_joinWith hslash fun n hn => (hproper n hn).2.2
    simp [Location.path, hslash, hjoined]
  · rw [start_eq_nil rfl, Location.path, Bytes.split_cons, if_pos rfl, locateFrom_silent rfl rfl]
    by_cases hl : l = []
    · subst hl
      rfl
    · rw [Path.split_joinWith_slash hl fun n hn => (hproper n hn).2.1]
      exact locateFrom_names (fun n hn => (hproper n hn).1) h

/-- A strict path behind the path of a directory leads to what stands under its names there. -/
theorem find_relative_iff (hp : p ≠ []) {rel : Bytes} {e : Entry}
    (hrel : Path.Relative names rel) :
    t.find (p ++ Path.slash :: rel) = .ok (l, e) ↔
      ∃ root, t.find p = .ok (root, .directory) ∧ l = root ++ names ∧ t.lookup l = some e := by
  constructor
  · intro h
    obtain ⟨hlocate, hlookup⟩ := find_eq_ok_iff.mp h
    obtain ⟨hzero, -, hfrom⟩ := locate_eq_ok_iff.mp hlocate
    rw [start_eq_of_isAbsolute_eq (Path.isAbsolute_append hp _), Bytes.split_append,
      locateFrom_append] at hfrom
    cases hroot : t.locateFrom (t.start p) (p.split Path.slash) with
    | error reason =>
      rw [hroot] at hfrom
      cases hfrom
    | ok root =>
      rw [hroot] at hfrom
      have hfrom : t.locateFrom root (rel.split Path.slash) = .ok l := hfrom
      have hdirectory := lookup_of_locateFrom (Bytes.split_ne_nil _ _) hfrom
      have hfind : t.find p = .ok (root, .directory) :=
        find_eq_ok_iff.mpr
          ⟨locate_eq_ok_iff.mpr ⟨fun hmem => hzero (by simp [hmem]), hp, hroot⟩, hdirectory⟩
      refine ⟨root, hfind, ?_, hlookup⟩
      cases hrel with
      | here =>
        have hself : t.locateFrom root [bytes "."] = .ok l := hfrom
        rw [locateFrom_here hdirectory] at hself
        cases hself
        rw [List.append_nil]
      | down hne hnames =>
        rw [Path.split_joinWith_slash hne fun n hn => (hnames n hn).2.1] at hfrom
        obtain ⟨hl, -⟩ := locateFrom_spec hfrom (by rw [hdirectory]; rfl)
        rw [hl, Path.reduce_of_isName _ fun n hn => (hnames n hn).1, List.reverse_reverse]
  · rintro ⟨root, hfind, rfl, hlookup⟩
    obtain ⟨hlocate, hdirectory⟩ := find_eq_ok_iff.mp hfind
    refine find_eq_ok_iff.mpr ⟨?_, hlookup⟩
    cases hrel with
    | here =>
      rw [List.append_nil]
      exact locate_append hlocate (List.cons_ne_nil _ _) (by decide) (by decide)
        (locateFrom_here hdirectory)
    | down hne hnames =>
      have hproper := proper_of_lookup hlookup
      refine locate_append hlocate hne (fun n hn => (hnames n hn).2.1)
        (fun n hn => (hproper n (List.mem_append_right _ hn)).2.2) ?_
      exact locateFrom_names (fun n hn => (hnames n hn).1) hlookup

/-- A dot behind the path of a directory leads to the directory. -/
theorem find_here_iff (hp : p ≠ []) {e : Entry} :
    t.find (p ++ Path.slash :: bytes ".") = .ok (l, e) ↔
      t.find p = .ok (l, .directory) ∧ e = .directory := by
  rw [find_relative_iff hp .here]
  constructor
  · rintro ⟨root, hroot, rfl, hlookup⟩
    rw [List.append_nil] at hlookup ⊢
    rw [(find_eq_ok_iff.mp hroot).2] at hlookup
    exact ⟨hroot, (Option.some.inj hlookup).symm⟩
  · rintro ⟨hroot, rfl⟩
    exact ⟨l, hroot, (List.append_nil l).symm, (find_eq_ok_iff.mp hroot).2⟩

/-! ## Two ways to a file -/

/-- Names lead from a place down to a file. -/
structure Leads (t : FileTree) (l : Location) (names : List Bytes) (data : Bytes) : Prop where
  ne_nil : names ≠ []
  isText : ∀ n ∈ names, Utf8.IsText n
  lookup : t.lookup (l ++ names) = some (.file data)

theorem Leads.proper (h : t.Leads l names data) :
    ∀ n ∈ names, Path.IsName n ∧ Path.slash ∉ n ∧ 0 ∉ n :=
  fun n hn => proper_of_lookup h.lookup n (List.mem_append_right _ hn)

theorem exists_leads
    (hvalid : ∀ x ∈ t.entries, ∀ n ∈ x.1, Utf8.isValid n = true) {e : Entry}
    (h : (names, e) ∈ t.below l) (he : e ≠ .directory) : ∃ data, t.Leads l names data := by
  obtain ⟨hne, hmem⟩ := mem_below_iff.mp h
  cases e with
  | directory => exact absurd rfl he
  | file data =>
    refine ⟨data, hne, fun n hn => ?_, lookup_of_mem hmem⟩
    exact Utf8.isValid_iff.mp (hvalid _ hmem n (List.mem_append_right _ hn))

theorem Leads.relative (h : t.Leads l names data) :
    Path.Relative names (Bytes.joinWith [Path.slash] names) :=
  .down h.ne_nil fun n hn => ⟨(h.proper n hn).1, (h.proper n hn).2.1, h.isText n hn⟩

/-- The last of the names leads to the file from the directory that holds it. -/
theorem Leads.last {front : List Bytes} {name : Bytes} (h : t.Leads l (front ++ [name]) data) :
    t.Leads (l ++ front) [name] data := by
  refine ⟨List.cons_ne_nil _ _, fun n hn => h.isText n (List.mem_append_right _ hn), ?_⟩
  rw [List.append_assoc]
  exact h.lookup

theorem Leads.locateFrom_eq (h : t.Leads l names data) :
    t.locateFrom l names = .ok (l ++ names) :=
  locateFrom_names (fun n hn => (h.proper n hn).1) h.lookup

theorem Leads.find_append (h : t.Leads l names data) (hdir : t.find p = .ok (l, .directory)) :
    t.find (p ++ Path.slash :: Bytes.joinWith [Path.slash] names) =
      .ok (l ++ names, .file data) := by
  obtain ⟨hlocate, -⟩ := find_eq_ok_iff.mp hdir
  refine find_eq_ok_iff.mpr ⟨locate_append hlocate h.ne_nil ?_ ?_ h.locateFrom_eq, h.lookup⟩
  · exact fun n hn => (h.proper n hn).2.1
  · exact fun n hn => (h.proper n hn).2.2

theorem stat_of_find {found : Location × Entry} (h : t.find p = .ok found) (shown : Bytes) :
    t.stat shown p = .ok found := by
  unfold stat
  rw [h]

theorem ne_nil_of_find {found : Location × Entry} (h : t.find p = .ok found) : p ≠ [] := by
  rintro rfl
  cases h

/-- A directory may be found by a shortened path although the path itself leads nowhere. -/
theorem Leads.find_clean (h : t.Leads l names data) (hp : p ≠ [])
    (hdir : t.find (Path.clean p) = .ok (l, .directory)) :
    t.find (Path.clean (p ++ Path.slash :: Bytes.joinWith [Path.slash] names)) =
      .ok (l ++ names, .file data) := by
  obtain ⟨hlocate, -⟩ := find_eq_ok_iff.mp hdir
  obtain ⟨hzero, hfrom⟩ := locate_clean_iff.mp hlocate
  have helements := Path.elements_append hp h.ne_nil (fun n hn => (h.proper n hn).1)
    fun n hn => (h.proper n hn).2.1
  refine find_eq_ok_iff.mpr ⟨locate_clean_iff.mpr ⟨?_, ?_⟩, h.lookup⟩
  · intro e he
    rw [helements] at he
    rcases List.mem_append.mp he with he | he
    · exact hzero e he
    · exact (h.proper e he).2.2
  · rw [start_eq_of_isAbsolute_eq (Path.isAbsolute_append hp _), helements, locateFrom_append,
      hfrom]
    exact h.locateFrom_eq

end FileTree

namespace Path

/-- The path of a file below a directory, written behind the path of the directory. The empty path
stands for the directory from which paths are followed. -/
def extend (dir p : Bytes) : Bytes :=
  if dir.isEmpty then p else dir ++ bytes "/" ++ p

theorem extend_nil (p : Bytes) : extend [] p = p :=
  rfl

theorem extend_of_ne_nil {dir : Bytes} (h : dir ≠ []) (p : Bytes) :
    extend dir p = dir ++ slash :: p := by
  unfold extend
  rw [if_neg (by simpa using h), List.append_assoc]
  rfl

theorem extend_ne_nil (dir : Bytes) {p : Bytes} (hp : p ≠ []) : extend dir p ≠ [] := by
  by_cases hdir : dir = []
  · rwa [hdir, extend_nil]
  · rw [extend_of_ne_nil hdir]
    simp

theorem join_eq_clean_extend (dir : Bytes) {p : Bytes} (hp : p ≠ []) :
    join [dir, p] = clean (extend dir p) := by
  by_cases hdir : dir = []
  · simp [hdir, join, extend_nil, hp, Bytes.joinWith]
  · rw [extend_of_ne_nil hdir, join_eq_clean hdir hp]

/-- How the path of a directory is resolved shows in the path of a file below it. -/
theorem resolve_extend_cases (workDir dir : Bytes) {p : Bytes} (hp : p ≠ [])
    (hrelative : isAbsolute p = false) :
    resolve workDir dir = [] ∨
      resolve workDir (extend dir p) = resolve workDir dir ++ slash :: p ∨
      ∃ q, q ≠ [] ∧ resolve workDir dir = clean q ∧
        resolve workDir (extend dir p) = clean (q ++ slash :: p) := by
  by_cases hdir : dir = []
  · have hextend : resolve workDir (extend dir p) = clean (extend workDir p) := by
      rw [hdir, extend_nil, ← join_eq_clean_extend workDir hp]
      exact if_neg (by simp [hrelative])
    by_cases hwork : workDir = []
    · exact Or.inl (by rw [hdir, hwork]; rfl)
    · refine Or.inr (Or.inr ⟨workDir, hwork, ?_, ?_⟩)
      · simp [hdir, resolve, isAbsolute, join, hwork, Bytes.joinWith]
      · rw [hextend, extend_of_ne_nil hwork]
  · rw [extend_of_ne_nil hdir]
    unfold resolve
    rw [isAbsolute_append hdir]
    split
    · exact Or.inr (Or.inl rfl)
    · refine Or.inr (Or.inr
        ⟨extend workDir dir, extend_ne_nil _ hdir, join_eq_clean_extend workDir hdir, ?_⟩)
      rw [join_eq_clean_extend workDir (by simp)]
      unfold extend
      split
      · rfl
      · simp

end Path

namespace FileTree

variable {t : FileTree} {l : Location} {names : List Bytes} {data : Bytes}

/-- A file below an input is found by the path of the input with that of the file behind it. -/
theorem Leads.find_resolve (h : t.Leads l names data) {workDir dir : Bytes}
    (hdir : t.find (Path.resolve workDir dir) = .ok (l, .directory)) :
    t.find (Path.resolve workDir (Path.extend dir (Bytes.joinWith [Path.slash] names))) =
      .ok (l ++ names, .file data) := by
  obtain ⟨hne, hrelative⟩ := h.relative.isAbsolute_eq
  rcases Path.resolve_extend_cases workDir dir hne hrelative with hnone | heq | ⟨q, hq, hclean, heq⟩
  · rw [hnone] at hdir
    cases hdir
  · rw [heq]
    exact h.find_append hdir
  · rw [heq]
    rw [hclean] at hdir
    exact h.find_clean hq hdir

end FileTree

/-! ## Loading a file -/

/-- The file without the path under which it was asked for. -/
def SourceFile.unplaced (f : SourceFile) : SourceFile :=
  { f with path := [] }

namespace SourceFolder

variable {t : FileTree} {l l' : Location} {name data : Bytes}

theorem path?_eq_ok_iff {folder : SourceFolder} {path : Bytes} :
    folder.path? name = .ok path ↔
      folder.dir ≠ [] ∧ Path.isLocal name = true ∧ 0 ∉ name ∧ path = folder.pathOf name := by
  unfold path?
  by_cases hdir : folder.dir = []
  · simp [hdir]
  · rw [if_neg (by simpa using hdir)]
    split
    · next hname =>
      obtain ⟨hlocal, hzero⟩ : Path.isLocal name = true ∧ 0 ∉ name := by simpa using hname
      rw [Except.ok.injEq]
      exact ⟨fun h => ⟨hdir, hlocal, hzero, h.symm⟩, fun h => h.2.2.2.symm⟩
    · next hname =>
      constructor
      · intro h
        cases h
      · rintro ⟨-, hlocal, hzero, -⟩
        exact absurd (by simp [hlocal, hzero]) hname

theorem pathOf_eq (folder : SourceFolder) (p : Bytes) :
    folder.pathOf p = folder.dir ++ Path.slash :: p := by
  rw [pathOf, List.append_assoc]
  rfl

/-- What is loaded of some data that is found under a name. -/
def reading (tables : Encoding.Tables) (label name data : Bytes) : Option SourceFile :=
  (Encoding.decode data label tables).toOption.map fun content =>
    { name, path := [], content, size := data.length }

/-- Whichever folder a file is loaded from, what comes of it depends on its name and its data. -/
theorem load_of_leads {folder : SourceFolder} (hfolder : folder.dir ≠ []) (front : List Bytes)
    (h : t.Leads l (front ++ [name]) data)
    (hfind : t.find (folder.dir ++ Path.slash :: Bytes.joinWith [Path.slash] (front ++ [name])) =
      .ok (l', .file data)) :
    (folder.load t (Bytes.joinWith [Path.slash] (front ++ [name]))).toOption.map
      SourceFile.unplaced = reading folder.tables folder.encoding name data := by
  have hzero : 0 ∉ Bytes.joinWith [Path.slash] (front ++ [name]) :=
    h.relative.zero_not_mem fun n hn => (h.proper n hn).2.2
  have hbase : Path.base (Bytes.joinWith [Path.slash] (front ++ [name])) = name :=
    Path.base_of_split
      (Path.split_joinWith_slash h.ne_nil fun n hn => (h.proper n hn).2.1)
      (h.proper name (by simp)).1.1
  have hread : t.readFile (Bytes.joinWith [Path.slash] (front ++ [name]))
      (folder.pathOf (Bytes.joinWith [Path.slash] (front ++ [name]))) = .ok data := by
    refine (FileTree.readFile_eq_ok_iff _).mpr ⟨l', ?_⟩
    rw [pathOf, List.append_assoc]
    exact hfind
  unfold load reading
  have hlocal := Path.isLocal_iff.mpr ⟨_, h.relative⟩
  simp only [path?_eq_ok_iff.mpr ⟨hfolder, hlocal, hzero, rfl⟩, hread, hbase]
  cases Encoding.decode data folder.encoding folder.tables <;> rfl

/-- The path that the walk of a folder gives for an entry below it. -/
def adaPath? : Location × Entry → Option Bytes
  | (names, e) =>
    let p := Bytes.joinWith [Path.slash] names
    if e != .directory && isAdaName p then some p else none

/-- The walk of a folder goes through all that is below its directory, unless there is a directory
that cannot be entered. -/
theorem findAll_eq_ok_iff {folder : SourceFolder} {found : List Bytes} :
    folder.findAll t = .ok found ↔
      ∃ l, t.find folder.dir = .ok (l, .directory) ∧
        (∀ names, (names, Entry.directory) ∈ t.below l →
          Path.isLocal (Bytes.joinWith [Path.slash] names) = true) ∧
        found = (t.below l).filterMap adaPath? := by
  by_cases hdir : folder.dir = []
  · have hpath : folder.path? (bytes ".") = .error .noRoot := if_pos (by simp [hdir])
    simp only [findAll, hpath, reduceCtorEq, false_iff]
    rintro ⟨l, hfind, -⟩
    exact FileTree.ne_nil_of_find hfind hdir
  · have hpath : folder.path? (bytes ".") = .ok (folder.pathOf (bytes ".")) :=
      path?_eq_ok_iff.mpr ⟨hdir, by decide, by decide, rfl⟩
    simp only [findAll, FileTree.stat, hpath, pathOf_eq]
    cases hfind : t.find (folder.dir ++ Path.slash :: bytes ".") with
    | error reason =>
      simp only [reduceCtorEq, false_iff]
      rintro ⟨l, hroot, -⟩
      have hhere := (FileTree.find_here_iff hdir).mpr ⟨hroot, rfl⟩
      rw [hfind] at hhere
      cases hhere
    | ok place =>
      obtain ⟨l, e⟩ := place
      obtain ⟨hroot, -⟩ := (FileTree.find_here_iff hdir).mp hfind
      simp only [hroot, Except.ok.injEq, Prod.mk.injEq, and_true, exists_eq_left']
      split
      · next p e' hbad =>
        obtain ⟨⟨names, e''⟩, hmem, heq⟩ := List.mem_map.mp (List.mem_of_find?_eq_some hbad)
        cases heq
        obtain ⟨rfl, hstrict⟩ : e'' = .directory ∧
            Path.isLocal (Bytes.joinWith [Path.slash] names) = false := by
          simpa using List.find?_some hbad
        simp only [reduceCtorEq, false_iff]
        rintro ⟨hlocal, -⟩
        rw [hlocal names hmem] at hstrict
        cases hstrict
      · next hnone =>
        have hlocal : ∀ names, (names, Entry.directory) ∈ t.below l →
            Path.isLocal (Bytes.joinWith [Path.slash] names) = true := by
          intro names hmem
          simpa using List.find?_eq_none.mp hnone _ (List.mem_map_of_mem hmem)
        rw [List.filterMap_map, Except.ok.injEq]
        exact ⟨fun h => ⟨hlocal, h.symm⟩, fun h => h.2.symm⟩

/-- The Ada files of a folder are files below it. -/
theorem exists_leads_of_findAll
    (hvalid : ∀ x ∈ t.entries, ∀ n ∈ x.1, Utf8.isValid n = true) {folder : SourceFolder}
    {found : List Bytes} (h : folder.findAll t = .ok found)
    (hdir : t.find folder.dir = .ok (l, .directory)) {f : Bytes} (hf : f ∈ found) :
    ∃ front name data, t.Leads l (front ++ [name]) data ∧
      f = Bytes.joinWith [Path.slash] (front ++ [name]) := by
  obtain ⟨l', hdir', -, rfl⟩ := findAll_eq_ok_iff.mp h
  rw [hdir] at hdir'
  cases hdir'
  obtain ⟨⟨names, e⟩, hbelow, hada⟩ := List.mem_filterMap.mp hf
  simp only [adaPath?] at hada
  split at hada
  · next hcond =>
    cases hada
    obtain ⟨data, hleads⟩ := FileTree.exists_leads hvalid hbelow (by rintro rfl; simp at hcond)
    obtain ⟨front, name, rfl⟩ : ∃ front name, names = front ++ [name] :=
      ⟨_, _, (List.dropLast_concat_getLast hleads.ne_nil).symm⟩
    exact ⟨front, name, data, hleads, rfl⟩
  · cases hada

end SourceFolder

end AdaToC
