import AdaToC.Manifest
import AdaToC.Proofs.Source

/-!
# The manifest of a directory

The manifest of a project is looked for from a directory outwards, and the innermost one that is
found is loaded, whatever comes of that. The search is told here in two ways: by the names of the
directory, of which one is dropped at each step, and by the path of the directory, from which the
path of the directory around it is taken until that changes nothing. The two agree. A manifest that
is loaded knows its directory, and all paths it gives are absolute.
-/

namespace AdaToC

namespace Manifest

/-! ## The directory of the manifest -/

/-- A manifest that was loaded has its defaults filled in, and knows its directory. -/
theorem exists_withDefaults_of_load {t : FileTree} {basis : Basis} {path : Bytes} {m : Manifest}
    (h : load t basis path = .ok m) :
    ∃ raw document, raw.dir = t.absolute (Path.parent path) ∧ m = withDefaults raw document := by
  unfold load at h
  split at h
  · cases h
  · split at h
    · next hdata =>
      cases h
      unfold ofData? at hdata
      simp only [Option.bind_eq_bind, Option.bind_eq_some_iff, Option.some.injEq] at hdata
      obtain ⟨document, -, raw, -, rfl⟩ := hdata
      exact ⟨_, document, rfl, rfl⟩
    · cases h

theorem dir_of_load {t : FileTree} {basis : Basis} {path : Bytes} {m : Manifest}
    (h : load t basis path = .ok m) : m.dir = t.absolute (Path.parent path) := by
  obtain ⟨raw, document, hdir, rfl⟩ := exists_withDefaults_of_load h
  exact hdir

theorem header_ne_nil_of_load {t : FileTree} {basis : Basis} {path : Bytes} {m : Manifest}
    (h : load t basis path = .ok m) : m.output.header ≠ [] := by
  obtain ⟨raw, document, -, rfl⟩ := exists_withDefaults_of_load h
  simp only [withDefaults, Bytes.orElse]
  split
  · decide
  · next hempty => simpa using hempty

theorem exists_load_of_loadAt? {t : FileTree} {basis : Basis} {names : List Bytes} {m : Manifest}
    (h : loadAt? t basis names = some (.ok m)) : ∃ path, load t basis path = .ok m := by
  simp only [loadAt?] at h
  split at h
  · exact ⟨_, Option.some.inj h⟩
  · cases h

/-- A manifest that was found was loaded. -/
theorem exists_load_of_loadNearest {t : FileTree} {basis : Basis} {names : List Bytes}
    {m : Manifest} (h : loadNearest t basis names = .ok m) : ∃ path, load t basis path = .ok m := by
  induction names with
  | nil =>
    unfold loadNearest at h
    cases hload : loadAt? t basis [] with
    | none =>
      rw [hload] at h
      cases h
    | some loaded =>
      rw [hload] at h
      exact exists_load_of_loadAt? (hload.trans (congrArg some h))
  | cons name around ih =>
    unfold loadNearest at h
    split at h
    · next loaded hload => exact exists_load_of_loadAt? (hload.trans (congrArg some h))
    · exact ih h

/-! ## The nearest manifest -/

/-- The path of a manifest in the directory at a location. -/
def pathAt (l : Location) : Bytes :=
  Location.path (l ++ [fileName])

/-- Something with the name of a manifest stands in the directory at a location. -/
def StandsAt (t : FileTree) (l : Location) : Prop :=
  ∃ found, t.find (pathAt l) = .ok found

/-- The location is that of the directory itself or of one around it, and of all of these that have
a manifest it is the innermost. -/
structure Nearest (t : FileTree) (dir : Bytes) (l : Location) : Prop where
  around : l <+: t.locationOf dir
  stands : StandsAt t l
  innermost : ∀ l', l' <+: t.locationOf dir → StandsAt t l' → l' <+: l

variable {t : FileTree} {basis : Basis} {l : Location}

theorem join_fileName (hnames : ∀ n ∈ l, Path.IsName n) (hslash : ∀ n ∈ l, Path.slash ∉ n) :
    Path.join [Location.path l, fileName] = pathAt l := by
  have hlocation : l.follow fileName = l ++ [fileName] := by
    have hfile : ∀ n ∈ [fileName], Path.IsName n := by decide
    rw [Location.follow, Bytes.split_of_not_mem (by decide), Path.reduce_of_isName true hfile,
      List.reverse_reverse]
  rw [← Path.path_ofPath_join rfl, Path.ofPath_join_path hnames hslash, hlocation, pathAt]

theorem loadAt?_eq {names : List Bytes} (hnames : ∀ n ∈ names, Path.IsName n)
    (hslash : ∀ n ∈ names, Path.slash ∉ n) :
    (StandsAt t names.reverse →
        loadAt? t basis names = some (load t basis (pathAt names.reverse))) ∧
      (¬ StandsAt t names.reverse → loadAt? t basis names = none) := by
  have hjoin : Path.join [Location.path names.reverse, fileName] = pathAt names.reverse :=
    join_fileName (by simpa using hnames) (by simpa using hslash)
  unfold StandsAt
  simp only [loadAt?, hjoin]
  cases t.find (pathAt names.reverse) <;> simp

/-- The search goes outwards and ends at the innermost manifest. -/
theorem loadNearest_eq {names : List Bytes} (hnames : ∀ n ∈ names, Path.IsName n)
    (hslash : ∀ n ∈ names, Path.slash ∉ n) (haround : l <+: names.reverse) (hstands : StandsAt t l)
    (hinnermost : ∀ l', l' <+: names.reverse → StandsAt t l' → l' <+: l) :
    loadNearest t basis names = load t basis (pathAt l) := by
  induction names with
  | nil =>
    obtain rfl : l = [] := List.prefix_nil.mp haround
    rw [loadNearest, (loadAt?_eq hnames hslash).1 hstands]
    rfl
  | cons name outer ih =>
    obtain ⟨hsome, hnone⟩ := loadAt?_eq (t := t) hnames hslash
    rw [loadNearest]
    by_cases hhere : StandsAt t (name :: outer).reverse
    · have heq : (name :: outer).reverse = l :=
        (hinnermost _ List.prefix_rfl hhere).eq_of_length_le haround.length_le
      rw [hsome hhere, heq]
    · rw [hnone hhere]
      have houter : outer.reverse <+: (name :: outer).reverse := by simp
      -- nothing stands here, so the innermost manifest stands further out
      have haround' : l <+: outer.reverse := by
        rw [List.reverse_cons] at haround
        rcases List.prefix_concat_iff.mp haround with heq | hfront
        · rw [List.reverse_cons, ← heq] at hhere
          exact absurd hstands hhere
        · exact hfront
      exact ih (fun n hn => hnames n (List.mem_cons_of_mem _ hn))
        (fun n hn => hslash n (List.mem_cons_of_mem _ hn)) haround'
        fun l' hl' => hinnermost l' (hl'.trans houter)

theorem load_ne_notFound {path : Bytes} : load t basis path ≠ .error .notFound := by
  unfold load
  split
  · simp
  · split <;> simp

theorem Nearest.search_eq {dir : Bytes} (h : Nearest t dir l) :
    search t basis dir = load t basis (pathAt l) := by
  have hreverse := (t.locationOf dir).reverse_reverse
  refine loadNearest_eq ?_ ?_ (hreverse.symm ▸ h.around) h.stands (hreverse.symm ▸ h.innermost)
  · intro n hn
    exact FileTree.isName_of_mem_locationOf (List.mem_reverse.mp hn)
  · intro n hn
    exact FileTree.slash_not_mem_of_mem_locationOf (List.mem_reverse.mp hn)

/-- A manifest is found where there is an entry with its name. -/
theorem standsAt_iff (hnames : ∀ n ∈ l, Path.IsName n)
    (hslash : ∀ n ∈ l, Path.slash ∉ n) :
    StandsAt t l ↔ (t.lookup (l ++ [fileName])).isSome := by
  have hfile : Path.IsName fileName ∧ Path.slash ∉ fileName := by decide
  have hplace : Location.ofPath (pathAt l) = l ++ [fileName] := by
    refine Location.ofPath_path (fun n hn => ?_) fun n hn => ?_
    · rcases List.mem_append.mp hn with hn | hn
      · exact hnames n hn
      · exact List.mem_singleton.mp hn ▸ hfile.1
    · rcases List.mem_append.mp hn with hn | hn
      · exact hslash n hn
      · exact List.mem_singleton.mp hn ▸ hfile.2
  constructor
  · rintro ⟨⟨found, e⟩, hfind⟩
    obtain ⟨hfound, hlookup⟩ := FileTree.find_spec hfind
    rw [FileTree.locationOf_of_isAbsolute rfl, hplace] at hfound
    rw [← hfound, hlookup]
    rfl
  · intro hsome
    obtain ⟨e, hlookup⟩ := Option.isSome_iff_exists.mp hsome
    exact ⟨_, FileTree.find_path hlookup⟩

/-- Of the directories around a place, one of those that have a manifest is the innermost. -/
theorem exists_innermost_or_none (t : FileTree) (names : List Bytes) :
    (∃ l, l <+: names.reverse ∧ StandsAt t l ∧
        ∀ l', l' <+: names.reverse → StandsAt t l' → l' <+: l) ∨
      ∀ l, l <+: names.reverse → ¬ StandsAt t l := by
  induction names with
  | nil =>
    by_cases hroot : StandsAt t []
    · exact Or.inl ⟨[], List.prefix_rfl, hroot, fun l' hl' _ => hl'⟩
    · exact Or.inr fun l hl => List.prefix_nil.mp hl ▸ hroot
  | cons name outer ih =>
    rw [List.reverse_cons]
    by_cases hhere : StandsAt t (outer.reverse ++ [name])
    · exact Or.inl ⟨_, List.prefix_rfl, hhere, fun l' hl' _ => hl'⟩
    · -- nothing stands at the place itself, so all that stands is further out
      have houter : ∀ l, l <+: outer.reverse ++ [name] → StandsAt t l → l <+: outer.reverse := by
        intro l hl hstands
        rcases List.prefix_concat_iff.mp hl with rfl | hl
        · exact absurd hstands hhere
        · exact hl
      rcases ih with ⟨l, hl, hstands, hinnermost⟩ | hnone
      · exact Or.inl ⟨l, hl.trans (List.prefix_append _ _), hstands, fun l' hl' hstands' =>
          hinnermost l' (houter l' hl' hstands') hstands'⟩
      · exact Or.inr fun l hl hstands => hnone l (houter l hl hstands) hstands

theorem loadNearest_eq_notFound {names : List Bytes} (hnames : ∀ n ∈ names, Path.IsName n)
    (hslash : ∀ n ∈ names, Path.slash ∉ n) (hnone : ∀ l, l <+: names.reverse → ¬ StandsAt t l) :
    loadNearest t basis names = .error .notFound := by
  induction names with
  | nil =>
    rw [loadNearest, (loadAt?_eq hnames hslash).2 (hnone _ List.prefix_rfl)]
    rfl
  | cons name outer ih =>
    rw [loadNearest, (loadAt?_eq hnames hslash).2 (hnone _ List.prefix_rfl)]
    refine ih (fun n hn => hnames n (List.mem_cons_of_mem _ hn))
      (fun n hn => hslash n (List.mem_cons_of_mem _ hn)) fun l hl => hnone l (hl.trans ?_)
    simp

theorem dir_of_load_pathAt (hnames : ∀ n ∈ l, Path.IsName n) (hslash : ∀ n ∈ l, Path.slash ∉ n)
    {m : Manifest} (h : load t basis (pathAt l) = .ok m) : m.dir = Location.path l := by
  have hslashFile : ∀ n ∈ l ++ [fileName], Path.slash ∉ n := by
    intro n hn
    rcases List.mem_append.mp hn with hn | hn
    · exact hslash n hn
    · rw [List.mem_singleton.mp hn]
      decide
  rw [dir_of_load h, pathAt, Path.parent_path hnames hslashFile, t.absolute_eq_path,
    FileTree.locationOf_of_isAbsolute rfl, Location.ofPath_path hnames hslash]

/-! ## The search by paths -/

/-- The search from the path of a directory: a manifest in the directory is loaded; otherwise the
search goes on in the directory around it, if there is another one. -/
inductive Ascends (t : FileTree) (basis : Basis) :
    Bytes → Except ManifestError Manifest → Prop where
  | found {dir : Bytes} {entry : Location × Entry}
      (h : t.find (Path.join [dir, fileName]) = .ok entry) :
      Ascends t basis dir (load t basis (Path.join [dir, fileName]))
  | top {dir : Bytes} {reason : Reason} (h : t.find (Path.join [dir, fileName]) = .error reason)
      (htop : Path.parent dir = dir) : Ascends t basis dir (.error .notFound)
  | up {dir : Bytes} {reason : Reason} {result : Except ManifestError Manifest}
      (h : t.find (Path.join [dir, fileName]) = .error reason) (hup : Path.parent dir ≠ dir)
      (hrest : Ascends t basis (Path.parent dir) result) : Ascends t basis dir result

theorem Ascends.unique {dir : Bytes} {result result' : Except ManifestError Manifest}
    (h : Ascends t basis dir result) (h' : Ascends t basis dir result') : result = result' := by
  induction h with
  | found hfind =>
    cases h' with
    | found => rfl
    | top hfind' => cases hfind.symm.trans hfind'
    | up hfind' => cases hfind.symm.trans hfind'
  | top hfind htop =>
    cases h' with
    | found hfind' => cases hfind.symm.trans hfind'
    | top => rfl
    | up hfind' hup => exact absurd htop hup
  | up hfind hup hrest ih =>
    cases h' with
    | found hfind' => cases hfind.symm.trans hfind'
    | top hfind' htop => exact absurd htop hup
    | up hfind' hup' hrest' => exact ih hrest'

theorem loadAt?_of_ok {names : List Bytes} {entry : Location × Entry}
    (h : t.find (Path.join [Location.path names.reverse, fileName]) = .ok entry) :
    loadAt? t basis names =
      some (load t basis (Path.join [Location.path names.reverse, fileName])) := by
  simp only [loadAt?, h]

theorem loadAt?_of_error {names : List Bytes} {reason : Reason}
    (h : t.find (Path.join [Location.path names.reverse, fileName]) = .error reason) :
    loadAt? t basis names = none := by
  simp only [loadAt?, h]

/-- The search by paths comes to an end, and with the result of the search by names. Induction on
the names: the path of the directory around has one name less, and only the root is its own. -/
theorem ascends_loadNearest {names : List Bytes} (hnames : ∀ n ∈ names, Path.IsName n)
    (hslash : ∀ n ∈ names, Path.slash ∉ n) :
    Ascends t basis (Location.path names.reverse) (loadNearest t basis names) := by
  induction names with
  | nil =>
    rw [loadNearest]
    cases hfind : t.find (Path.join [Location.path (List.reverse []), fileName]) with
    | ok entry =>
      rw [loadAt?_of_ok hfind]
      exact .found hfind
    | error reason =>
      rw [loadAt?_of_error hfind]
      exact .top hfind (by decide)
  | cons name outer ih =>
    rw [loadNearest]
    cases hfind : t.find (Path.join [Location.path (name :: outer).reverse, fileName]) with
    | ok entry =>
      rw [loadAt?_of_ok hfind]
      exact .found hfind
    | error reason =>
      rw [loadAt?_of_error hfind]
      have houter := ih (fun n hn => hnames n (List.mem_cons_of_mem _ hn))
        fun n hn => hslash n (List.mem_cons_of_mem _ hn)
      have hmem : ∀ n ∈ outer.reverse ++ [name], n ∈ name :: outer := by simp [or_comm]
      have hparent := Path.parent_path
        (fun n hn => hnames n (hmem n (List.mem_append_left _ hn))) fun n hn => hslash n (hmem n hn)
      have hfurther := Location.path_ne_path_concat
        (fun n hn => hnames n (hmem n hn)) fun n hn => hslash n (hmem n hn)
      rw [List.reverse_cons] at hfind ⊢
      exact .up hfind (hparent ▸ hfurther) (hparent ▸ houter)

/-- The paths that a manifest in an absolute directory gives are absolute. -/
theorem isAbsolute_paths {m : Manifest} (h : Path.isAbsolute m.dir = true) :
    Path.isAbsolute m.sourceDir = true ∧ Path.isAbsolute m.headerPath = true ∧
      Path.isAbsolute m.implementationPath = true ∧ Path.isAbsolute m.referencePath = true :=
  ⟨Path.isAbsolute_resolve h _, Path.isAbsolute_join (Path.isAbsolute_resolve h _) _,
    Path.isAbsolute_join (Path.isAbsolute_resolve h _) _, Path.isAbsolute_resolve h _⟩

/-- The search from a directory outwards ends. If an entry with the name of a manifest stands in the
directory or in one around it, the result is what loading the innermost one gives, be it an error;
only otherwise no manifest is found. A manifest that is loaded has the directory it was found in,
so that its paths are absolute. -/
theorem search_eq_load_innermost (t : FileTree) (basis : Basis) (dir : Bytes) :
    (∀ result, Ascends t basis (t.absolute dir) result ↔ result = search t basis dir) ∧
      (search t basis dir = .error .notFound ↔
        ∀ l, l <+: t.locationOf dir → t.lookup (l ++ [fileName]) = none) ∧
      ((∀ l, l <+: t.locationOf dir → t.lookup (l ++ [fileName]) = none) ∨
        ∃ l, l <+: t.locationOf dir ∧ (t.lookup (l ++ [fileName])).isSome ∧
          (∀ l', l' <+: t.locationOf dir → (t.lookup (l' ++ [fileName])).isSome → l' <+: l) ∧
          search t basis dir = load t basis (pathAt l) ∧
          ∀ m, search t basis dir = .ok m →
            m.dir = Location.path l ∧
            Path.isAbsolute m.sourceDir = true ∧ Path.isAbsolute m.headerPath = true ∧
            Path.isAbsolute m.implementationPath = true ∧
            Path.isAbsolute m.referencePath = true) := by
  have hnames : ∀ n ∈ t.locationOf dir, Path.IsName n := fun n => FileTree.isName_of_mem_locationOf
  have hslash : ∀ n ∈ t.locationOf dir, Path.slash ∉ n :=
    fun n => FileTree.slash_not_mem_of_mem_locationOf
  have hnamesReverse : ∀ n ∈ (t.locationOf dir).reverse, Path.IsName n := by simpa using hnames
  have hslashReverse : ∀ n ∈ (t.locationOf dir).reverse, Path.slash ∉ n := by simpa using hslash
  have hreverse := (t.locationOf dir).reverse_reverse
  have hstands : ∀ l, l <+: t.locationOf dir →
      (StandsAt t l ↔ (t.lookup (l ++ [fileName])).isSome) := fun l hl =>
    standsAt_iff (fun n hn => hnames n (hl.subset hn)) fun n hn => hslash n (hl.subset hn)
  have hends : Ascends t basis (t.absolute dir) (search t basis dir) := by
    have hascends : Ascends t basis _ (loadNearest t basis (t.locationOf dir).reverse) :=
      ascends_loadNearest hnamesReverse hslashReverse
    rwa [hreverse, ← t.absolute_eq_path] at hascends
  refine ⟨fun result => ⟨fun h => h.unique hends, fun h => h ▸ hends⟩, ?_⟩
  have hchoice := exists_innermost_or_none t (t.locationOf dir).reverse
  rw [hreverse] at hchoice
  rcases hchoice with ⟨l, hl, hhere, hinnermost⟩ | hnone
  · have hsearch : search t basis dir = load t basis (pathAt l) :=
      Nearest.search_eq ⟨hl, hhere, hinnermost⟩
    have hsome := (hstands l hl).mp hhere
    refine ⟨⟨fun h => absurd (hsearch ▸ h) load_ne_notFound, fun h => ?_⟩,
      Or.inr ⟨l, hl, hsome, ?_, hsearch, ?_⟩⟩
    · rw [h l hl] at hsome
      cases hsome
    · exact fun l' hl' hsome' => hinnermost l' hl' ((hstands l' hl').mpr hsome')
    · intro m hm
      rw [hsearch] at hm
      have hdir : m.dir = Location.path l :=
        dir_of_load_pathAt (fun n hn => hnames n (hl.subset hn))
          (fun n hn => hslash n (hl.subset hn)) hm
      exact ⟨hdir, isAbsolute_paths (by rw [hdir]; rfl)⟩
  · have hlookup : ∀ l, l <+: t.locationOf dir → t.lookup (l ++ [fileName]) = none := by
      intro l hl
      have hnot := hnone l hl
      rwa [hstands l hl, Option.not_isSome_iff_eq_none] at hnot
    have hsearch : search t basis dir = .error .notFound :=
      loadNearest_eq_notFound hnamesReverse hslashReverse (hreverse.symm ▸ hnone)
    exact ⟨⟨fun _ => hlookup, fun _ => hsearch⟩, Or.inl hlookup⟩

/-- From a directory that does not exist, a directory with the name of a manifest is come to first.
It cannot be read, and the manifest further out is not asked for. -/
theorem search_eq_load_innermost_unreadable :
    let t : FileTree := { entries := [([bytes "p"], .directory),
      ([bytes "p", bytes "ada2c.toml"], .file []), ([bytes "p", bytes "q"], .directory),
      ([bytes "p", bytes "q", bytes "ada2c.toml"], .directory)] }
    let e : ManifestError := .unreadable (bytes "/p/q/ada2c.toml")
      ⟨.read, bytes "/p/q/ada2c.toml", .isDirectory⟩
    search t {} (bytes "/p/./q/none/x") = .error e ∧
      Ascends t {} (bytes "/p/q/none/x") (.error e) ∧
      search t {} (bytes "/p") = .ok (default (bytes "/p")) := by
  intro t e
  have hsearch : search t {} (bytes "/p/./q/none/x") = .error e := by rfl
  obtain ⟨hascends, -⟩ := search_eq_load_innermost t {} (bytes "/p/./q/none/x")
  exact ⟨hsearch, (hascends _).mpr hsearch.symm, by rfl⟩

end Manifest

end AdaToC
