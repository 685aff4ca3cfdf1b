import AdaToC.Proofs.Path

/-!
# What file operations find and change

A tree is looked at through `FileTree.lookup`. Following a path leads to the location that the path
names. Making directories turns places where nothing stood into directories. Writing a file changes
the place that its path names and no other; whatever comes of it, the path leads to the place if
anything was written.
-/

namespace AdaToC

namespace FileTree

variable {t t' : FileTree} {here l : Location} {elements : List Bytes} {p : Bytes} {e : Entry}

/-! ## What stands in a tree -/

theorem mem_of_lookup (hl : l ≠ []) (h : t.lookup l = some e) : (l, e) ∈ t.entries :=
  Listing.mem_of_entryAt hl h

theorem lookup_of_mem (h : (l, e) ∈ t.entries) : t.lookup l = some e :=
  Listing.entryAt_of_mem t.wellFormed.ordered (t.wellFormed.ne_nil _ h) h

theorem proper_of_lookup (h : t.lookup l = some e) : l.Proper :=
  fun n hn => t.wellFormed.proper _ (mem_of_lookup (List.ne_nil_of_mem hn) h) n hn

theorem up_not_mem (h : t.lookup l = some e) : bytes ".." ∉ l :=
  fun hmem => (proper_of_lookup h _ hmem).1.2.2 rfl

theorem lookup_dropLast (h : t.lookup l = some e) : t.lookup l.dropLast = some .directory := by
  by_cases hl : l = []
  · subst hl
    rfl
  · exact t.wellFormed.parent _ (mem_of_lookup hl h)

/-- Everything on the way to an entry is a directory. Induction on the length of its location. -/
theorem lookup_above {above : Location} (h : t.lookup l = some e) (habove : above <+: l)
    (hne : above ≠ l) : t.lookup above = some .directory := by
  induction hlength : l.length generalizing l e with
  | zero =>
    rw [List.length_eq_zero_iff.mp hlength] at habove hne
    exact absurd (List.prefix_nil.mp habove) hne
  | succ n ih =>
    have hl : l ≠ [] := by
      rintro rfl
      cases hlength
    have hparent := lookup_dropLast h
    have hfront : above <+: l.dropLast := by
      rw [← List.dropLast_concat_getLast hl] at habove hne
      exact (List.prefix_concat_iff.mp habove).resolve_left hne
    by_cases heq : above = l.dropLast
    · rwa [heq]
    · exact ih hparent hfront heq (by simp [hlength])

theorem lookup_start (t : FileTree) (p : Bytes) : t.lookup (t.start p) = some .directory := by
  unfold start
  split
  · rfl
  · exact t.current_directory

theorem proper_start (t : FileTree) (p : Bytes) : (t.start p).Proper :=
  proper_of_lookup (t.lookup_start p)

/-! ## Putting in an entry -/

theorem lookup_insert (h : t.entries.Admits l e) (l' : Location) :
    (t.insert l e).lookup l' = if l' = l then some e else t.lookup l' := by
  unfold insert
  rw [dif_pos h]
  exact Listing.entryAt_put h.ne_nil e l'

@[simp]
theorem current_insert (t : FileTree) (l : Location) (e : Entry) :
    (t.insert l e).current = t.current := by
  unfold insert
  split <;> rfl

@[simp]
theorem faults_insert (t : FileTree) (l : Location) (e : Entry) :
    (t.insert l e).faults = t.faults := by
  unfold insert
  split <;> rfl

/-- There is a place for a name that is missing in a directory. -/
theorem admits_concat {name : Bytes} (hdir : t.lookup l = some .directory)
    (hname : Path.IsName name ∧ Path.slash ∉ name ∧ 0 ∉ name)
    (hnone : t.lookup (l ++ [name]) = none) (e : Entry) : t.entries.Admits (l ++ [name]) e := by
  refine ⟨by simp, fun n hn => ?_, ?_, fun h => ?_⟩
  · rcases List.mem_append.mp hn with hn | hn
    · exact proper_of_lookup hdir n hn
    · rwa [List.mem_singleton.mp hn]
  · rw [List.dropLast_concat]
    exact hdir
  · rw [show t.entries.entryAt (l ++ [name]) = none from hnone] at h
    cases h

/-- There is a place for another file where a file stands. -/
theorem admits_file {old : Bytes} (h : t.lookup l = some (.file old)) (data : Bytes) :
    t.entries.Admits l (.file data) := by
  refine ⟨?_, proper_of_lookup h, lookup_dropLast h, fun hdirectory => ?_⟩
  · rintro rfl
    cases h
  · rw [show t.entries.entryAt l = some (.file old) from h] at hdirectory
    cases hdirectory

/-! ## Following a path -/

/-- Elements are only followed from a directory. -/
theorem lookup_of_locateFrom (hne : elements ≠ []) (h : t.locateFrom here elements = .ok l) :
    t.lookup here = some .directory := by
  obtain ⟨first, rest, rfl⟩ := List.exists_cons_of_ne_nil hne
  rw [locateFrom] at h
  split at h
  · assumption
  · cases h

section

variable (hdir : t.lookup here = some .directory)
include hdir

theorem locateFrom_silent {e : Bytes} (he : (e.isEmpty || e == bytes ".") = true)
    (rest : List Bytes) : t.locateFrom here (e :: rest) = t.locateFrom here rest := by
  simp only [locateFrom, hdir, if_pos he]

theorem locateFrom_up (rest : List Bytes) :
    t.locateFrom here (bytes ".." :: rest) = t.locateFrom here.dropLast rest := by
  simp only [locateFrom, hdir]
  rw [if_neg (by decide), if_pos (by decide)]

theorem locateFrom_name {name : Bytes} (hname : Path.IsName name) (rest : List Bytes) :
    t.locateFrom here (name :: rest) =
      if (t.lookup (here ++ [name])).isSome then t.locateFrom (here ++ [name]) rest
      else .error .noSuchEntry := by
  obtain ⟨hempty, hdot, hdots⟩ := hname
  cases h : t.lookup (here ++ [name]) <;> simp [locateFrom, hdir, hempty, hdot, hdots, h]

end

theorem locateFrom_append (t : FileTree) (here : Location) (front back : List Bytes) :
    t.locateFrom here (front ++ back) =
      (t.locateFrom here front).bind fun middle => t.locateFrom middle back := by
  induction front generalizing here with
  | nil => rfl
  | cons e rest ih =>
    simp only [List.cons_append, locateFrom]
    repeat' split
    all_goals first | exact ih _ | rfl

/-- Where a path leads is what it names. -/
theorem locateFrom_spec (hfound : t.locateFrom here elements = .ok l)
    (hhere : (t.lookup here).isSome) :
    l = Path.reduce true here.reverse elements ∧ (t.lookup l).isSome := by
  induction elements generalizing here with
  | nil =>
    cases hfound
    simp [Path.reduce, hhere]
  | cons e rest ih =>
    have hdir := lookup_of_locateFrom (List.cons_ne_nil _ _) hfound
    rw [Path.reduce_cons]
    -- an element does to the location what it does to the path
    rcases Path.element_cases e with hsilent | rfl | hname
    · rw [locateFrom_silent hdir hsilent] at hfound
      rw [Path.push_silent _ _ hsilent]
      exact ih hfound hhere
    · rw [locateFrom_up hdir] at hfound
      rw [Path.push_up _ (by simpa using up_not_mem hdir), List.tail_reverse]
      exact ih hfound (by rw [lookup_dropLast hdir]; rfl)
    · rw [locateFrom_name hdir hname] at hfound
      split at hfound
      · next hsome =>
        rw [Path.push_name _ _ hname]
        have hspec := ih hfound hsome
        rwa [List.reverse_append] at hspec
      · cases hfound

theorem locateFrom_start (hfound : t.locateFrom (t.start p) elements = .ok l) :
    l = Path.reduce true (t.start p).reverse elements ∧ (t.lookup l).isSome :=
  locateFrom_spec hfound (by rw [t.lookup_start]; rfl)

theorem locate_eq_ok_iff :
    t.locate p = .ok l ↔
      0 ∉ p ∧ p ≠ [] ∧ t.locateFrom (t.start p) (p.split Path.slash) = .ok l := by
  unfold locate
  by_cases hzero : (0 : UInt8) ∈ p
  · simp [hzero]
  · by_cases hempty : p = []
    · simp [hempty]
    · simp [hzero, hempty]

theorem locate_spec (hfound : t.locate p = .ok l) :
    l = t.locationOf p ∧ (t.lookup l).isSome := by
  obtain ⟨-, -, hfrom⟩ := locate_eq_ok_iff.mp hfound
  exact locateFrom_start hfrom

theorem find_eq_ok_iff : t.find p = .ok (l, e) ↔ t.locate p = .ok l ∧ t.lookup l = some e := by
  unfold find
  cases hlocate : t.locate p with
  | error reason => simp [bind, Except.bind]
  | ok found =>
    simp only [bind, Except.bind, Except.ok.injEq]
    cases hlookup : t.lookup found with
    | none => grind
    | some entry => grind

/-- What a path leads to stands where the path says. -/
theorem find_spec (h : t.find p = .ok (l, e)) : l = t.locationOf p ∧ t.lookup l = some e := by
  obtain ⟨hlocate, hlookup⟩ := find_eq_ok_iff.mp h
  exact ⟨(locate_spec hlocate).1, hlookup⟩

theorem readFile_eq_ok_iff {data : Bytes} (shown : Bytes) :
    t.readFile shown p = .ok data ↔ ∃ l, t.find p = .ok (l, .file data) := by
  unfold readFile
  split
  · next found h => simp [h]
  · next h => simp [h]
  · next h => simp [h]

/-- The last element of a path is looked at in a directory. -/
theorem exists_of_locateFrom_concat {front : List Bytes} {e : Bytes}
    (h : t.locateFrom here (front ++ [e]) = .ok l) :
    ∃ dir, t.locateFrom here front = .ok dir ∧ t.lookup dir = some .directory ∧
      t.locateFrom dir [e] = .ok l := by
  rw [locateFrom_append] at h
  cases hfront : t.locateFrom here front with
  | error reason =>
    rw [hfront] at h
    cases h
  | ok dir =>
    rw [hfront] at h
    have hlast : t.locateFrom dir [e] = .ok l := h
    exact ⟨dir, rfl, lookup_of_locateFrom (List.cons_ne_nil _ _) hlast, hlast⟩

/-! ## The location that a path names -/

theorem start_eq_nil (h : Path.isAbsolute p = true) : t.start p = [] :=
  if_pos h

theorem start_eq_of_isAbsolute_eq {q : Bytes} (h : Path.isAbsolute q = Path.isAbsolute p) :
    t.start q = t.start p := by
  unfold start
  rw [h]

theorem locationOf_of_isAbsolute (h : Path.isAbsolute p = true) :
    t.locationOf p = Location.ofPath p := by
  unfold locationOf
  rw [start_eq_nil h]
  rfl

/-- Shortening a path keeps the location that it names. -/
@[simp]
theorem locationOf_clean (t : FileTree) (p : Bytes) :
    t.locationOf (Path.clean p) = t.locationOf p := by
  unfold locationOf
  rw [start_eq_of_isAbsolute_eq (Path.isAbsolute_clean p), Location.follow_clean start_eq_nil]

/-- A name at the end of a path is the last one on the way to its location. -/
theorem locationOf_of_split {front : List Bytes} {last : Bytes}
    (h : p.split Path.slash = front ++ [last]) (hlast : Path.IsName last) :
    t.locationOf p = Path.reduce true (t.start p).reverse front ++ [last] := by
  unfold locationOf Location.follow
  rw [h, Path.reduce_append, Path.reduce_cons, Path.push_name _ _ hlast]
  simp [Path.reduce]

theorem isName_of_mem_locationOf {n : Bytes} (hn : n ∈ t.locationOf p) : Path.IsName n :=
  Location.isName_of_mem_follow (fun n hn => (t.proper_start p n hn).1) hn

theorem slash_not_mem_of_mem_locationOf {n : Bytes} (hn : n ∈ t.locationOf p) : Path.slash ∉ n :=
  Location.slash_not_mem_of_mem_follow (fun n hn => (t.proper_start p n hn).2.1) hn

/-- The absolute form of a path is the path of the location that it names. -/
theorem absolute_eq_path (t : FileTree) (p : Bytes) : t.absolute p = (t.locationOf p).path := by
  have hproper := proper_of_lookup t.current_directory
  unfold absolute
  split
  · next habsolute =>
    rw [locationOf_of_isAbsolute habsolute, ← Location.path_ofPath_clean habsolute,
      Location.ofPath_clean]
  · next hrelative =>
    rw [← Path.path_ofPath_join rfl, Path.ofPath_join_path (fun n hn => (hproper n hn).1)
      (fun n hn => (hproper n hn).2.1), locationOf, start, if_neg hrelative]

theorem locationOf_eq_reduce_elements (t : FileTree) (p : Bytes) :
    t.locationOf p = Path.reduce true (t.start p).reverse (Path.elements p) := by
  have hstart : Path.isAbsolute p = true → (t.start p).reverse = [] := fun h => by
    rw [start_eq_nil h, List.reverse_nil]
  unfold Path.elements
  rw [Path.reduce_reduce hstart (by simp)]
  rfl

theorem locationOf_parent {front : List Bytes}
    (h : (Path.splitLast p).1.split Path.slash = front ++ [[]]) :
    t.locationOf (Path.parent p) = Path.reduce true (t.start p).reverse front := by
  unfold locationOf
  rw [start_eq_of_isAbsolute_eq (Path.isAbsolute_parent p)]
  exact Path.follow_parent
    (fun habsolute => start_eq_nil (Path.isAbsolute_splitLast p ▸ habsolute)) h

theorem locationOf_eq_parent_concat (t : FileTree) (hlast : Path.IsName (Path.splitLast p).2) :
    t.locationOf p = t.locationOf (Path.parent p) ++ [(Path.splitLast p).2] := by
  obtain ⟨front, hsplit, hdir⟩ := Path.exists_split_splitLast p
  rw [locationOf_parent hdir]
  exact locationOf_of_split hsplit hlast

/-- A path that leads somewhere leads through the directory that holds it, and no other place on
the way is blocked. -/
theorem lookup_of_prefix_parent (h : t.locate p = .ok l) {above : Location}
    (habove : above <+: t.locationOf (Path.parent p)) : t.lookup above = some .directory := by
  obtain ⟨front, hsplit, hdirSplit⟩ := Path.exists_split_splitLast p
  obtain ⟨-, -, hfrom⟩ := locate_eq_ok_iff.mp h
  rw [hsplit] at hfrom
  obtain ⟨dir, hfront, hdir, -⟩ := exists_of_locateFrom_concat hfrom
  obtain ⟨hreduce, -⟩ := locateFrom_start hfront
  rw [locationOf_parent hdirSplit, ← hreduce] at habove
  by_cases heq : above = dir
  · rwa [heq]
  · exact lookup_above hdir habove heq

/-! ## Trees that grow -/

/-- What stands in `t` has something in its place in `t'`, and directories are directories still. -/
structure Grows (t t' : FileTree) : Prop where
  directory : ∀ l, t.lookup l = some .directory → t'.lookup l = some .directory
  isSome : ∀ l, (t.lookup l).isSome → (t'.lookup l).isSome
  current : t'.current = t.current
  faults : t'.faults = t.faults

theorem Grows.trans {t'' : FileTree} (h : Grows t t') (h' : Grows t' t'') : Grows t t'' :=
  ⟨fun l hl => h'.directory l (h.directory l hl), fun l hl => h'.isSome l (h.isSome l hl),
    h'.current.trans h.current, h'.faults.trans h.faults⟩

theorem Grows.start_eq (h : Grows t t') (p : Bytes) : t'.start p = t.start p := by
  unfold FileTree.start
  rw [h.current]

theorem Grows.locationOf_eq (h : Grows t t') : t'.locationOf = t.locationOf := by
  funext p
  unfold FileTree.locationOf
  rw [h.start_eq]

theorem Grows.locateFrom (h : Grows t t') (hfound : t.locateFrom here elements = .ok l) :
    t'.locateFrom here elements = .ok l := by
  induction elements generalizing here with
  | nil => exact hfound
  | cons e rest ih =>
    have hdir := lookup_of_locateFrom (List.cons_ne_nil _ _) hfound
    have hdir' := h.directory here hdir
    -- each element leads on as before
    rcases Path.element_cases e with hsilent | rfl | hname
    · rw [locateFrom_silent hdir hsilent] at hfound
      rw [locateFrom_silent hdir' hsilent]
      exact ih hfound
    · rw [locateFrom_up hdir] at hfound
      rw [locateFrom_up hdir']
      exact ih hfound
    · rw [locateFrom_name hdir hname] at hfound
      split at hfound
      · next hsome =>
        rw [locateFrom_name hdir' hname, if_pos (h.isSome _ hsome)]
        exact ih hfound
      · cases hfound

theorem Grows.find (h : Grows t t') {e' : Entry} (hfound : t.find p = .ok (l, e))
    (he' : t'.lookup l = some e') : t'.find p = .ok (l, e') := by
  obtain ⟨hlocate, -⟩ := find_eq_ok_iff.mp hfound
  obtain ⟨hzero, hempty, hfrom⟩ := locate_eq_ok_iff.mp hlocate
  refine find_eq_ok_iff.mpr ⟨locate_eq_ok_iff.mpr ⟨hzero, hempty, ?_⟩, he'⟩
  rw [h.start_eq]
  exact h.locateFrom hfrom

theorem grows_insert (h : t.entries.Admits l e) : Grows t (t.insert l e) := by
  refine ⟨fun l' hl' => ?_, fun l' hl' => ?_, current_insert t l e, faults_insert t l e⟩
  · rw [lookup_insert h]
    split
    · next heq =>
      subst heq
      rw [h.directory hl']
    · exact hl'
  · rw [lookup_insert h]
    split
    · rfl
    · exact hl'

/-! ## Making directories -/

/-- Where nothing stood on the way to a location there may be a directory now. -/
structure MakesWay (target : Location) (t t' : FileTree) : Prop where
  lookup : ∀ l, t'.lookup l = t.lookup l ∨
    t.lookup l = none ∧ t'.lookup l = some .directory ∧ l <+: target
  current : t'.current = t.current
  faults : t'.faults = t.faults

variable {target : Location}

theorem MakesWay.refl (target : Location) (t : FileTree) : MakesWay target t t :=
  ⟨fun _ => Or.inl rfl, rfl, rfl⟩

theorem MakesWay.lookup_of_isSome (h : MakesWay target t t') (hl : t.lookup l = some e) :
    t'.lookup l = some e := by
  rcases h.lookup l with hkept | ⟨hnone, -, -⟩
  · rw [hkept, hl]
  · rw [hnone] at hl
    cases hl

theorem MakesWay.grows (h : MakesWay target t t') : Grows t t' := by
  refine ⟨fun l hl => h.lookup_of_isSome hl, fun l hl => ?_, h.current, h.faults⟩
  obtain ⟨e, he⟩ := Option.isSome_iff_exists.mp hl
  rw [h.lookup_of_isSome he]
  rfl

theorem MakesWay.trans {t'' : FileTree} (h : MakesWay target t t') (h' : MakesWay target t' t'') :
    MakesWay target t t'' := by
  refine ⟨fun l => ?_, h'.current.trans h.current, h'.faults.trans h.faults⟩
  rcases h.lookup l with hkept | ⟨hnone, hmade, habove⟩
  · rw [← hkept]
    exact h'.lookup l
  · exact Or.inr ⟨hnone, h'.lookup_of_isSome hmade, habove⟩

theorem makesWay_insert (h : t.entries.Admits l .directory) (hnone : t.lookup l = none)
    (habove : l <+: target) : MakesWay target t (t.insert l .directory) := by
  refine ⟨fun l' => ?_, current_insert t l _, faults_insert t l _⟩
  rw [lookup_insert h]
  split
  · next heq => exact Or.inr ⟨heq ▸ hnone, rfl, heq ▸ habove⟩
  · exact Or.inl rfl

theorem makeDirectory_eq_ok (h : t.makeDirectory l = .ok t') :
    (∀ n ∈ l, 0 ∉ n) ∧ t' = t.insert l .directory := by
  unfold makeDirectory at h
  split at h
  · cases h
  · next hzero =>
    refine ⟨by simpa using hzero, ?_⟩
    split at h
    · cases h
    · exact (Except.ok.inj h).symm

/-- The way that elements lead from a directory: names that may be made, behind steps up. -/
structure Leading (t : FileTree) (here : Location) (elements : List Bytes) : Prop where
  directory : t.lookup here = some .directory
  straight : Path.Straight elements
  named : ∀ e ∈ elements, (e = bytes ".." ∨ Path.IsName e) ∧ Path.slash ∉ e

theorem leading_elements (t : FileTree) (p : Bytes) : t.Leading (t.start p) (Path.elements p) :=
  ⟨t.lookup_start p, Path.straight_elements p, fun _ he =>
    ⟨Path.eq_up_or_isName_of_mem_elements he, Path.slash_not_mem_of_mem_elements he⟩⟩

/-- Behind a name there are only names. -/
theorem Leading.reduce_cons {name : Bytes} {rest : List Bytes} (h : t.Leading here (name :: rest))
    (hname : Path.IsName name) :
    Path.reduce true here.reverse (name :: rest) = here ++ [name] ++ rest := by
  have hnames : ∀ n ∈ rest, Path.IsName n := by
    intro n hn
    refine ((h.named n (List.mem_cons_of_mem _ hn)).1).resolve_left fun hup => ?_
    exact hname.2.2 ((List.pairwise_cons.mp h.straight).1 n hn hup)
  rw [Path.reduce_cons, Path.push_name _ _ hname, Path.reduce_of_isName _ hnames]
  simp

theorem Leading.step_up {rest : List Bytes} (h : t.Leading here (bytes ".." :: rest)) :
    t.Leading here.dropLast rest ∧
      Path.reduce true here.reverse (bytes ".." :: rest) =
        Path.reduce true here.dropLast.reverse rest := by
  refine ⟨⟨lookup_dropLast h.directory, (List.pairwise_cons.mp h.straight).2,
    fun e he => h.named e (List.mem_cons_of_mem _ he)⟩, ?_⟩
  rw [Path.reduce_cons, Path.push_up _ (by simpa using up_not_mem h.directory), List.tail_reverse]

theorem Leading.step_name {name : Bytes} {rest : List Bytes} (h : t.Leading here (name :: rest))
    (hname : Path.IsName name) (hdir : t'.lookup (here ++ [name]) = some .directory) :
    t'.Leading (here ++ [name]) rest ∧
      Path.reduce true here.reverse (name :: rest) =
        Path.reduce true (here ++ [name]).reverse rest := by
  refine ⟨⟨hdir, (List.pairwise_cons.mp h.straight).2,
    fun e he => h.named e (List.mem_cons_of_mem _ he)⟩, ?_⟩
  rw [Path.reduce_cons, Path.push_name _ _ hname, List.reverse_append]
  rfl

/-- What making directories does, and what stands in the way if it fails. Induction on the
elements: each leads up or is a name, which may be there already. -/
theorem makeDirectoriesFrom_spec (h : t.Leading here elements) (shown : Bytes) :
    MakesWay (Path.reduce true here.reverse elements) t
        (t.makeDirectoriesFrom here shown elements).1 ∧
      ∀ e, (t.makeDirectoriesFrom here shown elements).2 = some e →
        e.operation = .makeDirectory ∧
          ∃ l, l <+: Path.reduce true here.reverse elements ∧
            (t.makeDirectoriesFrom here shown elements).1.lookup l ≠ some .directory := by
  induction elements generalizing t here shown with
  | nil => exact ⟨MakesWay.refl _ t, nofun⟩
  | cons e rest ih =>
    rw [makeDirectoriesFrom]
    rcases (h.named e List.mem_cons_self).1 with rfl | hname
    · obtain ⟨hrest, hreduce⟩ := h.step_up
      rw [if_pos (by decide), hreduce]
      exact ih hrest _
    · rw [if_neg (by simpa using hname.2.2)]
      have habove : here ++ [e] <+: Path.reduce true here.reverse (e :: rest) := by
        rw [h.reduce_cons hname]
        exact List.prefix_append _ _
      have hblocked : ∀ reason, t.lookup (here ++ [e]) ≠ some .directory →
          ∀ e', some (PathError.mk .makeDirectory (shown ++ e) reason) = some e' →
            e'.operation = .makeDirectory ∧
              ∃ l, l <+: Path.reduce true here.reverse (e :: rest) ∧
                t.lookup l ≠ some .directory := by
        rintro reason hne e' ⟨⟩
        exact ⟨rfl, _, habove, hne⟩
      dsimp only
      split
      · next hdir =>
        obtain ⟨hrest, hreduce⟩ := h.step_name hname hdir
        rw [hreduce]
        exact ih hrest _
      · next hfile => exact ⟨MakesWay.refl _ t, hblocked _ (by simp [hfile])⟩
      · next hnone =>
        split
        · next made hmake =>
          obtain ⟨hzero, rfl⟩ := makeDirectory_eq_ok hmake
          have hadmits := admits_concat h.directory
            ⟨hname, (h.named e List.mem_cons_self).2, hzero e (by simp)⟩ hnone .directory
          have hdir : (t.insert (here ++ [e]) .directory).lookup (here ++ [e]) =
              some .directory := by
            rw [lookup_insert hadmits, if_pos rfl]
          obtain ⟨hrest, hreduce⟩ := h.step_name hname hdir
          obtain ⟨hway, hfailed⟩ := ih hrest (shown ++ e ++ [Path.slash])
          rw [← hreduce] at hway hfailed
          exact ⟨(makesWay_insert hadmits hnone habove).trans hway, hfailed⟩
        · exact ⟨MakesWay.refl _ t, hblocked _ (by simp [hnone])⟩

theorem makeDirectories_spec (t : FileTree) (p : Bytes) :
    MakesWay (t.locationOf p) t (t.makeDirectories p).1 ∧
      ∀ e, (t.makeDirectories p).2 = some e → e.operation = .makeDirectory ∧
        ∃ l, l <+: t.locationOf p ∧ (t.makeDirectories p).1.lookup l ≠ some .directory := by
  rw [locationOf_eq_reduce_elements]
  exact makeDirectoriesFrom_spec (t.leading_elements p) _

/-! ## Writing a file -/

/-- In a directory only a name can lead nowhere. -/
theorem isName_of_locateFrom_ne (hdir : t.lookup here = some .directory) {e : Bytes}
    (h : ∀ l, t.locateFrom here [e] ≠ .ok l) : Path.IsName e := by
  rcases Path.element_cases e with hsilent | rfl | hname
  · exact absurd (locateFrom_silent hdir hsilent []) (h here)
  · exact absurd (locateFrom_up hdir []) (h here.dropLast)
  · exact hname

/-- A path whose last element is a name that is missing in its directory. -/
structure Missing (t : FileTree) (p : Bytes) (front : List Bytes) (dir : Location) : Prop where
  zero : 0 ∉ p
  split : p.split Path.slash = front ++ [(Path.splitLast p).2]
  front : t.locateFrom (t.start p) front = .ok dir
  lookup_dir : t.lookup dir = some .directory
  name : Path.IsName (Path.splitLast p).2
  lookup : t.lookup (dir ++ [(Path.splitLast p).2]) = none

/-- The text up to the last slash, or a dot, leads to a directory if the elements do. -/
theorem exists_front_of_locate_splitLast
    (hlocate : t.locate ((Path.splitLast p).1.orElse (bytes ".")) = .ok l) :
    ∃ front, p.split Path.slash = front ++ [(Path.splitLast p).2] ∧
      t.locateFrom (t.start p) front = .ok l := by
  obtain ⟨front, hsplit, hdirSplit⟩ := Path.exists_split_splitLast p
  obtain ⟨-, -, hfrom⟩ := locate_eq_ok_iff.mp hlocate
  refine ⟨front, hsplit, ?_⟩
  have hstart : t.start ((Path.splitLast p).1.orElse (bytes ".")) = t.start p := by
    apply start_eq_of_isAbsolute_eq
    rw [← Path.isAbsolute_splitLast p]
    cases (Path.splitLast p).1 <;> rfl
  rw [hstart] at hfrom
  -- what is followed ends in an element that says nothing
  obtain ⟨silent, hsilent, hparts⟩ : ∃ silent : Bytes,
      (silent.isEmpty || silent == bytes ".") = true ∧
        ((Path.splitLast p).1.orElse (bytes ".")).split Path.slash = front ++ [silent] := by
    cases hdir : (Path.splitLast p).1 with
    | nil =>
      rw [hdir] at hdirSplit
      obtain rfl : front = [] := by
        have hlength := congrArg List.length hdirSplit
        simpa [Bytes.split] using hlength
      exact ⟨bytes ".", by decide, rfl⟩
    | cons b rest =>
      rw [hdir] at hdirSplit
      exact ⟨[], rfl, hdirSplit⟩
  rw [hparts] at hfrom
  obtain ⟨dir, hfront, hdir, hlast⟩ := exists_of_locateFrom_concat hfrom
  rw [locateFrom_silent hdir hsilent] at hlast
  rw [hfront]
  exact hlast

theorem exists_missing (hmissing : t.find p = .error .noSuchEntry)
    (hlast : (Path.splitLast p).2 ≠ [])
    (hdir : t.find ((Path.splitLast p).1.orElse (bytes ".")) = .ok (l, .directory)) :
    ∃ front, Missing t p front l := by
  obtain ⟨hlocate, hlookup⟩ := find_eq_ok_iff.mp hdir
  obtain ⟨front, hsplit, hfront⟩ := exists_front_of_locate_splitLast hlocate
  have hzero : (0 : UInt8) ∉ p := by
    intro hzero
    have hlocate : t.locate p = .error .invalidArgument := by simp [locate, hzero]
    simp [find, hlocate, bind, Except.bind] at hmissing
  have hempty : p ≠ [] := by
    rintro rfl
    exact hlast rfl
  have hnowhere : ∀ found, t.locateFrom l [(Path.splitLast p).2] ≠ .ok found := by
    intro found hfound
    have hlocate : t.locate p = .ok found := by
      refine locate_eq_ok_iff.mpr ⟨hzero, hempty, ?_⟩
      rw [hsplit, locateFrom_append, hfront]
      exact hfound
    obtain ⟨e, he⟩ := Option.isSome_iff_exists.mp (locate_spec hlocate).2
    rw [find_eq_ok_iff.mpr ⟨hlocate, he⟩] at hmissing
    cases hmissing
  have hname := isName_of_locateFrom_ne hlookup hnowhere
  refine ⟨front, hzero, hsplit, hfront, hlookup, hname, ?_⟩
  rw [← Option.not_isSome_iff_eq_none]
  intro hsome
  apply hnowhere (l ++ [(Path.splitLast p).2])
  rw [locateFrom_name hlookup hname, if_pos hsome]
  rfl

section Missing

variable {front : List Bytes}

theorem Missing.locationOf_eq (h : Missing t p front l) :
    t.locationOf p = l ++ [(Path.splitLast p).2] := by
  obtain ⟨rfl, -⟩ := locateFrom_start h.front
  exact locationOf_of_split h.split h.name

theorem Missing.admits (h : Missing t p front l) (e : Entry) :
    t.entries.Admits (t.locationOf p) e := by
  have hmem : (Path.splitLast p).2 ∈ p.split Path.slash := by
    rw [h.split]
    simp
  obtain ⟨hslash, hsub⟩ := Bytes.mem_split hmem
  rw [h.locationOf_eq]
  exact admits_concat h.lookup_dir ⟨h.name, hslash, fun hzero => h.zero (hsub 0 hzero)⟩ h.lookup e

/-- The path leads to the missing place as soon as something stands there. -/
theorem Missing.locate (h : Missing t p front l) (hgrows : Grows t t')
    (hsome : (t'.lookup (t.locationOf p)).isSome) : t'.locate p = .ok (t.locationOf p) := by
  have hempty : p ≠ [] := by
    rintro rfl
    exact h.name.1 rfl
  refine locate_eq_ok_iff.mpr ⟨h.zero, hempty, ?_⟩
  rw [h.locationOf_eq] at hsome ⊢
  rw [hgrows.start_eq, h.split, locateFrom_append, hgrows.locateFrom h.front]
  show t'.locateFrom l [(Path.splitLast p).2] = _
  rw [locateFrom_name (hgrows.directory l h.lookup_dir) h.name, if_pos hsome]
  rfl

end Missing

/-- A file can be put where a path says, and the path then leads to it. -/
structure Writable (t : FileTree) (p : Bytes) : Prop where
  admits : ∀ data, t.entries.Admits (t.locationOf p) (.file data)
  found : ∀ data, (t.insert (t.locationOf p) (.file data)).find p =
    .ok (t.locationOf p, .file data)

theorem writable_of_find {old : Bytes} (h : t.find p = .ok (l, .file old)) : t.Writable p := by
  obtain ⟨rfl, hlookup⟩ := find_spec h
  have hadmits := admits_file hlookup
  refine ⟨hadmits, fun data => (grows_insert (hadmits data)).find h ?_⟩
  rw [lookup_insert (hadmits data), if_pos rfl]

theorem Missing.writable {front : List Bytes} (h : Missing t p front l) : t.Writable p := by
  refine ⟨fun data => h.admits _, fun data => ?_⟩
  have hlookup := lookup_insert (h.admits (.file data)) (t.locationOf p)
  rw [if_pos rfl] at hlookup
  refine find_eq_ok_iff.mpr ⟨h.locate (grows_insert (h.admits _)) ?_, hlookup⟩
  rw [hlookup]
  rfl

/-- A file is stored where its path says, or it cannot be opened and the tree stays. -/
theorem writeFile_cases (t : FileTree) (p data : Bytes) :
    t.Writable p ∧ t.writeFile p data = t.store (t.locationOf p) p data ∨
      (∃ reason, t.writeFile p data = (t, some ⟨.openFile, p, reason⟩)) ∧
        ∀ l old, t.find p ≠ .ok (l, .file old) := by
  simp only [writeFile]
  cases hfind : t.find p with
  | ok found =>
    obtain ⟨l, e⟩ := found
    cases e with
    | file old =>
      refine Or.inl ⟨writable_of_find hfind, ?_⟩
      rw [(find_spec hfind).1]
    | directory => exact Or.inr ⟨⟨_, rfl⟩, by simp⟩
  | error reason =>
    cases reason with
    | noSuchEntry =>
      dsimp only
      split
      · exact Or.inr ⟨⟨_, rfl⟩, by simp⟩
      · next hlast =>
        split
        · next l hdir =>
          obtain ⟨front, hp⟩ := exists_missing hfind (by simpa using hlast) hdir
          refine Or.inl ⟨hp.writable, ?_⟩
          rw [hp.locationOf_eq]
        · exact Or.inr ⟨⟨_, rfl⟩, by simp⟩
        · exact Or.inr ⟨⟨_, rfl⟩, by simp⟩
    | _ => exact Or.inr ⟨⟨_, rfl⟩, by simp⟩

end FileTree

end AdaToC
