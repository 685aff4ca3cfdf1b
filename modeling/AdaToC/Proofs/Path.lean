import AdaToC.FileTree
import AdaToC.Proofs.Text.Pieces

/-!
# Paths and the locations they name

A path is shortened element by element: `Path.push` says what one element does to the elements kept
so far, and `Path.reduce` is the fold of it. Shortening keeps the location that a path names, so a
path that has been shortened is the path of its own location, and two of them name the same location
only if they are the same text.
-/

namespace AdaToC

namespace Path

/-! ## Shortening, element by element -/

/-- The elements kept so far, in reverse order, when one more element has been looked at. -/
def push (absolute : Bool) (kept : List Bytes) (e : Bytes) : List Bytes :=
  if e.isEmpty || e == bytes "." then kept
  else if e == bytes ".." then
    match kept with
    | last :: earlier => if last == bytes ".." then e :: kept else earlier
    | [] => if absolute then [] else [e]
  else e :: kept

theorem push_silent (absolute : Bool) (kept : List Bytes) {e : Bytes}
    (he : (e.isEmpty || e == bytes ".") = true) : push absolute kept e = kept := by
  unfold push
  rw [if_pos he]

theorem push_name (absolute : Bool) (kept : List Bytes) {e : Bytes} (he : IsName e) :
    push absolute kept e = e :: kept := by
  unfold push
  obtain ⟨hempty, hdot, hdots⟩ := he
  simp [hempty, hdot, hdots]

theorem push_up (kept : List Bytes) (h : bytes ".." ∉ kept) :
    push true kept (bytes "..") = kept.tail := by
  have hsilent : ((bytes "..").isEmpty || bytes ".." == bytes ".") = false := by decide
  unfold push
  rw [hsilent]
  cases kept with
  | nil => rfl
  | cons last earlier =>
    have hlast : (last == bytes "..") = false := by
      rw [beq_eq_false_iff_ne]
      rintro rfl
      exact h List.mem_cons_self
    simp [hlast]

theorem push_up_up (absolute : Bool) (earlier : List Bytes) :
    push absolute (bytes ".." :: earlier) (bytes "..") = bytes ".." :: bytes ".." :: earlier := by
  unfold push
  rw [if_neg (by decide), if_pos (by decide)]
  simp

/-- A name and the element that leads up behind it cancel. -/
theorem push_up_name (absolute : Bool) {name : Bytes} (hname : IsName name) (earlier : List Bytes) :
    push absolute (name :: earlier) (bytes "..") = earlier := by
  unfold push
  rw [if_neg (by decide), if_pos (by decide)]
  simp [hname.2.2]

/-- An element is silent, leads up, or is a name. -/
theorem element_cases (e : Bytes) :
    (e.isEmpty || e == bytes ".") = true ∨ e = bytes ".." ∨ IsName e := by
  by_cases hempty : e = []
  · exact Or.inl (by simp [hempty])
  by_cases hdot : e = bytes "."
  · exact Or.inl (by simp [hdot])
  by_cases hdots : e = bytes ".."
  · exact Or.inr (Or.inl hdots)
  · exact Or.inr (Or.inr ⟨hempty, hdot, hdots⟩)

theorem eq_up_or_isName {e : Bytes} (hloud : (e.isEmpty || e == bytes ".") = false) :
    e = bytes ".." ∨ IsName e :=
  (element_cases e).resolve_left (by simp [hloud])

theorem reduce_eq_foldl (absolute : Bool) (kept elements : List Bytes) :
    reduce absolute kept elements = (elements.foldl (push absolute) kept).reverse := by
  induction elements generalizing kept with
  | nil => simp [reduce]
  | cons e rest ih =>
    rw [List.foldl_cons, ← ih, reduce.eq_def]
    unfold push
    cases kept <;> grind

theorem reduce_cons (absolute : Bool) (kept : List Bytes) (e : Bytes) (rest : List Bytes) :
    reduce absolute kept (e :: rest) = reduce absolute (push absolute kept e) rest := by
  simp only [reduce_eq_foldl, List.foldl_cons]

theorem reduce_append (absolute : Bool) (kept front back : List Bytes) :
    reduce absolute kept (front ++ back) =
      reduce absolute (reduce absolute kept front).reverse back := by
  simp only [reduce_eq_foldl, List.foldl_append, List.reverse_reverse]

theorem mem_push {absolute : Bool} {kept : List Bytes} {e x : Bytes}
    (hx : x ∈ push absolute kept e) :
    x ∈ kept ∨ x = e ∧ (e.isEmpty || e == bytes ".") = false := by
  unfold push at hx
  grind

theorem loud_of_mem_push {absolute : Bool} {kept : List Bytes} {e : Bytes}
    (hkept : ∀ x ∈ kept, (x.isEmpty || x == bytes ".") = false) :
    ∀ x ∈ push absolute kept e, (x.isEmpty || x == bytes ".") = false := by
  intro x hx
  rcases mem_push hx with hx | ⟨rfl, hloud⟩
  · exact hkept x hx
  · exact hloud

theorem mem_reduce {absolute : Bool} {kept elements : List Bytes} {x : Bytes}
    (hx : x ∈ reduce absolute kept elements) :
    x ∈ kept ∨ x ∈ elements ∧ (x.isEmpty || x == bytes ".") = false := by
  induction elements generalizing kept with
  | nil => exact Or.inl (by simpa [reduce] using hx)
  | cons e rest ih =>
    rw [reduce_cons] at hx
    rcases ih hx with hpush | ⟨hmem, hloud⟩
    · rcases mem_push hpush with hkept | ⟨rfl, hloud⟩
      · exact Or.inl hkept
      · exact Or.inr ⟨List.mem_cons_self, hloud⟩
    · exact Or.inr ⟨List.mem_cons_of_mem _ hmem, hloud⟩

/-! ## Shortening keeps the location -/

/-- Looking at one more element of a path that has been shortened, and then following the path, is
following the path and then the element. An absolute path is followed from the root. -/
theorem foldl_reverse_push {absolute : Bool} {start kept : List Bytes}
    (hstart : absolute = true → start = [])
    (hkept : ∀ x ∈ kept, (x.isEmpty || x == bytes ".") = false) (e : Bytes) :
    (push absolute kept e).reverse.foldl (push true) start =
      push true (kept.reverse.foldl (push true) start) e := by
  rcases element_cases e with hsilent | rfl | hname
  · rw [push_silent absolute kept hsilent, push_silent true _ hsilent]
  · cases kept with
    | nil =>
      cases absolute with
      | false => rfl
      | true =>
        rw [hstart rfl]
        decide
    | cons last earlier =>
      rcases eq_up_or_isName (hkept last List.mem_cons_self) with rfl | hname
      · rw [push_up_up, List.reverse_cons, List.foldl_append]
        rfl
      · rw [push_up_name _ hname, List.reverse_cons, List.foldl_append, List.foldl_cons,
          List.foldl_nil, push_name true _ hname, push_up_name _ hname]
  · rw [push_name absolute kept hname, List.reverse_cons, List.foldl_append]
    rfl

theorem reduce_reduce {absolute : Bool} {start kept : List Bytes}
    (hstart : absolute = true → start = [])
    (hkept : ∀ x ∈ kept, (x.isEmpty || x == bytes ".") = false) (elements : List Bytes) :
    reduce true start (reduce absolute kept elements) =
      reduce true start (kept.reverse ++ elements) := by
  induction elements generalizing kept with
  | nil => simp [reduce]
  | cons e rest ih =>
    have hstep := foldl_reverse_push hstart hkept e
    rw [reduce_cons, ih (loud_of_mem_push hkept)]
    simp only [reduce_eq_foldl, List.foldl_append, List.foldl_cons]
    rw [hstep]

/-- The elements of a path whose elements are joined again, up to elements that say nothing. -/
theorem reduce_split_joinWith (start : List Bytes) {names : List Bytes}
    (h : ∀ n ∈ names, slash ∉ n) :
    reduce true start ((Bytes.joinWith [slash] names).split slash) = reduce true start names := by
  cases names with
  | nil => rfl
  | cons name names =>
    rw [Bytes.split_joinWith (List.not_mem_nil) h]
    simp

theorem reduce_of_isName (absolute : Bool) {names : List Bytes} (h : ∀ n ∈ names, IsName n)
    (kept : List Bytes) : reduce absolute kept names = kept.reverse ++ names := by
  induction names generalizing kept with
  | nil => simp [reduce]
  | cons name names ih =>
    rw [reduce_cons, push_name _ _ (h name List.mem_cons_self),
      ih (fun n hn => h n (List.mem_cons_of_mem _ hn))]
    simp

/-- From the root on, only names are kept. -/
theorem isName_of_mem_reduce {kept elements : List Bytes} (hkept : ∀ n ∈ kept, IsName n) {n : Bytes}
    (hn : n ∈ reduce true kept elements) : IsName n := by
  induction elements generalizing kept with
  | nil => exact hkept n (by simpa [reduce] using hn)
  | cons e rest ih =>
    rw [reduce_cons] at hn
    refine ih ?_ hn
    rcases element_cases e with hsilent | rfl | hname
    · rwa [push_silent _ _ hsilent]
    · rw [push_up _ fun hup => (hkept _ hup).2.2 rfl]
      exact fun x hx => hkept x (List.mem_of_mem_tail hx)
    · rw [push_name _ _ hname]
      intro x hx
      rcases List.mem_cons.mp hx with rfl | hx
      · exact hname
      · exact hkept x hx

theorem slash_not_mem_of_mem_elements {p e : Bytes} (he : e ∈ elements p) : slash ∉ e := by
  rcases mem_reduce he with hnil | ⟨hmem, -⟩
  · cases hnil
  · exact (Bytes.mem_split hmem).1

/-- Elements that lead up stand in front of all names. -/
def Straight (elements : List Bytes) : Prop :=
  elements.Pairwise fun a b => b = bytes ".." → a = bytes ".."

theorem straight_reverse_push {absolute : Bool} {kept : List Bytes} (h : Straight kept.reverse)
    (e : Bytes) : Straight (push absolute kept e).reverse := by
  unfold Straight at *
  rw [List.pairwise_reverse] at *
  rcases element_cases e with hsilent | rfl | hname
  · rwa [push_silent _ _ hsilent]
  · cases kept with
    | nil =>
      unfold push
      rw [if_neg (by decide), if_pos (by decide)]
      cases absolute <;> simp
    | cons last earlier =>
      obtain ⟨hlast, hearlier⟩ := List.pairwise_cons.mp h
      by_cases hup : last = bytes ".."
      · subst hup
        rw [push_up_up]
        refine List.pairwise_cons.mpr ⟨fun a ha _ => ?_, h⟩
        rcases List.mem_cons.mp ha with rfl | ha
        · rfl
        · exact hlast a ha rfl
      · unfold push
        rw [if_neg (by decide), if_pos (by decide)]
        simpa [hup] using hearlier
  · rw [push_name _ _ hname]
    exact List.pairwise_cons.mpr ⟨fun a _ hup => absurd hup hname.2.2, h⟩

theorem straight_reduce {absolute : Bool} {kept : List Bytes} (h : Straight kept.reverse)
    (elements : List Bytes) : Straight (reduce absolute kept elements) := by
  induction elements generalizing kept with
  | nil => exact h
  | cons e rest ih =>
    rw [reduce_cons]
    exact ih (straight_reverse_push h e)

theorem straight_elements (p : Bytes) : Straight (elements p) :=
  straight_reduce (by simp [Straight]) _

theorem eq_up_or_isName_of_mem_elements {p e : Bytes} (he : e ∈ elements p) :
    e = bytes ".." ∨ IsName e := by
  rcases mem_reduce he with hnil | ⟨-, hloud⟩
  · cases hnil
  · exact eq_up_or_isName hloud

/-- A shortened path is its elements, behind a slash if it is absolute, and a dot if there are
none. -/
theorem clean_cases (p : Bytes) :
    clean p = slash :: Bytes.joinWith [slash] (elements p) ∨
      Bytes.joinWith [slash] (elements p) = [] ∧ clean p = bytes "." ∨
      Bytes.joinWith [slash] (elements p) ≠ [] ∧ clean p = Bytes.joinWith [slash] (elements p) := by
  unfold clean elements Bytes.orElse
  simp only
  split
  · exact Or.inl rfl
  · split
    · next hempty => exact Or.inr (Or.inl ⟨List.isEmpty_iff.mp hempty, rfl⟩)
    · next hempty => exact Or.inr (Or.inr ⟨fun h => hempty (List.isEmpty_iff.mpr h), rfl⟩)

end Path

namespace Location

variable {start : Location} {p : Bytes}

theorem follow_slash_cons (start : Location) (p : Bytes) :
    follow start (Path.slash :: p) = follow start p := by
  unfold follow
  rw [Bytes.split_cons, if_pos rfl]
  simp [Path.reduce]

/-- Shortening a path keeps the location that it names. -/
theorem follow_clean (hstart : Path.isAbsolute p = true → start = []) :
    follow start (Path.clean p) = follow start p := by
  have hreduce : follow start (Bytes.joinWith [Path.slash] (Path.elements p)) = follow start p := by
    have hroot : Path.isAbsolute p = true → start.reverse = [] := by simpa using hstart
    unfold follow
    rw [Path.reduce_split_joinWith _ fun n => Path.slash_not_mem_of_mem_elements, Path.elements,
      Path.reduce_reduce hroot (by simp)]
    rfl
  rcases Path.clean_cases p with h | ⟨hnone, h⟩ | ⟨-, h⟩
  · rw [h, follow_slash_cons, hreduce]
  · -- a path that is shortened to nothing is written with a dot
    rw [h, ← hreduce, hnone]
    rfl
  · rw [h, hreduce]

theorem ofPath_clean (p : Bytes) : ofPath (Path.clean p) = ofPath p :=
  follow_clean fun _ => rfl

theorem isName_of_mem_follow (hstart : ∀ n ∈ start, Path.IsName n) {n : Bytes}
    (hn : n ∈ start.follow p) : Path.IsName n :=
  Path.isName_of_mem_reduce (by simpa using hstart) hn

theorem slash_not_mem_of_mem_follow (hstart : ∀ n ∈ start, Path.slash ∉ n) {n : Bytes}
    (hn : n ∈ start.follow p) : Path.slash ∉ n := by
  rcases Path.mem_reduce hn with hmem | ⟨hmem, -⟩
  · exact hstart n (List.mem_reverse.mp hmem)
  · exact (Bytes.mem_split hmem).1

/-- The path of a location names it. -/
theorem ofPath_path {l : Location} (hnames : ∀ n ∈ l, Path.IsName n)
    (hslash : ∀ n ∈ l, Path.slash ∉ n) : ofPath (path l) = l := by
  rw [path, ofPath, follow_slash_cons, follow, Path.reduce_split_joinWith _ hslash,
    Path.reduce_of_isName true hnames]
  rfl

theorem path_ne_path_concat {l : Location} {name : Bytes}
    (hnames : ∀ n ∈ l ++ [name], Path.IsName n) (hslash : ∀ n ∈ l ++ [name], Path.slash ∉ n) :
    path l ≠ path (l ++ [name]) := by
  intro hsame
  have hplaces := congrArg ofPath hsame
  rw [ofPath_path hnames hslash, ofPath_path (fun n hn => hnames n (List.mem_append_left _ hn))
    fun n hn => hslash n (List.mem_append_left _ hn)] at hplaces
  exact absurd (congrArg List.length hplaces) (by simp)

/-- A shortened absolute path is the path of the location that it names. -/
theorem path_ofPath_clean (h : Path.isAbsolute p = true) :
    path (ofPath (Path.clean p)) = Path.clean p := by
  rw [ofPath_clean]
  unfold Path.clean Path.elements
  rw [if_pos h, h]
  rfl

end Location

namespace Path

/-! ## The directory of a path -/

theorem takeWhile_reverse_of_not_mem {name : Bytes} (h : slash ∉ name) (back : Bytes) :
    (name.reverse ++ back).takeWhile (· != slash) =
      name.reverse ++ back.takeWhile (· != slash) :=
  List.takeWhile_append_of_pos (Bytes.bne_of_not_mem (by simpa using h))

theorem splitLast_of_not_mem {p : Bytes} (h : slash ∉ p) : splitLast p = ([], p) := by
  have htake := takeWhile_reverse_of_not_mem h []
  simp only [List.append_nil, List.takeWhile_nil] at htake
  simp [splitLast, htake]

theorem splitLast_append_cons (dir : Bytes) {name : Bytes} (h : slash ∉ name) :
    splitLast (dir ++ slash :: name) = (dir ++ [slash], name) := by
  have hreverse : (dir ++ slash :: name).reverse = name.reverse ++ slash :: dir.reverse := by simp
  have htake : (dir ++ slash :: name).reverse.takeWhile (· != slash) = name.reverse := by
    rw [hreverse, takeWhile_reverse_of_not_mem h, List.takeWhile_cons_of_neg (by simp),
      List.append_nil]
  have hlength : (dir ++ slash :: name).length - name.length = (dir ++ [slash]).length := by
    simp only [List.length_append, List.length_cons, List.length_nil]
    omega
  have happend : dir ++ slash :: name = (dir ++ [slash]) ++ name := by simp
  simp only [splitLast, htake, List.reverse_reverse, hlength]
  rw [happend, List.take_left]

/-- The elements of a path and of what stands up to its last slash. -/
theorem exists_split_splitLast (p : Bytes) :
    ∃ front, p.split slash = front ++ [(splitLast p).2] ∧
      (splitLast p).1.split slash = front ++ [[]] := by
  by_cases h : slash ∈ p
  · obtain ⟨dir, name, rfl, hname⟩ := Bytes.exists_last h
    rw [splitLast_append_cons _ hname, Bytes.split_append, Bytes.split_append,
      Bytes.split_of_not_mem hname]
    exact ⟨_, rfl, rfl⟩
  · rw [splitLast_of_not_mem h, Bytes.split_of_not_mem h]
    exact ⟨[], rfl, rfl⟩

theorem follow_parent {start : Location} {p : Bytes} {front : List Bytes}
    (hstart : isAbsolute (splitLast p).1 = true → start = [])
    (h : (splitLast p).1.split slash = front ++ [[]]) :
    start.follow (parent p) = reduce true start.reverse front := by
  show start.follow (clean (splitLast p).1) = _
  rw [Location.follow_clean hstart]
  unfold Location.follow
  rw [h, reduce_append]
  simp [reduce]

/-! ## Absolute paths -/

theorem isAbsolute_append {p : Bytes} (hp : p ≠ []) (more : Bytes) :
    isAbsolute (p ++ more) = isAbsolute p := by
  obtain ⟨b, rest, rfl⟩ := List.exists_cons_of_ne_nil hp
  rfl

theorem isAbsolute_joinWith_cons {e : Bytes} (hne : e ≠ []) (hslash : slash ∉ e)
    (rest : List Bytes) : isAbsolute (Bytes.joinWith [slash] (e :: rest)) = false := by
  obtain ⟨b, more, rfl⟩ := List.exists_cons_of_ne_nil hne
  have hb : b ≠ slash := fun heq => hslash (heq ▸ List.mem_cons_self)
  cases rest <;> simp [Bytes.joinWith, isAbsolute, hb]

@[simp]
theorem isAbsolute_clean (p : Bytes) : isAbsolute (clean p) = isAbsolute p := by
  unfold clean
  cases h : isAbsolute p with
  | true => rfl
  | false =>
    simp only [Bool.false_eq_true, if_false, Bytes.orElse]
    split
    · rfl
    · next hempty =>
      cases helements : elements p with
      | nil => simp [helements, Bytes.joinWith] at hempty
      | cons e rest =>
        have he : e ∈ elements p := by simp [helements]
        refine isAbsolute_joinWith_cons ?_ (slash_not_mem_of_mem_elements he) rest
        rcases mem_reduce he with hnil | ⟨-, hloud⟩
        · cases hnil
        · rintro rfl
          cases hloud

@[simp]
theorem isAbsolute_splitLast (p : Bytes) : isAbsolute (splitLast p).1 = isAbsolute p := by
  by_cases hslash : slash ∈ p
  · obtain ⟨dir, name, rfl, hname⟩ := Bytes.exists_last hslash
    rw [splitLast_append_cons dir hname]
    cases dir <;> rfl
  · rw [splitLast_of_not_mem hslash]
    cases p with
    | nil => rfl
    | cons b rest =>
      have hb : b ≠ slash := fun heq => hslash (heq ▸ List.mem_cons_self)
      simp [isAbsolute, hb]

@[simp]
theorem isAbsolute_parent (p : Bytes) : isAbsolute (parent p) = isAbsolute p := by
  rw [parent, isAbsolute_clean, isAbsolute_splitLast]

theorem join_eq_clean {dir p : Bytes} (hdir : dir ≠ []) (hp : p ≠ []) :
    join [dir, p] = clean (dir ++ slash :: p) := by
  simp [join, hdir, hp, Bytes.joinWith]

theorem exists_clean_eq_join {dir : Bytes} (h : isAbsolute dir = true) (p : Bytes) :
    ∃ q, isAbsolute q = true ∧ join [dir, p] = clean q := by
  cases dir with
  | nil => cases h
  | cons b rest =>
    cases p with
    | nil => exact ⟨b :: rest, h, by simp [join, Bytes.joinWith]⟩
    | cons c more =>
      refine ⟨b :: rest ++ slash :: c :: more, h, ?_⟩
      simp [join, Bytes.joinWith]

theorem isAbsolute_join {dir : Bytes} (h : isAbsolute dir = true) (p : Bytes) :
    isAbsolute (join [dir, p]) = true := by
  obtain ⟨q, hq, hjoin⟩ := exists_clean_eq_join h p
  rw [hjoin, isAbsolute_clean, hq]

theorem isAbsolute_resolve {dir : Bytes} (h : isAbsolute dir = true) (p : Bytes) :
    isAbsolute (resolve dir p) = true := by
  unfold resolve
  split
  · assumption
  · exact isAbsolute_join h p

theorem path_ofPath_join {dir : Bytes} (h : isAbsolute dir = true) (p : Bytes) :
    Location.path (Location.ofPath (join [dir, p])) = join [dir, p] := by
  obtain ⟨q, hq, hjoin⟩ := exists_clean_eq_join h p
  rw [hjoin]
  exact Location.path_ofPath_clean hq

/-- A path behind the path of a location is followed from there. -/
theorem ofPath_join_path {l : Location} (hnames : ∀ n ∈ l, IsName n) (hslash : ∀ n ∈ l, slash ∉ n)
    (p : Bytes) : Location.ofPath (join [l.path, p]) = l.follow p := by
  have hplace := Location.ofPath_path hnames hslash
  have hne : l.path ≠ [] := List.cons_ne_nil _ _
  by_cases hp : p = []
  · have hjoin : join [l.path, p] = clean l.path := by
      simp [hp, join, Bytes.joinWith, Location.path]
    rw [hjoin, Location.ofPath_clean, hplace, hp]
    simp [Location.follow, Bytes.split, reduce]
  · rw [join_eq_clean hne hp, Location.ofPath_clean]
    unfold Location.ofPath Location.follow at *
    rw [Bytes.split_append, reduce_append, hplace]

/-! ## Names behind a path -/

theorem clean_ne_nil (p : Bytes) : clean p ≠ [] := by
  rcases clean_cases p with h | ⟨-, h⟩ | ⟨hne, h⟩
  · rw [h]
    exact List.cons_ne_nil _ _
  · rw [h]
    decide
  · rwa [h]

theorem split_joinWith_slash {names : List Bytes} (hne : names ≠ []) (h : ∀ n ∈ names, slash ∉ n) :
    (Bytes.joinWith [slash] names).split slash = names := by
  obtain ⟨name, rest, rfl⟩ := List.exists_cons_of_ne_nil hne
  rw [Bytes.split_joinWith List.not_mem_nil h]
  simp

theorem splitLast_joinWith {dirs : List Bytes} {name : Bytes}
    (hslash : ∀ n ∈ dirs ++ [name], slash ∉ n) :
    (splitLast (Bytes.joinWith [slash] (dirs ++ [name]))).2 = name := by
  obtain ⟨front, hsplit, -⟩ := exists_split_splitLast (Bytes.joinWith [slash] (dirs ++ [name]))
  rw [split_joinWith_slash (by simp) hslash] at hsplit
  exact (List.singleton_inj.mp (List.append_inj' hsplit rfl).2).symm

/-- The directory of a place is one name further out. -/
theorem parent_path {l : Location} {name : Bytes} (hnames : ∀ n ∈ l, IsName n)
    (hslash : ∀ n ∈ l ++ [name], slash ∉ n) :
    parent (Location.path (l ++ [name])) = Location.path l := by
  obtain ⟨front, hsplit, hdir⟩ := exists_split_splitLast (Location.path (l ++ [name]))
  have hfront : front = [] :: l := by
    rw [Location.path, Bytes.split_cons, if_pos rfl,
      split_joinWith_slash (by simp) hslash] at hsplit
    have hends : ([] :: l) ++ [name] = front ++ [_] := hsplit
    exact (List.append_inj' hends rfl).1.symm
  have hplace : Location.ofPath (parent (Location.path (l ++ [name]))) = l := by
    rw [Location.ofPath, follow_parent (fun _ => rfl) hdir, hfront, reduce_cons,
      push_silent _ _ rfl, reduce_of_isName _ hnames]
    rfl
  have habsolute : isAbsolute (splitLast (Location.path (l ++ [name]))).1 = true :=
    isAbsolute_splitLast _
  calc
    parent (Location.path (l ++ [name])) =
        Location.path (Location.ofPath (parent (Location.path (l ++ [name])))) :=
      (Location.path_ofPath_clean habsolute).symm
    _ = Location.path l := by rw [hplace]

/-- Apart from slashes and a lone dot, a shortened path is made of the elements that are kept. -/
theorem mem_clean_iff {p : Bytes} {b : UInt8} (hslash : b ≠ slash) (hdot : b ≠ 0x2E) :
    b ∈ clean p ↔ ∃ e ∈ elements p, b ∈ e := by
  have hjoined : b ∈ Bytes.joinWith [slash] (elements p) ↔ ∃ e ∈ elements p, b ∈ e := by
    constructor
    · intro hb
      rcases Bytes.mem_joinWith hb with hsep | hmem
      · exact absurd (List.mem_singleton.mp hsep) hslash
      · exact hmem
    · rintro ⟨e, he, hb⟩
      rw [← split_joinWith_slash (List.ne_nil_of_mem he)
        fun n => slash_not_mem_of_mem_elements] at he
      exact (Bytes.mem_split he).2 b hb
  rw [← hjoined]
  rcases clean_cases p with h | ⟨hnone, h⟩ | ⟨-, h⟩
  · simp [h, hslash]
  · simp [h, hnone, show bytes "." = [0x2E] from rfl, hdot]
  · rw [h]

theorem elements_append {p : Bytes} (hp : p ≠ []) {names : List Bytes} (hne : names ≠ [])
    (hnames : ∀ n ∈ names, IsName n) (hslash : ∀ n ∈ names, slash ∉ n) :
    elements (p ++ slash :: Bytes.joinWith [slash] names) = elements p ++ names := by
  unfold elements
  rw [isAbsolute_append hp, Bytes.split_append, split_joinWith_slash hne hslash, reduce_append,
    reduce_of_isName _ hnames, List.reverse_reverse]

/-- The last element of a path that does not end in a slash. -/
theorem base_of_split {p name : Bytes} {front : List Bytes} (h : p.split slash = front ++ [name])
    (hname : name ≠ []) : base p = name := by
  obtain ⟨front', hsplit, -⟩ := exists_split_splitLast p
  rw [h] at hsplit
  obtain ⟨-, hlast⟩ := List.append_inj' hsplit rfl
  have hlast : name = (splitLast p).2 := List.singleton_inj.mp hlast
  -- the last byte is one of the name, so there is no slash to leave aside
  have htrimmed : (p.reverse.dropWhile (· == slash)).reverse = p := by
    have hreverse : p.reverse.takeWhile (· != slash) ≠ [] := by
      rw [hlast] at hname
      simpa [splitLast] using hname
    cases hp : p.reverse with
    | nil => simp [hp] at hreverse
    | cons b rest =>
      have hb : b ≠ slash := by
        rintro rfl
        simp [hp] at hreverse
      rw [List.dropWhile_cons_of_neg (by simpa using hb), ← hp, List.reverse_reverse]
  have hempty : p.isEmpty = false := by
    rw [Bool.eq_false_iff]
    intro hempty
    rw [List.isEmpty_iff.mp hempty] at hlast
    exact hname hlast
  simp [base, hempty, htrimmed, ← hlast, Bytes.orElse, hname]

end Path

end AdaToC
