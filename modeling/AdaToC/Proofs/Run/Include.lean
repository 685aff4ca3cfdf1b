import AdaToC.Proofs.Reference
import AdaToC.Proofs.Run.Effects
import Mathlib.Data.List.DropRight

/-!
# Where the implementation looks for its header

The generated implementation includes the header under the name that the manifest gives it, and a
compiler follows that name from the directory of the implementation. The header itself is put where
the name leads from the output directory. `Path.Walk` says where a path leads from a directory; the
two ways end at the same place just if the directories agree from where the name stops to lead up.
If it does not lead up, the implementation has to stand in the output directory itself.
-/

namespace AdaToC

namespace Path

/-! ## Where a path leads -/

/-- The way that a path leads from a directory: up to directories around it, and then down through
names. -/
structure Walk where
  up : Nat
  down : List Bytes
  deriving DecidableEq, Repr

namespace Walk

/-- The way with one more element at its end. -/
def step (w : Walk) (e : Bytes) : Walk :=
  if e.isEmpty || e == bytes "." then w
  else if e == bytes ".." then
    if w.down.isEmpty then { w with up := w.up + 1 } else { w with down := w.down.dropLast }
  else { w with down := w.down ++ [e] }

/-- The way that a path leads. That it starts with a slash makes no difference. -/
def ofPath (p : Bytes) : Walk :=
  (p.split slash).foldl step ⟨0, []⟩

/-- The end of the way from a location. The way up ends at the root. -/
def target (w : Walk) (l : Location) : Location :=
  l.rdrop w.up ++ w.down

theorem step_silent (w : Walk) {e : Bytes} (h : (e.isEmpty || e == bytes ".") = true) :
    w.step e = w :=
  if_pos h

theorem step_up (w : Walk) :
    w.step (bytes "..") =
      if w.down.isEmpty then { w with up := w.up + 1 } else { w with down := w.down.dropLast } := by
  rw [step, if_neg (by decide), if_pos (by decide)]

theorem step_name (w : Walk) {name : Bytes} (h : IsName name) :
    w.step name = { w with down := w.down ++ [name] } := by
  obtain ⟨hempty, hdot, hdots⟩ := h
  rw [step, if_neg (by simp [hempty, hdot]), if_neg (by simpa using hdots)]

theorem target_step (w : Walk) (e : Bytes) {l : Location} (hnames : ∀ n ∈ w.target l, IsName n) :
    (w.step e).target l = reduce true (w.target l).reverse [e] := by
  rw [reduce_cons, reduce]
  rcases element_cases e with hsilent | rfl | hname
  · rw [push_silent _ _ hsilent, step_silent _ hsilent, List.reverse_reverse]
  · have hup : bytes ".." ∉ (w.target l).reverse := fun hmem =>
      (hnames _ (List.mem_reverse.mp hmem)).2.2 rfl
    rw [push_up _ hup, step_up]
    unfold target
    -- the last name of the way is taken back, or else that of the location
    rcases List.eq_nil_or_concat' w.down with hdown | ⟨down, last, hdown⟩
    · simp [hdown, List.rdrop_eq_reverse_drop_reverse]
    · simp [hdown]
  · rw [push_name _ _ hname, step_name _ hname]
    simp [target]

/-- Shortening a path from the root on is following it, element by element. -/
theorem reduce_target (elements : List Bytes) (w : Walk) {l : Location}
    (hnames : ∀ n ∈ w.target l, IsName n) :
    reduce true (w.target l).reverse elements = (elements.foldl step w).target l := by
  induction elements generalizing w with
  | nil => simp [reduce]
  | cons e rest ih =>
    have hstep := target_step w e hnames
    have hnames' : ∀ n ∈ (w.step e).target l, IsName n := by
      intro n hn
      rw [hstep] at hn
      exact isName_of_mem_reduce (fun n hn => hnames n (List.mem_reverse.mp hn)) hn
    calc reduce true (w.target l).reverse ([e] ++ rest)
        = reduce true ((w.step e).target l).reverse rest := by rw [reduce_append, hstep]
      _ = ((e :: rest).foldl step w).target l := ih _ hnames'

theorem ofPath_of_isName {name : Bytes} (hname : IsName name) (hslash : slash ∉ name) :
    ofPath name = ⟨0, [name]⟩ := by
  rw [ofPath, Bytes.split_of_not_mem hslash, List.foldl_cons, step_name _ hname]
  rfl

theorem up_le_up_foldl (elements : List Bytes) (w : Walk) : w.up ≤ (elements.foldl step w).up := by
  induction elements generalizing w with
  | nil => exact Nat.le_refl _
  | cons e rest ih =>
    refine Nat.le_trans ?_ (ih (w.step e))
    unfold step
    grind

theorem isName_of_mem_down (elements : List Bytes) {w : Walk} (h : ∀ n ∈ w.down, IsName n) :
    ∀ n ∈ (elements.foldl step w).down, IsName n := by
  induction elements generalizing w with
  | nil => exact h
  | cons e rest ih =>
    apply ih
    rcases element_cases e with hsilent | rfl | hname
    · rwa [step_silent _ hsilent]
    · rw [step_up]
      split
      · exact h
      · exact fun n hn => h n (List.dropLast_subset _ hn)
    · rw [step_name _ hname]
      intro n hn
      rcases List.mem_append.mp hn with hn | hn
      · exact h n hn
      · exact List.mem_singleton.mp hn ▸ hname

theorem isName_of_mem_ofPath {p n : Bytes} (hn : n ∈ (ofPath p).down) : IsName n :=
  isName_of_mem_down (p.split slash) (w := ⟨0, []⟩) (by simp) n hn

/-- Shortening keeps all that stands in front of a way that never leads up beyond its start. -/
theorem reduce_eq_append_down (absolute : Bool) (kept elements : List Bytes) {w : Walk}
    (hnames : ∀ n ∈ w.down, IsName n) (hup : (elements.foldl step w).up = 0) :
    reduce absolute (w.down.reverse ++ kept) elements =
      kept.reverse ++ (elements.foldl step w).down := by
  induction elements generalizing w with
  | nil => simp [reduce]
  | cons e rest ih =>
    have hstep : push absolute (w.down.reverse ++ kept) e = (w.step e).down.reverse ++ kept := by
      rcases element_cases e with hsilent | rfl | hname
      · rw [push_silent _ _ hsilent, step_silent _ hsilent]
      · -- a step up from the start would never be taken back
        have hroom : w.down ≠ [] := by
          intro hdown
          have hone := up_le_up_foldl rest (w.step (bytes ".."))
          rw [List.foldl_cons] at hup
          rw [hup, step_up, hdown] at hone
          cases hone
        obtain ⟨front, last, hdown⟩ := (List.eq_nil_or_concat' w.down).resolve_left hroom
        have hlast : IsName last := hnames last (by simp [hdown])
        rw [step_up, hdown, List.reverse_append, List.reverse_singleton, List.singleton_append,
          List.cons_append, push_up_name _ hlast]
        simp
      · rw [push_name _ _ hname, step_name _ hname]
        simp
    rw [reduce_cons, hstep]
    exact ih (isName_of_mem_down [e] hnames) hup

end Walk

theorem locationOf_join (t : FileTree) {dir : Bytes} (hdir : dir ≠ []) (p : Bytes) :
    t.locationOf (join [dir, p]) = (Walk.ofPath p).target (t.locationOf dir) := by
  cases p with
  | nil =>
    have hjoin : join [dir, []] = clean dir := by simp [join, hdir, Bytes.joinWith]
    rw [hjoin, t.locationOf_clean]
    simp [Walk.ofPath, Bytes.split, Walk.step, Walk.target]
  | cons b rest =>
    have hstart : (⟨0, []⟩ : Walk).target (t.locationOf dir) = t.locationOf dir := by
      simp [Walk.target]
    rw [join_eq_clean hdir (List.cons_ne_nil _ _), t.locationOf_clean, Walk.ofPath,
      ← Walk.reduce_target _ _ (by rw [hstart]; exact fun n => FileTree.isName_of_mem_locationOf),
      hstart]
    unfold FileTree.locationOf Location.follow
    rw [FileTree.start_eq_of_isAbsolute_eq (isAbsolute_append hdir _), Bytes.split_append,
      reduce_append]

/-- A path leads from two directories to one place just if these agree from where the path stops to
lead up. -/
theorem locationOf_join_eq_iff (t : FileTree) {dir dir' : Bytes} (hdir : dir ≠ [])
    (hdir' : dir' ≠ []) (p : Bytes) :
    t.locationOf (join [dir, p]) = t.locationOf (join [dir', p]) ↔
      (t.locationOf dir).rdrop (Walk.ofPath p).up =
        (t.locationOf dir').rdrop (Walk.ofPath p).up := by
  rw [locationOf_join t hdir, locationOf_join t hdir', Walk.target, Walk.target,
    List.append_left_inj]

/-- The last element of a path behind a directory is a name if the path goes down at its end. -/
theorem splitLast_join {dir p : Bytes} (hdir : dir ≠ []) (hup : (Walk.ofPath p).up = 0)
    {names : List Bytes} {last : Bytes} (hdown : (Walk.ofPath p).down = names ++ [last]) :
    (splitLast (join [dir, p])).2 = last := by
  have hp : p ≠ [] := by
    rintro rfl
    simp [Walk.ofPath, Bytes.split, Walk.step] at hdown
  have helements : elements (dir ++ slash :: p) = elements dir ++ names ++ [last] := by
    have hkept := Walk.reduce_eq_append_down (isAbsolute dir) (elements dir).reverse
      (p.split slash) (w := ⟨0, []⟩) (by simp) hup
    rw [List.reverse_reverse, List.reverse_nil, List.nil_append, ← Walk.ofPath, hdown] at hkept
    rw [elements, isAbsolute_append hdir, Bytes.split_append, reduce_append, List.append_assoc,
      ← hkept, elements]
  have hslash : ∀ n ∈ elements dir ++ names ++ [last], slash ∉ n := by
    rw [← helements]
    exact fun n => slash_not_mem_of_mem_elements
  rw [join_eq_clean hdir hp]
  rcases clean_cases (dir ++ slash :: p) with h | ⟨hnone, -⟩ | ⟨-, h⟩
  · -- the slash of an absolute path stands behind an empty element
    have hroot : clean (dir ++ slash :: p) =
        Bytes.joinWith [slash] (([] :: (elements dir ++ names)) ++ [last]) := by
      rw [h, helements]
      cases elements dir ++ names <;> rfl
    rw [hroot]
    refine splitLast_joinWith fun n hn => ?_
    rcases List.mem_cons.mp hn with rfl | hn
    · exact List.not_mem_nil
    · exact hslash n hn
  · rw [helements] at hnone
    have hempty := splitLast_joinWith hslash
    rw [hnone] at hempty
    have hname : IsName last := Walk.isName_of_mem_ofPath (by rw [hdown]; simp)
    exact absurd hempty.symm hname.1
  · rw [h, helements]
    exact splitLast_joinWith hslash

theorem locationOf_parent_join (t : FileTree) {dir p : Bytes} (hdir : dir ≠ [])
    (hup : (Walk.ofPath p).up = 0) {names : List Bytes} {last : Bytes}
    (hdown : (Walk.ofPath p).down = names ++ [last]) :
    t.locationOf (parent (join [dir, p])) = t.locationOf dir ++ names := by
  have hlast := splitLast_join hdir hup hdown
  have hname : IsName last := Walk.isName_of_mem_ofPath (by rw [hdown]; simp)
  have hplace := t.locationOf_eq_parent_concat (hlast ▸ hname)
  rw [locationOf_join t hdir, Walk.target, hup, hdown, hlast, List.rdrop_zero,
    ← List.append_assoc] at hplace
  exact (List.append_inj' hplace rfl).1.symm

theorem resolve_ne_nil {dir p : Bytes} (h : dir ≠ [] ∨ p ≠ []) : resolve dir p ≠ [] := by
  unfold resolve
  split
  · next habsolute =>
    rintro rfl
    cases habsolute
  · unfold join
    split
    · next hnone =>
      rcases h with h | h
      · simp [h] at hnone
      · simp [h] at hnone
    · exact clean_ne_nil _

end Path

namespace C

/-! ## The included name -/

/-- The first line of a text includes a file under a name. -/
def Includes (text name : Bytes) : Prop :=
  text.takeWhile (· != 0x0A) = bytes "#include \"" ++ name ++ bytes "\""

instance (text name : Bytes) : Decidable (Includes text name) :=
  inferInstanceAs (Decidable (_ = _))

theorem includes_implementationText_iff (fns : List Function) {header : Bytes} (hne : header ≠ [])
    (hline : 0x0A ∉ header) (generator name : Bytes) :
    Includes (implementationText fns ⟨header, generator⟩) name ↔ name = header := by
  have hfirst : (implementationText fns ⟨header, generator⟩).takeWhile (· != 0x0A) =
      bytes "#include \"" ++ header ++ bytes "\"" := by
    have hnolf : 0x0A ∉ bytes "#include \"" ++ header ++ bytes "\"" := by
      simp only [List.mem_append, not_or]
      exact ⟨⟨by decide, hline⟩, by decide⟩
    obtain ⟨rest, hrest⟩ : ∃ rest, behindHeaderName fns generator = bytes "\"" ++ 0x0A :: rest :=
      ⟨_, rfl⟩
    rw [implementationText_eq fns hne generator, hrest, ← List.append_assoc, ← List.append_assoc,
      List.takeWhile_append_of_pos (Bytes.bne_of_not_mem hnolf),
      List.takeWhile_cons_of_neg (by simp), List.append_nil]
  rw [Includes, hfirst, List.append_left_inj, List.append_right_inj, eq_comm]

end C

namespace Run

/-! ## The output directory -/

/-- The directory that the names of the generated files are followed from. -/
def outputDir (workDir : Bytes) (s : Settings) (m : Manifest) : Bytes :=
  if s.out.isEmpty then m.resolve m.output.dir else Path.resolve workDir s.out

theorem outputPaths_eq (workDir : Bytes) (s : Settings) (m : Manifest) :
    outputPaths workDir s m =
      (Path.join [outputDir workDir s m, m.output.header],
        Path.join [outputDir workDir s m, m.output.implementation]) := by
  unfold outputPaths outputDir
  split <;> rfl

/-- A name that the implementation includes leads from its directory to the generated header. -/
def FindsHeader (t : FileTree) (workDir : Bytes) (s : Settings) (m : Manifest) (name : Bytes) :
    Prop :=
  t.locationOf (Path.join [Path.parent (outputPaths workDir s m).2, name]) =
    t.locationOf (outputPaths workDir s m).1

instance (t : FileTree) (workDir : Bytes) (s : Settings) (m : Manifest) (name : Bytes) :
    Decidable (FindsHeader t workDir s m name) :=
  inferInstanceAs (Decidable (_ = _))

section

variable {t : FileTree} {workDir : Bytes} {s : Settings} {m : Manifest}

theorem outputDir_ne_nil {basis : Basis} {path : Bytes}
    (hload : Manifest.load t basis path = .ok m) (workDir : Bytes) (s : Settings) :
    outputDir workDir s m ≠ [] := by
  unfold outputDir
  split
  · refine Path.resolve_ne_nil (Or.inl ?_)
    rw [Manifest.dir_of_load hload, t.absolute_eq_path]
    exact List.cons_ne_nil _ _
  · next hout => exact Path.resolve_ne_nil (Or.inr (by simpa using hout))

/-- The name leads to the header just if the directory of the implementation and the output
directory agree from where it stops to lead up. -/
theorem findsHeader_iff (hdir : outputDir workDir s m ≠ []) :
    FindsHeader t workDir s m m.output.header ↔
      (t.locationOf (Path.parent (outputPaths workDir s m).2)).rdrop
          (Path.Walk.ofPath m.output.header).up =
        (t.locationOf (outputDir workDir s m)).rdrop (Path.Walk.ofPath m.output.header).up := by
  rw [FindsHeader, outputPaths_eq]
  exact Path.locationOf_join_eq_iff t (Path.clean_ne_nil _) hdir _

/-- Where no name leads up, the header is found just if the implementation is put into the output
directory itself. -/
theorem findsHeader_iff_length (hdir : outputDir workDir s m ≠ [])
    (hheader : (Path.Walk.ofPath m.output.header).up = 0)
    (himplementation : (Path.Walk.ofPath m.output.implementation).up = 0)
    (hdown : (Path.Walk.ofPath m.output.implementation).down ≠ []) :
    FindsHeader t workDir s m m.output.header ↔
      (Path.Walk.ofPath m.output.implementation).down.length = 1 := by
  obtain ⟨names, last, hnames⟩ := (List.eq_nil_or_concat' _).resolve_left hdown
  rw [findsHeader_iff hdir, hheader, outputPaths_eq,
    Path.locationOf_parent_join t hdir himplementation hnames, hnames]
  simp

theorem findsHeader_of_isName (hdir : outputDir workDir s m ≠ [])
    (hname : Path.IsName m.output.implementation)
    (hslash : Path.slash ∉ m.output.implementation) :
    FindsHeader t workDir s m m.output.header := by
  have hwalk := Path.Walk.ofPath_of_isName hname hslash
  have hdown : (Path.Walk.ofPath m.output.implementation).down =
      [] ++ [m.output.implementation] := by
    rw [hwalk, List.nil_append]
  have hparent := Path.locationOf_parent_join t hdir (by rw [hwalk]) hdown
  rw [findsHeader_iff hdir, outputPaths_eq, hparent, List.append_nil]

end

/-- The implementation includes the header under the name that the manifest gives it. The name leads
from the directory of the implementation to the header that is written if and only if that directory
and the output directory agree from where the name stops to lead up. So it does if the
implementation has a plain name; and if neither file is outside the output directory, it does not as
soon as the implementation is in a directory below. -/
theorem included_name_leads_to_header (t : FileTree) (basis : Basis) (path workDir : Bytes)
    (s : Settings) (m : Manifest) (fns : List Function)
    (hload : Manifest.load t basis path = .ok m) :
    let header := m.output.header
    let implementation := m.output.implementation
    let up := (Path.Walk.ofPath header).up
    (0x0A ∉ header → ∀ name,
      C.Includes (C.implementationText fns (naming m)) name ↔ name = header) ∧
    (FindsHeader t workDir s m header ↔
      (t.locationOf (Path.parent (outputPaths workDir s m).2)).rdrop up =
        (t.locationOf (outputDir workDir s m)).rdrop up) ∧
    (Path.IsName implementation → Path.slash ∉ implementation →
      FindsHeader t workDir s m header) ∧
    (up = 0 → (Path.Walk.ofPath implementation).up = 0 →
      (Path.Walk.ofPath implementation).down ≠ [] →
      (FindsHeader t workDir s m header ↔
        (Path.Walk.ofPath implementation).down.length = 1)) := by
  have houtput := outputDir_ne_nil hload workDir s
  refine ⟨?_, findsHeader_iff houtput, findsHeader_of_isName houtput,
    findsHeader_iff_length houtput⟩
  intro hline name
  exact C.includes_implementationText_iff fns (Manifest.header_ne_nil_of_load hload) hline _ name

/-- Both files are put next to the output directory, and the header is found from there. -/
theorem included_name_leads_to_header_siblings :
    let t : FileTree := { entries := [([bytes "p"], .directory), ([bytes "p", bytes "ada2c.toml"],
      .file (bytes
        "[output]\ndir = 'out'\nheader = '../inc/f.h'\nimplementation = '../src/f.c'"))] }
    let s : Settings := ⟨[], [], [], .info, 0, false, false, false, false⟩
    let m : Manifest :=
      { Manifest.default (bytes "/p") with
        output := ⟨bytes "out", bytes "../inc/f.h", bytes "../src/f.c", bytes "ada_math.h"⟩ }
    Manifest.load t {} (bytes "/p/ada2c.toml") = .ok m ∧
      outputPaths (bytes "/w") s m = (bytes "/p/inc/f.h", bytes "/p/src/f.c") ∧
      C.Includes (C.implementationText [] (naming m)) (bytes "../inc/f.h") ∧
      FindsHeader t (bytes "/w") s m (bytes "../inc/f.h") := by
  intro t s m
  have hload : Manifest.load t {} (bytes "/p/ada2c.toml") = .ok m := by decide +kernel
  obtain ⟨hincludes, hfinds, -, -⟩ := included_name_leads_to_header t {} (bytes "/p/ada2c.toml")
    (bytes "/w") s m [] hload
  have hfound := hfinds.mpr (by decide +kernel)
  exact ⟨hload, by decide +kernel, (hincludes (by decide) _).mpr rfl, hfound⟩

/-- The implementation is put into a directory below. The header that it includes is looked for
there, but stands above. -/
theorem header_not_found_from_directory_below :
    let t : FileTree := { entries := [([bytes "p"], .directory), ([bytes "p", bytes "ada2c.toml"],
        .file (bytes "[output]\nheader = \"gen.h\"\nimplementation = \"src/gen.c\"\n")),
      ([bytes "p", bytes "library.adb"], .file (bytes "function F() return T is end F;"))] }
    let inv : Invocation := { args := [], env := {}, workDir := bytes "/p", cancelled := false }
    let s : Settings := ⟨[], [], [], .info, 0, false, false, false, false⟩
    let m : Manifest :=
      { Manifest.default (bytes "/p") with
        output := ⟨bytes ".", bytes "gen.h", bytes "src/gen.c", bytes "ada_math.h"⟩ }
    let text := C.implementationText [⟨bytes "F", [], bytes "T", []⟩] (naming m)
    Settings.read inv.args inv.env = .ok s ∧ Manifest.load t {} (bytes "/p/ada2c.toml") = .ok m ∧
      (run t inv).tree.contents [bytes "p", bytes "src", bytes "gen.c"] = some text ∧
      (run t inv).tree.contents [bytes "p", bytes "gen.h"] ≠ none ∧
      (run t inv).tree.contents [bytes "p", bytes "src", bytes "gen.h"] = none ∧
      C.Includes text (bytes "gen.h") ∧ ¬ FindsHeader t inv.workDir s m (bytes "gen.h") := by
  decide +kernel

end Run

end AdaToC
