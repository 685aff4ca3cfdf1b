import AdaToC.Proofs.Path
import AdaToC.Proofs.Text.Validity

/-!
# Paths in strict form

A folder of sources takes paths in a strict form only: names with single slashes between them, or a
dot alone for the folder itself. `Path.Relative` says which names such a path is made of.
-/

namespace AdaToC

namespace Path

/-- The names that a path in strict form is made of. -/
inductive Relative : List Bytes → Bytes → Prop where
  | here : Relative [] (bytes ".")
  | down {names : List Bytes} (hne : names ≠ [])
      (hnames : ∀ n ∈ names, IsName n ∧ slash ∉ n ∧ Utf8.IsText n) :
      Relative names (Bytes.joinWith [slash] names)

variable {names : List Bytes} {p dir name : Bytes}

theorem Relative.isName (h : Relative names p) :
    ∀ n ∈ names, IsName n ∧ slash ∉ n ∧ Utf8.IsText n := by
  cases h with
  | here => exact fun n hn => absurd hn List.not_mem_nil
  | down hne hnames => exact hnames

theorem Relative.eq_joinWith (h : Relative names p) (hne : names ≠ []) :
    p = Bytes.joinWith [slash] names := by
  cases h with
  | here => exact absurd rfl hne
  | down => rfl

theorem not_mem_joinWith {b : UInt8} (hb : b ≠ slash) (h : ∀ n ∈ names, b ∉ n) :
    b ∉ Bytes.joinWith [slash] names := by
  intro hmem
  rcases Bytes.mem_joinWith hmem with hsep | ⟨n, hn, hmem⟩
  · exact hb (List.mem_singleton.mp hsep)
  · exact h n hn hmem

theorem Relative.zero_not_mem (h : Relative names p) (hzero : ∀ n ∈ names, 0 ∉ n) : 0 ∉ p := by
  cases h with
  | here => decide
  | down => exact not_mem_joinWith (by decide) hzero

/-- The strict form is what a folder asks of a path. -/
theorem isLocal_iff : isLocal p = true ↔ ∃ names, Relative names p := by
  constructor
  · intro h
    obtain ⟨hvalid, hstrict⟩ : Utf8.isValid p = true ∧ (p = bytes "." ∨
        ∀ e ∈ p.split slash, e ≠ [] ∧ e ≠ bytes "." ∧ e ≠ bytes "..") := by
      simpa [isLocal, and_assoc] using h
    rcases hstrict with rfl | hnames
    · exact ⟨[], .here⟩
    · have htext := Utf8.isValid_iff.mp hvalid
      have hdown := Relative.down (Bytes.split_ne_nil slash p) fun n hn =>
        ⟨hnames n hn, (Bytes.mem_split hn).1, htext.mem_split (by decide) hn⟩
      rw [Bytes.joinWith_split] at hdown
      exact ⟨_, hdown⟩
  · rintro ⟨names, h⟩
    cases h with
    | here => decide
    | down hne hnames =>
      have hvalid : Utf8.isValid (Bytes.joinWith [slash] names) = true :=
        Utf8.isValid_iff.mpr
          (Utf8.isText_joinWith (Utf8.isText_byte (by decide)) fun n hn => (hnames n hn).2.2)
      have hall : (names.all fun e => !e.isEmpty && e != bytes "." && e != bytes "..") = true := by
        rw [List.all_eq_true]
        intro n hn
        obtain ⟨hempty, hdot, hdots⟩ := (hnames n hn).1
        simp [hempty, hdot, hdots]
      unfold isLocal
      rw [hvalid, split_joinWith_slash hne fun n hn => (hnames n hn).2.1, hall]
      simp

/-! ## Joining -/

theorem isAbsolute_joinWith (hne : names ≠ []) (hnames : ∀ n ∈ names, IsName n ∧ slash ∉ n) :
    Bytes.joinWith [slash] names ≠ [] ∧ isAbsolute (Bytes.joinWith [slash] names) = false := by
  obtain ⟨first, rest, rfl⟩ := List.exists_cons_of_ne_nil hne
  obtain ⟨⟨hempty, -⟩, hslash⟩ := hnames first List.mem_cons_self
  refine ⟨?_, isAbsolute_joinWith_cons hempty hslash rest⟩
  cases rest <;> simp [Bytes.joinWith, hempty]

theorem Relative.isAbsolute_eq (h : Relative names p) : p ≠ [] ∧ isAbsolute p = false := by
  cases h with
  | here => decide
  | down hne hnames =>
    exact isAbsolute_joinWith hne fun n hn => ⟨(hnames n hn).1, (hnames n hn).2.1⟩

theorem Relative.elements_eq (h : Relative names p) : elements p = names := by
  obtain ⟨-, hrelative⟩ := h.isAbsolute_eq
  cases h with
  | here => decide
  | down hne hnames =>
    unfold elements
    rw [hrelative, split_joinWith_slash hne fun n hn => (hnames n hn).2.1,
      reduce_of_isName _ fun n hn => (hnames n hn).1]
    rfl

/-- The path of an entry of a directory, made of the path of the directory and the name. -/
theorem Relative.join (h : Relative names dir)
    (hname : IsName name ∧ slash ∉ name ∧ Utf8.IsText name) :
    Relative (names ++ [name]) (Path.join [dir, name]) := by
  have hall : ∀ n ∈ names ++ [name], IsName n ∧ slash ∉ n ∧ Utf8.IsText n := by
    intro n hn
    rcases List.mem_append.mp hn with hn | hn
    · exact h.isName n hn
    · rwa [List.mem_singleton.mp hn]
  obtain ⟨hdir, hrelative⟩ := h.isAbsolute_eq
  have helements : elements (dir ++ slash :: name) = names ++ [name] := by
    have happend := elements_append hdir (List.cons_ne_nil name [])
      (by simpa using hname.1) (by simpa using hname.2.1)
    rwa [h.elements_eq] at happend
  obtain ⟨hjoined, -⟩ := @isAbsolute_joinWith (names ++ [name]) (by simp)
    fun n hn => ⟨(hall n hn).1, (hall n hn).2.1⟩
  have hclean : clean (dir ++ slash :: name) = Bytes.joinWith [slash] (names ++ [name]) := by
    rw [← helements] at hjoined ⊢
    unfold clean
    rw [isAbsolute_append hdir, hrelative]
    unfold elements at hjoined ⊢
    rw [isAbsolute_append hdir, hrelative] at hjoined ⊢
    simp [Bytes.orElse, hjoined]
  rw [join_eq_clean hdir hname.1.1, hclean]
  exact .down (by simp) hall

end Path

end AdaToC
