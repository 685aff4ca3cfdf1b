import AdaToC.Proofs.Ada.Extraction

/-!
# Printing units and reading them back

A unit keeps neither the letter case of the keywords nor the white space between them. Printed with
single blanks it is a definition again, and again a tight one: whether a definition is tight depends
on its name, parameters and body alone. So a scan of the printed units gives the same units and
reports nothing, however strange the texts in them are.
-/

namespace AdaToC.Ada

/-- All of a unit but the place where it was found. -/
def FunctionUnit.parts (u : FunctionUnit) : Bytes × Bytes × Bytes × Bytes :=
  (u.name, u.params, u.returnType, u.body)

/-- The unit as a definition with single blanks. -/
def FunctionUnit.print (u : FunctionUnit) : Bytes :=
  bytes "function " ++ u.name ++ bytes "(" ++ u.params ++ bytes ") return " ++ u.returnType ++
    bytes " is " ++ u.body ++ bytes "end " ++ u.name ++ bytes ";"

/-- The definitions of units, one after the other with a line feed between neighbours. -/
def printAll (us : List FunctionUnit) : Bytes :=
  Bytes.joinWith (bytes "\n") (us.map FunctionUnit.print)

/-! ## The printed form of a definition -/

theorem isGap_blank : IsGap (bytes " ") := by
  decide

/-- The same definition with small keywords and single blanks. -/
def Definition.plain (d : Definition) : Definition where
  opening :=
    { keyword := bytes "function", gap := bytes " ", name := d.opening.name, gapBehind := []
      keyword_eq := Bytes.equalFold_refl _, gap_ne := by decide, gap_blank := isGap_blank
      name_word := d.opening.name_word, gapBehind_blank := by simp [IsGap] }
  params := d.params
  clause :=
    { gapBefore := bytes " ", keyword := bytes "return", gap := bytes " "
      returnType := d.clause.returnType, gapBehind := bytes " ", isKeyword := bytes "is"
      gapBefore_blank := isGap_blank, keyword_eq := Bytes.equalFold_refl _
      gap_ne := by decide, gap_blank := isGap_blank
      returnType_word := d.clause.returnType_word
      gapBehind_ne := by decide, gapBehind_blank := isGap_blank
      isKeyword_eq := Bytes.equalFold_refl _ }
  gap := bytes " "
  body := d.body
  closing :=
    { keyword := bytes "end", gap := bytes " ", again := d.opening.name
      keyword_eq := Bytes.equalFold_refl _, gap_ne := by decide, gap_blank := isGap_blank
      again_eq := Bytes.equalFold_refl _ }
  gap_blank := isGap_blank

theorem Definition.Tight.plain {d : Definition} (hd : d.Tight) : d.plain.Tight :=
  ⟨hd.params_free, hd.body_front, hd.body_free⟩

theorem Definition.plain_text (d : Definition) (offset : Nat) :
    d.plain.text = (d.unit offset).print := by
  have hfunction : bytes "function " = bytes "function" ++ bytes " " := by decide
  have hreturn : bytes ") return " = [0x29] ++ bytes " " ++ bytes "return" ++ bytes " " := by decide
  have his : bytes " is " = bytes " " ++ bytes "is" ++ bytes " " := by decide
  have hend : bytes "end " = bytes "end" ++ bytes " " := by decide
  have hopen : bytes "(" = [0x28] := by decide
  have hsemicolon : bytes ";" = [0x3B] := by decide
  simp only [FunctionUnit.print, hfunction, hreturn, his, hend, hopen, hsemicolon, Definition.text,
    Definition.plain, Definition.unit, Opening.text, ReturnClause.text, Closing.text,
    List.append_assoc, List.nil_append]

/-! ## Scanning printed units -/

/-- The units of a scan are those of tight definitions. -/
theorem Scanned.exists_tight {offset : Nat} {s : Bytes} {fs : List Finding}
    (h : Scanned offset s fs) :
    ∀ u ∈ fs.filterMap Finding.unit?, ∃ d : Definition, d.Tight ∧ d.unit u.offset = u := by
  induction h with
  | done offset => simp
  | pass _ _ ih => exact ih
  | @unit offset d rest fs hd _ ih =>
    intro u hu
    rcases List.mem_cons.mp hu with rfl | hu
    · exact ⟨d, hd, rfl⟩
    · exact ih u hu
  | skipped _ _ _ ih => exact ih

/-- The printed form of a tight definition is scanned as one unit with the same parts. -/
theorem scanFrom_print {d : Definition} (hd : d.Tight) (offset k : Nat) (rest : Bytes) :
    scanFrom 0 offset ((d.unit k).print ++ rest) =
      .unit (d.unit offset) :: scanFrom 0 (offset + (d.unit k).print.length) rest := by
  rw [← d.plain_text k, scanFrom_of_tight hd.plain]
  rfl

/-- Printed units are scanned one by one: the line feed between two of them is passed over. -/
theorem scanFrom_printAll {us : List FunctionUnit}
    (hus : ∀ u ∈ us, ∃ d : Definition, d.Tight ∧ d.unit u.offset = u) (offset : Nat) :
    ((scanFrom 0 offset (printAll us)).filterMap Finding.unit?).map FunctionUnit.parts =
        us.map FunctionUnit.parts ∧
      (scanFrom 0 offset (printAll us)).filterMap Finding.skipped? = [] := by
  induction us generalizing offset with
  | nil => exact ⟨rfl, rfl⟩
  | cons u us ih =>
    obtain ⟨d, hd, hu⟩ := hus u List.mem_cons_self
    have hrest := ih fun v hv => hus v (List.mem_cons_of_mem _ hv)
    have hparts : (d.unit offset).parts = u.parts := by
      rw [← hu]
      rfl
    cases us with
    | nil =>
      have hprint : printAll [u] = (d.unit u.offset).print ++ [] := by
        rw [hu, List.append_nil]
        rfl
      rw [hprint, scanFrom_print hd]
      simp [scanFrom, Finding.unit?, Finding.skipped?, hparts]
    | cons v us =>
      have hprint : printAll (u :: v :: us) =
          (d.unit u.offset).print ++ 0x0A :: printAll (v :: us) := by
        rw [hu]
        simp [printAll, Bytes.joinWith, show bytes "\n" = [0x0A] from by decide]
      rw [hprint, scanFrom_print hd, scanFrom_space_cons (by decide)]
      obtain ⟨hunits, hskipped⟩ := hrest (offset + (d.unit u.offset).print.length + 1)
      simp only [List.filterMap_cons, Finding.unit?, Finding.skipped?, List.map_cons, hunits,
        hskipped, hparts, and_self]

end AdaToC.Ada
