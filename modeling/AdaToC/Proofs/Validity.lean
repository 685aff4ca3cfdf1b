import AdaToC.Proofs.Ada.Accounting
import AdaToC.Proofs.Ada.Parameters
import AdaToC.Proofs.Encoding
import AdaToC.Proofs.Run.Effects
import AdaToC.Proofs.Toml

/-!
# Well-formed in, well-formed out

Source text is cut by byte offsets: at parentheses, at keywords, at separators, at line ends. Every
cut falls in front of or behind a byte of ASCII, also where a name or a keyword holds the long s or
the Kelvin sign, so the parts of a well-formed source are well-formed. Files are read as well-formed
text whatever their bytes, so everything a run generates is well-formed.
-/

namespace AdaToC

open Utf8

namespace Ada

/-! ## Words and white space -/

theorem IsWord.isText {w : Bytes} (h : IsWord w) : IsText w := by
  obtain ⟨cs, -, -, rfl⟩ := h
  exact isText_encodeAll cs

theorem IsGap.isText {g : Bytes} (h : IsGap g) : IsText g :=
  isText_of_ascii fun b hb => (not_isWordByte_of_isSpaceByte (h b hb)).2

/-- A form of a keyword starts with a byte of ASCII, unless the keyword starts with a letter that
has a form outside ASCII. -/
theorem startsAscii_of_equalFold {keyword w : Bytes} {f : Char} {fs : List Char}
    (hkeyword : keyword.equalFold w) (hw : w.folded = f :: fs) (hf : f.toNat < 0x80)
    (hs : f ≠ 's') (hk : f ≠ 'k') : StartsAscii keyword := by
  have hfolded : keyword.folded = f :: fs := (eq_of_beq hkeyword).trans hw
  obtain ⟨c, rest, rfl, rfl, -⟩ := Bytes.folded_eq_cons_ascii hf hfolded
  rcases foldChar_into_ascii hf with hascii | rfl | rfl
  · obtain ⟨b, hb, rfl⟩ := exists_byte_of_ascii hascii
    exact ⟨b, rest, by rw [encode_ofNat_byte hb]; rfl, hb⟩
  · exact absurd (by decide) hs
  · exact absurd (by decide) hk

/-! ## The parts of a definition -/

theorem Opening.startsAscii_text (o : Opening) : StartsAscii o.text := by
  have hfolded : (bytes "function").folded = 'f' :: "unction".toList := by decide
  have hkeyword : StartsAscii o.keyword :=
    startsAscii_of_equalFold o.keyword_eq hfolded (by decide) (by decide) (by decide)
  exact (((hkeyword.append _).append _).append _).append _

theorem ReturnClause.startsAscii_text (c : ReturnClause) : StartsAscii c.text :=
  ⟨0x29, c.inner, c.text_eq, by decide⟩

theorem Closing.startsAscii_text {name : Bytes} (c : Closing name) : StartsAscii c.text := by
  have hfolded : (bytes "end").folded = 'e' :: "nd".toList := by decide
  have hkeyword : StartsAscii c.keyword :=
    startsAscii_of_equalFold c.keyword_eq hfolded (by decide) (by decide) (by decide)
  exact ((hkeyword.append _).append _).append _

theorem Opening.isText_text (o : Opening) : IsText o.text :=
  (((o.keyword_word.isText.append o.gap_blank.isText).append o.name_word.isText).append
    o.gapBehind_blank.isText).append (isText_byte (by decide))

theorem ReturnClause.isText_text (c : ReturnClause) : IsText c.text :=
  ((((((isText_byte (by decide)).append c.gapBefore_blank.isText).append
    c.keyword_word.isText).append c.gap_blank.isText).append c.returnType_word.isText).append
    c.gapBehind_blank.isText).append c.isKeyword_word.isText

/-- The two texts of a definition that may be anything are cut out in front of a byte of ASCII. -/
theorem Definition.isText_parts (d : Definition) {rest : Bytes} (h : IsText (d.text ++ rest)) :
    IsText d.params ∧ IsText d.body := by
  rw [Definition.text_append] at h
  have hbehindOpening := h.of_append d.opening.isText_text
  have hparams : IsText d.params := hbehindOpening.before (d.clause.startsAscii_text.append _)
  have hbehindClause := (hbehindOpening.of_append hparams).of_append d.clause.isText_text
  have hbody := hbehindClause.of_append d.gap_blank.isText
  exact ⟨hparams, hbody.before (d.closing.startsAscii_text.append _)⟩

/-- All parts of a unit are well-formed. -/
structure FunctionUnit.WellFormed (u : FunctionUnit) : Prop where
  name : IsText u.name
  params : IsText u.params
  returnType : IsText u.returnType
  body : IsText u.body

theorem wellFormed_of_mem_units {source : Bytes} (h : IsText source) {u : FunctionUnit}
    (hu : u ∈ units source) : u.WellFormed := by
  obtain ⟨d, rest, ⟨htext, -⟩, heq⟩ :=
    (scanned_scanFrom 0 source).takes_of_mem rfl u (mem_units_iff.mp hu)
  rw [← List.take_append_drop u.offset source, htext] at h
  have hstarts : StartsAscii (d.text ++ rest) := by
    rw [Definition.text_append]
    exact d.opening.startsAscii_text.append _
  obtain ⟨hparams, hbody⟩ := d.isText_parts (h.of_append (h.before hstarts))
  rw [heq]
  exact ⟨d.opening.name_word.isText, hparams, d.clause.returnType_word.isText, hbody⟩

theorem isText_name_of_mem_skipped {source : Bytes} {x : Skipped} (hx : x ∈ skipped source) :
    IsText x.name := by
  obtain ⟨o, -, -, hname, -⟩ :=
    (scanned_scanFrom 0 source).describes_of_mem rfl x (mem_skipped_iff.mp hx)
  rw [← hname]
  exact o.name_word.isText

theorem isText_message {x : Skipped} (h : IsText x.name) : IsText x.message := by
  unfold Skipped.message
  apply IsText.append
  · exact ((isText_bytes _).append h).append (isText_bytes _)
  · -- the reason names the function once more where its end is missing
    cases x.fault with
    | noSignature => exact isText_bytes _
    | noTerminator => exact ((isText_bytes _).append h).append (isText_bytes _)

theorem Parameter.isText_of_mem_parse {raw : Bytes} (h : IsText raw) {p : Parameter}
    (hp : p ∈ parse raw) : IsText p.name ∧ IsText p.type := by
  rw [parse_eq_flatMap] at hp
  obtain ⟨group, hgroup, hp⟩ := List.mem_flatMap.mp hp
  have hgroup : IsText group := h.mem_split (by decide) hgroup
  unfold ofGroup at hp
  split at hp
  · cases hp
  next names type hcut =>
    obtain ⟨hnames, htype⟩ := hgroup.cut? (by decide) hcut
    obtain ⟨name, hname, rfl⟩ := List.mem_map.mp hp
    exact ⟨(hnames.mem_split (by decide) hname).trim, htype.trim⟩

end Ada

/-! ## Diagnostics -/

theorem isText_decimal (n : Nat) : IsText (decimal n) := by
  apply isText_of_ascii
  intro b hb
  obtain ⟨c, hc, rfl⟩ := List.mem_map.mp hb
  have hdigit : c.isDigit = true := Nat.isDigit_of_mem_toDigits (by decide) (by decide) hc
  have hlt : c.toNat ≤ 0x39 := (Char.isDigit_iff_toNat.mp hdigit).2
  simp only [UInt8.lt_iff_toNat_lt, Nat.toUInt8, UInt8.toNat_ofNat', UInt8.reduceToNat]
  omega

theorem isText_padded (width n : Nat) : IsText (padded width n) :=
  (isText_replicate (by decide) _).append (isText_decimal n)

theorem isText_dropReturns {s : Bytes} (h : IsText s) : IsText (dropReturns s) := by
  have hs : s = dropReturns s ++ (s.reverse.takeWhile (· == 0x0D)).reverse := by
    rw [dropReturns, ← List.reverse_append, List.takeWhile_append_dropWhile, List.reverse_reverse]
  cases hreturns : (s.reverse.takeWhile (· == 0x0D)).reverse with
  | nil =>
    rw [hreturns, List.append_nil] at hs
    exact hs ▸ h
  | cons b rest =>
    have hb : b = 0x0D := by
      have hmem : b ∈ s.reverse.takeWhile (· == 0x0D) := by
        rw [← List.mem_reverse, hreturns]
        exact List.mem_cons_self
      exact eq_of_beq (List.all_eq_true.mp List.all_takeWhile b hmem)
    rw [hs, hreturns] at h
    exact h.before_ascii (by rw [hb]; decide)

theorem isText_excerpt {source : Bytes} (h : IsText source) (line column : Int) :
    IsText (excerpt source line column) := by
  unfold excerpt
  simp only
  split
  · exact isText_nil
  · apply isText_flatMap
    rintro ⟨text, number⟩ hmem
    have hline : text ∈ source.split 0x0A :=
      List.mem_of_mem_take (List.mem_of_mem_drop (List.fst_mem_of_mem_zipIdx hmem))
    have htext : IsText (dropReturns text) := isText_dropReturns (h.mem_split (by decide) hline)
    have hnumbered : ∀ (mark : String) (width : Nat),
        IsText (bytes mark ++ padded width number ++ bytes " | " ++ dropReturns text ++
          bytes "\n") :=
      fun mark width => ((((isText_bytes mark).append (isText_padded width number)).append
        (isText_bytes _)).append htext).append (isText_bytes _)
    split
    · exact ((hnumbered _ _).append (isText_replicate (by decide) _)).append (isText_bytes _)
    · exact hnumbered _ _

theorem isText_of_mem_diagnostics {file source : Bytes} (h : IsText source) {d : Diagnostic}
    (hd : d ∈ (FileResult.ofSource file source).diagnostics) :
    IsText d.function ∧ IsText d.message ∧ IsText d.context := by
  obtain ⟨x, hx, rfl⟩ := List.mem_map.mp hd
  have hname : IsText x.name := Ada.isText_name_of_mem_skipped hx
  exact ⟨hname, Ada.isText_message hname, isText_excerpt h _ _⟩

/-! ## Generated text

Names get into C in lower case, and changing the case writes them out character by character. So the
functions are well-formed in C whatever they were in Ada. -/

namespace C

theorem CType.isText_spelling (type : CType) : IsText type.spelling := by
  cases type <;> exact isText_bytes _

theorem Operands.isText_get (params : List Ada.Parameter) (i : Nat) (fallback : String) :
    IsText ((ofParameters params).get i (bytes fallback)) := by
  refine IsText.orElse ?_ (isText_bytes fallback)
  simp only [ofParameters, List.getD_eq_getElem?_getD, List.getElem?_map]
  cases params[i]? with
  | none => exact isText_nil
  | some p => exact isText_lower p.name

theorem Shape.isText_returns {expression : Bytes} (h : IsText expression) :
    IsText (returns expression) :=
  ((isText_bytes _).append h).append (isText_bytes _)

theorem Shape.isText_guarded {condition below : Bytes} (hcondition : IsText condition)
    (exception : String) (hbelow : IsText below) :
    IsText (guarded condition (bytes exception) below) := by
  unfold guarded
  with_reducible repeat' apply IsText.append
  all_goals first | exact isText_bytes _ | assumption

theorem Shape.isText_choice (op : String) {a b : Bytes} (ha : IsText a) (hb : IsText b) :
    IsText (choice (bytes op) a b) := by
  unfold choice
  with_reducible repeat' apply IsText.append
  all_goals first | exact isText_bytes _ | assumption

theorem Shape.isText_render (shape : Shape) (params : List Ada.Parameter) :
    IsText (shape.render (Operands.ofParameters params)) := by
  have hget := Operands.isText_get params
  cases shape with
  | add | subtract | multiply =>
    exact isText_returns (((hget 0 _).append (isText_bytes _)).append (hget 1 _))
  | divide =>
    exact isText_guarded ((hget 1 _).append (isText_bytes _)) _
      (isText_returns (((hget 0 _).append (isText_bytes _)).append (hget 1 _)))
  | sqrt =>
    exact isText_guarded ((hget 0 _).append (isText_bytes _)) _
      (isText_returns (((isText_bytes _).append (hget 0 _)).append (isText_bytes _)))
  | power =>
    exact isText_returns (((((isText_bytes _).append (hget 0 _)).append (isText_bytes _)).append
      (hget 1 _)).append (isText_bytes _))
  | abs => exact isText_returns (((isText_bytes _).append (hget 0 _)).append (isText_bytes _))
  | max | min => exact isText_returns (isText_choice _ (hget 0 _) (hget 1 _))

theorem isText_block (body : Bytes) (params : List Ada.Parameter) : IsText (block body params) := by
  unfold block
  split
  · exact Shape.isText_render _ params
  · exact isText_bytes _

end C

namespace Function

theorem isText_declaration (f : Function) : IsText f.declaration := by
  have hparameters : IsText f.parameterList := by
    unfold parameterList
    split
    · exact isText_bytes _
    · refine isText_joinWith (isText_bytes _) ?_
      intro piece hpiece
      obtain ⟨p, -, rfl⟩ := List.mem_map.mp hpiece
      exact ((C.CType.isText_spelling _).append (isText_bytes _)).append (isText_lower p.name)
  have hsymbol : IsText f.symbol := (isText_bytes _).append (isText_lower f.name)
  exact (((((C.CType.isText_spelling _).append (isText_bytes _)).append hsymbol).append
    (isText_bytes _)).append hparameters).append (isText_bytes _)

theorem isText_definition (f : Function) : IsText f.definition :=
  (((isText_declaration f).append (isText_bytes _)).append (C.isText_block f.body f.params)).append
    (isText_bytes _)

end Function

namespace C

theorem isText_headerText (fns : List Function) (naming : Naming) :
    IsText (headerText fns naming) := by
  have hguard : IsText (includeGuard naming.complete.header) := isText_encodeAll _
  have hfns : IsText (fns.flatMap fun f => f.declaration ++ bytes ";\n") :=
    isText_flatMap fun f _ => f.isText_declaration.append (isText_bytes _)
  unfold headerText
  with_reducible repeat' apply IsText.append
  all_goals first | exact isText_bytes _ | assumption

theorem isText_implementationText (fns : List Function) {naming : Naming}
    (hheader : IsText naming.header) (hgenerator : IsText naming.generator) :
    IsText (implementationText fns naming) := by
  have hheader' : IsText naming.complete.header := hheader.orElse (isText_bytes _)
  have hgenerator' : IsText naming.complete.generator := hgenerator.orElse (isText_bytes _)
  have hfns : IsText (fns.flatMap fun f => f.definition ++ bytes "\n\n") :=
    isText_flatMap fun f _ => f.isText_definition.append (isText_bytes _)
  unfold implementationText preamble
  with_reducible repeat' apply IsText.append
  all_goals first | exact isText_bytes _ | assumption

end C

/-! ## Runs -/

namespace Run

variable {t : FileTree} {inv : Invocation} {x : Load}

theorem isText_header_of_chooseManifest {basis : Basis} {workDir : Bytes} {s : Settings}
    {m : Manifest} {found : Log.Record} (h : chooseManifest t basis workDir s = .ok (m, found)) :
    IsText m.output.header := by
  rcases chooseManifest_cases h with rfl | ⟨path, hload⟩
  · exact Manifest.isText_header_default workDir
  · exact Manifest.isText_header_of_load hload

theorem Loads.isText_content (h : Loads t inv x) {f : SourceFile} (hf : f ∈ x.files) :
    IsText f.content := by
  obtain ⟨folder, name, hload⟩ := exists_load_of_loadSources h.sources hf
  obtain ⟨data, hdecode⟩ := SourceFolder.exists_decode_of_load hload
  exact Encoding.isText_of_decode hdecode

theorem Loads.isText_implementation (h : Loads t inv x) : IsText x.implementation :=
  C.isText_implementationText _ (isText_header_of_chooseManifest h.manifest) (isText_bytes _)

theorem Loads.isText_of_mem_outputs (h : Loads t inv x) {output : Bytes × Bytes}
    (houtput : output ∈ x.outputs inv.workDir) : IsText output.2 := by
  simp only [Load.outputs, List.mem_cons, List.not_mem_nil, or_false] at houtput
  rcases houtput with rfl | rfl
  · exact C.isText_headerText _ _
  · exact h.isText_implementation

theorem isText_stdout_run (t : FileTree) (inv : Invocation) : IsText (run t inv).stdout := by
  rcases (effect_run t inv).stdout_cases with hnone | ⟨s, -, -, hhelp⟩ | ⟨x, hloads, -, -, hprinted⟩
  · rw [hnone]
    exact isText_nil
  · rw [hhelp]
    exact isText_flatMap fun line _ => (isText_bytes line).append (isText_bytes _)
  · rw [hprinted]
    exact (C.isText_headerText _ _).append hloads.isText_implementation

/-- What stands in a file after a run stood there before or is well-formed, but that a file which
could not be written to its end has only the beginning of a well-formed text. -/
theorem isText_contents_run {l : Location} {data : Bytes}
    (h : (run t inv).tree.contents l = some data) :
    t.contents l = some data ∨ ∃ rest, IsText (data ++ rest) ∧
      (rest = [] ∨ t.faults ≠ [] ∧ ∃ e, (run t inv).failure = some (.output e)) := by
  rcases (effect_run t inv).touched with hsame | ⟨x, written, hloads, hwritten, hfront, htouched⟩
  · rw [hsame] at h
    exact Or.inl h
  · have hl := htouched l
    unfold FileTree.contents at h ⊢
    generalize (run t inv).tree.lookup l = after at h hl
    generalize t.lookup l = before at hl ⊢
    cases hl with
    | kept => exact Or.inl h
    | @written path _ _ hmem _ _ =>
      cases h
      right
      have hwhole : (path, data) ∈ x.outputs inv.workDir → IsText (data ++ []) := by
        intro houtput
        rw [List.append_nil]
        exact hloads.isText_of_mem_outputs houtput
      rcases hwritten with rfl | ⟨e, hfailed, hinterrupted⟩
      · exact ⟨[], hwhole hmem, Or.inl rfl⟩
      · by_cases hfaults : t.faults = []
        · exact ⟨[], hwhole ((hfront hfaults).subset hmem), Or.inl rfl⟩
        · obtain ⟨whole, houtput, rest, hrest⟩ := hinterrupted.exists_mem hmem
          refine ⟨rest, ?_, Or.inr ⟨hfaults, e, hfailed⟩⟩
          rw [hrest]
          exact hloads.isText_of_mem_outputs houtput
    | made _ _ => cases h

/-- Out of a source and names that are well-formed UTF-8 comes nothing but well-formed UTF-8: the
parts of the functions, the diagnostics, the generated files. The guess of an encoding makes
well-formed text of any data. So what a run prints and writes is well-formed, whatever stands in the
files that it reads; only a file that could not be written to its end may stop inside a
character. -/
theorem generated_text_isValid (source : Bytes) (naming : C.Naming)
    (hsource : isValid source = true) (hheader : isValid naming.header = true)
    (hgenerator : isValid naming.generator = true) :
    (∀ u ∈ Ada.units source,
      isValid u.name = true ∧ isValid u.params = true ∧ isValid u.returnType = true ∧
        isValid u.body = true ∧
        ∀ p ∈ Ada.Parameter.parse u.params, isValid p.name = true ∧ isValid p.type = true) ∧
    (∀ file, ∀ d ∈ (FileResult.ofSource file source).diagnostics,
      isValid d.function = true ∧ isValid d.message = true ∧ isValid d.context = true) ∧
    (isValid (Artifacts.ofText source naming).header = true ∧
      isValid (Artifacts.ofText source naming).implementation = true) ∧
    (∀ data tables, ∃ text,
      Encoding.decode data Encoding.auto tables = .ok text ∧ isValid text = true) ∧
    ∀ t inv, isValid (run t inv).stdout = true ∧
      (∀ x, Loads t inv x → (∀ f ∈ x.files, isValid f.content = true) ∧
        ∀ output ∈ x.outputs inv.workDir, isValid output.2 = true) ∧
      ∀ l data, (run t inv).tree.contents l = some data →
        t.contents l = some data ∨ ∃ rest, isValid (data ++ rest) = true ∧
          (rest = [] ∨ t.faults ≠ [] ∧ ∃ e, (run t inv).failure = some (.output e)) := by
  simp only [isValid_iff] at *
  refine ⟨?_, ?_, ⟨C.isText_headerText _ _, ?_⟩, ?_, ?_⟩
  · intro u hu
    obtain ⟨hname, hparams, hreturnType, hbody⟩ := Ada.wellFormed_of_mem_units hsource hu
    exact ⟨hname, hparams, hreturnType, hbody,
      fun p hp => Ada.Parameter.isText_of_mem_parse hparams hp⟩
  · intro file d hd
    exact isText_of_mem_diagnostics hsource hd
  · exact C.isText_implementationText _ hheader hgenerator
  · intro data tables
    exact ⟨_, rfl, Encoding.isText_readAuto data⟩
  · intro t inv
    refine ⟨isText_stdout_run t inv, ?_, fun l data => isText_contents_run⟩
    intro x hloads
    exact ⟨fun f => hloads.isText_content, fun output => hloads.isText_of_mem_outputs⟩

/-- A name that starts with the Kelvin sign, the keyword `is` and another name with the long s, and
letters of two bytes in a parameter and in a body. -/
theorem generated_text_isValid_folded_letters :
    let source :=
      bytes "function Kelvin (Größe : T) return T iſ -- ° end Kelvin; function ſ (β : T)"
    let naming : C.Naming := { header := bytes "é.h" }
    isValid source = true ∧ (Ada.units source).map (·.name) = [bytes "Kelvin"] ∧
      (FileResult.ofSource [] source).diagnostics.map (·.function) = [bytes "ſ"] ∧
      (∀ u ∈ Ada.units source, isValid u.body = true) ∧
      (∀ d ∈ (FileResult.ofSource [] source).diagnostics, isValid d.context = true) ∧
      isValid (Artifacts.ofText source naming).implementation = true := by
  intro source naming
  have hsource : isValid source = true := by decide +kernel
  obtain ⟨hunits, hdiagnostics, ⟨-, himplementation⟩, -⟩ :=
    generated_text_isValid source naming hsource (by decide +kernel) (by decide +kernel)
  refine ⟨hsource, by decide +kernel, by decide +kernel, ?_, ?_, himplementation⟩
  · exact fun u hu => (hunits u hu).2.2.2.1
  · exact fun d hd => (hdiagnostics [] d hd).2.2

end Run

end AdaToC
