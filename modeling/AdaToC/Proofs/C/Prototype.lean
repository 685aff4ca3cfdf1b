import AdaToC.Proofs.Ada.Parameters
import AdaToC.Proofs.Artifacts
import AdaToC.Proofs.Text.Pieces
import AdaToC.Proofs.Traversal

/-!
# Prototypes and reading them back from a header

A prototype is what a header says of a function: the type of its result, its symbol, and the types
and names of its parameters. `readHeader?` takes the text of a header apart into prototypes. It
knows the fixed lines of a header, but not the name from which the include guard was made.

A header can be read back because of what cannot stand in the names. The text between two separators
of a parameter list holds neither of them, changing it to lower case makes no separator, and a
symbol is made from a word. Everything else may stand in a name, also a parenthesis or a line feed.
-/

namespace AdaToC

namespace C

structure Declared where
  type : CType
  name : Bytes
  deriving DecidableEq, Repr

structure Prototype where
  returnType : CType
  symbol : Bytes
  params : List Declared
  deriving DecidableEq, Repr

def Declared.text (p : Declared) : Bytes :=
  p.type.spelling ++ bytes " " ++ p.name

namespace Prototype

def parameterText (p : Prototype) : Bytes :=
  match p.params with
  | [] => bytes "void"
  | params => Bytes.joinWith (bytes ", ") (params.map Declared.text)

def text (p : Prototype) : Bytes :=
  p.returnType.spelling ++ bytes " " ++ p.symbol ++ bytes "(" ++ p.parameterText ++ bytes ")"

end Prototype

/-! ## Reading -/

def CType.ofSpelling? (s : Bytes) : Option CType :=
  CType.all.find? (·.spelling == s)

def Declared.read? (s : Bytes) : Option Declared := do
  let (type, name) ← s.cut? 0x20
  let type ← CType.ofSpelling? type
  some ⟨type, name⟩

def Prototype.readParameters? (s : Bytes) : Option (List Declared) :=
  if s = bytes "void" then some []
  else (s.split 0x2C).mapM fun piece => Declared.read? (piece.dropWhile (· == 0x20))

/-- Reads a prototype without the semicolon. Its last byte closes the parameter list, whatever
parentheses stand before. -/
def Prototype.read? (s : Bytes) : Option Prototype := do
  let (type, s) ← s.cut? 0x20
  let returnType ← CType.ofSpelling? type
  let (symbol, s) ← s.cut? 0x28
  if s.getLast? = some 0x29 then
    let params ← Prototype.readParameters? s.dropLast
    some ⟨returnType, symbol, params⟩
  else none

/-- The lines of a header in front of the prototypes, but for the two with the guard. -/
def linkage : Bytes :=
  bytes "\n#ifdef __cplusplus\nextern \"C\" \x7b\n#endif\n\n"

/-- The lines of a header behind the prototypes. -/
def trailer (guard : Bytes) : Bytes :=
  bytes "\n#ifdef __cplusplus\n\x7d\n#endif\n\n#endif /* " ++ guard ++ bytes " */\n"

/-- Reads the prototypes of a header: what stands before the semicolons behind the first lines. -/
def readHeader? (s : Bytes) : Option (List Prototype) := do
  let (_, s) ← s.cut? 0x0A
  let (_, s) ← s.cut? 0x0A
  let s ← s.dropPrefix? linkage
  (Bytes.split 0x3B s).dropLast.mapM fun piece => Prototype.read? (piece.dropWhile (· == 0x0A))

end C

namespace Function

def prototype (f : Function) : C.Prototype where
  returnType := C.CType.ofAda f.returnType
  symbol := f.symbol
  params := f.params.map fun p => ⟨C.CType.ofAda p.type, p.name.lower⟩

theorem declaration_eq_text (f : Function) : f.declaration = f.prototype.text := by
  have hparams : f.parameterList = f.prototype.parameterText := by
    unfold parameterList C.Prototype.parameterText prototype
    cases f.params with
    | nil => rfl
    | cons p ps =>
      simp only [List.map_cons, List.map_map]
      rfl
  rw [declaration, hparams]
  rfl

end Function

namespace C

/-! ## Prototypes that can be read back -/

/-- No separator of the header stands where it would be taken for one. -/
structure Prototype.Separable (p : Prototype) : Prop where
  symbol_paren : 0x28 ∉ p.symbol
  symbol_semicolon : 0x3B ∉ p.symbol
  comma : ∀ q ∈ p.params, 0x2C ∉ q.name
  semicolon : ∀ q ∈ p.params, 0x3B ∉ q.name

theorem CType.ofSpelling?_spelling (t : CType) : CType.ofSpelling? t.spelling = some t := by
  cases t <;> decide

theorem CType.not_mem_spelling (t : CType) {b : UInt8} (hb : b.toNat < 0x2A ∨ b.toNat = 0x2C ∨
    b.toNat = 0x3B) : b ∉ t.spelling := by
  have hall : t.spelling.all (fun d => 0x2A ≤ d.toNat && d.toNat != 0x2C && d.toNat != 0x3B) := by
    cases t <;> decide
  intro hmem
  have hd := List.all_eq_true.mp hall b hmem
  simp only [Bool.and_eq_true, decide_eq_true_eq, bne_iff_ne] at hd
  omega

theorem CType.head_spelling (t : CType) : ∃ b s, t.spelling = b :: s ∧ 0x61 ≤ b.toNat := by
  cases t
  · exact ⟨0x66, bytes "loat", by decide, by decide⟩
  · exact ⟨0x69, bytes "nt", by decide, by decide⟩
  · exact ⟨0x62, bytes "ool", by decide, by decide⟩
  · exact ⟨0x63, bytes "har*", by decide, by decide⟩

theorem dropWhile_spelling {b : UInt8} (hb : b.toNat < 0x61) (t : CType) (s : Bytes) :
    (t.spelling ++ s).dropWhile (· == b) = t.spelling ++ s := by
  obtain ⟨first, rest, hspelling, hfirst⟩ := t.head_spelling
  have hne : first ≠ b := by
    rintro rfl
    omega
  rw [hspelling, List.cons_append, List.dropWhile_cons_of_neg]
  simpa using hne

theorem cut?_spelling (t : CType) (s : Bytes) :
    Bytes.cut? 0x20 (t.spelling ++ bytes " " ++ s) = some (t.spelling, s) := by
  rw [List.append_assoc, show bytes " " ++ s = 0x20 :: s from rfl]
  exact Bytes.cut?_append_cons (t.not_mem_spelling (by decide)) s

theorem Declared.read?_text (p : Declared) : Declared.read? p.text = some p := by
  rw [Declared.read?, Declared.text, cut?_spelling]
  simp [CType.ofSpelling?_spelling]

theorem Declared.not_mem_text {p : Declared} {b : UInt8} (hb : b = 0x2C ∨ b = 0x3B)
    (hname : b ∉ p.name) : b ∉ p.text := by
  rw [Declared.text, show bytes " " = [0x20] from by decide]
  simp only [List.mem_append, List.mem_singleton, not_or]
  rcases hb with rfl | rfl
  · exact ⟨⟨p.type.not_mem_spelling (by decide), by decide⟩, hname⟩
  · exact ⟨⟨p.type.not_mem_spelling (by decide), by decide⟩, hname⟩

theorem Declared.blank_mem_text (p : Declared) : 0x20 ∈ p.text := by
  rw [Declared.text, show bytes " " = [0x20] from by decide]
  simp

/-- A reader that passes over a byte in front does not care if it stands before some of the
pieces. -/
theorem mapM_padded {α : Type} (read : Bytes → Option α) (pad : UInt8) (piece : Bytes)
    (pieces : List Bytes) :
    (piece :: pieces.map ([pad] ++ ·)).mapM (fun p => read (p.dropWhile (· == pad))) =
      (piece :: pieces).mapM fun p => read (p.dropWhile (· == pad)) := by
  have hpad : ∀ p : Bytes, ([pad] ++ p).dropWhile (· == pad) = p.dropWhile (· == pad) := by
    intro p
    rw [List.singleton_append, List.dropWhile_cons_of_pos (by simp)]
  rw [List.mapM_cons, List.mapM_cons, List.mapM_map]
  simp only [Function.comp_def, hpad]

theorem Prototype.readParameters?_text {p : Prototype} (hcomma : ∀ q ∈ p.params, 0x2C ∉ q.name) :
    Prototype.readParameters? p.parameterText = some p.params := by
  unfold Prototype.parameterText
  cases hparams : p.params with
  | nil => decide
  | cons q qs =>
    rw [hparams] at hcomma
    have hfree : ∀ piece ∈ q.text :: qs.map Declared.text, 0x2C ∉ piece := by
      intro piece hpiece
      rw [← List.map_cons, List.mem_map] at hpiece
      obtain ⟨r, hr, rfl⟩ := hpiece
      exact Declared.not_mem_text (Or.inl rfl) (hcomma r hr)
    have hsplit : Bytes.split 0x2C
        (Bytes.joinWith (0x2C :: [0x20]) (q.text :: qs.map Declared.text)) =
        q.text :: (qs.map Declared.text).map ([0x20] ++ ·) :=
      Bytes.split_joinWith (by decide) hfree
    -- a declaration holds a blank, so the list is not taken for an empty one
    have hvoid : Bytes.joinWith (bytes ", ") ((q :: qs).map Declared.text) ≠ bytes "void" := by
      intro hvoid
      rw [List.map_cons, show bytes ", " = 0x2C :: [0x20] from by decide] at hvoid
      rw [hvoid, show Bytes.split 0x2C (bytes "void") = [bytes "void"] from by decide] at hsplit
      have hblank := q.blank_mem_text
      rw [← (List.cons.inj hsplit).1] at hblank
      exact absurd hblank (by decide)
    have hread : ∀ r : Declared, Declared.read? (r.text.dropWhile (· == 0x20)) = some r := by
      intro r
      rw [Declared.text, List.append_assoc, dropWhile_spelling (by decide), ← List.append_assoc]
      exact r.read?_text
    simp only [Prototype.readParameters?, if_neg hvoid]
    rw [List.map_cons, show bytes ", " = 0x2C :: [0x20] from by decide, hsplit, mapM_padded,
      ← List.map_cons]
    exact mapM_map_eq_some fun r _ => hread r

theorem Prototype.read?_text {p : Prototype} (h : p.Separable) :
    Prototype.read? p.text = some p := by
  have hopen : bytes "(" ++ p.parameterText ++ bytes ")" =
      0x28 :: (p.parameterText ++ [0x29]) := rfl
  have htext : p.text = p.returnType.spelling ++ bytes " " ++
      (p.symbol ++ 0x28 :: (p.parameterText ++ [0x29])) := by
    rw [Prototype.text, ← hopen]
    simp only [List.append_assoc]
  rw [htext, Prototype.read?, cut?_spelling]
  simp [CType.ofSpelling?_spelling, Bytes.cut?_append_cons h.symbol_paren,
    Prototype.readParameters?_text h.comma]

theorem Prototype.semicolon_not_mem_text {p : Prototype} (h : p.Separable) : 0x3B ∉ p.text := by
  have hparams : 0x3B ∉ p.parameterText := by
    unfold Prototype.parameterText
    split
    · decide
    · intro hmem
      rcases Bytes.mem_joinWith hmem with hsep | ⟨piece, hpiece, hb⟩
      · exact absurd hsep (by decide)
      · obtain ⟨q, hq, rfl⟩ := List.mem_map.mp hpiece
        exact Declared.not_mem_text (Or.inr rfl) (h.semicolon q hq) hb
  rw [Prototype.text, show bytes " " = [0x20] from by decide,
    show bytes "(" = [0x28] from by decide, show bytes ")" = [0x29] from by decide]
  simp [hparams, h.symbol_semicolon, p.returnType.not_mem_spelling]

/-! ## What stands in the names of a function -/

end C

theorem Ada.Parameter.not_mem_name {raw : Bytes} {p : Ada.Parameter}
    (hp : p ∈ Ada.Parameter.parse raw) : 0x2C ∉ p.name ∧ 0x3B ∉ p.name := by
  rw [Ada.Parameter.parse_eq_flatMap] at hp
  obtain ⟨group, hgroup, hp⟩ := List.mem_flatMap.mp hp
  unfold Ada.Parameter.ofGroup at hp
  split at hp
  · cases hp
  · next names type hcut =>
    obtain ⟨name, hname, rfl⟩ := List.mem_map.mp hp
    obtain ⟨hcomma, hsub⟩ := Bytes.mem_split hname
    refine ⟨fun h => hcomma (Bytes.mem_of_mem_trim h), fun h => ?_⟩
    -- the name stands in its group, and the groups are cut at the semicolons
    exact (Bytes.mem_split hgroup).1 (Bytes.mem_of_cut? hcut (hsub _ (Bytes.mem_of_mem_trim h)))

theorem Ada.isWord_name_of_mem_units {source : Bytes} {u : Ada.FunctionUnit}
    (hu : u ∈ Ada.units source) : Ada.IsWord u.name := by
  obtain ⟨d, -, hd⟩ := (Ada.scanned_scanFrom 0 source).exists_tight u hu
  rw [← hd]
  exact d.opening.name_word

theorem separable_of_mem_functionsOf {source : Bytes} {f : Function} (hf : f ∈ functionsOf source) :
    f.prototype.Separable := by
  obtain ⟨u, hu, rfl⟩ := List.mem_map.mp hf
  have hsymbol : ∀ b : UInt8, Ada.isWordByte b = false → b < 0x80 → b.toNat < 0x61 →
      b ∉ (Function.ofUnit u).symbol := by
    intro b hword hb hmark hmem
    -- a symbol is a fixed word and the name of the function in lower case
    rcases List.mem_append.mp hmem with hfront | hname
    · have hfixed : (bytes "ada_").all Ada.isWordByte := by decide
      rw [List.all_eq_true.mp hfixed b hfront] at hword
      cases hword
    · exact (Ada.isWord_name_of_mem_units hu).not_mem hword hb
        (Bytes.mem_of_mem_lower hb (Or.inl hmark) hname)
  have hlower : ∀ q ∈ (Function.ofUnit u).prototype.params, ∃ p ∈ Ada.Parameter.parse u.params,
      q.name = p.name.lower := by
    intro q hq
    obtain ⟨p, hp, rfl⟩ := List.mem_map.mp hq
    exact ⟨p, hp, rfl⟩
  constructor
  · exact hsymbol 0x28 (by decide) (by decide) (by decide)
  · exact hsymbol 0x3B (by decide) (by decide) (by decide)
  · intro q hq hmem
    obtain ⟨p, hp, hname⟩ := hlower q hq
    rw [hname] at hmem
    exact (Ada.Parameter.not_mem_name hp).1
      (Bytes.mem_of_mem_lower (by decide) (Or.inl (by decide)) hmem)
  · intro q hq hmem
    obtain ⟨p, hp, hname⟩ := hlower q hq
    rw [hname] at hmem
    exact (Ada.Parameter.not_mem_name hp).2
      (Bytes.mem_of_mem_lower (by decide) (Or.inl (by decide)) hmem)

theorem separable_prototypes {fns : List Function}
    (hfns : ∀ f ∈ fns, ∃ source, f ∈ functionsOf source) :
    ∀ p ∈ fns.map Function.prototype, p.Separable := by
  intro p hp
  obtain ⟨f, hf, rfl⟩ := List.mem_map.mp hp
  obtain ⟨source, hsource⟩ := hfns f hf
  exact separable_of_mem_functionsOf hsource

namespace C

/-! ## Headers -/

theorem guardChar_range (c : Char) : (guardChar c).toNat = 0x5F ∨
    (0x41 ≤ (guardChar c).toNat ∧ (guardChar c).toNat ≤ 0x5A) ∨
    (0x30 ≤ (guardChar c).toNat ∧ (guardChar c).toNat ≤ 0x39) := by
  unfold guardChar
  split
  · next h =>
    simp only [Bool.or_eq_true, Bool.and_eq_true, decide_eq_true_eq, beq_iff_eq, Char.le_def,
      UInt32.le_iff_toNat_le] at h
    rcases h with (⟨hlo, hhi⟩ | rfl) | ⟨hlo, hhi⟩
    · exact Or.inr (Or.inl ⟨hlo, hhi⟩)
    · exact Or.inl rfl
    · exact Or.inr (Or.inr ⟨hlo, hhi⟩)
  · exact Or.inl rfl

/-- An include guard is made of letters, digits and underscores. -/
theorem isWordByte_of_mem_includeGuard {header : Bytes} {b : UInt8} (hb : b ∈ includeGuard header) :
    Ada.isWordByte b := by
  obtain ⟨c, hc, hbc⟩ := List.mem_flatMap.mp hb
  -- an underscore in front of a digit is what `guardChar` makes of itself
  obtain ⟨d, rfl⟩ : ∃ d, c = guardChar d := by
    rcases List.mem_append.mp hc with hlead | hname
    · refine ⟨'_', ?_⟩
      split at hlead
      · split at hlead
        · exact List.mem_singleton.mp hlead
        · cases hlead
      · cases hlead
    · obtain ⟨d, -, rfl⟩ := List.mem_map.mp hname
      exact ⟨d, rfl⟩
  have hrange := guardChar_range d
  obtain ⟨e, he, hbyte⟩ := exists_byte_of_ascii (c := guardChar d) (by omega)
  rw [hbyte, encode_ofNat_byte he, List.mem_singleton] at hbc
  rw [hbyte, toNat_ofNat_byte] at hrange
  rw [hbc, Ada.isWordByte_iff]
  omega

theorem not_mem_includeGuard (header : Bytes) {b : UInt8} (hb : Ada.isWordByte b = false) :
    b ∉ includeGuard header := by
  intro hmem
  rw [isWordByte_of_mem_includeGuard hmem] at hb
  cases hb

/-- Pieces that each end with a semicolon and a line feed are split at the semicolons. -/
theorem split_terminated {lead : Bytes} (hlead : 0x3B ∉ lead) {piece : Bytes} {pieces : List Bytes}
    (h : ∀ p ∈ piece :: pieces, 0x3B ∉ p) {tail : Bytes} (htail : 0x3B ∉ tail) :
    Bytes.split 0x3B (lead ++ ((piece :: pieces).flatMap (· ++ bytes ";\n") ++ tail)) =
      (lead ++ piece) :: (pieces.map ([0x0A] ++ ·) ++ [[0x0A] ++ tail]) := by
  have hfirst : 0x3B ∉ lead ++ piece := by
    rw [List.mem_append, not_or]
    exact ⟨hlead, h piece List.mem_cons_self⟩
  have hcut : lead ++ ((piece :: pieces).flatMap (· ++ bytes ";\n") ++ tail) =
      (lead ++ piece) ++ 0x3B :: ([0x0A] ++ (pieces.flatMap (· ++ bytes ";\n") ++ tail)) := by
    rw [List.flatMap_cons, show bytes ";\n" = [0x3B, 0x0A] from by decide]
    simp only [List.append_assoc, List.cons_append, List.nil_append]
  rw [hcut, Bytes.split_append_cons hfirst]
  congr 1
  -- the line feed now leads the next piece
  cases pieces with
  | nil =>
    rw [List.flatMap_nil, List.nil_append, Bytes.split_of_not_mem (by simp [htail])]
    rfl
  | cons next pieces =>
    rw [split_terminated (by decide) (fun p hp => h p (List.mem_cons_of_mem _ hp)) htail]
    rfl

theorem headerText_eq (fns : List Function) (naming : Naming) :
    headerText fns naming =
      (bytes "#ifndef " ++ includeGuard naming.complete.header) ++ 0x0A ::
        ((bytes "#define " ++ includeGuard naming.complete.header) ++ 0x0A ::
          (linkage ++ (((fns.map Function.prototype).map Prototype.text).flatMap
            (· ++ bytes ";\n") ++ trailer (includeGuard naming.complete.header)))) := by
  have hdefine : bytes "\n#define " = 0x0A :: bytes "#define " := by decide
  have hlinkage : bytes "\n\n#ifdef __cplusplus\nextern \"C\" \x7b\n#endif\n\n" =
      0x0A :: linkage := by decide
  simp only [headerText, trailer, hdefine, hlinkage, Function.declaration_eq_text,
    List.flatMap_map, List.append_assoc, List.cons_append]

theorem semicolon_not_mem_trailer (header : Bytes) : 0x3B ∉ trailer (includeGuard header) := by
  unfold trailer
  rw [List.mem_append, List.mem_append, not_or, not_or]
  refine ⟨⟨?_, not_mem_includeGuard header (by decide)⟩, ?_⟩
  · decide
  · decide

theorem newline_not_mem_guardLine (header : Bytes) {front : Bytes} (hfront : 0x0A ∉ front) :
    0x0A ∉ front ++ includeGuard header := by
  rw [List.mem_append, not_or]
  exact ⟨hfront, not_mem_includeGuard header (by decide)⟩

theorem read_terminated {ps : List Prototype} (h : ∀ p ∈ ps, p.Separable) {tail : Bytes}
    (htail : 0x3B ∉ tail) :
    (Bytes.split 0x3B ((ps.map Prototype.text).flatMap (· ++ bytes ";\n") ++ tail)).dropLast.mapM
      (fun piece => Prototype.read? (piece.dropWhile (· == 0x0A))) = some ps := by
  have hread : ∀ p ∈ ps, Prototype.read? (p.text.dropWhile (· == 0x0A)) = some p := by
    intro p hp
    have hfront : p.text.dropWhile (· == 0x0A) = p.text := by
      rw [Prototype.text]
      simp only [List.append_assoc]
      exact dropWhile_spelling (by decide) _ _
    rw [hfront, Prototype.read?_text (h p hp)]
  have hpieces : ∀ piece ∈ ps.map Prototype.text, 0x3B ∉ piece := by
    intro piece hpiece
    obtain ⟨p, hp, rfl⟩ := List.mem_map.mp hpiece
    exact Prototype.semicolon_not_mem_text (h p hp)
  cases ps with
  | nil =>
    rw [List.map_nil, List.flatMap_nil, List.nil_append, Bytes.split_of_not_mem htail]
    rfl
  | cons p ps =>
    have hsplit : Bytes.split 0x3B (((p :: ps).map Prototype.text).flatMap (· ++ bytes ";\n") ++
        tail) = _ := split_terminated List.not_mem_nil hpieces htail
    rw [hsplit, List.nil_append, ← List.cons_append, List.dropLast_concat, mapM_padded,
      ← List.map_cons]
    exact mapM_map_eq_some hread

theorem readHeader?_headerText {fns : List Function} (naming : Naming)
    (h : ∀ p ∈ fns.map Function.prototype, p.Separable) :
    readHeader? (headerText fns naming) = some (fns.map Function.prototype) := by
  rw [headerText_eq, readHeader?,
    Bytes.cut?_append_cons (newline_not_mem_guardLine _ (by decide))]
  simp only [Option.bind_eq_bind, Option.bind_some]
  rw [Bytes.cut?_append_cons (newline_not_mem_guardLine _ (by decide))]
  simp only [Option.bind_some]
  rw [Bytes.dropPrefix?_eq_some_iff_append.mpr rfl, Option.bind_some]
  exact read_terminated h (semicolon_not_mem_trailer _)

/-! ## Counting prototypes -/

end C

/-- The number of places where `piece` stands in a text. -/
def Bytes.occurrences (piece : Bytes) : Bytes → Nat
  | [] => if piece.isEmpty then 1 else 0
  | b :: rest => (if piece.isPrefixOf (b :: rest) then 1 else 0) + occurrences piece rest

namespace C

theorem occurrences_cons {b : UInt8} (hb : b ≠ 0x29) (t : Bytes) :
    Bytes.occurrences (bytes ");\n") (b :: t) = Bytes.occurrences (bytes ");\n") t := by
  have hnone : (bytes ");\n").isPrefixOf (b :: t) = false := by
    rw [show bytes ");\n" = [0x29, 0x3B, 0x0A] from by decide]
    simp [List.isPrefixOf, Ne.symm hb]
  rw [Bytes.occurrences, hnone]
  simp

theorem occurrences_end (t : Bytes) :
    Bytes.occurrences (bytes ");\n") (0x29 :: 0x3B :: 0x0A :: t) =
      Bytes.occurrences (bytes ");\n") t + 1 := by
  have hsome : (bytes ");\n").isPrefixOf (0x29 :: 0x3B :: 0x0A :: t) = true := by
    rw [show bytes ");\n" = [0x29, 0x3B, 0x0A] from by decide]
    simp [List.isPrefixOf]
  rw [Bytes.occurrences, hsome, occurrences_cons (by decide), occurrences_cons (by decide)]
  simp [Nat.add_comm]

/-- Text without a semicolon adds no end of a prototype, if no semicolon comes next. -/
theorem occurrences_append {s t : Bytes} (hs : 0x3B ∉ s) (ht : t.head? ≠ some 0x3B) :
    Bytes.occurrences (bytes ");\n") (s ++ t) = Bytes.occurrences (bytes ");\n") t := by
  induction s with
  | nil => rfl
  | cons b s ih =>
    rw [List.mem_cons, not_or] at hs
    have hnext : (s ++ t).head? ≠ some 0x3B := by
      cases s with
      | nil => exact ht
      | cons d s =>
        intro hhead
        rw [List.cons_append, List.head?_cons, Option.some.injEq] at hhead
        exact hs.2 (hhead ▸ List.mem_cons_self)
    have hnone : (bytes ");\n").isPrefixOf (b :: (s ++ t)) = false := by
      rw [show bytes ");\n" = [0x29, 0x3B, 0x0A] from by decide]
      generalize s ++ t = rest at hnext
      cases rest with
      | nil => simp [List.isPrefixOf]
      | cons d rest =>
        rw [List.head?_cons, ne_eq, Option.some.injEq] at hnext
        simp [List.isPrefixOf, Ne.symm hnext]
    rw [List.cons_append, Bytes.occurrences, hnone, ih hs.2]
    simp

theorem occurrences_terminated {ps : List Prototype} (h : ∀ p ∈ ps, p.Separable) {tail : Bytes}
    (htail : 0x3B ∉ tail) :
    Bytes.occurrences (bytes ");\n") ((ps.map Prototype.text).flatMap (· ++ bytes ";\n") ++ tail) =
      ps.length := by
  induction ps with
  | nil =>
    have hnone := occurrences_append (t := []) htail (by simp)
    rw [List.append_nil] at hnone
    rw [List.map_nil, List.flatMap_nil, List.nil_append, hnone]
    rfl
  | cons p ps ih =>
    have hfree := Prototype.semicolon_not_mem_text (h p List.mem_cons_self)
    -- parentheses in the names do not count, only the last one stands before a semicolon
    obtain ⟨front, hfront⟩ : ∃ front, p.text = front ++ [0x29] := ⟨_, rfl⟩
    rw [hfront, List.mem_append, not_or] at hfree
    have hcut : ((p :: ps).map Prototype.text).flatMap (· ++ bytes ";\n") ++ tail =
        front ++ 0x29 :: 0x3B :: 0x0A ::
          ((ps.map Prototype.text).flatMap (· ++ bytes ";\n") ++ tail) := by
      rw [List.map_cons, List.flatMap_cons, hfront, show bytes ";\n" = [0x3B, 0x0A] from by decide]
      simp only [List.append_assoc, List.cons_append, List.nil_append]
    rw [hcut, occurrences_append hfree.1 (by simp), occurrences_end,
      ih fun q hq => h q (List.mem_cons_of_mem _ hq), List.length_cons]

theorem occurrences_headerText {fns : List Function} (naming : Naming)
    (h : ∀ p ∈ fns.map Function.prototype, p.Separable) :
    Bytes.occurrences (bytes ");\n") (headerText fns naming) = fns.length := by
  have hguard := not_mem_includeGuard naming.complete.header (b := 0x3B) (by decide)
  have hifndef : 0x3B ∉ bytes "#ifndef " ++ includeGuard naming.complete.header := by
    rw [List.mem_append, not_or]
    exact ⟨by decide, hguard⟩
  have hdefine : 0x3B ∉ bytes "#define " ++ includeGuard naming.complete.header := by
    rw [List.mem_append, not_or]
    exact ⟨by decide, hguard⟩
  have hlinkage : linkage = linkage.dropLast ++ [0x0A] := by decide
  rw [headerText_eq, occurrences_append hifndef (by simp), occurrences_cons (by decide),
    occurrences_append hdefine (by simp), occurrences_cons (by decide), hlinkage,
    List.append_assoc, occurrences_append (by decide) (by simp), List.singleton_append,
    occurrences_cons (by decide), occurrences_terminated h (semicolon_not_mem_trailer _),
    List.length_map]

/-- The header can be read back, whatever the texts from which its functions come: its text and
nothing else gives the prototypes of the functions in order. So two lists of functions with the same
header have the same prototypes, and a header has one end of a prototype for each function. -/
theorem header_uniquely_decodable (fns : List Function) (naming : Naming)
    (hfns : ∀ f ∈ fns, ∃ source, f ∈ functionsOf source) :
    readHeader? (headerText fns naming) = some (fns.map Function.prototype) ∧
      Bytes.occurrences (bytes ");\n") (headerText fns naming) = fns.length ∧
      ∀ (others : List Function) (naming' : Naming),
        (∀ f ∈ others, ∃ source, f ∈ functionsOf source) →
        headerText others naming' = headerText fns naming →
        others.map Function.prototype = fns.map Function.prototype := by
  have hread := readHeader?_headerText naming (separable_prototypes hfns)
  refine ⟨hread, occurrences_headerText naming (separable_prototypes hfns), ?_⟩
  intro others naming' hothers hsame
  -- the reader is told neither naming, so it gives both lists for the one text
  have hread' := readHeader?_headerText naming' (separable_prototypes hothers)
  rw [hsame, hread] at hread'
  exact (Option.some.inj hread').symm

/-- A text whose parameters hold parentheses, a line feed, empty names and a byte that is no
character: the last group has no colon and declares nothing. -/
theorem header_uniquely_decodable_stray_marks :
    let source := bytes "function F (A) (,\n, B" ++ [0xFF] ++
      bytes "--( : Integer; : Boolean; C) return Float is begin null; end F;\n" ++
      bytes "function G () return String is begin null; end G;"
    readHeader? (headerText (functionsOf source) {}) =
        some [⟨.float, bytes "ada_f", [⟨.int, bytes "a) ("⟩, ⟨.int, []⟩,
            ⟨.int, bytes "b\uFFFD--("⟩, ⟨.bool, []⟩]⟩,
          ⟨.charPointer, bytes "ada_g", []⟩] ∧
      Bytes.occurrences (bytes ");\n") (headerText (functionsOf source) {}) = 2 := by
  intro source
  have hdecode := header_uniquely_decodable (functionsOf source) {} fun f hf => ⟨source, hf⟩
  refine ⟨hdecode.1.trans ?_, hdecode.2.1.trans ?_⟩
  · decide +kernel
  · decide +kernel

end C

end AdaToC
