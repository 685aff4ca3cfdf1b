import AdaToC.Proofs.Ada.Words

/-!
# The grammar of function definitions

A definition is described by its pieces, each of them a text with the proof that it is of the
right kind:

    function NAME ( PARAMETERS ) return TYPE is BODY end NAME;

`Opening` is the part up to the parenthesis, `ReturnClause` the part from `)` to `is`, `Closing`
the part from `end` on. `Definition` puts them together around two texts that may be anything.
Nothing here says which definition is meant where a text can be cut in several ways.

The readers of the scanner are then shown to accept exactly the texts of these pieces.
-/

namespace AdaToC.Ada

/-- What starts a definition: `function NAME (`. -/
structure Opening where
  keyword : Bytes
  gap : Bytes
  name : Bytes
  gapBehind : Bytes
  keyword_eq : keyword.equalFold (bytes "function")
  gap_ne : gap ≠ []
  gap_blank : IsGap gap
  name_word : IsWord name
  gapBehind_blank : IsGap gapBehind

def Opening.text (o : Opening) : Bytes :=
  o.keyword ++ o.gap ++ o.name ++ o.gapBehind ++ [0x28]

/-- What stands between parameters and body: `) return TYPE is`. -/
structure ReturnClause where
  gapBefore : Bytes
  keyword : Bytes
  gap : Bytes
  returnType : Bytes
  gapBehind : Bytes
  isKeyword : Bytes
  gapBefore_blank : IsGap gapBefore
  keyword_eq : keyword.equalFold (bytes "return")
  gap_ne : gap ≠ []
  gap_blank : IsGap gap
  returnType_word : IsWord returnType
  gapBehind_ne : gapBehind ≠ []
  gapBehind_blank : IsGap gapBehind
  isKeyword_eq : isKeyword.equalFold (bytes "is")

def ReturnClause.text (c : ReturnClause) : Bytes :=
  [0x29] ++ c.gapBefore ++ c.keyword ++ c.gap ++ c.returnType ++ c.gapBehind ++ c.isKeyword

/-- What ends a definition: `end NAME;`, where the name may be repeated in another letter case. -/
structure Closing (name : Bytes) where
  keyword : Bytes
  gap : Bytes
  again : Bytes
  keyword_eq : keyword.equalFold (bytes "end")
  gap_ne : gap ≠ []
  gap_blank : IsGap gap
  again_eq : again.equalFold name

def Closing.text {name : Bytes} (c : Closing name) : Bytes :=
  c.keyword ++ c.gap ++ c.again ++ [0x3B]

/-- A function definition, cut into its pieces. -/
structure Definition where
  opening : Opening
  params : Bytes
  clause : ReturnClause
  /-- The white space behind `is`. -/
  gap : Bytes
  body : Bytes
  closing : Closing opening.name
  gap_blank : IsGap gap

namespace Definition

def text (d : Definition) : Bytes :=
  d.opening.text ++ d.params ++ d.clause.text ++ d.gap ++ d.body ++ d.closing.text

/-- The unit that a definition at `offset` amounts to. -/
def unit (d : Definition) (offset : Nat) : FunctionUnit where
  name := d.opening.name
  params := d.params
  returnType := d.clause.returnType
  body := d.body
  offset

end Definition

/-! ## Keywords are words -/

theorem isWord_encodeAll {cs : List Char} (hne : cs ≠ []) (hcs : cs.all isWordChar) :
    IsWord (Utf8.encodeAll cs) :=
  ⟨cs, hne, List.all_eq_true.mp hcs, rfl⟩

theorem isWord_function : IsWord (bytes "function") :=
  @isWord_encodeAll "function".toList (by decide) (by decide)

theorem isWord_return : IsWord (bytes "return") :=
  @isWord_encodeAll "return".toList (by decide) (by decide)

theorem isWord_is : IsWord (bytes "is") :=
  @isWord_encodeAll "is".toList (by decide) (by decide)

theorem isWord_end : IsWord (bytes "end") :=
  @isWord_encodeAll "end".toList (by decide) (by decide)

/-- Stripping a keyword that is its own folded form. -/
theorem strip?_keyword {w s rest : Bytes} (hw : IsWord w) (hself : foldWord w = w) :
    strip? w s = some rest ↔ ∃ t : Bytes, t.equalFold w ∧ s = t ++ rest := by
  rw [← strip?_foldWord_eq_some_iff hw, hself]

/-! ## What may follow a piece

A word ends, and white space is complete, where the next piece starts. These lemmas say so for the
pieces that can come next. -/

theorem word_gap_append {g : Bytes} (hg : IsGap g) (hne : g ≠ []) (s : Bytes) :
    word (g ++ s) = [] := by
  obtain ⟨b, g', rfl⟩ := List.exists_cons_of_ne_nil hne
  obtain ⟨hword, hascii⟩ := not_isWordByte_of_isSpaceByte (hg b List.mem_cons_self)
  exact word_mark hword hascii _

/-- White space, possibly none, and then a mark: no word starts there. -/
theorem word_gap_append_mark {g : Bytes} (hg : IsGap g) {b : UInt8} (hb : isWordByte b = false)
    (hascii : b < 0x80) (s : Bytes) : word (g ++ b :: s) = [] := by
  cases g with
  | nil => exact word_mark hb hascii s
  | cons d g => exact word_gap_append hg (List.cons_ne_nil d g) _

theorem space?_gap_append {g : Bytes} (hg : IsGap g) (hne : g ≠ []) {s : Bytes}
    (hs : skipSpace s = s) : space? (g ++ s) = some s :=
  space?_eq_some_iff.mpr ⟨g, hne, hg, rfl, hs⟩

/-! ## Openings -/

theorem Opening.keyword_word (o : Opening) : IsWord o.keyword :=
  isWord_function.of_equalFold o.keyword_eq

/-- A header is read exactly where an opening stands. -/
theorem Header.read?_eq_some_iff {s : Bytes} {h : Header} :
    Header.read? s = some h ↔ ∃ o : Opening, o.name = h.name ∧ s = o.text ++ h.rest := by
  constructor
  · intro hread
    simp only [Header.read?, Option.bind_eq_bind, Option.bind_eq_some_iff] at hread
    obtain ⟨s₁, hstrip, s₂, hgap, ⟨name, s₃⟩, hname, hmark⟩ := hread
    obtain ⟨keyword, hkeyword, rfl⟩ := (strip?_keyword isWord_function (by decide)).mp hstrip
    obtain ⟨gap, hne, hblank, rfl, -⟩ := space?_eq_some_iff.mp hgap
    obtain ⟨hword, rfl, -⟩ := word?_eq_some_iff.mp hname
    split at hmark
    · next rest hskip =>
      cases hmark
      obtain ⟨gapBehind, hbehind, hs₃⟩ := exists_gap_append_skipSpace s₃
      refine ⟨⟨keyword, gap, name, gapBehind, hkeyword, hne, hblank, hword, hbehind⟩, rfl, ?_⟩
      rw [hs₃, hskip]
      simp [Opening.text]
    · cases hmark
  · rintro ⟨o, hname, rfl⟩
    obtain ⟨name, rest⟩ := h
    cases hname
    have htext : o.text ++ rest =
        o.keyword ++ (o.gap ++ (o.name ++ (o.gapBehind ++ 0x28 :: rest))) := by
      simp [Opening.text]
    have hkeyword : strip? (bytes "function") (o.text ++ rest) =
        some (o.gap ++ (o.name ++ (o.gapBehind ++ 0x28 :: rest))) :=
      (strip?_keyword isWord_function (by decide)).mpr ⟨o.keyword, o.keyword_eq, htext⟩
    have hgap := space?_gap_append o.gap_blank o.gap_ne
      (skipSpace_word_append o.name_word (o.gapBehind ++ 0x28 :: rest))
    have hword : word? (o.name ++ (o.gapBehind ++ 0x28 :: rest)) =
        some (o.name, o.gapBehind ++ 0x28 :: rest) :=
      word?_eq_some_iff.mpr
        ⟨o.name_word, rfl, word_gap_append_mark o.gapBehind_blank (by decide) (by decide) rest⟩
    have hmark : skipSpace (o.gapBehind ++ 0x28 :: rest) = 0x28 :: rest := by
      rw [skipSpace_gap_append o.gapBehind_blank, skipSpace_cons (by decide)]
    simp only [Header.read?, hkeyword, hgap, hword, hmark, Option.bind_eq_bind, Option.bind_some]

/-! ## Return clauses -/

theorem ReturnClause.keyword_word (c : ReturnClause) : IsWord c.keyword :=
  isWord_return.of_equalFold c.keyword_eq

theorem ReturnClause.isKeyword_word (c : ReturnClause) : IsWord c.isKeyword :=
  isWord_is.of_equalFold c.isKeyword_eq

/-- Reads `) return TYPE is` and leaves the white space behind it in place. -/
def clause? : Bytes → Option (Bytes × Bytes)
  | 0x29 :: s => do
    let s ← strip? (bytes "return") (skipSpace s)
    let s ← space? s
    let (returnType, s) ← word? s
    let s ← space? s
    let s ← strip? (bytes "is") s
    some (returnType, s)
  | _ => none

/-- A signature is a return clause and the white space behind it. -/
theorem Signature.read?_eq_map_clause? (s : Bytes) :
    Signature.read? s = (clause? s).map fun (returnType, t) => ⟨returnType, skipSpace t⟩ := by
  unfold Signature.read? clause?
  split
  · simp only [Option.bind_eq_bind, Option.map_bind, Function.comp_def, Option.map_some]
  · simp

/-- A clause is read exactly where one stands. -/
theorem clause?_eq_some_iff {s returnType t : Bytes} :
    clause? s = some (returnType, t) ↔
      ∃ c : ReturnClause, c.returnType = returnType ∧ s = c.text ++ t := by
  constructor
  · intro hread
    unfold clause? at hread
    split at hread
    · next s₀ =>
      simp only [Option.bind_eq_bind, Option.bind_eq_some_iff] at hread
      obtain ⟨s₁, hstrip, s₂, hgap, ⟨w, s₃⟩, htype, s₄, hbehind, s₅, hstrip', heq⟩ := hread
      cases heq
      obtain ⟨gapBefore, hblank, hs₀⟩ := exists_gap_append_skipSpace s₀
      obtain ⟨keyword, hkeyword, hskip⟩ := (strip?_keyword isWord_return (by decide)).mp hstrip
      obtain ⟨gap, hgap_ne, hgap_blank, rfl, -⟩ := space?_eq_some_iff.mp hgap
      obtain ⟨hword, rfl, -⟩ := word?_eq_some_iff.mp htype
      obtain ⟨gapBehind, hbehind_ne, hbehind_blank, rfl, -⟩ := space?_eq_some_iff.mp hbehind
      obtain ⟨isKeyword, hisKeyword, rfl⟩ := (strip?_keyword isWord_is (by decide)).mp hstrip'
      refine ⟨⟨gapBefore, keyword, gap, w, gapBehind, isKeyword, hblank, hkeyword, hgap_ne,
        hgap_blank, hword, hbehind_ne, hbehind_blank, hisKeyword⟩, rfl, ?_⟩
      rw [hs₀, hskip]
      simp [ReturnClause.text]
    · cases hread
  · rintro ⟨c, rfl, rfl⟩
    have htext : c.text ++ t = 0x29 :: (c.gapBefore ++ (c.keyword ++ (c.gap ++
        (c.returnType ++ (c.gapBehind ++ (c.isKeyword ++ t)))))) := by
      simp [ReturnClause.text]
    have hskip : skipSpace (c.gapBefore ++ (c.keyword ++ (c.gap ++
        (c.returnType ++ (c.gapBehind ++ (c.isKeyword ++ t)))))) = c.keyword ++ (c.gap ++
        (c.returnType ++ (c.gapBehind ++ (c.isKeyword ++ t)))) := by
      rw [skipSpace_gap_append c.gapBefore_blank, skipSpace_word_append c.keyword_word]
    have hkeyword := (strip?_keyword isWord_return (by decide)).mpr ⟨c.keyword, c.keyword_eq,
      (rfl : c.keyword ++ (c.gap ++ (c.returnType ++ (c.gapBehind ++ (c.isKeyword ++ t)))) = _)⟩
    have hgap := space?_gap_append c.gap_blank c.gap_ne
      (skipSpace_word_append c.returnType_word (c.gapBehind ++ (c.isKeyword ++ t)))
    have htype : word? (c.returnType ++ (c.gapBehind ++ (c.isKeyword ++ t))) =
        some (c.returnType, c.gapBehind ++ (c.isKeyword ++ t)) :=
      word?_eq_some_iff.mpr
        ⟨c.returnType_word, rfl, word_gap_append c.gapBehind_blank c.gapBehind_ne _⟩
    have hbehind := space?_gap_append c.gapBehind_blank c.gapBehind_ne
      (skipSpace_word_append c.isKeyword_word t)
    have hisKeyword := (strip?_keyword isWord_is (by decide)).mpr ⟨c.isKeyword, c.isKeyword_eq,
      (rfl : c.isKeyword ++ t = _)⟩
    rw [htext]
    simp only [clause?, hskip, hkeyword, hgap, htype, hbehind, hisKeyword, Option.bind_eq_bind,
      Option.bind_some]

/-! ## Closings -/

theorem Closing.keyword_word {name : Bytes} (c : Closing name) : IsWord c.keyword :=
  isWord_end.of_equalFold c.keyword_eq

/-- A terminator is read exactly where a closing stands. -/
theorem terminator?_eq_some_iff {name s rest : Bytes} (hname : IsWord name) :
    terminator? (foldWord name) s = some rest ↔ ∃ c : Closing name, s = c.text ++ rest := by
  constructor
  · intro hread
    simp only [terminator?, Option.bind_eq_bind, Option.bind_eq_some_iff] at hread
    obtain ⟨s₁, hstrip, s₂, hgap, s₃, hrepeat, hmark⟩ := hread
    obtain ⟨keyword, hkeyword, rfl⟩ := (strip?_keyword isWord_end (by decide)).mp hstrip
    obtain ⟨gap, hne, hblank, rfl, -⟩ := space?_eq_some_iff.mp hgap
    obtain ⟨again, hagain, rfl⟩ := (strip?_foldWord_eq_some_iff hname).mp hrepeat
    split at hmark
    · cases hmark
      refine ⟨⟨keyword, gap, again, hkeyword, hne, hblank, hagain⟩, ?_⟩
      simp [Closing.text]
    · cases hmark
  · rintro ⟨c, rfl⟩
    have htext : c.text ++ rest = c.keyword ++ (c.gap ++ (c.again ++ 0x3B :: rest)) := by
      simp [Closing.text]
    have hkeyword : strip? (bytes "end") (c.text ++ rest) =
        some (c.gap ++ (c.again ++ 0x3B :: rest)) :=
      (strip?_keyword isWord_end (by decide)).mpr ⟨c.keyword, c.keyword_eq, htext⟩
    have hgap := space?_gap_append c.gap_blank c.gap_ne
      (skipSpace_word_append (hname.of_equalFold c.again_eq) (0x3B :: rest))
    have hagain : strip? (foldWord name) (c.again ++ 0x3B :: rest) = some (0x3B :: rest) :=
      (strip?_foldWord_eq_some_iff hname).mpr ⟨c.again, c.again_eq, rfl⟩
    simp only [terminator?, hkeyword, hgap, hagain, Option.bind_eq_bind, Option.bind_some]

end AdaToC.Ada
