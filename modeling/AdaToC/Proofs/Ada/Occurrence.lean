import AdaToC.Proofs.Ada.Grammar

/-!
# Occurrences of clauses and closings

Where a piece of a definition stands in a text, it can be cut off in one way only. Two return
clauses never overlap, since only the first byte of a clause is a closing parenthesis, and neither
do two closings, since only the last byte of a closing is a semicolon. So the first occurrence in
a text stays the first, whatever is put behind the text.
-/

namespace AdaToC.Ada

/-! ## Cutting a piece off in one way -/

theorem Opening.text_append_inj {o o' : Opening} {r r' : Bytes}
    (h : o.text ++ r = o'.text ++ r') : o.name = o'.name ∧ r = r' := by
  have hread : Header.read? (o.text ++ r) = some ⟨o.name, r⟩ :=
    Header.read?_eq_some_iff.mpr ⟨o, rfl, rfl⟩
  have hread' : Header.read? (o.text ++ r) = some ⟨o'.name, r'⟩ :=
    Header.read?_eq_some_iff.mpr ⟨o', rfl, h⟩
  have hsame := Option.some.inj (hread.symm.trans hread')
  exact ⟨congrArg Header.name hsame, congrArg Header.rest hsame⟩

theorem ReturnClause.text_append_inj {c c' : ReturnClause} {t t' : Bytes}
    (h : c.text ++ t = c'.text ++ t') : c.returnType = c'.returnType ∧ t = t' := by
  have hread : clause? (c.text ++ t) = some (c.returnType, t) :=
    clause?_eq_some_iff.mpr ⟨c, rfl, rfl⟩
  have hread' : clause? (c.text ++ t) = some (c'.returnType, t') :=
    clause?_eq_some_iff.mpr ⟨c', rfl, h⟩
  exact Prod.mk.inj (Option.some.inj (hread.symm.trans hread'))

theorem Closing.text_append_inj {name : Bytes} (hname : IsWord name) {c c' : Closing name}
    {r r' : Bytes} (h : c.text ++ r = c'.text ++ r') : r = r' := by
  have hread : terminator? (foldWord name) (c.text ++ r) = some r :=
    (terminator?_eq_some_iff hname).mpr ⟨c, rfl⟩
  have hread' : terminator? (foldWord name) (c.text ++ r) = some r' :=
    (terminator?_eq_some_iff hname).mpr ⟨c', h⟩
  exact Option.some.inj (hread.symm.trans hread')

/-! ## Marks inside the pieces -/

/-- An opening holds no semicolon. -/
theorem Opening.semicolon_not_mem (o : Opening) : 0x3B ∉ o.text := by
  simp only [Opening.text, List.mem_append, not_or]
  exact ⟨⟨⟨⟨o.keyword_word.not_mem (by decide) (by decide), o.gap_blank.not_mem (by decide)⟩,
    o.name_word.not_mem (by decide) (by decide)⟩, o.gapBehind_blank.not_mem (by decide)⟩, by decide⟩

/-- What a clause holds behind its closing parenthesis. -/
def ReturnClause.inner (c : ReturnClause) : Bytes :=
  c.gapBefore ++ c.keyword ++ c.gap ++ c.returnType ++ c.gapBehind ++ c.isKeyword

theorem ReturnClause.text_eq (c : ReturnClause) : c.text = 0x29 :: c.inner := by
  simp [ReturnClause.text, ReturnClause.inner]

theorem ReturnClause.parenthesis_not_mem (c : ReturnClause) : 0x29 ∉ c.inner := by
  simp only [ReturnClause.inner, List.mem_append, not_or]
  exact ⟨⟨⟨⟨⟨c.gapBefore_blank.not_mem (by decide), c.keyword_word.not_mem (by decide) (by decide)⟩,
    c.gap_blank.not_mem (by decide)⟩, c.returnType_word.not_mem (by decide) (by decide)⟩,
    c.gapBehind_blank.not_mem (by decide)⟩, c.isKeyword_word.not_mem (by decide) (by decide)⟩

/-- What a closing holds before its semicolon. -/
def Closing.inner {name : Bytes} (c : Closing name) : Bytes :=
  c.keyword ++ c.gap ++ c.again

theorem Closing.text_eq {name : Bytes} (c : Closing name) : c.text = c.inner ++ [0x3B] := rfl

theorem Closing.semicolon_not_mem {name : Bytes} (hname : IsWord name) (c : Closing name) :
    0x3B ∉ c.inner := by
  simp only [Closing.inner, List.mem_append, not_or]
  exact ⟨⟨c.keyword_word.not_mem (by decide) (by decide), c.gap_blank.not_mem (by decide)⟩,
    (hname.of_equalFold c.again_eq).not_mem (by decide) (by decide)⟩

/-! ## No overlap -/

/-- A clause that starts before another one ends before it. -/
theorem ReturnClause.no_overlap {c c' : ReturnClause} {x r t : Bytes} (hx : x ≠ [])
    (h : c.text ++ r = x ++ (c'.text ++ t)) : ∃ z, x = c.text ++ z := by
  rcases List.append_eq_append_iff.mp h with ⟨z, hz, -⟩ | ⟨z, hz, hrest⟩
  · exact ⟨z, hz⟩
  · -- the clause reaches beyond `x`, so it holds the parenthesis of the other one
    cases z with
    | nil => exact ⟨[], by simpa using hz.symm⟩
    | cons b z =>
      exfalso
      obtain ⟨a, x', rfl⟩ := List.exists_cons_of_ne_nil hx
      rw [ReturnClause.text_eq, List.cons_append] at hz
      rw [ReturnClause.text_eq, List.cons_append, List.cons_append] at hrest
      obtain ⟨-, hinner⟩ := List.cons.inj hz
      obtain ⟨rfl, -⟩ := List.cons.inj hrest
      exact c.parenthesis_not_mem (by rw [hinner]; simp)

/-- A text is cut in one way at the first place where a given element stands. -/
theorem append_cons_inj {α : Type} {d : α} {a b u v : List α} (ha : d ∉ a) (hb : d ∉ b)
    (h : a ++ d :: u = b ++ d :: v) : a = b ∧ u = v := by
  rcases List.append_eq_append_iff.mp h with ⟨z, rfl, hz⟩ | ⟨z, rfl, hz⟩
  · cases z with
    | nil => exact ⟨by simp, by simpa using hz⟩
    | cons e z =>
      obtain ⟨rfl, -⟩ := List.cons.inj hz
      simp at hb
  · cases z with
    | nil => exact ⟨by simp, by simpa using hz.symm⟩
    | cons e z =>
      obtain ⟨rfl, -⟩ := List.cons.inj hz
      simp at ha

/-- Two cuts of a text behind which all elements have a property, and before which the last one
does not, are at the same place. -/
theorem append_inj_of_getLast {α : Type} {p : α → Prop} {a b u v : List α} (h : a ++ u = b ++ v)
    (hu : ∀ x ∈ u, p x) (hv : ∀ x ∈ v, p x) (ha : ∀ x ∈ a.getLast?, ¬ p x)
    (hb : ∀ x ∈ b.getLast?, ¬ p x) : a = b ∧ u = v := by
  rcases List.append_eq_append_iff.mp h with ⟨z, rfl, rfl⟩ | ⟨z, rfl, rfl⟩
  · cases hz : z.getLast? with
    | none =>
      rw [List.getLast?_eq_none_iff] at hz
      simp [hz]
    | some x =>
      have hlast : x ∈ (a ++ z).getLast? := by simp [List.getLast?_append, hz]
      exact absurd (hu x (List.mem_append_left _ (List.mem_of_getLast? hz))) (hb x hlast)
  · cases hz : z.getLast? with
    | none =>
      rw [List.getLast?_eq_none_iff] at hz
      simp [hz]
    | some x =>
      have hlast : x ∈ (b ++ z).getLast? := by simp [List.getLast?_append, hz]
      exact absurd (hv x (List.mem_append_left _ (List.mem_of_getLast? hz))) (ha x hlast)

theorem IsWord.getLast_not_space {w : Bytes} (hw : IsWord w) (s : Bytes) :
    ∀ b ∈ (s ++ w).getLast?, ¬ isSpaceByte b = true := by
  intro b hb
  rw [List.getLast?_append, List.getLast?_eq_some_getLast hw.ne_nil] at hb
  cases hb
  simp [hw.not_space (List.getLast_mem hw.ne_nil)]

theorem IsGap.getLast_space {g : Bytes} (hg : IsGap g) (hne : g ≠ []) (s : Bytes) :
    ∀ b ∈ (s ++ g).getLast?, ¬ isSpaceByte b = false := by
  intro b hb
  rw [List.getLast?_append, List.getLast?_eq_some_getLast hne] at hb
  cases hb
  simp [hg _ (List.getLast_mem hne)]

/-- In ASCII and outside, a letter other than `s` and `k` has forms of one byte only. -/
theorem length_encode_of_foldChar {c f : Char} (hf : f.toNat < 0x80) (hs : f ≠ 's') (hk : f ≠ 'k')
    (hc : foldChar c = f) : (Utf8.encode c).length = 1 := by
  subst hc
  rcases foldChar_into_ascii hf with hascii | rfl | rfl
  · obtain ⟨b, hb, rfl⟩ := exists_byte_of_ascii hascii
    rw [encode_ofNat_byte hb, List.length_singleton]
  · exact absurd (by decide) hs
  · exact absurd (by decide) hk

/-- The word `end` has three bytes in every form. -/
theorem length_eq_three_of_equalFold_end {t : Bytes} (ht : t.equalFold (bytes "end")) :
    t.length = 3 := by
  have hfolded : t.folded = ['e', 'n', 'd'] :=
    (Bytes.equalFold_iff.mp ht).trans (by decide)
  obtain ⟨c₁, t₁, rfl, h₁, hfolded⟩ := Bytes.folded_eq_cons_ascii (by decide) hfolded
  obtain ⟨c₂, t₂, rfl, h₂, hfolded⟩ := Bytes.folded_eq_cons_ascii (by decide) hfolded
  obtain ⟨c₃, t₃, rfl, h₃, hfolded⟩ := Bytes.folded_eq_cons_ascii (by decide) hfolded
  rw [Bytes.eq_nil_of_folded_eq_nil hfolded]
  simp only [List.length_append, List.length_nil,
    length_encode_of_foldChar (by decide) (by decide) (by decide) h₁,
    length_encode_of_foldChar (by decide) (by decide) (by decide) h₂,
    length_encode_of_foldChar (by decide) (by decide) (by decide) h₃]

/-- No closing is the end of a longer one: the name and the white space before it are the same,
and so is then the word `end`. -/
theorem Closing.eq_nil_of_inner_eq_append {name : Bytes} (hname : IsWord name)
    {c c' : Closing name} {x : Bytes} (h : c.inner = x ++ c'.inner) : x = [] := by
  have hcut : (c.keyword ++ c.gap) ++ c.again = (x ++ c'.keyword ++ c'.gap) ++ c'.again := by
    simpa [Closing.inner] using h
  obtain ⟨hfront, -⟩ := append_inj_of_getLast hcut
    (fun b hb => (hname.of_equalFold c.again_eq).not_space hb)
    (fun b hb => (hname.of_equalFold c'.again_eq).not_space hb)
    (c.gap_blank.getLast_space c.gap_ne _) (c'.gap_blank.getLast_space c'.gap_ne _)
  have hcut' : ([] ++ c.keyword) ++ c.gap = (x ++ c'.keyword) ++ c'.gap := hfront
  obtain ⟨hkeyword, -⟩ := append_inj_of_getLast hcut' c.gap_blank c'.gap_blank
    (c.keyword_word.getLast_not_space _) (c'.keyword_word.getLast_not_space _)
  have hlength := congrArg List.length hkeyword
  simp only [List.nil_append, List.length_append, length_eq_three_of_equalFold_end c.keyword_eq,
    length_eq_three_of_equalFold_end c'.keyword_eq] at hlength
  exact List.eq_nil_of_length_eq_zero (by omega)

/-- A closing that starts before another one ends before it. -/
theorem Closing.no_overlap {name : Bytes} (hname : IsWord name) {c c' : Closing name}
    {x r t : Bytes} (hx : x ≠ []) (h : c.text ++ r = x ++ (c'.text ++ t)) :
    ∃ z, x = c.text ++ z := by
  rw [Closing.text_eq, Closing.text_eq, List.append_assoc, List.append_assoc,
    List.singleton_append, List.singleton_append] at h
  by_cases hmem : (0x3B : UInt8) ∈ x
  · -- the first semicolon of `x` is the one that ends the closing
    obtain ⟨y, z, rfl, hy⟩ := List.eq_append_cons_of_mem hmem
    rw [List.append_assoc, List.cons_append] at h
    obtain ⟨rfl, -⟩ := append_cons_inj (c.semicolon_not_mem hname) hy h
    exact ⟨z, by simp [Closing.text_eq]⟩
  · -- otherwise both end at the same semicolon
    have hnot : (0x3B : UInt8) ∉ x ++ c'.inner := by
      simp [hmem, c'.semicolon_not_mem hname]
    rw [← List.append_assoc] at h
    obtain ⟨hinner, -⟩ := append_cons_inj (c.semicolon_not_mem hname) hnot h
    exact absurd (Closing.eq_nil_of_inner_eq_append hname hinner) hx

/-! ## The first place where a reader succeeds -/

section FirstAt

variable {α : Type} {read : Bytes → Option α}

theorem firstAt?_eq_some_iff {k m : Nat} {s : Bytes} {a : α} :
    firstAt? read k s = some (m, a) ↔
      ∃ i < s.length, m = k + i ∧ read (s.drop i) = some a ∧
        ∀ j < i, read (s.drop j) = none := by
  induction s generalizing k with
  | nil => simp [firstAt?]
  | cons b rest ih =>
    rw [firstAt?]
    cases hread : read (b :: rest) with
    | some a' =>
      constructor
      · intro h
        cases h
        exact ⟨0, by simp, rfl, by simpa using hread, by simp⟩
      · rintro ⟨i, -, rfl, hi, hbefore⟩
        cases i with
        | zero => simpa [hread] using hi
        | succ i =>
          have hzero := hbefore 0 (Nat.succ_pos i)
          simp [hread] at hzero
    | none =>
      rw [ih]
      constructor
      · rintro ⟨i, hlt, rfl, hi, hbefore⟩
        refine ⟨i + 1, by simpa using hlt, by omega, by simpa using hi, ?_⟩
        intro j hj
        cases j with
        | zero => simpa using hread
        | succ j => simpa using hbefore j (by omega)
      · rintro ⟨i, hlt, rfl, hi, hbefore⟩
        cases i with
        | zero => simp [hread] at hi
        | succ i =>
          refine ⟨i, by simpa using hlt, by omega, by simpa using hi, ?_⟩
          intro j hj
          simpa using hbefore (j + 1) (by omega)

theorem firstAt?_eq_none_iff {k : Nat} {s : Bytes} :
    firstAt? read k s = none ↔ ∀ i < s.length, read (s.drop i) = none := by
  induction s generalizing k with
  | nil => simp [firstAt?]
  | cons b rest ih =>
    rw [firstAt?]
    cases hread : read (b :: rest) with
    | some a =>
      simp only [reduceCtorEq, false_iff]
      intro hnone
      have hzero := hnone 0 (by simp)
      simp [hread] at hzero
    | none =>
      rw [ih]
      constructor
      · intro hnone i hi
        cases i with
        | zero => simpa using hread
        | succ i => simpa using hnone i (by simpa using hi)
      · intro hnone i hi
        simpa using hnone (i + 1) (by simpa using hi)

end FirstAt

/-! ## Texts that hold a piece -/

/-- A text of a family stands somewhere in `s`. -/
def Holds {ι : Type} (text : ι → Bytes) (s : Bytes) : Prop :=
  ∃ before i behind, s = before ++ text i ++ behind

/-- A reader that succeeds exactly at the texts of a family, no two of which overlap. -/
structure Reads {α ι : Type} (read : Bytes → Option α) (text : ι → Bytes) : Prop where
  isSome_iff : ∀ s, (read s).isSome ↔ ∃ i t, s = text i ++ t
  ne_nil : ∀ i, text i ≠ []
  no_overlap : ∀ {i j x r t}, x ≠ [] → text i ++ r = x ++ (text j ++ t) → ∃ z, x = text i ++ z

namespace Reads

variable {α ι : Type} {read : Bytes → Option α} {text : ι → Bytes}

theorem eq_some (hr : Reads read text) (i : ι) (t : Bytes) : ∃ a, read (text i ++ t) = some a :=
  Option.isSome_iff_exists.mp ((hr.isSome_iff _).mpr ⟨i, t, rfl⟩)

theorem firstAt?_eq_none_iff_not_holds (hr : Reads read text) {s : Bytes} :
    firstAt? read 0 s = none ↔ ¬ Holds text s := by
  rw [firstAt?_eq_none_iff]
  constructor
  · rintro hnone ⟨u, i, z, rfl⟩
    obtain ⟨a, ha⟩ := hr.eq_some i z
    have hpos := List.length_pos_iff.mpr (hr.ne_nil i)
    have hread := hnone u.length (by simp; omega)
    rw [List.append_assoc, List.drop_left, ha] at hread
    cases hread
  · intro hfree k hk
    cases hread : read (s.drop k) with
    | none => rfl
    | some a =>
      obtain ⟨i, t, ht⟩ := (hr.isSome_iff _).mp (by rw [hread]; rfl)
      exact absurd ⟨s.take k, i, t, by rw [List.append_assoc, ← ht, List.take_append_drop]⟩ hfree

/-- The reader succeeds first behind a text that holds nothing of the family, if it succeeds
there: a piece that started earlier would end inside that text. -/
theorem firstAt?_append (hr : Reads read text) {x : Bytes} (hx : ¬ Holds text x) {i : ι}
    {t : Bytes} {a : α} (ha : read (text i ++ t) = some a) :
    firstAt? read 0 (x ++ (text i ++ t)) = some (x.length, a) := by
  have hpos := List.length_pos_iff.mpr (hr.ne_nil i)
  refine firstAt?_eq_some_iff.mpr
    ⟨x.length, by simp; omega, by omega, by rw [List.drop_left]; exact ha, ?_⟩
  intro j hj
  rw [List.drop_append_of_le_length (by omega)]
  cases hread : read (x.drop j ++ (text i ++ t)) with
  | none => rfl
  | some b =>
    obtain ⟨i', t', hsplit⟩ := (hr.isSome_iff _).mp (by rw [hread]; rfl)
    have hne : x.drop j ≠ [] := by
      intro hnil
      have := List.drop_eq_nil_iff.mp hnil
      omega
    obtain ⟨z, hz⟩ := hr.no_overlap hne hsplit.symm
    exact absurd ⟨x.take j, i', z, by rw [List.append_assoc, ← hz, List.take_append_drop]⟩ hx

/-- A text that holds nothing of the family ends before any place where a piece stands. -/
theorem exists_append_of_not_holds (hr : Reads read text) {x y t r : Bytes} {i j : ι}
    (hx : ¬ Holds text x) (h : x ++ (text i ++ t) = y ++ (text j ++ r)) :
    ∃ w, y = x ++ w ∧ text i ++ t = w ++ (text j ++ r) := by
  rcases List.append_eq_append_iff.mp h with hw | ⟨w, rfl, hw⟩
  · exact hw
  · by_cases hne : w = []
    · subst hne
      exact ⟨[], by simp, by simpa using hw.symm⟩
    · obtain ⟨z, rfl⟩ := hr.no_overlap hne hw
      exact absurd ⟨y, j, z, by rw [List.append_assoc]⟩ hx

/-- Before the place where the reader succeeds first there is nothing of the family. -/
theorem exists_of_firstAt? (hr : Reads read text) {s : Bytes} {k : Nat} {a : α}
    (h : firstAt? read 0 s = some (k, a)) :
    ∃ x i t, s = x ++ (text i ++ t) ∧ x.length = k ∧ ¬ Holds text x ∧
      read (text i ++ t) = some a := by
  obtain ⟨m, hlt, rfl, ha, hbefore⟩ := firstAt?_eq_some_iff.mp h
  obtain ⟨i, t, ht⟩ := (hr.isSome_iff _).mp (by rw [ha]; rfl)
  have hlength : (s.take m).length = m := by
    rw [List.length_take]
    omega
  have hs : s = s.take m ++ (text i ++ t) := by rw [← ht, List.take_append_drop]
  refine ⟨s.take m, i, t, hs, by omega, ?_, by rw [← ht]; exact ha⟩
  rintro ⟨u, i', z, hu⟩
  have hpos := List.length_pos_iff.mpr (hr.ne_nil i')
  have hnone := hbefore u.length (by rw [← hlength, hu]; simp; omega)
  rw [hs, hu, List.append_assoc, List.append_assoc, List.drop_left] at hnone
  obtain ⟨b, hb⟩ := hr.eq_some i' (z ++ (text i ++ t))
  rw [hb] at hnone
  cases hnone

end Reads

/-- A return clause stands somewhere in the text. -/
abbrev HasClause (s : Bytes) : Prop :=
  Holds ReturnClause.text s

/-- A closing of a given name stands somewhere in the text. -/
abbrev HasClosing (name s : Bytes) : Prop :=
  Holds (@Closing.text name) s

theorem signature_of_clause (c : ReturnClause) (t : Bytes) :
    Signature.read? (c.text ++ t) = some ⟨c.returnType, skipSpace t⟩ := by
  rw [Signature.read?_eq_map_clause?, clause?_eq_some_iff.mpr ⟨c, rfl, rfl⟩]
  rfl

theorem reads_signature : Reads Signature.read? ReturnClause.text where
  isSome_iff s := by
    rw [Signature.read?_eq_map_clause?, Option.isSome_map, Option.isSome_iff_exists]
    constructor
    · rintro ⟨⟨returnType, t⟩, hclause⟩
      obtain ⟨c, -, hs⟩ := clause?_eq_some_iff.mp hclause
      exact ⟨c, t, hs⟩
    · rintro ⟨c, t, hs⟩
      exact ⟨(c.returnType, t), clause?_eq_some_iff.mpr ⟨c, rfl, hs⟩⟩
  ne_nil c := by simp [ReturnClause.text_eq]
  no_overlap := ReturnClause.no_overlap

theorem reads_terminator {name : Bytes} (hname : IsWord name) :
    Reads (terminator? (foldWord name)) (@Closing.text name) where
  isSome_iff s := by
    rw [Option.isSome_iff_exists]
    constructor
    · rintro ⟨t, hread⟩
      obtain ⟨c, hs⟩ := (terminator?_eq_some_iff hname).mp hread
      exact ⟨c, t, hs⟩
    · rintro ⟨c, t, hs⟩
      exact ⟨t, (terminator?_eq_some_iff hname).mpr ⟨c, hs⟩⟩
  ne_nil c := by simp [Closing.text_eq]
  no_overlap := Closing.no_overlap hname

end AdaToC.Ada
