import AdaToC.Ada.Scan
import AdaToC.Proofs.Text.Characters

/-!
# Words and white space as texts

A definition is made of words, keywords and white space. Here each of them is described by what
it is, not by how it is read: a word is a sequence of characters that are equal up to letter case
to a letter, a digit or an underscore of ASCII; a keyword is any text equal to it up to case; white
space is a sequence of blank bytes. The readers `strip?`, `word?` and `space?` are then shown to
accept exactly these texts, each with the text that is left behind it.
-/

namespace AdaToC.Ada

/-- Whether a character may stand in a word: one equal up to letter case to a letter, a digit or
an underscore of ASCII. -/
def isWordChar (c : Char) : Bool :=
  let f := foldChar c
  ('a' ≤ f && f ≤ 'z') || ('0' ≤ f && f ≤ '9') || f == '_'

/-- A word: one or more word characters. -/
def IsWord (w : Bytes) : Prop :=
  ∃ cs : List Char, cs ≠ [] ∧ (∀ c ∈ cs, isWordChar c) ∧ w = Utf8.encodeAll cs

/-- White space, possibly none. -/
def IsGap (g : Bytes) : Prop :=
  ∀ b ∈ g, isSpaceByte b

instance (g : Bytes) : Decidable (IsGap g) :=
  List.decidableBAll (isSpaceByte ·) g

/-! ## Classes of bytes as ranges of numbers -/

theorem isWordByte_iff {b : UInt8} : isWordByte b ↔
    0x30 ≤ b.toNat ∧ b.toNat ≤ 0x39 ∨ 0x41 ≤ b.toNat ∧ b.toNat ≤ 0x5A ∨ b.toNat = 0x5F ∨
      0x61 ≤ b.toNat ∧ b.toNat ≤ 0x7A := by
  simp only [isWordByte, Bool.or_eq_true, Bool.and_eq_true, decide_eq_true_eq, beq_iff_eq,
    UInt8.le_iff_toNat_le, ← UInt8.toNat_inj, UInt8.reduceToNat, or_assoc]

theorem isSpaceByte_iff {b : UInt8} : isSpaceByte b ↔
    b.toNat = 0x09 ∨ b.toNat = 0x0A ∨ b.toNat = 0x0C ∨ b.toNat = 0x0D ∨ b.toNat = 0x20 := by
  simp only [isSpaceByte, Bool.or_eq_true, beq_iff_eq, ← UInt8.toNat_inj, UInt8.reduceToNat,
    or_assoc]

theorem lt_of_isWordByte {b : UInt8} (hb : isWordByte b) : b < 0x80 := by
  rw [isWordByte_iff] at hb
  simp only [UInt8.lt_iff_toNat_lt, UInt8.reduceToNat]
  omega

/-- White space is in ASCII, and it belongs to no word. -/
theorem not_isWordByte_of_isSpaceByte {b : UInt8} (hb : isSpaceByte b) :
    isWordByte b = false ∧ b < 0x80 := by
  rw [← Bool.not_eq_true, isWordByte_iff]
  rw [isSpaceByte_iff] at hb
  simp only [UInt8.lt_iff_toNat_lt, UInt8.reduceToNat]
  omega

/-! ## Characters of a word as bytes -/

theorem isWordChar_iff {c : Char} : isWordChar c ↔
    0x61 ≤ (foldChar c).toNat ∧ (foldChar c).toNat ≤ 0x7A ∨
      0x30 ≤ (foldChar c).toNat ∧ (foldChar c).toNat ≤ 0x39 ∨ (foldChar c).toNat = 0x5F := by
  have hunderscore : foldChar c = '_' ↔ (foldChar c).toNat = 0x5F := Char.toNat_inj.symm
  simp only [isWordChar, Bool.or_eq_true, Bool.and_eq_true, decide_eq_true_eq, beq_iff_eq,
    Char.le_def, UInt32.le_iff_toNat_le, hunderscore, or_assoc]
  rfl

theorem isWordChar_ofNat_byte {b : UInt8} (hb : b < 0x80) :
    isWordChar (Char.ofNat b.toNat) = isWordByte b := by
  rw [Bool.eq_iff_iff, isWordChar_iff, isWordByte_iff, foldChar_ofNat_byte hb, toNat_ofNat_byte,
    toNat_lowerByte]
  split <;> omega

theorem isWordChar_longS : isWordChar '\u017F' = true := by decide

theorem isWordChar_kelvin : isWordChar '\u212A' = true := by decide

/-- The characters of words: the word bytes of ASCII, the long s and the Kelvin sign. -/
theorem isWordChar_cases {c : Char} (hc : isWordChar c) :
    (∃ b : UInt8, b < 0x80 ∧ isWordByte b ∧ c = Char.ofNat b.toNat) ∨
      c = '\u017F' ∨ c = '\u212A' := by
  have hfold : (foldChar c).toNat < 0x80 := by
    rw [isWordChar_iff] at hc
    omega
  rcases foldChar_into_ascii hfold with hascii | hother
  · obtain ⟨b, hb, rfl⟩ := exists_byte_of_ascii hascii
    rw [isWordChar_ofNat_byte hb] at hc
    exact Or.inl ⟨b, hb, hc, rfl⟩
  · exact Or.inr hother

/-! ## Bytes that cannot stand in a word or in white space -/

theorem IsWord.mem_cases {w : Bytes} (hw : IsWord w) {b : UInt8} (hb : b ∈ w) :
    isWordByte b ∨ 0x80 ≤ b := by
  obtain ⟨cs, -, hcs, rfl⟩ := hw
  obtain ⟨c, hc, hbc⟩ := List.mem_flatMap.mp hb
  rcases isWordChar_cases (hcs c hc) with ⟨d, hd, hword, rfl⟩ | rfl | rfl
  · rw [encode_ofNat_byte hd, List.mem_singleton] at hbc
    exact Or.inl (hbc ▸ hword)
  · right
    have hbytes : (Utf8.encode '\u017F').all (0x80 ≤ ·) := by decide
    exact of_decide_eq_true (List.all_eq_true.mp hbytes b hbc)
  · right
    have hbytes : (Utf8.encode '\u212A').all (0x80 ≤ ·) := by decide
    exact of_decide_eq_true (List.all_eq_true.mp hbytes b hbc)

/-- A mark of ASCII that is no word byte does not occur in a word. -/
theorem IsWord.not_mem {w : Bytes} (hw : IsWord w) {d : UInt8} (hd : isWordByte d = false)
    (hascii : d < 0x80) : d ∉ w := by
  intro hmem
  rcases hw.mem_cases hmem with h | h
  · simp [h] at hd
  · exact absurd hascii (UInt8.not_lt.mpr h)

theorem IsWord.not_space {w : Bytes} (hw : IsWord w) {b : UInt8} (hb : b ∈ w) :
    isSpaceByte b = false := by
  rw [← Bool.not_eq_true]
  intro hspace
  obtain ⟨hword, hascii⟩ := not_isWordByte_of_isSpaceByte hspace
  exact hw.not_mem hword hascii hb

theorem IsWord.ne_nil {w : Bytes} (hw : IsWord w) : w ≠ [] := by
  obtain ⟨cs, hne, -, rfl⟩ := hw
  cases cs with
  | nil => exact absurd rfl hne
  | cons c cs =>
    rw [Utf8.encodeAll_cons]
    exact List.append_ne_nil_of_left_ne_nil (Utf8.encode_ne_nil c) _

theorem IsGap.not_mem {g : Bytes} (hg : IsGap g) {d : UInt8} (hd : isSpaceByte d = false) :
    d ∉ g := by
  intro hmem
  simp [hg d hmem] at hd

/-! ## White space -/

theorem skipSpace_gap_append {g : Bytes} (hg : IsGap g) (s : Bytes) :
    skipSpace (g ++ s) = skipSpace s := by
  induction g with
  | nil => rfl
  | cons b g ih =>
    have hb : isSpaceByte b = true := hg b List.mem_cons_self
    have hrest : IsGap g := fun d hd => hg d (List.mem_cons_of_mem _ hd)
    rw [List.cons_append, skipSpace, List.dropWhile_cons, if_pos hb]
    exact ih hrest

theorem skipSpace_cons {b : UInt8} (hb : isSpaceByte b = false) (s : Bytes) :
    skipSpace (b :: s) = b :: s := by
  rw [skipSpace, List.dropWhile_cons, if_neg (by simp [hb])]

theorem skipSpace_word_append {w : Bytes} (hw : IsWord w) (s : Bytes) :
    skipSpace (w ++ s) = w ++ s := by
  obtain ⟨b, w', rfl⟩ := List.exists_cons_of_ne_nil hw.ne_nil
  exact skipSpace_cons (hw.not_space List.mem_cons_self) _

/-- A text is some white space and what is left of it without. -/
theorem exists_gap_append_skipSpace (s : Bytes) : ∃ g, IsGap g ∧ s = g ++ skipSpace s := by
  refine ⟨s.takeWhile isSpaceByte, ?_, List.takeWhile_append_dropWhile.symm⟩
  intro b hb
  exact List.all_eq_true.mp List.all_takeWhile b hb

theorem skipSpace_skipSpace (s : Bytes) : skipSpace (skipSpace s) = skipSpace s := by
  obtain ⟨g, hg, hs⟩ := exists_gap_append_skipSpace s
  exact (skipSpace_gap_append hg _).symm.trans (congrArg skipSpace hs.symm)

/-- The reader `space?` takes all the white space at the front, of which there is some. -/
theorem space?_eq_some_iff {s rest : Bytes} :
    space? s = some rest ↔ ∃ g, g ≠ [] ∧ IsGap g ∧ s = g ++ rest ∧ skipSpace rest = rest := by
  constructor
  · intro h
    cases s with
    | nil => simp [space?] at h
    | cons b s =>
      by_cases hb : isSpaceByte b
      · simp only [space?, hb, if_true, Option.some.injEq] at h
        subst h
        obtain ⟨g, hg, hs⟩ := exists_gap_append_skipSpace s
        refine ⟨b :: g, List.cons_ne_nil _ _, ?_, ?_, skipSpace_skipSpace s⟩
        · intro d hd
          rcases List.mem_cons.mp hd with rfl | hd
          · exact hb
          · exact hg d hd
        · rw [List.cons_append, ← hs]
      · simp [space?, hb] at h
  · rintro ⟨g, hne, hg, rfl, hrest⟩
    obtain ⟨b, g', rfl⟩ := List.exists_cons_of_ne_nil hne
    have hb : isSpaceByte b = true := hg b List.mem_cons_self
    have hg' : IsGap g' := fun d hd => hg d (List.mem_cons_of_mem _ hd)
    rw [List.cons_append, space?, if_pos hb, skipSpace_gap_append hg', hrest]

/-! ## Words -/

theorem word_cons_ascii {b : UInt8} (hb : b < 0x80) (s : Bytes) :
    word (b :: s) = if isWordByte b then b :: word s else [] := by
  rw [word.eq_def]
  split
  · next heq =>
    obtain ⟨rfl, -⟩ := List.cons.inj heq
    exact absurd hb (by decide)
  · next heq =>
    obtain ⟨rfl, -⟩ := List.cons.inj heq
    exact absurd hb (by decide)
  · next heq =>
    obtain ⟨rfl, rfl⟩ := List.cons.inj heq
    rfl
  · next heq => cases heq

/-- No word starts at a mark of ASCII. -/
theorem word_mark {b : UInt8} (hb : isWordByte b = false) (hascii : b < 0x80) (s : Bytes) :
    word (b :: s) = [] := by
  rw [word_cons_ascii hascii, hb]
  rfl

theorem word_encode_append {c : Char} (hc : isWordChar c) (s : Bytes) :
    word (Utf8.encode c ++ s) = Utf8.encode c ++ word s := by
  rcases isWordChar_cases hc with ⟨b, hb, hword, rfl⟩ | rfl | rfl
  · rw [encode_ofNat_byte hb, List.singleton_append, word_cons_ascii hb, if_pos hword,
      List.singleton_append]
  · rw [show Utf8.encode '\u017F' = [0xC5, 0xBF] from by decide]
    rfl
  · rw [show Utf8.encode '\u212A' = [0xE2, 0x84, 0xAA] from by decide]
    rfl

theorem word_encodeAll_append {cs : List Char} (hcs : ∀ c ∈ cs, isWordChar c) (s : Bytes) :
    word (Utf8.encodeAll cs ++ s) = Utf8.encodeAll cs ++ word s := by
  induction cs with
  | nil => rfl
  | cons c cs ih =>
    rw [Utf8.encodeAll_cons, List.append_assoc, word_encode_append (hcs c List.mem_cons_self),
      ih fun d hd => hcs d (List.mem_cons_of_mem _ hd), List.append_assoc]

/-- The reader `word` takes characters of a word and leaves a text that does not start with one. -/
theorem exists_word_append (s : Bytes) :
    ∃ cs rest, (∀ c ∈ cs, isWordChar c) ∧ word s = Utf8.encodeAll cs ∧ s = word s ++ rest ∧
      word rest = [] := by
  fun_induction word s with
  | case1 s ih =>
    obtain ⟨cs, rest, hcs, hword, hs, hrest⟩ := ih
    refine ⟨'\u017F' :: cs, rest, ?_, ?_, ?_, hrest⟩
    · simpa [isWordChar_longS] using hcs
    · rw [Utf8.encodeAll_cons, ← hword]
      rfl
    · rw [List.cons_append, List.cons_append, ← hs]
  | case2 s ih =>
    obtain ⟨cs, rest, hcs, hword, hs, hrest⟩ := ih
    refine ⟨'\u212A' :: cs, rest, ?_, ?_, ?_, hrest⟩
    · simpa [isWordChar_kelvin] using hcs
    · rw [Utf8.encodeAll_cons, ← hword]
      rfl
    · rw [List.cons_append, List.cons_append, List.cons_append, ← hs]
  | case3 b s hs1 hs2 hb ih =>
    obtain ⟨cs, rest, hcs, hword, hs, hrest⟩ := ih
    have hascii : b < 0x80 := lt_of_isWordByte hb
    refine ⟨Char.ofNat b.toNat :: cs, rest, ?_, ?_, ?_, hrest⟩
    · simpa [isWordChar_ofNat_byte hascii, hb] using hcs
    · rw [Utf8.encodeAll_cons, ← hword, encode_ofNat_byte hascii, List.singleton_append]
    · rw [List.cons_append, ← hs]
  | case4 b s hs1 hs2 hb =>
    refine ⟨[], b :: s, by simp, rfl, rfl, ?_⟩
    rw [word.eq_def]
    split <;> simp_all
  | case5 => exact ⟨[], [], by simp, rfl, rfl, rfl⟩

/-- The reader `word?` takes the longest word at the front. -/
theorem word?_eq_some_iff {s w rest : Bytes} :
    word? s = some (w, rest) ↔ IsWord w ∧ s = w ++ rest ∧ word rest = [] := by
  constructor
  · intro h
    obtain ⟨cs, rest', hcs, hword, hs, hrest'⟩ := exists_word_append s
    simp only [word?] at h
    split at h
    · cases h
    · next hne =>
      simp only [Option.some.injEq, Prod.mk.injEq] at h
      obtain ⟨rfl, rfl⟩ := h
      have hdrop : s.drop (word s).length = rest' :=
        (congrArg (List.drop (word s).length) hs).trans List.drop_left
      rw [hdrop]
      refine ⟨⟨cs, ?_, hcs, hword⟩, hs, hrest'⟩
      rintro rfl
      simp [hword, Utf8.encodeAll] at hne
  · rintro ⟨⟨cs, hne, hcs, rfl⟩, rfl, hrest⟩
    have hword : word (Utf8.encodeAll cs ++ rest) = Utf8.encodeAll cs := by
      rw [word_encodeAll_append hcs, hrest, List.append_nil]
    have hnonempty : Utf8.encodeAll cs ≠ [] := IsWord.ne_nil ⟨cs, hne, hcs, rfl⟩
    simp only [word?, hword, List.drop_left, List.isEmpty_iff, hnonempty, if_false]

/-! ## Texts equal up to letter case -/

theorem foldedFront_cons_ascii {b : UInt8} (hb : b < 0x80) (s : Bytes) :
    foldedFront (b :: s) = some (lowerByte b, s) := by
  unfold foldedFront
  split
  · next heq =>
    obtain ⟨rfl, -⟩ := List.cons.inj heq
    exact absurd hb (by decide)
  · next heq =>
    obtain ⟨rfl, -⟩ := List.cons.inj heq
    exact absurd hb (by decide)
  · next heq =>
    obtain ⟨rfl, rfl⟩ := List.cons.inj heq
    rfl
  · next heq => cases heq

/-- The text starts with a character that folds to a given one of ASCII if and only if that is what
`foldedFront` reads. -/
theorem foldedFront_eq_some_iff {s rest : Bytes} {f : UInt8} (hf : f < 0x80) :
    foldedFront s = some (f, rest) ↔ ∃ c, foldChar c = byteChar f ∧ s = Utf8.encode c ++ rest := by
  constructor
  · intro h
    unfold foldedFront at h
    split at h
    · obtain ⟨rfl, rfl⟩ := Prod.mk.inj (Option.some.inj h)
      exact ⟨'\u017F', by decide, rfl⟩
    · obtain ⟨rfl, rfl⟩ := Prod.mk.inj (Option.some.inj h)
      exact ⟨'\u212A', by decide, rfl⟩
    · next b rest' _ _ =>
      obtain ⟨rfl, rfl⟩ := Prod.mk.inj (Option.some.inj h)
      have hascii : b < 0x80 := lowerByte_lt_iff.mp hf
      refine ⟨Char.ofNat b.toNat, foldChar_ofNat_byte hascii, ?_⟩
      rw [encode_ofNat_byte hascii, List.singleton_append]
    · cases h
  · rintro ⟨c, hc, rfl⟩
    have hfold : (foldChar c).toNat < 0x80 := by
      rw [hc, byteChar, toNat_ofNat_byte]
      exact UInt8.lt_iff_toNat_lt.mp hf
    -- the number of a byte can be read off its character
    have hsame : ∀ d : UInt8, foldChar c = byteChar d → d = f := by
      intro d hd
      have hnat := congrArg Char.toNat (hd.symm.trans hc)
      rw [byteChar, byteChar, toNat_ofNat_byte, toNat_ofNat_byte] at hnat
      exact UInt8.toNat_inj.mp hnat
    rcases foldChar_into_ascii hfold with hascii | rfl | rfl
    · obtain ⟨b, hb, rfl⟩ := exists_byte_of_ascii hascii
      rw [encode_ofNat_byte hb, List.singleton_append, foldedFront_cons_ascii hb,
        hsame (lowerByte b) (foldChar_ofNat_byte hb)]
    · rw [← hsame 0x73 (by decide)]
      rfl
    · rw [← hsame 0x6B (by decide)]
      rfl

/-- The reader `strip?` takes exactly the texts with a given folded form in ASCII. -/
theorem strip?_eq_some_iff {fs s rest : Bytes} (hfs : ∀ f ∈ fs, f < 0x80) :
    strip? fs s = some rest ↔ ∃ t : Bytes, t.folded = fs.map byteChar ∧ s = t ++ rest := by
  induction fs generalizing s with
  | nil =>
    constructor
    · intro h
      exact ⟨[], rfl, Option.some.inj h⟩
    · rintro ⟨t, ht, rfl⟩
      rw [Bytes.eq_nil_of_folded_eq_nil ht]
      rfl
  | cons f fs ih =>
    have hf : f < 0x80 := hfs f List.mem_cons_self
    have hrest : ∀ d ∈ fs, d < 0x80 := fun d hd => hfs d (List.mem_cons_of_mem _ hd)
    constructor
    · intro h
      simp only [strip?] at h
      split at h
      · next d s' hfront =>
        split at h
        · next hd =>
          obtain rfl := eq_of_beq hd
          obtain ⟨c, hc, rfl⟩ := (foldedFront_eq_some_iff hf).mp hfront
          obtain ⟨t, ht, rfl⟩ := (ih hrest).mp h
          refine ⟨Utf8.encode c ++ t, ?_, (List.append_assoc _ _ _).symm⟩
          rw [Bytes.folded_encode_append, hc, ht, List.map_cons]
        · cases h
      · cases h
    · rintro ⟨t, ht, rfl⟩
      have hascii : (byteChar f).toNat < 0x80 := by
        rw [byteChar, toNat_ofNat_byte]
        exact UInt8.lt_iff_toNat_lt.mp hf
      obtain ⟨c, t', rfl, hc, ht'⟩ := Bytes.folded_eq_cons_ascii hascii ht
      have hfront : foldedFront (Utf8.encode c ++ (t' ++ rest)) = some (f, t' ++ rest) :=
        (foldedFront_eq_some_iff hf).mpr ⟨c, hc, rfl⟩
      rw [List.append_assoc, strip?, hfront]
      simp only [beq_self_eq_true, if_true]
      exact (ih hrest).mpr ⟨t', ht', rfl⟩

theorem foldWord_of_foldedFront {s rest : Bytes} {f : UInt8} (h : foldedFront s = some (f, rest)) :
    foldWord s = f :: foldWord rest := by
  unfold foldedFront at h
  split at h
  · obtain ⟨rfl, rfl⟩ := Prod.mk.inj (Option.some.inj h)
    rfl
  · obtain ⟨rfl, rfl⟩ := Prod.mk.inj (Option.some.inj h)
    rfl
  · obtain ⟨rfl, rfl⟩ := Prod.mk.inj (Option.some.inj h)
    rw [foldWord] <;> assumption
  · cases h

theorem foldChar_ascii_of_isWordChar {c : Char} (hc : isWordChar c) :
    ∃ f : UInt8, f < 0x80 ∧ foldChar c = byteChar f := by
  rcases isWordChar_cases hc with ⟨b, hb, -, rfl⟩ | rfl | rfl
  · exact ⟨lowerByte b, lowerByte_lt_iff.mpr hb, foldChar_ofNat_byte hb⟩
  · exact ⟨0x73, by decide, by decide⟩
  · exact ⟨0x6B, by decide, by decide⟩

/-- The folded form of a word is in ASCII, and it is the one that case-blind comparison uses. -/
theorem foldWord_encodeAll {cs : List Char} (hcs : ∀ c ∈ cs, isWordChar c) :
    (∀ f ∈ foldWord (Utf8.encodeAll cs), f < 0x80) ∧
      Bytes.folded (Utf8.encodeAll cs) = (foldWord (Utf8.encodeAll cs)).map byteChar := by
  induction cs with
  | nil => exact ⟨by simp [Utf8.encodeAll, foldWord], rfl⟩
  | cons c cs ih =>
    obtain ⟨hascii, hfolded⟩ := ih fun d hd => hcs d (List.mem_cons_of_mem _ hd)
    obtain ⟨f, hf, hc⟩ := foldChar_ascii_of_isWordChar (hcs c List.mem_cons_self)
    have hfront : foldedFront (Utf8.encode c ++ Utf8.encodeAll cs) = some (f, Utf8.encodeAll cs) :=
      (foldedFront_eq_some_iff hf).mpr ⟨c, hc, rfl⟩
    rw [Utf8.encodeAll_cons, foldWord_of_foldedFront hfront]
    refine ⟨?_, ?_⟩
    · intro d hd
      rcases List.mem_cons.mp hd with rfl | hd
      · exact hf
      · exact hascii d hd
    · rw [Bytes.folded_encode_append, hc, hfolded, List.map_cons]

/-- Stripping the folded form of a word takes exactly the texts equal to the word up to case. -/
theorem strip?_foldWord_eq_some_iff {w s rest : Bytes} (hw : IsWord w) :
    strip? (foldWord w) s = some rest ↔ ∃ t : Bytes, t.equalFold w ∧ s = t ++ rest := by
  obtain ⟨cs, -, hcs, rfl⟩ := hw
  obtain ⟨hascii, hfolded⟩ := foldWord_encodeAll hcs
  rw [strip?_eq_some_iff hascii, ← hfolded]
  simp only [Bytes.equalFold_iff]

/-- A text whose characters fold like those of a word is made of word characters itself: being in a
word depends on the folded form alone. -/
theorem exists_encodeAll_of_folded {cs : List Char} (hcs : ∀ c ∈ cs, isWordChar c) {t : Bytes}
    (ht : t.folded = cs.map foldChar) :
    ∃ ds : List Char, ds.length = cs.length ∧ (∀ d ∈ ds, isWordChar d) ∧
      t = Utf8.encodeAll ds := by
  induction cs generalizing t with
  | nil => exact ⟨[], rfl, by simp, Bytes.eq_nil_of_folded_eq_nil ht⟩
  | cons c cs ih =>
    have hc : isWordChar c := hcs c List.mem_cons_self
    obtain ⟨f, hf, hfold⟩ := foldChar_ascii_of_isWordChar hc
    have hascii : (foldChar c).toNat < 0x80 := by
      rw [hfold, byteChar, toNat_ofNat_byte]
      exact UInt8.lt_iff_toNat_lt.mp hf
    obtain ⟨d, rest, rfl, hd, hrest⟩ := Bytes.folded_eq_cons_ascii hascii ht
    obtain ⟨ds, hlen, hds, rfl⟩ := ih (fun e he => hcs e (List.mem_cons_of_mem _ he)) hrest
    refine ⟨d :: ds, by simp [hlen], ?_, (Utf8.encodeAll_cons d ds).symm⟩
    intro e he
    rcases List.mem_cons.mp he with rfl | he
    · simpa [isWordChar, hd] using hc
    · exact hds e he

/-- A text equal to a word up to case is a word. -/
theorem IsWord.of_equalFold {w t : Bytes} (hw : IsWord w) (ht : t.equalFold w) : IsWord t := by
  obtain ⟨cs, hne, hcs, rfl⟩ := hw
  rw [Bytes.equalFold_iff, Bytes.folded_encodeAll] at ht
  obtain ⟨ds, hlen, hds, rfl⟩ := exists_encodeAll_of_folded hcs ht
  refine ⟨ds, ?_, hds, rfl⟩
  rintro rfl
  exact hne (List.eq_nil_of_length_eq_zero hlen.symm)

end AdaToC.Ada
