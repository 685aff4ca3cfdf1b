import AdaToC.Text.Case

/-!
# Reading characters back

`Utf8.glyphs` undoes `Utf8.encode`: a text that starts with the bytes of a character is read as
that character, whatever stands behind it. In the other direction every text is the bytes of its
first glyph followed by the rest, so facts about `Bytes.folded` can be carried over to the bytes.

The second half looks at the case table from the side of ASCII. Only two characters outside ASCII
fold to a letter of ASCII, the long s and the Kelvin sign; a byte of ASCII is a character by itself.
-/

namespace AdaToC

namespace Utf8

/-! ## The first glyph of a text -/

/-- Passing over bytes of a glyph is dropping them. -/
theorem glyphsFrom_eq_drop (passed : Nat) (s : Bytes) :
    glyphsFrom passed s = glyphs (s.drop passed) := by
  induction s generalizing passed with
  | nil => cases passed <;> simp [glyphs, glyphsFrom]
  | cons b rest ih =>
    cases passed with
    | zero => rfl
    | succ passed => rw [glyphsFrom, ih, List.drop_succ_cons]

theorem encode_ne_nil (c : Char) : encode c ≠ [] := by
  unfold encode
  simp only
  split
  · simp
  split
  · simp
  split <;> simp

theorem toNat_lt_max (c : Char) : c.toNat < 0x110000 := by
  have hvalid := c.valid
  simp only [UInt32.isValidChar, Nat.isValidChar] at hvalid
  change c.val.toNat < 0x110000
  omega

/-- The lead byte and the bytes behind it spell the number of the character. -/
theorem codePoint_encode {c : Char} {lead : UInt8} {tail : Bytes}
    (henc : encode c = lead :: tail) (rest : Bytes) :
    codePoint lead (tail ++ rest) = c.toNat := by
  have hmax := toNat_lt_max c
  unfold encode at henc
  simp only at henc
  unfold codePoint
  -- one case for each length of the encoding
  split at henc
  · obtain ⟨rfl, rfl⟩ := List.cons.inj henc
    simp only [UInt8.lt_iff_toNat_lt, UInt8.toNat_ofNat', UInt8.reduceToNat]
    rw [if_pos (by omega)]
    omega
  split at henc
  · obtain ⟨rfl, rfl⟩ := List.cons.inj henc
    simp only [UInt8.lt_iff_toNat_lt, UInt8.toNat_ofNat', UInt8.reduceToNat, List.cons_append]
    rw [if_neg (by omega), if_pos (by omega)]
    omega
  split at henc
  · obtain ⟨rfl, rfl⟩ := List.cons.inj henc
    simp only [UInt8.lt_iff_toNat_lt, UInt8.toNat_ofNat', UInt8.reduceToNat, List.cons_append]
    rw [if_neg (by omega), if_neg (by omega), if_pos (by omega)]
    omega
  · obtain ⟨rfl, rfl⟩ := List.cons.inj henc
    simp only [UInt8.lt_iff_toNat_lt, UInt8.toNat_ofNat', UInt8.reduceToNat, List.cons_append]
    rw [if_neg (by omega), if_neg (by omega), if_neg (by omega)]
    omega

/-- A text that starts with the bytes of a character is read as that character first. -/
theorem glyphs_encode_append (c : Char) (t : Bytes) :
    glyphs (encode c ++ t) = .char c :: glyphs t := by
  obtain ⟨lead, tail, henc⟩ := List.exists_cons_of_ne_nil (encode_ne_nil c)
  have hfront : front lead (tail ++ t) = .char c := by
    have hfront : (encode c).isPrefixOf (lead :: (tail ++ t)) = true :=
      List.isPrefixOf_iff_prefix.mpr ⟨t, by rw [henc]; rfl⟩
    simp only [front, codePoint_encode henc t, Char.ofNat_toNat, hfront, if_true]
  have hlength : (encode c).length - 1 = tail.length := by rw [henc]; rfl
  rw [henc, List.cons_append, glyphs, glyphsFrom]
  simp only [hfront, Glyph.bytes, hlength]
  rw [glyphsFrom_eq_drop, List.drop_left]

/-- A text is the bytes of its first glyph, followed by the text of the other glyphs. -/
theorem glyphs_eq_cons {t : Bytes} {g : Glyph} {gs : List Glyph} (h : glyphs t = g :: gs) :
    ∃ rest, t = g.bytes ++ rest ∧ glyphs rest = gs := by
  cases t with
  | nil => simp [glyphs, glyphsFrom] at h
  | cons b rest =>
    rw [glyphs, glyphsFrom] at h
    obtain ⟨rfl, rfl⟩ := List.cons.inj h
    rw [glyphsFrom_eq_drop]
    -- what `front` reads is a prefix of the text, by its own check
    unfold front
    simp only
    split
    · next hfront =>
      obtain ⟨tail, htail⟩ := List.isPrefixOf_iff_prefix.mp hfront
      obtain ⟨lead, more, henc⟩ := List.exists_cons_of_ne_nil
        (encode_ne_nil (Char.ofNat (codePoint b rest)))
      refine ⟨tail, htail.symm, ?_⟩
      rw [henc] at htail
      obtain ⟨-, rfl⟩ := List.cons.inj htail
      rw [show (Glyph.char (Char.ofNat (codePoint b (more.append tail)))).bytes.length - 1
          = more.length from by simp only [Glyph.bytes]; rw [henc]; rfl]
      exact congrArg glyphs List.drop_left.symm
    · exact ⟨rest, rfl, rfl⟩

end Utf8

/-! ## The fold table over ASCII -/

theorem toNat_ofNat {n : Nat} (hvalid : n.isValidChar) : (Char.ofNat n).toNat = n := by
  rw [Char.ofNat, dif_pos hvalid]
  rfl

namespace CaseTable

/-- A character that a table moves lies in one of its runs. -/
theorem apply_cases (table : List CaseRun) (c : Char) :
    apply table c = c ∨
      ∃ run ∈ table, run.covers c.toNat ∧
        apply table c = Char.ofNat (c.toNat + run.shift).toNat := by
  unfold apply
  split
  · next run hfind =>
    exact Or.inr ⟨run, List.mem_of_find?_eq_some hfind, by simpa using List.find?_some hfind, rfl⟩
  · exact Or.inl rfl

/-- The runs that lead into ASCII are the capital letters, the long s and the Kelvin sign. All
others stay above ASCII and away from the numbers that belong to no character. -/
theorem foldRuns_into_ascii : ∀ run ∈ foldRuns,
    run.last < 0x80 ∨
    run.first = run.last ∧ (run.first = 0x17F ∨ run.first = 0x212A) ∨
    0x80 ≤ run.first + run.shift ∧
      (run.last + run.shift < 0xD800 ∨
        0xE000 ≤ run.first + run.shift ∧ run.last + run.shift < 0x110000) := by
  decide +kernel

/-- A table whose first run is the capital letters and whose other runs start above ASCII changes
in ASCII the capital letters only. -/
theorem apply_of_ascii {runs : List CaseRun} (hruns : ∀ run ∈ runs, 0x80 ≤ run.first) {c : Char}
    (hc : c.toNat < 0x80) :
    apply (⟨0x41, 0x5A, 1, 32⟩ :: runs) c =
      if 0x41 ≤ c.toNat ∧ c.toNat ≤ 0x5A then Char.ofNat (c.toNat + 0x20) else c := by
  have hnone : runs.find? (·.covers c.toNat) = none := by
    rw [List.find?_eq_none]
    intro run hrun
    have habove := hruns run hrun
    simp only [CaseRun.covers, Bool.and_eq_true, decide_eq_true_eq]
    omega
  rw [apply, List.find?_cons]
  by_cases hupper : 0x41 ≤ c.toNat ∧ c.toNat ≤ 0x5A
  · have hcovers : CaseRun.covers ⟨0x41, 0x5A, 1, 32⟩ c.toNat = true := by
      simp [CaseRun.covers, hupper, Nat.mod_one]
    rw [if_pos hupper]
    simp only [hcovers]
    rfl
  · have hcovers : CaseRun.covers ⟨0x41, 0x5A, 1, 32⟩ c.toNat = false := by
      simp [CaseRun.covers]
      omega
    rw [if_neg hupper]
    simp [hcovers, hnone]

/-- All runs but the first start above ASCII. -/
theorem foldRuns_tail_above_ascii : ∀ run ∈ foldRuns.tail, 0x80 ≤ run.first := by
  decide +kernel

end CaseTable

/-- In ASCII folding is changing capital letters to small ones. -/
theorem foldChar_of_ascii {c : Char} (hc : c.toNat < 0x80) :
    foldChar c =
      if 0x41 ≤ c.toNat ∧ c.toNat ≤ 0x5A then Char.ofNat (c.toNat + 0x20) else c :=
  CaseTable.apply_of_ascii CaseTable.foldRuns_tail_above_ascii hc

/-- Outside ASCII only the long s and the Kelvin sign fold to a character of ASCII. -/
theorem foldChar_into_ascii {c : Char} (h : (foldChar c).toNat < 0x80) :
    c.toNat < 0x80 ∨ c = '\u017F' ∨ c = '\u212A' := by
  rcases CaseTable.apply_cases CaseTable.foldRuns c with hsame | ⟨run, hrun, hcovers, happly⟩
  · left
    rw [foldChar, hsame] at h
    exact h
  · simp only [CaseRun.covers, Bool.and_eq_true, decide_eq_true_eq] at hcovers
    rcases CaseTable.foldRuns_into_ascii run hrun with hlow | ⟨hsingle, hat⟩ | ⟨hfirst, hvalid⟩
    · left
      omega
    · right
      have hn : c.toNat = 0x17F ∨ c.toNat = 0x212A := by omega
      rcases hn with hn | hn
      · left
        rw [← Char.ofNat_toNat c, hn]
      · right
        rw [← Char.ofNat_toNat c, hn]
    · -- the run keeps its characters above ASCII, against `h`
      exfalso
      rw [foldChar, happly, toNat_ofNat] at h
      · omega
      · unfold Nat.isValidChar
        omega

/-! ## Bytes of ASCII as characters -/

/-- A byte as a character. -/
def byteChar (b : UInt8) : Char :=
  Char.ofNat b.toNat

theorem toNat_ofNat_byte (b : UInt8) : (Char.ofNat b.toNat).toNat = b.toNat :=
  toNat_ofNat (Or.inl (by have := b.toNat_lt; omega))

/-- A byte of ASCII is the encoding of a character. -/
theorem encode_ofNat_byte {b : UInt8} (hb : b < 0x80) :
    Utf8.encode (Char.ofNat b.toNat) = [b] := by
  have hlt : b.toNat < 0x80 := UInt8.lt_iff_toNat_lt.mp hb
  simp only [Utf8.encode, toNat_ofNat_byte, hlt, if_true, Nat.toUInt8, UInt8.ofNat_toNat]

/-- Every character of ASCII is that of a byte. -/
theorem exists_byte_of_ascii {c : Char} (hc : c.toNat < 0x80) :
    ∃ b : UInt8, b < 0x80 ∧ c = Char.ofNat b.toNat := by
  have hnat : c.toNat.toUInt8.toNat = c.toNat := by
    rw [Nat.toUInt8, UInt8.toNat_ofNat']
    omega
  refine ⟨c.toNat.toUInt8, ?_, ?_⟩
  · rw [UInt8.lt_iff_toNat_lt, hnat]
    exact hc
  · rw [hnat, Char.ofNat_toNat]

theorem toNat_lowerByte (b : UInt8) : (lowerByte b).toNat =
    if 0x41 ≤ b.toNat ∧ b.toNat ≤ 0x5A then b.toNat + 0x20 else b.toNat := by
  simp only [lowerByte, Bool.and_eq_true, decide_eq_true_eq, UInt8.le_iff_toNat_le,
    UInt8.reduceToNat]
  split
  · simp only [UInt8.toNat_add, UInt8.reduceToNat]
    omega
  · rfl

theorem lowerByte_lt_iff {b : UInt8} : lowerByte b < 0x80 ↔ b < 0x80 := by
  simp only [UInt8.lt_iff_toNat_lt, toNat_lowerByte, UInt8.reduceToNat]
  split <;> omega

theorem foldChar_ofNat_byte {b : UInt8} (hb : b < 0x80) :
    foldChar (Char.ofNat b.toNat) = Char.ofNat (lowerByte b).toNat := by
  have hlt : b.toNat < 0x80 := UInt8.lt_iff_toNat_lt.mp hb
  rw [foldChar_of_ascii (by rw [toNat_ofNat_byte]; exact hlt), toNat_ofNat_byte, toNat_lowerByte]
  split <;> rfl

/-! ## The folded form of a text -/

theorem Utf8.encodeAll_cons (c : Char) (cs : List Char) :
    Utf8.encodeAll (c :: cs) = Utf8.encode c ++ Utf8.encodeAll cs :=
  List.flatMap_cons

namespace Bytes

theorem folded_encode_append (c : Char) (t : Bytes) :
    Bytes.folded (Utf8.encode c ++ t) = foldChar c :: t.folded := by
  simp [Bytes.folded, Utf8.scalars, Utf8.glyphs_encode_append, Glyph.scalar]

theorem folded_encodeAll (cs : List Char) :
    Bytes.folded (Utf8.encodeAll cs) = cs.map foldChar := by
  induction cs with
  | nil => rfl
  | cons c cs ih => rw [Utf8.encodeAll_cons, folded_encode_append, ih, List.map_cons]

theorem eq_nil_of_folded_eq_nil {t : Bytes} (h : t.folded = []) : t = [] := by
  cases t with
  | nil => rfl
  | cons b rest => simp [Bytes.folded, Utf8.scalars, Utf8.glyphs, Utf8.glyphsFrom] at h

theorem equalFold_iff {s t : Bytes} : s.equalFold t ↔ s.folded = t.folded := by
  simp [equalFold]

theorem equalFold_refl (s : Bytes) : s.equalFold s :=
  equalFold_iff.mpr rfl

/-- If the folded form of a text starts with a character of ASCII, the text starts with the bytes
of a character that folds to it. -/
theorem folded_eq_cons_ascii {t : Bytes} {f : Char} {fs : List Char} (hf : f.toNat < 0x80)
    (h : t.folded = f :: fs) :
    ∃ c rest, t = Utf8.encode c ++ rest ∧ foldChar c = f ∧ rest.folded = fs := by
  simp only [Bytes.folded, Utf8.scalars, List.map_map, List.map_eq_cons_iff] at h
  obtain ⟨g, gs, hglyphs, hg, hgs⟩ := h
  obtain ⟨rest, rfl, rfl⟩ := Utf8.glyphs_eq_cons hglyphs
  cases g with
  | char c =>
    refine ⟨c, rest, rfl, hg, ?_⟩
    simp [Bytes.folded, Utf8.scalars, hgs]
  | stray b =>
    -- a stray byte shows the replacement character, which is not in ASCII
    have hfolds : foldChar replacementChar = f := hg
    have hkept : foldChar replacementChar = replacementChar := by decide
    rw [hkept] at hfolds
    subst hfolds
    exact absurd hf (by decide)

end Bytes

end AdaToC
