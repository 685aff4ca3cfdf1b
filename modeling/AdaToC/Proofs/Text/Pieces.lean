import AdaToC.Proofs.Text.Characters
import AdaToC.Text.Blank
import Mathlib.Algebra.BigOperators.Group.List.Defs

/-!
# Cutting texts into pieces

What `split`, `cut?` and `trim` leave of a text. Pieces hold only bytes of the text, none of them is
the separator, and a text put together from pieces without the separator is cut into them again.

The last part is about letter case. Changing a text to lower case makes small letters, but it makes
no other byte of ASCII: a comma, a semicolon or a parenthesis of the result stood in the text
before.
-/

namespace AdaToC

namespace Utf8

/-- The glyphs of a text hold its bytes, all of them and in order. -/
theorem flatMap_bytes_glyphs (s : Bytes) : (glyphs s).flatMap Glyph.bytes = s := by
  generalize hgs : glyphs s = gs
  induction gs generalizing s with
  | nil =>
    cases s with
    | nil => rfl
    | cons b rest => simp [glyphs, glyphsFrom] at hgs
  | cons g gs ih =>
    obtain ⟨rest, rfl, hrest⟩ := glyphs_eq_cons hgs
    rw [List.flatMap_cons, ih rest hrest]

theorem mem_of_mem_glyphs {s : Bytes} {g : Glyph} (hg : g ∈ glyphs s) {b : UInt8}
    (hb : b ∈ g.bytes) : b ∈ s := by
  rw [← flatMap_bytes_glyphs s]
  exact List.mem_flatMap.mpr ⟨g, hg, hb⟩

theorem glyphs_of_ascii {s : Bytes} (hs : ∀ b ∈ s, b < 0x80) :
    glyphs s = s.map fun b => .char (Char.ofNat b.toNat) := by
  induction s with
  | nil => rfl
  | cons b rest ih =>
    have hb : b < 0x80 := hs b List.mem_cons_self
    have hrest : ∀ d ∈ rest, d < 0x80 := fun d hd => hs d (List.mem_cons_of_mem _ hd)
    have hfront := glyphs_encode_append (Char.ofNat b.toNat) rest
    rw [encode_ofNat_byte hb, List.singleton_append] at hfront
    rw [hfront, ih hrest, List.map_cons]

/-- A byte of ASCII stands only in the encoding of its own character. -/
theorem eq_ofNat_of_mem_encode {c : Char} {b : UInt8} (hb : b < 0x80) (hmem : b ∈ encode c) :
    c = Char.ofNat b.toNat := by
  have hlt : b.toNat < 0x80 := UInt8.lt_iff_toNat_lt.mp hb
  have hmax := toNat_lt_max c
  by_cases hascii : c.toNat < 0x80
  · obtain ⟨d, hd, rfl⟩ := exists_byte_of_ascii hascii
    rw [encode_ofNat_byte hd, List.mem_singleton] at hmem
    rw [hmem]
  · -- the bytes of a longer encoding are all above ASCII
    exfalso
    have htail : ∀ k : Nat, b ≠ (0x80 + k % 64).toUInt8 := by
      rintro k rfl
      rw [Nat.toUInt8, UInt8.toNat_ofNat'] at hlt
      omega
    have hlead : ∀ k : Nat, 0x80 ≤ k → k < 0x100 → b ≠ k.toUInt8 := by
      rintro k hge hle rfl
      rw [Nat.toUInt8, UInt8.toNat_ofNat'] at hlt
      omega
    unfold encode at hmem
    simp only [hascii, if_false] at hmem
    split at hmem
    · simp only [List.mem_cons, List.not_mem_nil, or_false] at hmem
      rcases hmem with h | h
      · exact hlead _ (by omega) (by omega) h
      · exact htail _ h
    split at hmem
    · simp only [List.mem_cons, List.not_mem_nil, or_false] at hmem
      rcases hmem with h | h | h
      · exact hlead _ (by omega) (by omega) h
      · exact htail _ h
      · exact htail _ h
    · simp only [List.mem_cons, List.not_mem_nil, or_false] at hmem
      rcases hmem with h | h | h | h
      · exact hlead _ (by omega) (by omega) h
      · exact htail _ h
      · exact htail _ h
      · exact htail _ h

end Utf8

namespace Bytes

/-! ## Splitting and joining -/

theorem split_cons (sep b : UInt8) (s : Bytes) :
    split sep (b :: s) =
      if b = sep then [] :: split sep s
      else match split sep s with
        | [] => [[b]]
        | piece :: rest => (b :: piece) :: rest := rfl

theorem split_ne_nil (sep : UInt8) (s : Bytes) : split sep s ≠ [] := by
  cases s with
  | nil => simp [split]
  | cons b s =>
    rw [split_cons]
    split
    · simp
    · split <;> simp

theorem split_of_not_mem {sep : UInt8} {s : Bytes} (h : sep ∉ s) : split sep s = [s] := by
  induction s with
  | nil => rfl
  | cons b s ih =>
    simp only [List.mem_cons, not_or] at h
    rw [split_cons, if_neg (Ne.symm h.1), ih h.2]

theorem split_append_cons {sep : UInt8} {s : Bytes} (h : sep ∉ s) (t : Bytes) :
    split sep (s ++ sep :: t) = s :: split sep t := by
  induction s with
  | nil => rw [List.nil_append, split_cons, if_pos rfl]
  | cons b s ih =>
    simp only [List.mem_cons, not_or] at h
    rw [List.cons_append, split_cons, if_neg (Ne.symm h.1), ih h.2]

theorem split_append (sep : UInt8) (s t : Bytes) :
    split sep (s ++ sep :: t) = split sep s ++ split sep t := by
  induction s with
  | nil => exact split_append_cons (List.not_mem_nil) t
  | cons b s ih =>
    rw [List.cons_append, split_cons, split_cons, ih]
    by_cases hb : b = sep
    · simp [hb]
    · obtain ⟨first, rest, hsplit⟩ := List.exists_cons_of_ne_nil (split_ne_nil sep s)
      simp [hb, hsplit]

/-- What a piece of a text holds: bytes of the text, and not the separator. -/
theorem mem_split {sep : UInt8} {s piece : Bytes} (hpiece : piece ∈ split sep s) :
    sep ∉ piece ∧ ∀ b ∈ piece, b ∈ s := by
  induction s generalizing piece with
  | nil =>
    obtain rfl : piece = [] := by simpa [split] using hpiece
    simp
  | cons d s ih =>
    rw [split_cons] at hpiece
    split at hpiece
    · rcases List.mem_cons.mp hpiece with rfl | hpiece
      · simp
      · obtain ⟨hsep, hsub⟩ := ih hpiece
        exact ⟨hsep, fun b hb => List.mem_cons_of_mem _ (hsub b hb)⟩
    · next hd =>
      obtain ⟨first, rest, hsplit⟩ := List.exists_cons_of_ne_nil (split_ne_nil sep s)
      rw [hsplit] at hpiece ih
      rcases List.mem_cons.mp hpiece with rfl | hpiece
      · obtain ⟨hsep, hsub⟩ := ih List.mem_cons_self
        refine ⟨?_, ?_⟩
        · simp only [List.mem_cons, not_or]
          exact ⟨Ne.symm hd, hsep⟩
        · intro b hb
          rcases List.mem_cons.mp hb with rfl | hb
          · exact List.mem_cons_self
          · exact List.mem_cons_of_mem _ (hsub b hb)
      · obtain ⟨hsep, hsub⟩ := ih (List.mem_cons_of_mem _ hpiece)
        exact ⟨hsep, fun b hb => List.mem_cons_of_mem _ (hsub b hb)⟩

/-- Pieces joined by a separator and a further text are split again; the further text stands in
front of every piece but the first. -/
theorem split_joinWith {sep : UInt8} {pad : Bytes} (hpad : sep ∉ pad) {piece : Bytes}
    {pieces : List Bytes} (h : ∀ p ∈ piece :: pieces, sep ∉ p) :
    split sep (joinWith (sep :: pad) (piece :: pieces)) = piece :: pieces.map (pad ++ ·) := by
  have hpiece : sep ∉ piece := h piece List.mem_cons_self
  induction pieces generalizing piece with
  | nil => rw [joinWith, split_of_not_mem hpiece, List.map_nil]
  | cons next pieces ih =>
    have hnext : sep ∉ next := h next (by simp)
    have hrest : ∀ p ∈ (pad ++ next) :: pieces, sep ∉ p := by
      intro p hp
      rcases List.mem_cons.mp hp with rfl | hp
      · simp [hpad, hnext]
      · exact h p (by simp [hp])
    -- the padding goes to the next piece, and the induction is over what is joined behind
    have hshift : pad ++ joinWith (sep :: pad) (next :: pieces) =
        joinWith (sep :: pad) ((pad ++ next) :: pieces) := by
      cases pieces <;> simp [joinWith]
    rw [joinWith, List.append_assoc, List.cons_append, split_append_cons hpiece, hshift,
      ih hrest (hrest _ List.mem_cons_self), List.map_cons]
    simp

/-- The pieces of a text joined again are the text. -/
theorem joinWith_split (sep : UInt8) (s : Bytes) : joinWith [sep] (split sep s) = s := by
  induction s with
  | nil => rfl
  | cons b s ih =>
    obtain ⟨piece, rest, hsplit⟩ := List.exists_cons_of_ne_nil (split_ne_nil sep s)
    rw [split_cons]
    rw [hsplit] at ih ⊢
    split
    · next hb =>
      rw [joinWith, ih, hb]
      · rfl
      · simp
    · rw [← ih]
      cases rest <;> simp [joinWith]

theorem mem_joinWith {sep : Bytes} {pieces : List Bytes} {b : UInt8}
    (hb : b ∈ joinWith sep pieces) : b ∈ sep ∨ ∃ piece ∈ pieces, b ∈ piece := by
  induction pieces using joinWith.induct with
  | case1 => cases hb
  | case2 piece => exact Or.inr ⟨piece, List.mem_cons_self, hb⟩
  | case3 piece rest hrest ih =>
    rw [joinWith, List.mem_append, List.mem_append] at hb
    · rcases hb with (hb | hb) | hb
      · exact Or.inr ⟨piece, List.mem_cons_self, hb⟩
      · exact Or.inl hb
      · rcases ih hb with hsep | ⟨p, hp, hbp⟩
        · exact Or.inl hsep
        · exact Or.inr ⟨p, List.mem_cons_of_mem _ hp, hbp⟩
    · exact hrest

/-! ## Cutting at the first separator -/

theorem bne_of_not_mem {sep : UInt8} {s : Bytes} (h : sep ∉ s) : ∀ b ∈ s, (b != sep) = true := by
  intro b hb
  rw [bne_iff_ne]
  rintro rfl
  exact h hb

theorem exists_last {b : UInt8} {s : Bytes} (h : b ∈ s) :
    ∃ front back, s = front ++ b :: back ∧ b ∉ back := by
  obtain ⟨back, front, hreverse, hback⟩ := List.eq_append_cons_of_mem (List.mem_reverse.mpr h)
  refine ⟨front.reverse, back.reverse, ?_, by simpa using hback⟩
  rw [← List.reverse_reverse s, hreverse]
  simp

theorem cut?_cons (sep b : UInt8) (s : Bytes) :
    cut? sep (b :: s) =
      if b = sep then some ([], s)
      else (cut? sep s).map fun (before, behind) => (b :: before, behind) := by
  unfold cut?
  by_cases h : b = sep
  · simp [h]
  · simp only [List.dropWhile_cons, List.takeWhile_cons, bne_iff_ne, ne_eq, h, not_false_eq_true,
      if_true, if_false]
    split <;> simp

theorem cut?_eq_none_iff {sep : UInt8} {s : Bytes} : cut? sep s = none ↔ sep ∉ s := by
  induction s with
  | nil => simp [cut?]
  | cons b s ih =>
    rw [cut?_cons]
    split
    next h => simp [h]
    next h => simp [ih, Ne.symm h]

theorem cut?_append_cons {sep : UInt8} {s : Bytes} (h : sep ∉ s) (t : Bytes) :
    cut? sep (s ++ sep :: t) = some (s, t) := by
  have hs := bne_of_not_mem h
  unfold cut?
  rw [List.dropWhile_append_of_pos hs, List.takeWhile_append_of_pos hs]
  simp

theorem mem_of_cut? {sep : UInt8} {s before behind : Bytes} (h : cut? sep s = some (before, behind))
    {b : UInt8} (hb : b ∈ before) : b ∈ s := by
  unfold cut? at h
  split at h
  · cases h
  · obtain ⟨rfl, -⟩ := Prod.mk.inj (Option.some.inj h)
    exact (List.takeWhile_sublist _).subset hb

theorem dropPrefix?_eq_some_iff_append {s p rest : Bytes} :
    s.dropPrefix? p = some rest ↔ s = p ++ rest := by
  rw [List.dropPrefix?_eq_some_iff]
  constructor
  · rintro ⟨p', rfl, hp⟩
    rw [eq_of_beq hp]
  · rintro rfl
    exact ⟨p, rfl, beq_self_eq_true p⟩

theorem orElse_ne_nil {s fallback : Bytes} (h : fallback ≠ []) : s.orElse fallback ≠ [] := by
  unfold orElse
  split
  · exact h
  · next hne => simpa using hne

/-! ## Occurrences -/

theorem occursIn_append (s piece t : Bytes) : occursIn piece (s ++ piece ++ t) = true := by
  induction s with
  | nil =>
    cases piece with
    | nil => cases t <;> simp [occursIn]
    | cons b piece =>
      have hfront : (b :: piece).isPrefixOf (b :: (piece ++ t)) = true := by
        rw [List.isPrefixOf_iff_prefix]
        exact ⟨t, rfl⟩
      rw [List.nil_append, List.cons_append, occursIn, hfront, Bool.true_or]
  | cons b s ih => rw [List.cons_append, List.cons_append, occursIn, ih, Bool.or_true]

theorem mem_of_occursIn {piece s : Bytes} (h : occursIn piece s = true) {b : UInt8}
    (hb : b ∈ piece) : b ∈ s := by
  induction s with
  | nil =>
    rw [occursIn, List.isEmpty_iff] at h
    rw [h] at hb
    exact hb
  | cons d s ih =>
    rw [occursIn, Bool.or_eq_true] at h
    rcases h with hfront | hrest
    · exact (List.isPrefixOf_iff_prefix.mp hfront).subset hb
    · exact List.mem_cons_of_mem _ (ih hrest)

/-! ## Trimming -/

theorem mem_of_mem_trim {s : Bytes} {b : UInt8} (hb : b ∈ s.trim) : b ∈ s := by
  obtain ⟨g, hg, hbg⟩ := List.mem_flatMap.mp hb
  have hmem : g ∈ Utf8.glyphs s :=
    (List.dropWhile_suffix _).subset
      (List.mem_reverse.mp ((List.dropWhile_suffix _).subset (List.mem_reverse.mp hg)))
  exact Utf8.mem_of_mem_glyphs hmem hbg

/-- Trimming a text of ASCII takes the blanks in front of it away, if it starts and ends with
something else. -/
theorem trim_indented (n : Nat) {first last : UInt8} {s : Bytes}
    (hs : ∀ b ∈ first :: s, b < 0x80) (hfirst : isBlank (Char.ofNat first.toNat) = false)
    (hlast : (first :: s).getLast? = some last) (hblank : isBlank (Char.ofNat last.toNat) = false) :
    trim (List.replicate n 0x20 ++ first :: s) = first :: s := by
  have hascii : ∀ b ∈ List.replicate n 0x20 ++ first :: s, b < 0x80 := by
    intro b hb
    rcases List.mem_append.mp hb with hb | hb
    · rw [List.eq_of_mem_replicate hb]
      decide
    · exact hs b hb
  obtain ⟨init, hinit⟩ := List.getLast?_eq_some_iff.mp hlast
  unfold trim
  simp only [Utf8.glyphs_of_ascii hascii]
  rw [List.map_append, List.map_replicate, List.dropWhile_append_of_pos, List.map_cons,
    List.dropWhile_cons_of_neg]
  · -- from behind the same: the text ends with `last`, which is no blank
    have hreverse : (Glyph.char (Char.ofNat first.toNat) ::
        s.map fun b => Glyph.char (Char.ofNat b.toNat)).reverse =
        Glyph.char (Char.ofNat last.toNat) ::
          (init.map fun b => Glyph.char (Char.ofNat b.toNat)).reverse := by
      rw [← List.map_cons (f := fun b : UInt8 => Glyph.char (Char.ofNat b.toNat)), hinit]
      simp
    rw [hreverse, List.dropWhile_cons_of_neg, ← hreverse, List.reverse_reverse, ← List.map_cons
      (f := fun b : UInt8 => Glyph.char (Char.ofNat b.toNat)), ← Utf8.glyphs_of_ascii hs,
      Utf8.flatMap_bytes_glyphs]
    simp [Glyph.isChar, Glyph.scalar, hblank]
  · simp [Glyph.isChar, Glyph.scalar, hfirst]
  · intro g hg
    rw [List.eq_of_mem_replicate hg]
    decide

end Bytes

/-! ## Lower case -/

namespace CaseTable

/-- The runs that lead into ASCII lead to small letters. All others stay above ASCII and away from
the numbers that belong to no character. -/
theorem lowerRuns_into_ascii : ∀ run ∈ lowerRuns,
    0x61 ≤ run.first + run.shift ∧ run.last + run.shift ≤ 0x7A ∨
    0x80 ≤ run.first + run.shift ∧
      (run.last + run.shift < 0xD800 ∨
        0xE000 ≤ run.first + run.shift ∧ run.last + run.shift < 0x110000) := by
  decide +kernel

theorem lowerRuns_tail_above_ascii : ∀ run ∈ lowerRuns.tail, 0x80 ≤ run.first := by
  decide +kernel

end CaseTable

/-- A character that becomes one of ASCII was that character or becomes a small letter. -/
theorem lowerChar_into_ascii {c : Char} (h : (lowerChar c).toNat < 0x80) :
    lowerChar c = c ∨ 0x61 ≤ (lowerChar c).toNat ∧ (lowerChar c).toNat ≤ 0x7A := by
  rcases CaseTable.apply_cases CaseTable.lowerRuns c with hsame | ⟨run, hrun, hcovers, happly⟩
  · exact Or.inl hsame
  · simp only [CaseRun.covers, Bool.and_eq_true, decide_eq_true_eq] at hcovers
    rw [lowerChar, happly] at h ⊢
    rcases CaseTable.lowerRuns_into_ascii run hrun with hsmall | ⟨hfirst, hvalid⟩
    · right
      rw [toNat_ofNat (by unfold Nat.isValidChar; omega)]
      omega
    · -- the run keeps its characters above ASCII, against `h`
      rw [toNat_ofNat (by unfold Nat.isValidChar; omega)] at h
      omega

theorem lowerChar_ofNat_byte {b : UInt8} (hb : b < 0x80) :
    lowerChar (Char.ofNat b.toNat) = Char.ofNat (lowerByte b).toNat := by
  have hlt : (Char.ofNat b.toNat).toNat < 0x80 := by
    rw [toNat_ofNat_byte]
    exact UInt8.lt_iff_toNat_lt.mp hb
  have hlower : lowerChar (Char.ofNat b.toNat) = _ :=
    CaseTable.apply_of_ascii CaseTable.lowerRuns_tail_above_ascii hlt
  rw [hlower, toNat_ofNat_byte, toNat_lowerByte]
  split <;> rfl

namespace Bytes

/-- A byte of ASCII in the lower-case form of a text that is no small letter stood in the text. -/
theorem mem_of_mem_lower {s : Bytes} {b : UInt8} (hb : b < 0x80)
    (hmark : b.toNat < 0x61 ∨ 0x7A < b.toNat) (hmem : b ∈ s.lower) : b ∈ s := by
  obtain ⟨c, hc, hbc⟩ := List.mem_flatMap.mp hmem
  simp only [Utf8.scalars, List.map_map, List.mem_map, Function.comp_apply] at hc
  obtain ⟨g, hg, rfl⟩ := hc
  have hlower := Utf8.eq_ofNat_of_mem_encode hb hbc
  have hnat : (lowerChar g.scalar).toNat = b.toNat := by rw [hlower, toNat_ofNat_byte]
  have hlt : b.toNat < 0x80 := UInt8.lt_iff_toNat_lt.mp hb
  -- the character has not changed, so its glyph holds the byte itself
  have hsame : g.scalar = Char.ofNat b.toNat := by
    rcases lowerChar_into_ascii (c := g.scalar) (by omega) with hsame | hsmall
    · rw [← hsame, hlower]
    · omega
  cases g with
  | char c =>
    refine Utf8.mem_of_mem_glyphs hg ?_
    rw [show c = Char.ofNat b.toNat from hsame, Glyph.bytes, encode_ofNat_byte hb]
    exact List.mem_singleton_self b
  | stray d =>
    -- a byte that is no character becomes U+FFFD, which is not in ASCII
    have hreplacement : replacementChar.toNat = b.toNat := by
      rw [show replacementChar = Char.ofNat b.toNat from hsame, toNat_ofNat_byte]
    rw [show replacementChar.toNat = 0xFFFD from rfl] at hreplacement
    omega

theorem lower_of_ascii {s : Bytes} (hs : ∀ b ∈ s, b < 0x80) : s.lower = s.map lowerByte := by
  have hlower : ∀ b ∈ s, Utf8.encode (lowerChar (Char.ofNat b.toNat)) = [lowerByte b] := by
    intro b hb
    rw [lowerChar_ofNat_byte (hs b hb), encode_ofNat_byte (lowerByte_lt_iff.mpr (hs b hb))]
  rw [lower, Utf8.scalars, Utf8.glyphs_of_ascii hs, Utf8.encodeAll]
  simp only [List.map_map, List.flatMap_map, Function.comp_apply, Glyph.scalar]
  rw [List.flatMap_def, List.map_congr_left hlower, ← List.flatMap_def]
  exact List.map_eq_flatMap.symm

end Bytes

end AdaToC
