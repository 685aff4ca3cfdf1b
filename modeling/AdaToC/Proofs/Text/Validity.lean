import AdaToC.Proofs.Text.Pieces

/-!
# Well-formed texts

A text is well-formed if it is the UTF-8 form of some characters; `Sequences` describes the same
texts by the bytes that may follow each other. Texts put together from well-formed ones are
well-formed. In the other direction a well-formed text may be cut in front of
and behind any byte of ASCII, and behind any part of it that is well-formed itself; all cutting of
texts is shown to be of this kind.
-/

namespace AdaToC

namespace Utf8

/-- A text is the UTF-8 form of some characters. -/
def IsText (s : Bytes) : Prop :=
  ∃ cs, s = encodeAll cs

/-! ## Putting texts together -/

theorem isText_nil : IsText [] :=
  ⟨[], rfl⟩

theorem isText_encode (c : Char) : IsText (encode c) :=
  ⟨[c], by simp [encodeAll]⟩

theorem isText_encodeAll (cs : List Char) : IsText (encodeAll cs) :=
  ⟨cs, rfl⟩

theorem isText_bytes (s : String) : IsText (bytes s) :=
  ⟨s.toList, rfl⟩

theorem IsText.append {s t : Bytes} (hs : IsText s) (ht : IsText t) : IsText (s ++ t) := by
  obtain ⟨cs, rfl⟩ := hs
  obtain ⟨ds, rfl⟩ := ht
  exact ⟨cs ++ ds, by simp [encodeAll]⟩

theorem isText_flatMap {α : Type} {f : α → Bytes} {xs : List α} (h : ∀ x ∈ xs, IsText (f x)) :
    IsText (xs.flatMap f) := by
  induction xs with
  | nil => exact isText_nil
  | cons x xs ih =>
    rw [List.flatMap_cons]
    exact (h x List.mem_cons_self).append (ih fun y hy => h y (List.mem_cons_of_mem _ hy))

theorem isText_byte {b : UInt8} (hb : b < 0x80) : IsText [b] := by
  rw [← encode_ofNat_byte hb]
  exact isText_encode _

theorem isText_of_ascii {s : Bytes} (hs : ∀ b ∈ s, b < 0x80) : IsText s := by
  have hbytes := isText_flatMap (f := fun b : UInt8 => [b]) fun b hb => isText_byte (hs b hb)
  simpa using hbytes

theorem isText_joinWith {sep : Bytes} (hsep : IsText sep) {pieces : List Bytes}
    (h : ∀ piece ∈ pieces, IsText piece) : IsText (Bytes.joinWith sep pieces) := by
  induction pieces using Bytes.joinWith.induct with
  | case1 => exact isText_nil
  | case2 piece => exact h piece List.mem_cons_self
  | case3 piece rest hrest ih =>
    rw [Bytes.joinWith]
    · exact ((h piece List.mem_cons_self).append hsep).append
        (ih fun p hp => h p (List.mem_cons_of_mem _ hp))
    · exact hrest

theorem IsText.orElse {s fallback : Bytes} (hs : IsText s) (hfallback : IsText fallback) :
    IsText (s.orElse fallback) := by
  unfold Bytes.orElse
  split
  · exact hfallback
  · exact hs

theorem isText_replicate {b : UInt8} (hb : b < 0x80) (n : Nat) : IsText (List.replicate n b) :=
  isText_of_ascii fun _ hd => List.eq_of_mem_replicate hd ▸ hb

/-! ## Reading characters -/

theorem glyphs_encodeAll_append (cs : List Char) (t : Bytes) :
    glyphs (encodeAll cs ++ t) = cs.map .char ++ glyphs t := by
  induction cs with
  | nil => rfl
  | cons c cs ih => rw [encodeAll_cons, List.append_assoc, glyphs_encode_append, ih]; rfl

theorem isText_iff_glyphs {s : Bytes} : IsText s ↔ ∀ g ∈ glyphs s, g.isChar = true := by
  constructor
  · rintro ⟨cs, rfl⟩ g hg
    rw [← List.append_nil (encodeAll cs), glyphs_encodeAll_append] at hg
    obtain ⟨c, -, rfl⟩ : ∃ c ∈ cs, Glyph.char c = g := by simpa [glyphs, glyphsFrom] using hg
    rfl
  · intro h
    rw [← flatMap_bytes_glyphs s]
    apply isText_flatMap
    intro g hg
    cases g with
    | char c => exact isText_encode c
    | stray b => cases h _ hg

theorem isValidFrom_eq_all (passed : Nat) (s : Bytes) :
    isValidFrom passed s = (glyphsFrom passed s).all Glyph.isChar := by
  fun_induction isValidFrom passed s with
  | case1 => simp [glyphsFrom]
  | case2 passed b rest ih => rw [glyphsFrom, ih]
  | case3 b rest g ih => rw [glyphsFrom, List.all_cons, ih]

theorem isValid_iff {s : Bytes} : isValid s = true ↔ IsText s := by
  rw [isText_iff_glyphs, isValid, isValidFrom_eq_all, List.all_eq_true]
  rfl

/-! ## The bytes of a character -/

/-- A byte that stands only behind the first byte of a character. -/
def IsTail (b : UInt8) : Prop :=
  0x80 ≤ b ∧ b < 0xC0

theorem isTail_ofNat (k : Nat) : IsTail (0x80 + k % 64).toUInt8 := by
  unfold IsTail
  rw [UInt8.le_iff_toNat_le, UInt8.lt_iff_toNat_lt, Nat.toUInt8, UInt8.toNat_ofNat']
  simp only [UInt8.reduceToNat]
  omega

theorem not_isTail_ofNat {k : Nat} (hk : k < 0x80 ∨ 0xC0 ≤ k) (hmax : k < 0x100) :
    ¬ IsTail k.toUInt8 := by
  unfold IsTail
  rw [UInt8.le_iff_toNat_le, UInt8.lt_iff_toNat_lt, Nat.toUInt8, UInt8.toNat_ofNat']
  simp only [UInt8.reduceToNat]
  omega

theorem exists_lead_tail (c : Char) :
    ∃ lead tail, encode c = lead :: tail ∧ ¬ IsTail lead ∧ ∀ b ∈ tail, IsTail b := by
  have hmax := toNat_lt_max c
  unfold encode
  simp only
  -- one case for each length of the encoding
  split
  · exact ⟨_, _, rfl, not_isTail_ofNat (by omega) (by omega), by simp⟩
  split
  · refine ⟨_, _, rfl, not_isTail_ofNat (by omega) (by omega), ?_⟩
    exact List.forall_mem_singleton.mpr (isTail_ofNat _)
  split
  · refine ⟨_, _, rfl, not_isTail_ofNat (by omega) (by omega), ?_⟩
    exact List.forall_mem_cons.mpr ⟨isTail_ofNat _, List.forall_mem_singleton.mpr (isTail_ofNat _)⟩
  · refine ⟨_, _, rfl, not_isTail_ofNat (by omega) (by omega), ?_⟩
    exact List.forall_mem_cons.mpr ⟨isTail_ofNat _, List.forall_mem_cons.mpr
      ⟨isTail_ofNat _, List.forall_mem_singleton.mpr (isTail_ofNat _)⟩⟩

/-- The bytes of one character, by the ranges that each byte may come from. Behind four of the first
bytes the range of the second one is cut: what is left out below would be an overlong form, what is
left out above a surrogate or a number beyond the last code point. -/
inductive Sequence : Bytes → Prop where
  | one {a : UInt8} (ha : a < 0x80) : Sequence [a]
  | two {a b : UInt8} (ha : 0xC2 ≤ a ∧ a < 0xE0) (hb : IsTail b) : Sequence [a, b]
  | three {a b c : UInt8} (ha : 0xE0 ≤ a ∧ a < 0xF0) (hb : IsTail b) (hc : IsTail c)
      (hoverlong : a = 0xE0 → 0xA0 ≤ b) (hsurrogate : a = 0xED → b < 0xA0) : Sequence [a, b, c]
  | four {a b c d : UInt8} (ha : 0xF0 ≤ a ∧ a < 0xF5) (hb : IsTail b) (hc : IsTail c)
      (hd : IsTail d) (hoverlong : a = 0xF0 → 0x90 ≤ b) (hbeyond : a = 0xF4 → b < 0x90) :
      Sequence [a, b, c, d]

theorem sequence_encode (c : Char) : Sequence (encode c) := by
  have hvalid : c.toNat < 0xD800 ∨ 0xDFFF < c.toNat ∧ c.toNat < 0x110000 := c.valid
  unfold encode
  simp only
  -- one case for each length of the encoding
  split
  · refine .one ?_
    simp only [UInt8.lt_iff_toNat_lt, Nat.toUInt8, UInt8.toNat_ofNat', UInt8.reduceToNat]
    omega
  split
  · refine .two ?_ (isTail_ofNat _)
    simp only [UInt8.le_iff_toNat_le, UInt8.lt_iff_toNat_lt, Nat.toUInt8, UInt8.toNat_ofNat',
      UInt8.reduceToNat]
    omega
  split
  · refine .three ?_ (isTail_ofNat _) (isTail_ofNat _) ?_ ?_ <;>
      simp only [UInt8.le_iff_toNat_le, UInt8.lt_iff_toNat_lt, ← UInt8.toNat_inj, Nat.toUInt8,
        UInt8.toNat_ofNat', UInt8.reduceToNat] <;>
      omega
  · refine .four ?_ (isTail_ofNat _) (isTail_ofNat _) (isTail_ofNat _) ?_ ?_ <;>
      simp only [UInt8.le_iff_toNat_le, UInt8.lt_iff_toNat_lt, ← UInt8.toNat_inj, Nat.toUInt8,
        UInt8.toNat_ofNat', UInt8.reduceToNat] <;>
      omega

/-- The numbers of the bytes, without the marks of their places, make up that of a character. -/
theorem Sequence.exists_encode {s : Bytes} (h : Sequence s) : ∃ c, s = encode c := by
  cases h with
  | one ha => exact ⟨_, (encode_ofNat_byte ha).symm⟩
  | @two a b ha hb =>
    obtain ⟨n, hn⟩ : ∃ n, n = a.toNat % 32 * 64 + b.toNat % 64 := ⟨_, rfl⟩
    simp only [IsTail, UInt8.le_iff_toNat_le, UInt8.lt_iff_toNat_lt, UInt8.reduceToNat] at ha hb
    refine ⟨Char.ofNat n, ?_⟩
    unfold encode
    rw [toNat_ofNat (by unfold Nat.isValidChar; omega)]
    simp only
    rw [if_neg (by omega), if_pos (by omega)]
    simp only [List.cons.injEq, ← UInt8.toNat_inj, Nat.toUInt8, UInt8.toNat_ofNat', and_true]
    omega
  | @three a b c ha hb hc hoverlong hsurrogate =>
    obtain ⟨n, hn⟩ : ∃ n, n = a.toNat % 16 * 4096 + b.toNat % 64 * 64 + c.toNat % 64 := ⟨_, rfl⟩
    simp only [IsTail, UInt8.le_iff_toNat_le, UInt8.lt_iff_toNat_lt, ← UInt8.toNat_inj,
      UInt8.reduceToNat] at ha hb hc hoverlong hsurrogate
    refine ⟨Char.ofNat n, ?_⟩
    unfold encode
    rw [toNat_ofNat (by unfold Nat.isValidChar; omega)]
    simp only
    rw [if_neg (by omega), if_neg (by omega), if_pos (by omega)]
    simp only [List.cons.injEq, ← UInt8.toNat_inj, Nat.toUInt8, UInt8.toNat_ofNat', and_true]
    omega
  | @four a b c d ha hb hc hd hoverlong hbeyond =>
    obtain ⟨n, hn⟩ : ∃ n, n = a.toNat % 8 * 262144 + b.toNat % 64 * 4096 + c.toNat % 64 * 64 +
      d.toNat % 64 := ⟨_, rfl⟩
    simp only [IsTail, UInt8.le_iff_toNat_le, UInt8.lt_iff_toNat_lt, ← UInt8.toNat_inj,
      UInt8.reduceToNat] at ha hb hc hd hoverlong hbeyond
    refine ⟨Char.ofNat n, ?_⟩
    unfold encode
    rw [toNat_ofNat (by unfold Nat.isValidChar; omega)]
    simp only
    rw [if_neg (by omega), if_neg (by omega), if_neg (by omega)]
    simp only [List.cons.injEq, ← UInt8.toNat_inj, Nat.toUInt8, UInt8.toNat_ofNat', and_true]
    omega

/-- A text that is cut into the bytes of characters. -/
inductive Sequences : Bytes → Prop where
  | nil : Sequences []
  | cons {s t : Bytes} (hs : Sequence s) (ht : Sequences t) : Sequences (s ++ t)

/-- The ranges describe the well-formed texts. -/
theorem sequences_iff {s : Bytes} : Sequences s ↔ IsText s := by
  constructor
  · intro h
    induction h with
    | nil => exact isText_nil
    | cons hs _ ih =>
      obtain ⟨c, rfl⟩ := hs.exists_encode
      exact (isText_encode c).append ih
  · rintro ⟨cs, rfl⟩
    induction cs with
    | nil => exact .nil
    | cons c cs ih =>
      rw [encodeAll_cons]
      exact .cons (sequence_encode c) ih

instance (s : Bytes) : Decidable (Sequences s) :=
  decidable_of_iff (isValid s = true) (isValid_iff.trans sequences_iff.symm)

/-! ## Cutting texts -/

/-- What stands behind a well-formed part of a well-formed text is well-formed. -/
theorem IsText.of_append {s t : Bytes} (h : IsText (s ++ t)) (hs : IsText s) : IsText t := by
  obtain ⟨cs, rfl⟩ := hs
  rw [isText_iff_glyphs, glyphs_encodeAll_append] at h
  rw [isText_iff_glyphs]
  exact fun g hg => h g (List.mem_append_right _ hg)

/-- A byte of ASCII is a character of its own, wherever it stands. Induction on the characters: the
first of them ends in front of the byte or is the byte. -/
theorem IsText.before_ascii {s t : Bytes} {b : UInt8} (hb : b < 0x80) (h : IsText (s ++ b :: t)) :
    IsText s := by
  obtain ⟨cs, hcs⟩ := h
  induction cs generalizing s with
  | nil => simp [encodeAll] at hcs
  | cons c cs ih =>
    rw [encodeAll_cons] at hcs
    rcases List.append_eq_append_iff.mp hcs with ⟨more, hencode, htail⟩ | ⟨more, rfl, htail⟩
    · cases more with
      | nil =>
        rw [List.append_nil] at hencode
        rw [← hencode]
        exact isText_encode c
      | cons d more =>
        -- the byte stands in the character, which then is nothing else
        obtain ⟨rfl, -⟩ := List.cons.inj htail
        have hc : c = Char.ofNat b.toNat := eq_ofNat_of_mem_encode hb (by simp [hencode])
        rw [hc, encode_ofNat_byte hb] at hencode
        have hs : s = [] := by
          rcases List.singleton_eq_append_iff.mp hencode with ⟨hs, -⟩ | ⟨-, hmore⟩
          · exact hs
          · cases hmore
        exact hs ▸ isText_nil
    · exact (isText_encode c).append (ih htail.symm)

theorem IsText.from_ascii {s t : Bytes} {b : UInt8} (hb : b < 0x80) (h : IsText (s ++ b :: t)) :
    IsText (b :: t) :=
  h.of_append (h.before_ascii hb)

theorem IsText.behind_ascii {s t : Bytes} {b : UInt8} (hb : b < 0x80) (h : IsText (s ++ b :: t)) :
    IsText t :=
  IsText.of_append (s := [b]) (h.from_ascii hb) (isText_byte hb)

/-- The first byte of a text is one of ASCII. -/
def StartsAscii (s : Bytes) : Prop :=
  ∃ b rest, s = b :: rest ∧ b < 0x80

theorem StartsAscii.append {s : Bytes} (h : StartsAscii s) (t : Bytes) : StartsAscii (s ++ t) := by
  obtain ⟨b, rest, rfl, hb⟩ := h
  exact ⟨b, rest ++ t, rfl, hb⟩

theorem IsText.before {s t : Bytes} (h : IsText (s ++ t)) (ht : StartsAscii t) : IsText s := by
  obtain ⟨b, rest, rfl, hb⟩ := ht
  exact h.before_ascii hb

theorem IsText.cut? {s before behind : Bytes} {sep : UInt8} (hsep : sep < 0x80) (h : IsText s)
    (hcut : s.cut? sep = some (before, behind)) : IsText before ∧ IsText behind := by
  have hmem : sep ∈ s := by
    rw [← Decidable.not_not (p := sep ∈ s), ← Bytes.cut?_eq_none_iff, hcut]
    simp
  obtain ⟨front, back, rfl, hfront⟩ := List.eq_append_cons_of_mem hmem
  rw [Bytes.cut?_append_cons hfront] at hcut
  cases hcut
  exact ⟨h.before_ascii hsep, h.behind_ascii hsep⟩

/-- Induction on the length: behind the first separator the text is shorter. -/
theorem IsText.mem_split {s piece : Bytes} {sep : UInt8} (hsep : sep < 0x80) (h : IsText s)
    (hpiece : piece ∈ s.split sep) : IsText piece := by
  induction hn : s.length using Nat.strongRecOn generalizing s with
  | ind n ih =>
    subst hn
    by_cases hmem : sep ∈ s
    · obtain ⟨front, back, rfl, hfront⟩ := List.eq_append_cons_of_mem hmem
      rw [Bytes.split_append_cons hfront] at hpiece
      rcases List.mem_cons.mp hpiece with rfl | hpiece
      · exact h.before_ascii hsep
      · have hshort : back.length < (front ++ sep :: back).length := by
          simp only [List.length_append, List.length_cons]
          omega
        exact ih back.length hshort (h.behind_ascii hsep) hpiece rfl
    · rw [Bytes.split_of_not_mem hmem, List.mem_singleton] at hpiece
      exact hpiece ▸ h

theorem IsText.trim {s : Bytes} (h : IsText s) : IsText s.trim := by
  rw [isText_iff_glyphs] at h
  apply isText_flatMap
  intro g hg
  have hmem : g ∈ glyphs s :=
    (List.dropWhile_suffix _).subset
      (List.mem_reverse.mp ((List.dropWhile_suffix _).subset (List.mem_reverse.mp hg)))
  cases g with
  | char c => exact isText_encode c
  | stray b => cases h _ hmem

theorem isText_lower (s : Bytes) : IsText s.lower :=
  isText_encodeAll _

end Utf8

end AdaToC
