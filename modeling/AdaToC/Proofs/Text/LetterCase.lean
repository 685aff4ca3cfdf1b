import AdaToC.Proofs.Text.Pieces
import Mathlib.Data.List.Forall2

/-!
# Texts that differ in letter case

Two texts differ only in the case of letters of ASCII. They have one length, and wherever one of
them is cut the other can be cut as well. Their characters correspond too, since no character
outside ASCII is encoded with a letter: changed to lower case, or compared without regard to case,
they are the same.
-/

namespace AdaToC

/-- A byte, and the same byte or the same letter of ASCII in the other case. -/
def SameLetter (a b : UInt8) : Prop :=
  a = b ∨ (0x41 ≤ a ∧ a ≤ 0x5A ∧ b = a + 0x20) ∨ (0x41 ≤ b ∧ b ≤ 0x5A ∧ a = b + 0x20)

/-- Texts of one length that differ only in the case of letters of ASCII. -/
def SameButCase (s t : Bytes) : Prop :=
  List.Forall₂ SameLetter s t

/-! ## Bytes and texts that differ in case -/

theorem sameLetter_iff {a b : UInt8} : SameLetter a b ↔ lowerByte a = lowerByte b := by
  have hadd : ∀ x : UInt8, x.toNat ≤ 0x5A → (x + 0x20).toNat = x.toNat + 0x20 := by
    intro x hx
    simp only [UInt8.toNat_add, UInt8.reduceToNat]
    omega
  have heq : ∀ x y : UInt8, x.toNat ≤ 0x5A → (y = x + 0x20 ↔ y.toNat = x.toNat + 0x20) := by
    intro x y hx
    rw [← UInt8.toNat_inj, hadd x hx]
  rw [← UInt8.toNat_inj (a := lowerByte a), toNat_lowerByte, toNat_lowerByte,
    SameLetter, ← UInt8.toNat_inj]
  simp only [UInt8.le_iff_toNat_le, UInt8.reduceToNat]
  have ha := heq a b
  have hb := heq b a
  split <;> split <;> grind

theorem sameButCase_iff {s t : Bytes} :
    SameButCase s t ↔ s.map lowerByte = t.map lowerByte := by
  rw [← List.forall₂_eq_eq_eq, List.forall₂_map_left_iff, List.forall₂_map_right_iff]
  exact ⟨List.Forall₂.imp fun _ _ => sameLetter_iff.mp,
    List.Forall₂.imp fun _ _ => sameLetter_iff.mpr⟩

instance (s t : Bytes) : Decidable (SameButCase s t) :=
  decidable_of_iff _ sameButCase_iff.symm

theorem SameLetter.symm {a b : UInt8} (h : SameLetter a b) : SameLetter b a :=
  sameLetter_iff.mpr (sameLetter_iff.mp h).symm

namespace SameButCase

variable {s t a b a' b' : Bytes}

theorem refl (s : Bytes) : SameButCase s s :=
  sameButCase_iff.mpr rfl

theorem symm (h : SameButCase s t) : SameButCase t s :=
  sameButCase_iff.mpr (sameButCase_iff.mp h).symm

theorem length_eq (h : SameButCase s t) : s.length = t.length :=
  List.Forall₂.length_eq h

theorem drop (h : SameButCase s t) (k : Nat) : SameButCase (s.drop k) (t.drop k) :=
  List.forall₂_drop k h

theorem take (h : SameButCase s t) (k : Nat) : SameButCase (s.take k) (t.take k) :=
  List.forall₂_take k h

theorem append (ha : SameButCase a a') (hb : SameButCase b b') : SameButCase (a ++ b) (a' ++ b') :=
  List.rel_append ha hb

/-- Where one of two texts is cut, the other can be cut as well. -/
theorem exists_append (h : SameButCase (a ++ b) t) :
    ∃ a' b', t = a' ++ b' ∧ SameButCase a a' ∧ SameButCase b b' := by
  rw [sameButCase_iff, List.map_append] at h
  obtain ⟨a', b', rfl, ha, hb⟩ := List.map_eq_append_iff.mp h.symm
  exact ⟨a', b', rfl, sameButCase_iff.mpr ha.symm, sameButCase_iff.mpr hb.symm⟩

end SameButCase

/-! ## Characters of texts that differ in case -/

namespace Utf8

theorem front_eq_stray_iff {b : UInt8} {rest : Bytes} :
    front b rest = .stray b ↔ ∀ c, ¬ encode c <+: b :: rest := by
  constructor
  · rintro hstray c ⟨behind, hbehind⟩
    have hglyphs := glyphs_encode_append c behind
    rw [hbehind, glyphs, glyphsFrom] at hglyphs
    simp [hstray] at hglyphs
  · intro hnone
    unfold front
    simp only
    rw [if_neg]
    rw [List.isPrefixOf_iff_prefix]
    exact hnone _

theorem glyphs_cons_of_stray {b : UInt8} {rest : Bytes} (h : ∀ c, ¬ encode c <+: b :: rest) :
    glyphs (b :: rest) = .stray b :: glyphs rest := by
  rw [glyphs, glyphsFrom, front_eq_stray_iff.mpr h]
  rfl

/-- Outside ASCII the bytes of a character are all outside ASCII. -/
theorem le_of_mem_encode {c : Char} (hc : 0x80 ≤ c.toNat) {b : UInt8} (hb : b ∈ encode c) :
    0x80 ≤ b := by
  by_contra hlt
  rw [UInt8.not_le] at hlt
  rw [eq_ofNat_of_mem_encode hlt hb, toNat_ofNat_byte] at hc
  have := UInt8.lt_iff_toNat_lt.mp hlt
  simp only [UInt8.reduceToNat] at this
  omega

end Utf8

theorem lowerByte_of_le {b : UInt8} (hb : 0x80 ≤ b) : lowerByte b = b := by
  rw [← UInt8.toNat_inj, toNat_lowerByte, if_neg]
  have := UInt8.le_iff_toNat_le.mp hb
  simp only [UInt8.reduceToNat] at this
  omega

theorem lowerByte_lowerByte (b : UInt8) :
    lowerByte (lowerByte b) = lowerByte b := by
  rw [← UInt8.toNat_inj, toNat_lowerByte (lowerByte b), toNat_lowerByte b, if_neg]
  split <;> omega

theorem map_lowerByte_of_le {p : Bytes} (hp : ∀ b ∈ p, 0x80 ≤ b) : p.map lowerByte = p := by
  rw [List.map_congr_left fun b hb => lowerByte_of_le (hp b hb), List.map_id']

theorem prefix_of_prefix_map_lowerByte {p s : Bytes} (hp : ∀ b ∈ p, 0x80 ≤ b)
    (h : p <+: s.map lowerByte) : p <+: s := by
  obtain ⟨behind, hbehind⟩ := h
  obtain ⟨p', s', rfl, rfl, -⟩ := List.map_eq_append_iff.mp hbehind.symm
  rw [map_lowerByte_of_le]
  · exact List.prefix_append p' s'
  · intro b hb
    have hlower := hp _ (List.mem_map_of_mem hb)
    by_contra hlt
    exact absurd hlower (UInt8.not_le.mpr (lowerByte_lt_iff.mpr (UInt8.not_le.mp hlt)))

/-- What a function that is blind to case makes of the characters of a text. The induction is over
the glyphs of the text; a stray byte stays one, because no character is encoded with letters of
ASCII. -/
theorem map_scalars_map_lowerByte {α : Type} {f : Char → α}
    (hf : ∀ b : UInt8, b < 0x80 → f (byteChar (lowerByte b)) = f (byteChar b))
    (s : Bytes) :
    (Utf8.scalars (s.map lowerByte)).map f = (Utf8.scalars s).map f := by
  simp only [Utf8.scalars, List.map_map]
  generalize hgs : Utf8.glyphs s = gs
  induction gs generalizing s with
  | nil =>
    have hs := Utf8.flatMap_bytes_glyphs s
    rw [hgs] at hs
    rw [← hs]
    rfl
  | cons g gs ih =>
    obtain ⟨rest, rfl, hrest⟩ := Utf8.glyphs_eq_cons hgs
    have hih := ih rest hrest
    cases g with
    | char c =>
      by_cases hascii : c.toNat < 0x80
      · obtain ⟨b, hb, rfl⟩ := exists_byte_of_ascii hascii
        have hglyphs := Utf8.glyphs_encode_append (byteChar (lowerByte b))
          (rest.map lowerByte)
        rw [byteChar, encode_ofNat_byte (lowerByte_lt_iff.mpr hb)] at hglyphs
        rw [Glyph.bytes, encode_ofNat_byte hb, List.singleton_append, List.map_cons,
          ← List.singleton_append, hglyphs, List.map_cons, List.map_cons, hih]
        exact congrArg (· :: _) (hf b hb)
      · have hbytes : ∀ b ∈ Utf8.encode c, 0x80 ≤ b :=
          fun b hb => Utf8.le_of_mem_encode (by omega) hb
        rw [Glyph.bytes, List.map_append, map_lowerByte_of_le hbytes, Utf8.glyphs_encode_append,
          List.map_cons, List.map_cons, hih]
    | stray b =>
      rw [Glyph.bytes, List.singleton_append] at hgs ⊢
      have hnone : ∀ c, ¬ Utf8.encode c <+: b :: rest := by
        rw [← Utf8.front_eq_stray_iff]
        rw [Utf8.glyphs, Utf8.glyphsFrom] at hgs
        exact (List.cons.inj hgs).1
      have hb : 0x80 ≤ b := by
        by_contra hlt
        refine hnone (Char.ofNat b.toNat) ?_
        rw [encode_ofNat_byte (UInt8.not_le.mp hlt)]
        exact ⟨rest, rfl⟩
      have hnone' : ∀ c, ¬ Utf8.encode c <+: b :: rest.map lowerByte := by
        intro c hc
        refine hnone c (prefix_of_prefix_map_lowerByte ?_ ?_)
        · intro d hd
          refine Utf8.le_of_mem_encode ?_ hd
          by_contra hascii
          obtain ⟨x, hx, rfl⟩ := exists_byte_of_ascii (Nat.lt_of_not_le hascii)
          rw [encode_ofNat_byte hx, List.cons_prefix_cons] at hc
          exact absurd hx (UInt8.not_lt.mpr (hc.1 ▸ hb))
        · rwa [List.map_cons, lowerByte_of_le hb]
      rw [List.map_cons, lowerByte_of_le hb, Utf8.glyphs_cons_of_stray hnone', List.map_cons,
        List.map_cons, hih]

namespace SameButCase

variable {s t : Bytes}

theorem map_scalars_eq {α : Type} {f : Char → α}
    (hf : ∀ b : UInt8, b < 0x80 → f (byteChar (lowerByte b)) = f (byteChar b))
    (h : SameButCase s t) : (Utf8.scalars s).map f = (Utf8.scalars t).map f := by
  rw [← map_scalars_map_lowerByte hf s, sameButCase_iff.mp h, map_scalars_map_lowerByte hf t]

theorem folded_eq (h : SameButCase s t) : s.folded = t.folded := by
  refine h.map_scalars_eq fun b hb => ?_
  rw [byteChar, byteChar, foldChar_ofNat_byte (lowerByte_lt_iff.mpr hb),
    foldChar_ofNat_byte hb, lowerByte_lowerByte]

theorem lower_eq (h : SameButCase s t) : s.lower = t.lower := by
  refine congrArg Utf8.encodeAll (h.map_scalars_eq fun b hb => ?_)
  rw [byteChar, byteChar, lowerChar_ofNat_byte (lowerByte_lt_iff.mpr hb),
    lowerChar_ofNat_byte hb, lowerByte_lowerByte]

end SameButCase

end AdaToC
