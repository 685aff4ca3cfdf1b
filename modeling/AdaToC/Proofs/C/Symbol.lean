import AdaToC.Proofs.C.Prototype
import Mathlib.Data.List.Forall2

/-!
# The C names of functions

The name of a function is a word of Ada text, and two letters outside ASCII may stand in a word. In
lower case the Kelvin sign becomes the letter `k`. The long s is a small letter as it is, so it goes
into the symbol unchanged: the symbol is plain ASCII just where the name has no long s.
-/

namespace AdaToC

namespace Utf8

theorem scalars_encodeAll (cs : List Char) : scalars (encodeAll cs) = cs := by
  induction cs with
  | nil => rfl
  | cons c cs ih =>
    rw [scalars] at ih ⊢
    rw [encodeAll_cons, glyphs_encode_append, List.map_cons, ih]
    rfl

theorem encodeAll_injective {cs ds : List Char} (h : encodeAll cs = encodeAll ds) : cs = ds := by
  rw [← scalars_encodeAll cs, h, scalars_encodeAll]

end Utf8

theorem Bytes.lower_encodeAll (cs : List Char) :
    Bytes.lower (Utf8.encodeAll cs) = Utf8.encodeAll (cs.map lowerChar) := by
  rw [Bytes.lower, Utf8.scalars_encodeAll]

namespace C

/-- A small letter, a digit or the underscore of ASCII. -/
def IsPlainChar (c : Char) : Prop :=
  'a' ≤ c ∧ c ≤ 'z' ∨ '0' ≤ c ∧ c ≤ '9' ∨ c = '_'

instance (c : Char) : Decidable (IsPlainChar c) :=
  inferInstanceAs (Decidable (_ ∨ _))

/-- The word `ada_` with one or more plain characters behind it. -/
def IsPlainSymbol (s : Bytes) : Prop :=
  ∃ cs, cs ≠ [] ∧ (∀ c ∈ cs, IsPlainChar c) ∧ s = bytes "ada_" ++ Utf8.encodeAll cs

theorem isPlainChar_iff {c : Char} : IsPlainChar c ↔
    0x61 ≤ c.toNat ∧ c.toNat ≤ 0x7A ∨ 0x30 ≤ c.toNat ∧ c.toNat ≤ 0x39 ∨ c.toNat = 0x5F := by
  have hunderscore : c = '_' ↔ c.toNat = 0x5F := Char.toNat_inj.symm
  simp only [IsPlainChar, Char.le_def, UInt32.le_iff_toNat_le, hunderscore]
  rfl

theorem not_isPlainChar_longS : ¬ IsPlainChar 'ſ' := by decide

/-- In lower case the characters of words are plain, but for the long s. -/
theorem lowerChar_cases {c : Char} (hc : Ada.isWordChar c) :
    c ≠ 'ſ' ∧ IsPlainChar (lowerChar c) ∨ c = 'ſ' ∧ lowerChar c = 'ſ' := by
  rcases Ada.isWordChar_cases hc with ⟨b, hb, hword, rfl⟩ | rfl | rfl
  · left
    have hlt : b.toNat < 0x80 := UInt8.lt_iff_toNat_lt.mp hb
    constructor
    · intro h
      have hnat : b.toNat = 0x17F := by rw [← toNat_ofNat_byte b, h]; rfl
      omega
    · rw [isPlainChar_iff, lowerChar_ofNat_byte hb, toNat_ofNat_byte, toNat_lowerByte]
      rw [Ada.isWordByte_iff] at hword
      split <;> omega
  · exact Or.inr ⟨rfl, by decide +kernel⟩
  · exact Or.inl ⟨by decide, by decide +kernel⟩

/-- The characters of a symbol are those of the name in lower case. -/
theorem symbol_of_name {f : Function} {ns : List Char} (h : f.name = Utf8.encodeAll ns) :
    f.symbol = bytes "ada_" ++ Utf8.encodeAll (ns.map lowerChar) := by
  rw [Function.symbol, h, Bytes.lower_encodeAll]

theorem isPlainSymbol_iff {f : Function} {ns : List Char} (hne : ns ≠ [])
    (hword : ∀ c ∈ ns, Ada.isWordChar c) (h : f.name = Utf8.encodeAll ns) :
    IsPlainSymbol f.symbol ↔ 'ſ' ∉ ns := by
  rw [symbol_of_name h]
  constructor
  · rintro ⟨cs, -, hplain, heq⟩ hmem
    have hcs : ns.map lowerChar = cs := Utf8.encodeAll_injective (List.append_cancel_left heq)
    rcases lowerChar_cases (hword _ hmem) with ⟨hne, -⟩ | ⟨-, hkept⟩
    · exact hne rfl
    · have hlong : 'ſ' ∈ cs := by
        rw [← hcs, ← hkept]
        exact List.mem_map_of_mem hmem
      exact not_isPlainChar_longS (hplain _ hlong)
  · intro hnone
    refine ⟨ns.map lowerChar, by simpa using hne, ?_, rfl⟩
    intro c hc
    obtain ⟨n, hn, rfl⟩ := List.mem_map.mp hc
    rcases lowerChar_cases (hword n hn) with ⟨-, hplain⟩ | ⟨rfl, -⟩
    · exact hplain
    · exact absurd hn hnone

theorem isWord_name_of_mem_functions {file source : Bytes} {f : Function}
    (hf : f ∈ (FileResult.ofSource file source).functions) : Ada.IsWord f.name := by
  obtain ⟨u, hu, rfl⟩ := List.mem_map.mp hf
  exact Ada.isWord_name_of_mem_units hu

/-- A symbol is `ada_` and one or more small letters, digits and underscores of ASCII, or the long
s, which stands just where it stands in the name. So the symbol is plain if and only if the name has
no long s. -/
theorem symbol_plain_up_to_longS (file source : Bytes) (f : Function)
    (hf : f ∈ (FileResult.ofSource file source).functions) :
    (∃ cs, cs ≠ [] ∧ f.symbol = bytes "ada_" ++ Utf8.encodeAll cs ∧
      (∀ c ∈ cs, IsPlainChar c ∨ c = 'ſ') ∧
      List.Forall₂ (fun n c => n = 'ſ' ↔ c = 'ſ') (Utf8.scalars f.name) cs) ∧
    (IsPlainSymbol f.symbol ↔ 'ſ' ∉ Utf8.scalars f.name) := by
  obtain ⟨ns, hne, hword, hname⟩ := isWord_name_of_mem_functions hf
  have hscalars : Utf8.scalars f.name = ns := by rw [hname, Utf8.scalars_encodeAll]
  rw [hscalars]
  refine ⟨⟨ns.map lowerChar, by simpa using hne, symbol_of_name hname, ?_, ?_⟩,
    isPlainSymbol_iff hne hword hname⟩
  · intro c hc
    obtain ⟨n, hn, rfl⟩ := List.mem_map.mp hc
    exact (lowerChar_cases (hword n hn)).imp And.right And.right
  · rw [List.forall₂_map_right_iff, List.forall₂_same]
    intro n hn
    rcases lowerChar_cases (hword n hn) with ⟨hother, hplain⟩ | ⟨hlong, hkept⟩
    · refine ⟨fun h => absurd h hother, fun h => ?_⟩
      rw [h] at hplain
      exact absurd hplain not_isPlainChar_longS
    · exact ⟨fun _ => hkept, fun _ => hlong⟩

/-- A name with both letters outside ASCII, which is repeated in another form. -/
theorem symbol_plain_up_to_longS_kelvin :
    let source := bytes "function K_2ſX () return T is end k_2sx;"
    let f : Function := ⟨bytes "K_2ſX", [], bytes "T", []⟩
    f ∈ (FileResult.ofSource [] source).functions ∧ f.symbol = bytes "ada_k_2ſx" ∧
      ¬ IsPlainSymbol f.symbol := by
  intro source f
  have hf : f ∈ (FileResult.ofSource [] source).functions := by decide +kernel
  refine ⟨hf, by decide +kernel, ?_⟩
  rw [(symbol_plain_up_to_longS [] source f hf).2]
  decide +kernel

/-- The function `ſ` has a symbol that is not plain. -/
theorem symbol_of_longS_not_plain :
    ∃ f ∈ (FileResult.ofSource [] (bytes "function ſ() return T is end ſ;")).functions,
      ¬ IsPlainSymbol f.symbol := by
  refine ⟨⟨bytes "ſ", [], bytes "T", []⟩, by decide +kernel, ?_⟩
  have hname : bytes "ſ" = Utf8.encodeAll ['ſ'] := rfl
  have hword : ∀ c ∈ ['ſ'], Ada.isWordChar c := List.forall_mem_singleton.mpr Ada.isWordChar_longS
  rw [isPlainSymbol_iff (List.cons_ne_nil _ _) hword hname]
  simp

end C

end AdaToC
