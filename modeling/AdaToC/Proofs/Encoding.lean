import AdaToC.Encoding
import AdaToC.Proofs.Text.LetterCase
import AdaToC.Proofs.Text.Validity
import AdaToC.Proofs.Traversal

/-!
# Reading data as text

Whatever the data and the encoding, what is read is well-formed. Where the encoding is guessed,
nothing is lost either: well-formed data is read as it is, and from any other text the data can be
had back, because every byte of it has become a character of its own.
-/

namespace AdaToC

namespace Encoding

open Utf8

/-! ## What is read is well-formed -/

theorem isText_repairFrom (passed : Nat) (data : Bytes) : IsText (repairFrom passed data) := by
  fun_induction repairFrom passed data with
  | case1 => exact isText_nil
  | case2 passed b rest ih => exact ih
  | case3 b rest c hfront ih => exact (isText_encode c).append ih
  | case4 b rest stray hfront ih => exact (isText_encode _).append ih

theorem isText_read (tables : Tables) (e : Encoding) (data : Bytes) :
    IsText (e.read tables data) := by
  cases e with
  | utf8 => exact isText_repairFrom 0 data
  | utf16 order => exact isText_encodeAll _
  | singleByte upper => exact isText_encodeAll _
  | doubleByte e => exact isText_encodeAll _
  | iso2022Jp => exact isText_encodeAll _
  | replacement => exact isText_encode replacementChar

theorem isText_readAuto (data : Bytes) : IsText (readAuto data) := by
  unfold readAuto
  split
  next hvalid => exact isValid_iff.mp hvalid
  · exact isText_flatMap fun b _ => isText_encode _

theorem isText_of_decode {data label text : Bytes} {tables : Tables}
    (h : decode data label tables = .ok text) : IsText text := by
  unfold decode at h
  split at h
  · cases h
    exact isText_readAuto data
  · split at h
    · cases h
      exact isText_read tables _ data
    · cases h

/-! ## Latin-1 -/

theorem latin1_eq_encodeAll (data : Bytes) : latin1 data = encodeAll (data.map byteChar) :=
  (List.flatMap_map ..).symm

theorem glyphs_latin1 (data : Bytes) :
    glyphs (latin1 data) = data.map fun b => .char (byteChar b) := by
  have hglyphs := glyphs_encodeAll_append (data.map byteChar) []
  rw [List.append_nil, ← latin1_eq_encodeAll] at hglyphs
  rw [hglyphs, List.map_map]
  exact List.append_nil _

/-- The byte that stands for a character in Latin-1. -/
def latin1Byte? : Glyph → Option UInt8
  | .char c => if c.toNat < 0x100 then some c.toNat.toUInt8 else none
  | .stray _ => none

/-- A text in Latin-1, if it has no characters that are not in it. -/
def toLatin1? (text : Bytes) : Option Bytes :=
  (glyphs text).mapM latin1Byte?

theorem latin1Byte?_byteChar (b : UInt8) : latin1Byte? (.char (byteChar b)) = some b := by
  have hnat : (byteChar b).toNat = b.toNat := toNat_ofNat_byte b
  rw [latin1Byte?, hnat, if_pos b.toNat_lt, Nat.toUInt8, UInt8.ofNat_toNat]

/-- Latin-1 can be written as it was read. -/
theorem toLatin1?_latin1 (data : Bytes) : toLatin1? (latin1 data) = some data := by
  rw [toLatin1?, glyphs_latin1]
  exact mapM_map_eq_some fun b _ => latin1Byte?_byteChar b

/-! ## The guess -/

theorem readAuto_of_sequences {data : Bytes} (h : Sequences data) : readAuto data = data :=
  if_pos (isValid_iff.mpr (sequences_iff.mp h))

theorem readAuto_of_not_sequences {data : Bytes} (h : ¬ Sequences data) :
    readAuto data = latin1 data :=
  if_neg fun hvalid => h (sequences_iff.mpr (isValid_iff.mp hvalid))

theorem sequences_readAuto (data : Bytes) : Sequences (readAuto data) :=
  sequences_iff.mpr (isText_readAuto data)

/-- The label is empty, or `auto` in small or capital letters. -/
def AsksForGuess (label : Bytes) : Prop :=
  label = [] ∨ SameButCase label (bytes "auto")

theorem AsksForGuess.decode_eq {label : Bytes} {tables : Tables} (h : AsksForGuess label)
    (data : Bytes) : decode data label tables = .ok (readAuto data) := by
  refine if_pos ?_
  rcases h with rfl | hcase
  · rfl
  · rw [Bool.or_eq_true]
    exact Or.inr (Bytes.equalFold_iff.mpr hcase.folded_eq)

theorem readAuto_eq_self_iff {data : Bytes} : readAuto data = data ↔ Sequences data := by
  constructor
  · intro h
    rw [← h]
    exact sequences_readAuto data
  · exact readAuto_of_sequences

theorem readAuto_injective {data data' : Bytes} (hsame : Sequences data ↔ Sequences data')
    (h : readAuto data = readAuto data') : data = data' := by
  by_cases hdata : Sequences data
  · rwa [readAuto_of_sequences hdata, readAuto_of_sequences (hsame.mp hdata)] at h
  · rw [readAuto_of_not_sequences hdata,
      readAuto_of_not_sequences fun hdata' => hdata (hsame.mpr hdata')] at h
    have hback := toLatin1?_latin1 data
    rw [h, toLatin1?_latin1] at hback
    exact (Option.some.inj hback).symm

/-- With the encoding guessed, any data is read as well-formed UTF-8. Just the data that is
well-formed already is left as it is. Of any other data each byte becomes the character with its
number, so that the text written in Latin-1 is the data again. Reading the text once more changes
nothing, and two pieces of data that are both well-formed, or both not, are told apart by their
texts. -/
theorem guessed_text_determines_data (label : Bytes) (tables : Tables)
    (hlabel : AsksForGuess label) :
    (∀ data, ∃ text, decode data label tables = .ok text ∧ Sequences text ∧
      (text = data ↔ Sequences data) ∧
      (¬ Sequences data →
        glyphs text = (data.map fun b => .char (Char.ofNat b.toNat)) ∧
          toLatin1? text = some data) ∧
      decode text label tables = .ok text) ∧
    ∀ data data', (Sequences data ↔ Sequences data') →
      decode data label tables = decode data' label tables → data = data' := by
  refine ⟨fun data => ?_, fun data data' hsame h => ?_⟩
  · refine ⟨readAuto data, hlabel.decode_eq data, sequences_readAuto data, readAuto_eq_self_iff,
      fun hdata => ?_, ?_⟩
    · rw [readAuto_of_not_sequences hdata]
      exact ⟨glyphs_latin1 data, toLatin1?_latin1 data⟩
    · rw [hlabel.decode_eq, readAuto_of_sequences (sequences_readAuto data)]
  · rw [hlabel.decode_eq, hlabel.decode_eq] at h
    exact readAuto_injective hsame (Except.ok.inj h)

/-- A letter of two bytes in front of the first two bytes of a character of three, and the same text
as it was read: the two have one text, but only the second is well-formed. -/
theorem guessed_text_determines_data_truncated :
    let label := bytes "aUTo"
    let data : Bytes := bytes "é" ++ [0xE2, 0x82]
    let text := bytes "\u00C3\u00A9\u00E2\u0082"
    AsksForGuess label ∧ ¬ Sequences data ∧ Sequences text ∧ decode data label = .ok text ∧
      decode text label = .ok text ∧ toLatin1? text = some data := by
  intro label data text
  have hlabel : AsksForGuess label := Or.inr (by decide +kernel)
  have hdata : ¬ Sequences data := by decide +kernel
  have hdecode : decode data label = .ok text := by rfl
  obtain ⟨hread, -⟩ := guessed_text_determines_data label {} hlabel
  obtain ⟨text', htext, hvalid, -, hbytes, hagain⟩ := hread data
  rw [hdecode] at htext
  cases htext
  exact ⟨hlabel, hdata, hvalid, hdecode, hagain, (hbytes hdata).2⟩

end Encoding

end AdaToC
