import AdaToC.Ada.Place
import AdaToC.Proofs.Text.Pieces

/-!
# Lines and the places in them

A text is some lines, each ended by a line feed, and a last line that may be empty. A place cuts the
line that it is in: the lines above it count for its line number, and what stands before it in its
own line for its column.

So line and column are coordinates of the offsets in a text. `offsetIn` goes back from a place to
its offset, and it is inverse to `ofOffset`, between the offsets from 0 to the end of the text and
the places in its lines.
-/

namespace AdaToC

namespace Bytes

/-- Lines, each with the separator at its end. -/
def ended (sep : UInt8) (lines : List Bytes) : Bytes :=
  lines.flatMap (· ++ [sep])

theorem ended_cons (sep : UInt8) (line : Bytes) (lines : List Bytes) :
    ended sep (line :: lines) = line ++ sep :: ended sep lines := by
  simp [ended]

theorem ended_append (sep : UInt8) (lines more : List Bytes) :
    ended sep (lines ++ more) = ended sep lines ++ ended sep more :=
  List.flatMap_append

/-- Every text is lines without the separator, and a rest without it. -/
theorem exists_ended_append (sep : UInt8) (s : Bytes) :
    ∃ above last, s = ended sep above ++ last ∧ (∀ line ∈ above, sep ∉ line) ∧ sep ∉ last := by
  induction s with
  | nil => exact ⟨[], [], rfl, by simp, by simp⟩
  | cons b s ih =>
    obtain ⟨above, last, rfl, habove, hlast⟩ := ih
    by_cases hb : b = sep
    · subst hb
      refine ⟨[] :: above, last, by simp [ended_cons], ?_, hlast⟩
      exact List.forall_mem_cons.mpr ⟨List.not_mem_nil, habove⟩
    · cases above with
      | nil => exact ⟨[], b :: last, rfl, by simp, by simp [Ne.symm hb, hlast]⟩
      | cons line above =>
        obtain ⟨hline, habove⟩ := List.forall_mem_cons.mp habove
        refine ⟨(b :: line) :: above, last, by simp [ended_cons], ?_, hlast⟩
        exact List.forall_mem_cons.mpr ⟨by simp [Ne.symm hb, hline], habove⟩

theorem split_ended_append {sep : UInt8} {lines : List Bytes} (h : ∀ line ∈ lines, sep ∉ line)
    (s : Bytes) : split sep (ended sep lines ++ s) = lines ++ split sep s := by
  induction lines with
  | nil => rfl
  | cons line lines ih =>
    obtain ⟨hline, hlines⟩ := List.forall_mem_cons.mp h
    rw [ended_cons, List.append_assoc, List.cons_append, split_append_cons hline, ih hlines,
      List.cons_append]

/-- Text without the separator belongs to the first piece. -/
theorem split_append_of_not_mem {sep : UInt8} {s : Bytes} (h : sep ∉ s) (t : Bytes) :
    ∃ first below, split sep t = first :: below ∧ split sep (s ++ t) = (s ++ first) :: below := by
  obtain ⟨first, below, ht⟩ := List.exists_cons_of_ne_nil (split_ne_nil sep t)
  refine ⟨first, below, ht, ?_⟩
  induction s with
  | nil => exact ht
  | cons b s ih =>
    simp only [List.mem_cons, not_or] at h
    rw [List.cons_append, split_cons, if_neg (Ne.symm h.1), ih h.2]
    rfl

theorem count_ended {sep : UInt8} {lines : List Bytes} (h : ∀ line ∈ lines, sep ∉ line) :
    (ended sep lines).count sep = lines.length := by
  induction lines with
  | nil => rfl
  | cons line lines ih =>
    obtain ⟨hline, hlines⟩ := List.forall_mem_cons.mp h
    rw [ended_cons, List.count_append, List.count_cons_self, List.count_eq_zero.mpr hline,
      ih hlines, List.length_cons]
    omega

theorem length_ended (sep : UInt8) (lines : List Bytes) :
    (ended sep lines).length = lines.flatten.length + lines.length := by
  induction lines with
  | nil => rfl
  | cons line lines ih =>
    rw [ended_cons, List.length_append, List.length_cons, ih, List.flatten_cons, List.length_append,
      List.length_cons]
    omega

theorem joinWith_append_cons (sep : UInt8) (above : List Bytes) (here : Bytes)
    (below : List Bytes) :
    joinWith [sep] (above ++ here :: below) =
      ended sep above ++ joinWith [sep] (here :: below) := by
  induction above with
  | nil => rfl
  | cons line above ih =>
    rw [List.cons_append, joinWith, ih, ended_cons]
    · simp
    · simp

/-- Behind the pieces above it, a text goes on with the piece itself. -/
theorem exists_append_of_split {sep : UInt8} {s here : Bytes} {above below : List Bytes}
    (h : split sep s = above ++ here :: below) :
    ∃ behind, s = ended sep above ++ (here ++ behind) := by
  have hjoin := joinWith_split sep s
  rw [h, joinWith_append_cons] at hjoin
  cases below with
  | nil => exact ⟨[], by rw [← hjoin, joinWith, List.append_nil]⟩
  | cons next below =>
    refine ⟨[sep] ++ joinWith [sep] (next :: below), ?_⟩
    rw [← hjoin, joinWith, List.append_assoc]
    simp

end Bytes

namespace Ada.Place

open Bytes

theorem ofOffset_of_lines {source last : Bytes} {offset : Nat} {above : List Bytes}
    (h : source.take offset = ended 0x0A above ++ last) (habove : ∀ line ∈ above, 0x0A ∉ line)
    (hlast : 0x0A ∉ last) : ofOffset source offset = ⟨above.length + 1, last.length + 1⟩ := by
  have hcolumn : ((ended 0x0A above ++ last).reverse.takeWhile (· != 0x0A)) = last.reverse := by
    rw [List.reverse_append, List.takeWhile_append_of_pos (bne_of_not_mem (by simpa using hlast))]
    -- what stands before the last line ends with a line feed
    rcases List.eq_nil_or_concat above with rfl | ⟨front, line, rfl⟩
    · simp [ended]
    · simp [ended]
  simp only [ofOffset, h, hcolumn, List.count_append, count_ended habove,
    List.count_eq_zero.mpr hlast, List.length_reverse, Nat.add_zero]

/-- The lines around a place. It stands behind `last` in its line, and `first` is what follows it
there. -/
theorem exists_lines (source : Bytes) (offset : Nat) :
    ∃ above last first below,
      source.split 0x0A = above ++ (last ++ first) :: below ∧
      source.take offset = ended 0x0A above ++ last ∧
      Bytes.split 0x0A (source.drop offset) = first :: below ∧
      ofOffset source offset = ⟨above.length + 1, last.length + 1⟩ := by
  obtain ⟨above, last, htake, habove, hlast⟩ := exists_ended_append 0x0A (source.take offset)
  obtain ⟨first, below, hdrop, hsplit⟩ := split_append_of_not_mem hlast (source.drop offset)
  refine ⟨above, last, first, below, ?_, htake, hdrop,
    ofOffset_of_lines htake habove hlast⟩
  rw [← hsplit, ← split_ended_append habove, ← List.append_assoc, ← htake, List.take_append_drop]

/-! ## Places as coordinates -/

/-- Places are ordered by their lines, and in one line by their columns. -/
instance : LT Place where
  lt p q := p.line < q.line ∨ p.line = q.line ∧ p.column < q.column

theorem lt_iff {p q : Place} : p < q ↔ p.line < q.line ∨ p.line = q.line ∧ p.column < q.column :=
  Iff.rfl

theorem lt_trichotomy (p q : Place) : p < q ∨ p = q ∨ q < p := by
  obtain ⟨line, column⟩ := p
  obtain ⟨line', column'⟩ := q
  simp only [lt_iff, mk.injEq]
  omega

theorem ofOffset?_natCast (source : Bytes) (offset : Nat) :
    ofOffset? source offset = .ok (ofOffset source offset) := by
  rw [ofOffset?, if_neg (by omega), Int.toNat_natCast]

/-- A place in the lines of a text: in front of a byte of a line, or at the end of the line. -/
structure IsIn (p : Place) (lines : List Bytes) : Prop where
  one_le_line : 1 ≤ p.line
  line_le : p.line ≤ lines.length
  one_le_column : 1 ≤ p.column
  column_le : p.column ≤ (lines.getD (p.line - 1) []).length + 1

/-- The number of bytes before a place: the lines above it, their line feeds, and what stands before
it in its own line. -/
def offsetIn (p : Place) (lines : List Bytes) : Nat :=
  (lines.take (p.line - 1)).flatten.length + (p.line - 1) + (p.column - 1)

section Lines

variable {above below : List Bytes} {here : Bytes}

theorem isIn_of_lines {k : Nat} (hk : k ≤ here.length) :
    IsIn ⟨above.length + 1, k + 1⟩ (above ++ here :: below) where
  one_le_line := Nat.le_add_left ..
  line_le := by simp
  one_le_column := Nat.le_add_left ..
  column_le := by simpa using hk

/-- A place in some lines cuts them at its line. -/
theorem IsIn.exists_lines {p : Place} {lines : List Bytes} (h : p.IsIn lines) :
    ∃ above here below k, lines = above ++ here :: below ∧ k ≤ here.length ∧
      p = ⟨above.length + 1, k + 1⟩ := by
  obtain ⟨line, column⟩ := p
  obtain ⟨hline, hlast, hcolumn, hend⟩ := h
  simp only at hline hlast hcolumn hend
  have hlt : line - 1 < lines.length := by omega
  rw [List.getD_eq_getElem?_getD, List.getElem?_eq_getElem hlt, Option.getD_some] at hend
  refine ⟨lines.take (line - 1), lines[line - 1], lines.drop (line - 1 + 1), column - 1, ?_,
    by omega, ?_⟩
  · rw [← List.drop_eq_getElem_cons hlt, List.take_append_drop]
  · rw [List.length_take]
    congr 1 <;> omega

theorem offsetIn_of_lines (k : Nat) :
    offsetIn ⟨above.length + 1, k + 1⟩ (above ++ here :: below) =
      (ended 0x0A above).length + k := by
  simp [offsetIn, length_ended]

end Lines

/-- A place before another has fewer bytes before it: either all of its line and the line feed stand
between them, or they are in one line. -/
theorem offsetIn_lt {p q : Place} {lines : List Bytes} (hp : p.IsIn lines) (hq : q.IsIn lines)
    (hlt : p < q) : p.offsetIn lines < q.offsetIn lines := by
  obtain ⟨above, here, below, k, rfl, hk, rfl⟩ := hp.exists_lines
  obtain ⟨line, column⟩ := q
  obtain ⟨hline, -, hcolumn, -⟩ := hq
  simp only at hline hcolumn
  rcases lt_iff.mp hlt with hbelow | ⟨hsame, hcolumns⟩
  · -- the line of the first place is among those above the second one
    simp only at hbelow
    obtain ⟨n, rfl⟩ : ∃ n, line = above.length + 1 + (n + 1) := ⟨line - above.length - 2, by omega⟩
    have htake : (above ++ here :: below).take (above.length + 1 + (n + 1) - 1) =
        above ++ here :: below.take n := by
      rw [show above.length + 1 + (n + 1) - 1 = above.length + (n + 1) from by omega,
        List.take_length_add_append, List.take_succ_cons]
    rw [offsetIn_of_lines, length_ended, offsetIn, htake]
    simp only [List.flatten_append, List.flatten_cons, List.length_append]
    omega
  · simp only at hsame hcolumns
    subst hsame
    simp only [offsetIn]
    omega

variable {source : Bytes}

theorem isIn_ofOffset (source : Bytes) (offset : Nat) :
    (ofOffset source offset).IsIn (source.split 0x0A) := by
  obtain ⟨above, last, first, below, hlines, -, -, hplace⟩ := exists_lines source offset
  rw [hplace, hlines]
  exact isIn_of_lines (by simp)

theorem offsetIn_ofOffset {offset : Nat} (h : offset ≤ source.length) :
    (ofOffset source offset).offsetIn (source.split 0x0A) = offset := by
  obtain ⟨above, last, first, below, hlines, htake, -, hplace⟩ := exists_lines source offset
  have hlength := congrArg List.length htake
  rw [List.length_take_of_le h, List.length_append] at hlength
  rw [hplace, hlines, offsetIn_of_lines, hlength]

theorem ofOffset_offsetIn {p : Place} (h : p.IsIn (source.split 0x0A)) :
    p.offsetIn (source.split 0x0A) ≤ source.length ∧
      ofOffset source (p.offsetIn (source.split 0x0A)) = p := by
  obtain ⟨above, here, below, k, hlines, hk, rfl⟩ := h.exists_lines
  obtain ⟨behind, hsource⟩ := exists_append_of_split hlines
  rw [hlines, offsetIn_of_lines]
  have hfeed : ∀ line ∈ above ++ here :: below, 0x0A ∉ line := fun line hline =>
    (mem_split (hlines ▸ hline)).1
  have htake : source.take ((ended 0x0A above).length + k) = ended 0x0A above ++ here.take k := by
    rw [hsource, List.take_length_add_append, List.take_append_of_le_length hk]
  have hlast : 0x0A ∉ here.take k := fun hmem =>
    hfeed here (by simp) (List.mem_of_mem_take hmem)
  constructor
  · rw [hsource]
    simp only [List.length_append]
    omega
  · rw [ofOffset_of_lines htake (fun line hline => hfeed line (List.mem_append_left _ hline)) hlast,
      List.length_take_of_le hk]

/-- Later offsets have later places. If it were not so, going back to the offsets would turn their
order around. -/
theorem ofOffset_lt {m n : Nat} (hlt : m < n) (hn : n ≤ source.length) :
    ofOffset source m < ofOffset source n := by
  have hm : m ≤ source.length := by omega
  have hfirst := offsetIn_ofOffset hm
  have hsecond := offsetIn_ofOffset hn
  rcases lt_trichotomy (ofOffset source m) (ofOffset source n) with h | h | h
  · exact h
  · rw [h] at hfirst
    omega
  · have hback := offsetIn_lt (isIn_ofOffset source n) (isIn_ofOffset source m) h
    omega

/-- Lines and columns are coordinates of a text. From 0 to the end of the text every offset has a
place in its lines, from which the offset is found again; later offsets have later places; every
place in the lines belongs to an offset; and an offset beyond the end has the place of the end. -/
theorem ofOffset_coordinates (source : Bytes) :
    let lines := source.split 0x0A
    (∀ offset : Nat, offset ≤ source.length →
      ∃ p, ofOffset? source offset = .ok p ∧ p.IsIn lines ∧ p.offsetIn lines = offset) ∧
    (∀ (m n : Nat) (p q : Place), m < n → n ≤ source.length → ofOffset? source m = .ok p →
      ofOffset? source n = .ok q → p < q) ∧
    (∀ p : Place, p.IsIn lines →
      p.offsetIn lines ≤ source.length ∧ ofOffset? source (p.offsetIn lines) = .ok p) ∧
    ∀ offset : Nat, source.length ≤ offset →
      ofOffset? source offset = ofOffset? source source.length := by
  intro lines
  simp only [ofOffset?_natCast, Except.ok.injEq]
  refine ⟨?_, ?_, fun p hp => ofOffset_offsetIn hp, fun offset h => ?_⟩
  · intro offset h
    exact ⟨_, rfl, isIn_ofOffset source offset, offsetIn_ofOffset h⟩
  · rintro m n p q hlt hn rfl rfl
    exact ofOffset_lt hlt hn
  · simp only [ofOffset, List.take_of_length_le h, List.take_length]

/-- A text with line feeds at its start and at its end: an offset at the last line feed, and the end
behind it, which is also the place of offset 9. -/
theorem ofOffset_coordinates_line_feeds :
    let source := bytes "\nab\n"
    let lines := source.split 0x0A
    ofOffset? source 3 = .ok ⟨2, 3⟩ ∧ IsIn ⟨2, 3⟩ lines ∧ offsetIn ⟨2, 3⟩ lines = 3 ∧
      ofOffset? source 4 = .ok ⟨3, 1⟩ ∧ (⟨2, 3⟩ : Place) < ⟨3, 1⟩ ∧
      ofOffset? source (offsetIn ⟨3, 1⟩ lines) = .ok ⟨3, 1⟩ ∧ ofOffset? source 9 = .ok ⟨3, 1⟩ := by
  intro source lines
  obtain ⟨hplaces, hlt, hback, hbeyond⟩ := ofOffset_coordinates source
  have hfeed : ofOffset? source 3 = .ok ⟨2, 3⟩ := rfl
  have hend : ofOffset? source 4 = .ok ⟨3, 1⟩ := rfl
  obtain ⟨p, hp, hin, hoffset⟩ := hplaces 3 (by decide)
  obtain ⟨q, hq, hlast, -⟩ := hplaces 4 (by decide)
  obtain rfl : ⟨2, 3⟩ = p := Except.ok.inj (hfeed.symm.trans hp)
  obtain rfl : ⟨3, 1⟩ = q := Except.ok.inj (hend.symm.trans hq)
  exact ⟨hfeed, hin, hoffset, hend, hlt 3 4 _ _ (by decide) (by decide) hfeed hend,
    (hback _ hlast).2, (hbeyond 9 (by decide)).trans hend⟩

end Ada.Place

end AdaToC
