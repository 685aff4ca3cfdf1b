import AdaToC.Artifacts
import AdaToC.Proofs.Ada.Accounting
import AdaToC.Proofs.Ada.Place

/-!
# Diagnostics point at the header

A diagnostic shows the line of the header that was skipped, with up to two lines above and below it.
All of them stand behind a number in a field of one width, so that a pointer under the line can be
set by columns. The main result says that the pointer stands under the keyword of the header.
-/

namespace AdaToC

/-! ## The parts of a line of an excerpt -/

theorem length_decimal_le {m n : Nat} (h : m ≤ n) : (decimal m).length ≤ (decimal n).length := by
  have hpos := Nat.length_toDigits_pos (b := 10) (n := n)
  have hn : n < 10 ^ (Nat.toDigits 10 n).length :=
    (Nat.length_toDigits_le_iff (by decide) hpos).mp (Nat.le_refl _)
  simp only [decimal, List.length_map]
  exact (Nat.length_toDigits_le_iff (by decide) hpos).mpr (Nat.lt_of_le_of_lt h hn)

theorem length_padded {width n : Nat} (h : (decimal n).length ≤ width) :
    (padded width n).length = width := by
  simp only [padded, List.length_append, List.length_replicate]
  omega

/-- Taking the carriage returns off the end of a text leaves one that ends in none. -/
theorem exists_replicate_dropReturns (s : Bytes) :
    ∃ k, s = dropReturns s ++ List.replicate k 0x0D ∧ (dropReturns s).getLast? ≠ some 0x0D := by
  refine ⟨(s.reverse.takeWhile (· == 0x0D)).length, ?_, ?_⟩
  · have hreturns : s.reverse.takeWhile (· == 0x0D) =
        List.replicate (s.reverse.takeWhile (· == 0x0D)).length 0x0D :=
      List.eq_replicate_iff.mpr ⟨rfl, fun b hb => by
        simpa using List.all_eq_true.mp List.all_takeWhile b hb⟩
    have hs : s.reverse.reverse = dropReturns s ++ (s.reverse.takeWhile (· == 0x0D)).reverse := by
      rw [dropReturns, ← List.reverse_append, List.takeWhile_append_dropWhile]
    rw [List.reverse_reverse, hreturns, List.reverse_replicate] at hs
    simpa using hs
  · rw [dropReturns, List.getLast?_reverse]
    intro hhead
    have hnot := List.head?_dropWhile_not (· == (0x0D : UInt8)) s.reverse
    rw [hhead] at hnot
    simp at hnot

theorem getElem?_dropReturns {s : Bytes} {k : Nat} {b : UInt8} (h : s[k]? = some b)
    (hb : b ≠ 0x0D) : (dropReturns s)[k]? = some b := by
  obtain ⟨returns, hs, -⟩ := exists_replicate_dropReturns s
  rw [hs, List.getElem?_append] at h
  split at h
  · exact h
  · exact absurd (List.eq_of_mem_replicate (List.mem_of_getElem? h)) hb

theorem newline_not_mem_padded (width n : Nat) : 0x0A ∉ padded width n := by
  simp only [padded, decimal, List.mem_append, List.mem_replicate, List.mem_map, not_or, not_exists,
    not_and]
  refine ⟨fun _ => by decide, ?_⟩
  intro c hc hnewline
  have hdigit : c.isDigit = true := Nat.isDigit_of_mem_toDigits (by decide) (by decide) hc
  have hrange : 0x30 ≤ c.toNat ∧ c.toNat ≤ 0x39 := Char.isDigit_iff_toNat.mp hdigit
  have hnat := congrArg UInt8.toNat hnewline
  simp only [Nat.toUInt8, UInt8.toNat_ofNat', UInt8.reduceToNat] at hnat
  omega

/-- A line of an excerpt, without its line feed. -/
def row (mark : String) (width number : Nat) (text : Bytes) : Bytes :=
  bytes mark ++ padded width number ++ bytes " | " ++ dropReturns text

/-- Lines of an excerpt that are not marked, the first of them with a given number. -/
def rows (width first : Nat) (lines : List Bytes) : List Bytes :=
  (lines.zipIdx first).map fun numbered => row "  " width numbered.2 numbered.1

/-- A line of an excerpt shows a line of a text: all of it but the carriage returns at its end,
behind a prefix of a given width. -/
def ShowsLine (width : Nat) (shownLine line : Bytes) : Prop :=
  ∃ front content returns, shownLine = front ++ content ∧ front.length = width ∧
    line = content ++ List.replicate returns 0x0D ∧ content.getLast? ≠ some 0x0D

theorem length_row_front {mark : String} {width number : Nat} (hmark : (bytes mark).length = 2)
    (hnumber : (decimal number).length ≤ width) :
    (bytes mark ++ padded width number ++ bytes " | ").length = 2 + width + 3 := by
  rw [List.length_append, List.length_append, hmark, length_padded hnumber]
  rfl

theorem showsLine_row {mark : String} {width number : Nat} (hmark : (bytes mark).length = 2)
    (hnumber : (decimal number).length ≤ width) (text : Bytes) :
    ShowsLine (2 + width + 3) (row mark width number text) text := by
  obtain ⟨returns, htext, hlast⟩ := exists_replicate_dropReturns text
  exact ⟨_, dropReturns text, returns, rfl, length_row_front hmark hnumber, htext, hlast⟩

/-- The bytes of a line stand in its row, a fixed number of columns to the right. -/
theorem getElem?_row {mark : String} {width number k : Nat} {text : Bytes} {b : UInt8}
    (hmark : (bytes mark).length = 2) (hnumber : (decimal number).length ≤ width)
    (h : text[k]? = some b) (hb : b ≠ 0x0D) :
    (row mark width number text)[2 + width + 3 + k]? = some b := by
  rw [row, List.getElem?_append_right (by rw [length_row_front hmark hnumber]; omega),
    length_row_front hmark hnumber, Nat.add_sub_cancel_left]
  exact getElem?_dropReturns h hb

theorem forall₂_showsLine_rows {width first bound : Nat} {lines : List Bytes}
    (hbound : first + lines.length ≤ bound + 1) (hwidth : (decimal bound).length ≤ width) :
    List.Forall₂ (ShowsLine (2 + width + 3)) (rows width first lines) lines := by
  induction lines generalizing first with
  | nil => exact .nil
  | cons line lines ih =>
    rw [List.length_cons] at hbound
    have hnumber : (decimal first).length ≤ width :=
      Nat.le_trans (length_decimal_le (by omega)) hwidth
    exact .cons (showsLine_row rfl hnumber line) (ih (by omega))

theorem newline_not_mem_row {mark : String} {width number : Nat} {text : Bytes}
    (hmark : 0x0A ∉ bytes mark) (htext : 0x0A ∉ text) : 0x0A ∉ row mark width number text := by
  obtain ⟨returns, hreturns, -⟩ := exists_replicate_dropReturns text
  rw [hreturns, List.mem_append, not_or] at htext
  simp only [row, List.mem_append, not_or]
  exact ⟨⟨⟨hmark, newline_not_mem_padded width number⟩, by decide⟩, htext.1⟩

/-- Lines that are not marked start with a blank and hold no line feed. -/
theorem of_mem_rows {width first : Nat} {lines : List Bytes} (hlines : ∀ line ∈ lines, 0x0A ∉ line)
    {shownLine : Bytes} (h : shownLine ∈ rows width first lines) :
    shownLine.head? = some 0x20 ∧ 0x0A ∉ shownLine := by
  obtain ⟨numbered, hmem, rfl⟩ := List.mem_map.mp h
  exact ⟨rfl, newline_not_mem_row (by decide) (hlines _ (List.fst_mem_of_mem_zipIdx hmem))⟩

/-! ## The lines of an excerpt -/

/-- The lines that an excerpt shows: the line itself and up to two on each side. -/
theorem drop_take_window (above : List Bytes) (here : Bytes) (below : List Bytes) :
    ((above ++ here :: below).take
        (min (above.length + 1 + 2) (above ++ here :: below).length)).drop (above.length + 1 - 3) =
      above.drop (above.length - 2) ++ here :: below.take 2 := by
  have htake : (above ++ here :: below).take
      (min (above.length + 1 + 2) (above ++ here :: below).length) =
        above ++ here :: below.take 2 := by
    rw [← List.take_eq_take_min, List.take_append, List.take_of_length_le (by omega),
      show above.length + 1 + 2 - above.length = 2 + 1 from by omega, List.take_succ_cons]
  rw [htake, List.drop_append_of_le_length (by omega)]
  rfl

/-- What an excerpt shows for a line with its number: the line, and the pointer if it is the line
pointed at. -/
def shown (width here indent : Nat) (numbered : Bytes × Nat) : Bytes :=
  if numbered.2 = here then
    row "> " width numbered.2 numbered.1 ++ bytes "\n" ++ List.replicate indent 0x20 ++ bytes "^\n"
  else row "  " width numbered.2 numbered.1 ++ bytes "\n"

/-- Away from the line pointed at there is no pointer. -/
theorem flatMap_shown_eq_rows {width here indent first : Nat} {lines : List Bytes}
    (h : ∀ number, first ≤ number → number < first + lines.length → number ≠ here) :
    (lines.zipIdx first).flatMap (shown width here indent) =
      Bytes.ended 0x0A (rows width first lines) := by
  have hother : ∀ numbered ∈ lines.zipIdx first, shown width here indent numbered =
      row "  " width numbered.2 numbered.1 ++ [0x0A] := by
    intro numbered hmem
    obtain ⟨text, number⟩ := numbered
    have hrange := List.mem_zipIdx hmem
    exact if_neg (h number hrange.1 hrange.2.1)
  rw [Bytes.ended, rows, List.flatMap_map, List.flatMap_def, List.map_congr_left hother,
    ← List.flatMap_def]

theorem excerpt_eq {source here : Bytes} {above below : List Bytes} (hne : source ≠ [])
    (hlines : source.split 0x0A = above ++ here :: below) (column : Nat) :
    let width := (decimal (above.length + 1 + min 2 below.length)).length
    excerpt source ↑(above.length + 1) ↑(column + 1) = Bytes.ended 0x0A
      (rows width (above.length - 2 + 1) (above.drop (above.length - 2)) ++
        [row "> " width (above.length + 1) here,
          List.replicate (2 + width + 3 + column) 0x20 ++ [0x5E]] ++
        rows width (above.length + 2) (below.take 2)) := by
  intro width
  have hlength : (above ++ here :: below).length = above.length + 1 + below.length := by
    simp only [List.length_append, List.length_cons]
    omega
  have hlast : min (above.length + 1 + 2) (above ++ here :: below).length =
      above.length + 1 + min 2 below.length := by omega
  have hcondition : (source.isEmpty || decide ((↑(above.length + 1) : Int) ≤ 0) ||
      decide ((above ++ here :: below).length < above.length + 1)) = false := by
    simp [hne]
  have hnumber : above.length + 1 - 3 + 1 + (above.drop (above.length - 2)).length =
      above.length + 1 := by
    rw [List.length_drop]
    omega
  have hcolumn : ((↑(column + 1) : Int) - 1).toNat = column := by omega
  have hexcerpt : excerpt source ↑(above.length + 1) ↑(column + 1) =
      ((above.drop (above.length - 2) ++ here :: below.take 2).zipIdx
        (above.length + 1 - 3 + 1)).flatMap
          (shown width (above.length + 1) (2 + width + 3 + column)) := by
    rw [← drop_take_window]
    unfold excerpt
    simp only [hlines, Int.toNat_natCast, gt_iff_lt, hcondition, hlast, hcolumn]
    rfl
  rw [hexcerpt, List.zipIdx_append, List.zipIdx_cons, hnumber, List.flatMap_append,
    List.flatMap_cons, flatMap_shown_eq_rows, flatMap_shown_eq_rows]
  · have hmarked :
        shown width (above.length + 1) (2 + width + 3 + column) (here, above.length + 1) =
          Bytes.ended 0x0A [row "> " width (above.length + 1) here,
            List.replicate (2 + width + 3 + column) 0x20 ++ [0x5E]] := by
      rw [shown, if_pos rfl, show bytes "\n" = [0x0A] from rfl,
        show bytes "^\n" = [0x5E, 0x0A] from rfl]
      simp [Bytes.ended]
    rw [hmarked, Bytes.ended_append, Bytes.ended_append, List.append_assoc]
    rfl
  · intro number hge _
    omega
  · intro number _ hlt
    rw [hnumber] at hlt
    omega

theorem newline_not_mem_line {source line : Bytes} {lines : List Bytes}
    (h : source.split 0x0A = lines) (hline : line ∈ lines) : 0x0A ∉ line :=
  (Bytes.mem_split (h ▸ hline)).1

/-- Cut at its line feeds, an excerpt gives its lines again, and only one of them is marked. -/
theorem split_excerpt {source here : Bytes} {above below : List Bytes} (hne : source ≠ [])
    (hlines : source.split 0x0A = above ++ here :: below) (column : Nat) :
    let width := (decimal (above.length + 1 + min 2 below.length)).length
    let before := rows width (above.length - 2 + 1) (above.drop (above.length - 2))
    let marked := row "> " width (above.length + 1) here
    let pointer := List.replicate (2 + width + 3 + column) 0x20 ++ [0x5E]
    let behind := rows width (above.length + 2) (below.take 2)
    Bytes.split 0x0A (excerpt source ↑(above.length + 1) ↑(column + 1)) =
        before ++ marked :: pointer :: behind ++ [[]] ∧
      (before ++ marked :: pointer :: behind).countP (·.head? = some 0x3E) = 1 := by
  intro width before marked pointer behind
  have hbefore : ∀ line ∈ before, line.head? = some 0x20 ∧ 0x0A ∉ line := fun line =>
    of_mem_rows fun text htext => newline_not_mem_line hlines
      (List.mem_append_left _ (List.mem_of_mem_drop htext))
  have hbehind : ∀ line ∈ behind, line.head? = some 0x20 ∧ 0x0A ∉ line := fun line =>
    of_mem_rows fun text htext => newline_not_mem_line hlines
      (List.mem_append_right _ (List.mem_cons_of_mem _ (List.mem_of_mem_take htext)))
  have hmarked : 0x0A ∉ marked :=
    newline_not_mem_row (by decide) (newline_not_mem_line hlines (by simp))
  have hpointer : pointer.head? = some 0x20 ∧ 0x0A ∉ pointer := by
    refine ⟨?_, by simp [pointer]⟩
    rw [show pointer = List.replicate (2 + width + 2 + column + 1) 0x20 ++ [0x5E] from
      congrArg (List.replicate · 0x20 ++ [0x5E]) (by omega)]
    rfl
  constructor
  · rw [excerpt_eq hne hlines, ← List.append_nil (Bytes.ended 0x0A _), Bytes.split_ended_append]
    · simp [before, marked, pointer, behind, width, Bytes.split]
    · intro line hline
      have hmem : line ∈ before ++ [marked, pointer] ++ behind := hline
      simp only [List.mem_append, List.mem_cons, List.not_mem_nil, or_false] at hmem
      rcases hmem with (hmem | rfl | rfl) | hmem
      · exact (hbefore line hmem).2
      · exact hmarked
      · exact hpointer.2
      · exact (hbehind line hmem).2
  · have hnone : ∀ lines : List Bytes, (∀ line ∈ lines, line.head? = some 0x20) →
        lines.countP (·.head? = some 0x3E) = 0 := by
      intro lines hall
      rw [List.countP_eq_zero]
      intro line hline
      simp [hall line hline]
    rw [List.countP_append, List.countP_cons, List.countP_cons,
      hnone before fun line hline => (hbefore line hline).1,
      hnone behind fun line hline => (hbehind line hline).1, hpointer.1]
    rfl

/-! ## Pointing at a header -/

/-- The first letter of the keyword of a header is one of its line: it is neither a line feed nor a
carriage return. -/
theorem Ada.Opening.exists_letter (o : Ada.Opening) :
    ∃ letter keyword, o.keyword = letter :: keyword ∧ letter ≠ 0x0A ∧ letter ≠ 0x0D := by
  obtain ⟨letter, keyword, hkeyword⟩ := List.exists_cons_of_ne_nil o.keyword_word.ne_nil
  have hspace := o.keyword_word.not_space (b := letter) (by rw [hkeyword]; exact List.mem_cons_self)
  refine ⟨letter, keyword, hkeyword, ?_, ?_⟩
  · rintro rfl
    exact absurd hspace (by decide)
  · rintro rfl
    exact absurd hspace (by decide)

/-- The line of a header that was skipped: behind `last` it goes on with the keyword. -/
theorem Ada.exists_line_of_mem_skipped {source : Bytes} {x : Ada.Skipped}
    (hx : x ∈ Ada.skipped source) :
    ∃ (o : Ada.Opening) (rest : Bytes) (letter : UInt8) (above : List Bytes) (last piece : Bytes)
      (below : List Bytes),
      source.drop x.offset = o.text ++ rest ∧ o.name = x.name ∧ o.keyword.head? = some letter ∧
      letter ≠ 0x0D ∧ source.split 0x0A = above ++ (last ++ letter :: piece) :: below ∧
      x.offset = (Bytes.ended 0x0A above).length + last.length ∧
      Ada.Place.ofOffset source x.offset = ⟨above.length + 1, last.length + 1⟩ := by
  obtain ⟨o, rest, ho, hname, -⟩ :=
    (Ada.scanned_scanFrom 0 source).describes_of_mem rfl x (Ada.mem_skipped_iff.mp hx)
  obtain ⟨letter, keyword, hkeyword, hfeed, hreturn⟩ := o.exists_letter
  obtain ⟨above, last, first, below, hlines, htake, hdrop, hplace⟩ :=
    Ada.Place.exists_lines source x.offset
  obtain ⟨tail, hletter⟩ : ∃ tail, source.drop x.offset = letter :: tail := by
    rw [ho, Ada.Opening.text, hkeyword]
    exact ⟨_, rfl⟩
  obtain ⟨piece, rfl⟩ : ∃ piece, first = letter :: piece := by
    obtain ⟨piece, more, htail⟩ := List.exists_cons_of_ne_nil (Bytes.split_ne_nil 0x0A tail)
    rw [hletter, Bytes.split_cons, if_neg hfeed, htail] at hdrop
    exact ⟨piece, (List.cons.inj hdrop).1.symm⟩
  refine ⟨o, rest, letter, above, last, piece, below, ho, hname, by rw [hkeyword]; rfl, hreturn,
    hlines, ?_, hplace⟩
  have hlength := congrArg List.length htake
  have hbehind := congrArg List.length hletter
  rw [List.length_append, List.length_take] at hlength
  rw [List.length_drop, List.length_cons] at hbehind
  omega

/-- A diagnostic shows the header that it is about. Its excerpt has one line that starts with the
mark `>`, which is the line of the diagnostic; the next one is blanks and a pointer; the others are
the up to two lines above and below, in order. The text of a line always starts in the same column,
and above the pointer stands the first letter of the keyword of the header. -/
def Diagnostic.PointsAtKeyword (d : Diagnostic) (source : Bytes) : Prop :=
  d.context ≠ [] ∧
    ∃ above here below, source.split 0x0A = above ++ here :: below ∧ d.line = above.length + 1 ∧
    ∃ width before marked pointer behind,
      d.context.split 0x0A = before ++ marked :: pointer :: behind ++ [[]] ∧
      marked.head? = some 0x3E ∧
      (before ++ marked :: pointer :: behind).countP (·.head? = some 0x3E) = 1 ∧
      ShowsLine width marked here ∧
      List.Forall₂ (ShowsLine width) before (above.drop (above.length - 2)) ∧
      List.Forall₂ (ShowsLine width) behind (below.take 2) ∧
    ∃ x ∈ Ada.skipped source, x.name = d.function ∧
    ∃ (o : Ada.Opening) (rest : Bytes),
      source.drop x.offset = o.text ++ rest ∧ o.name = x.name ∧
    ∃ indent letter, pointer = List.replicate indent 0x20 ++ [0x5E] ∧
      marked[indent]? = some letter ∧ o.keyword.head? = some letter ∧
      x.offset + width = (Bytes.ended 0x0A above).length + indent

/-- Every diagnostic of a text points at the keyword of the header that was skipped. -/
theorem diagnostics_point_at_keyword (file source : Bytes) :
    ∀ d ∈ (FileResult.ofSource file source).diagnostics, d.PointsAtKeyword source := by
  intro d hd
  obtain ⟨x, hx, rfl⟩ := List.mem_map.mp hd
  obtain ⟨o, rest, letter, above, last, piece, below, ho, hname, hkeyword, hreturn, hlines, hoffset,
    hplace⟩ := Ada.exists_line_of_mem_skipped hx
  have hne : source ≠ [] := by
    rintro rfl
    cases hx
  have hline : (Diagnostic.ofSkipped file source x).line = above.length + 1 := by
    simp [Diagnostic.ofSkipped, hplace]
  have hcontext : (Diagnostic.ofSkipped file source x).context =
      excerpt source ↑(above.length + 1) ↑(last.length + 1) := by
    simp only [Diagnostic.ofSkipped, hplace]
  obtain ⟨hsplit, hcount⟩ := split_excerpt hne hlines last.length
  -- the field is as wide as the largest number shown
  have hwidth : ∀ n ≤ above.length + 1 + min 2 below.length, (decimal n).length ≤
      (decimal (above.length + 1 + min 2 below.length)).length := fun n => length_decimal_le
  have hnumber := hwidth (above.length + 1) (by omega)
  rw [Diagnostic.PointsAtKeyword, hcontext]
  refine ⟨?_, above, _, below, hlines, hline, _, _, _, _, _, hsplit, rfl, hcount,
    showsLine_row rfl hnumber _, forall₂_showsLine_rows ?_ (hwidth above.length (by omega)),
    forall₂_showsLine_rows ?_ (hwidth _ (Nat.le_refl _)), x, hx, rfl, o, rest, ho, hname,
    _, letter, rfl, getElem?_row rfl hnumber (by simp) hreturn, hkeyword, by omega⟩
  · intro hempty
    have hlength := congrArg List.length hsplit
    simp only [hempty, Bytes.split, List.foldr_nil, List.length_append, List.length_cons] at hlength
    omega
  · rw [List.length_drop]
    omega
  · rw [List.length_take]
    omega

/-- A header behind other text in the ninth of eleven lines, all but one of them with carriage
returns. -/
theorem diagnostics_point_at_keyword_ninth_line :
    let source := bytes "\n\n\n\n\n\n\r\n-- eight\r\r\nX; FUNCTION F(\r\n\r\n-- eleven"
    let context := bytes "   7 | \n   8 | -- eight\n>  9 | X; FUNCTION F(\n          ^\n" ++
      bytes "  10 | \n  11 | -- eleven\n"
    ∃ d ∈ (FileResult.ofSource (bytes "f.adb") source).diagnostics,
      d.function = bytes "F" ∧ d.line = 9 ∧ d.column = 4 ∧ d.context = context ∧
      d.PointsAtKeyword source := by
  intro source context
  have hmem : (⟨bytes "f.adb", bytes "F", 9, 4,
      bytes "function F skipped: missing \"return TYPE is\" after parameter list", context⟩ :
        Diagnostic) ∈ (FileResult.ofSource (bytes "f.adb") source).diagnostics := by decide +kernel
  exact ⟨_, hmem, rfl, rfl, rfl, rfl, diagnostics_point_at_keyword _ _ _ hmem⟩

end AdaToC
