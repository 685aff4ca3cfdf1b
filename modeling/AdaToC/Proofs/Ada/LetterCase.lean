import AdaToC.Ada.Place
import AdaToC.Function
import AdaToC.Proofs.Ada.Extraction
import AdaToC.Proofs.Text.LetterCase

/-!
# Scanning does not depend on letter case

Two texts that differ only in the case of letters of ASCII are cut at the same places. Every piece
of the grammar stays a piece of the same kind when letters change their case, and whether a
definition is tight or a header is given up depends on which pieces stand where. So a scan of one
text, retold in terms of the grammar, is a scan of the other.

`Outline` keeps what the two scans share: the places of the pieces, without their letters. The main
result is that one list of outlines gives the findings of both texts.
-/

namespace AdaToC

/-! ## White space and marks -/

theorem SameLetter.eq_of_not_isWordByte {a b : UInt8} (h : SameLetter a b)
    (ha : Ada.isWordByte a = false) : b = a := by
  have hlower := congrArg UInt8.toNat (sameLetter_iff.mp h)
  rw [← Bool.not_eq_true, Ada.isWordByte_iff] at ha
  rw [toNat_lowerByte, toNat_lowerByte] at hlower
  rw [← UInt8.toNat_inj]
  split at hlower <;> split at hlower <;> omega

namespace SameButCase

variable {s t : Bytes}

/-- White space and marks have no case. -/
theorem eq_of_not_isWordByte (h : SameButCase s t) (hs : ∀ b ∈ s, Ada.isWordByte b = false) :
    t = s := by
  induction h with
  | nil => rfl
  | cons hab _ ih =>
    rw [hab.eq_of_not_isWordByte (hs _ List.mem_cons_self),
      ih fun b hb => hs b (List.mem_cons_of_mem _ hb)]

theorem map_beq {m : UInt8} (hm : Ada.isWordByte m = false) (h : SameButCase s t) :
    s.map (· == m) = t.map (· == m) := by
  induction h with
  | nil => rfl
  | @cons a b _ _ hab _ ih =>
    have hsame : (a == m) = (b == m) := by
      rw [Bool.eq_iff_iff, beq_iff_eq, beq_iff_eq]
      constructor
      · rintro rfl
        exact hab.eq_of_not_isWordByte hm
      · rintro rfl
        exact hab.symm.eq_of_not_isWordByte hm
    rw [List.map_cons, List.map_cons, hsame, ih]

theorem isGap (h : SameButCase s t) (hs : Ada.IsGap s) : t = s :=
  h.eq_of_not_isWordByte fun b hb => (Ada.not_isWordByte_of_isSpaceByte (hs b hb)).1

theorem cons_iff {x : UInt8} (hx : Ada.isWordByte x = false) :
    SameButCase (x :: s) t ↔ ∃ t', t = x :: t' ∧ SameButCase s t' := by
  constructor
  · intro h
    cases h with
    | cons hxy hrest => exact ⟨_, by rw [hxy.eq_of_not_isWordByte hx], hrest⟩
  · rintro ⟨t', rfl, h⟩
    exact .cons (Or.inl rfl) h

end SameButCase

end AdaToC

namespace AdaToC.Ada

variable {s t rest : Bytes}

/-! ## Pieces in another letter case -/

theorem equalFold_recased {w w' k : Bytes} (hw : w.equalFold k) (h : SameButCase w w') :
    w'.equalFold k :=
  Bytes.equalFold_iff.mpr (h.folded_eq.symm.trans (Bytes.equalFold_iff.mp hw))

theorem IsWord.recased {w w' : Bytes} (hw : IsWord w) (h : SameButCase w w') : IsWord w' :=
  hw.of_equalFold (equalFold_recased (Bytes.equalFold_refl w) h)

/-- What an opening holds before its name. -/
def Opening.front (o : Opening) : Bytes :=
  o.keyword ++ o.gap

/-- An opening in another letter case. -/
structure Opening.Recased (o o' : Opening) : Prop where
  front : SameButCase o.front o'.front
  name : SameButCase o.name o'.name
  text : SameButCase o.text o'.text

theorem Opening.exists_recased {o : Opening} (h : SameButCase (o.text ++ rest) t) :
    ∃ o' rest', t = Opening.text o' ++ rest' ∧ o.Recased o' ∧ SameButCase rest rest' := by
  have htext : o.text ++ rest =
      o.keyword ++ (o.gap ++ (o.name ++ (o.gapBehind ++ 0x28 :: rest))) := by
    simp [Opening.text]
  rw [htext] at h
  obtain ⟨keyword, _, rfl, hkeyword, h⟩ := h.exists_append
  obtain ⟨gap, _, rfl, hgap, h⟩ := h.exists_append
  obtain ⟨name, _, rfl, hname, h⟩ := h.exists_append
  obtain ⟨gapBehind, _, rfl, hbehind, h⟩ := h.exists_append
  obtain ⟨rest', rfl, hrest⟩ := (SameButCase.cons_iff (by decide)).mp h
  obtain rfl := hgap.isGap o.gap_blank
  obtain rfl := hbehind.isGap o.gapBehind_blank
  let o' : Opening :=
    { keyword, gap := o.gap, name, gapBehind := o.gapBehind
      keyword_eq := equalFold_recased o.keyword_eq hkeyword
      gap_ne := o.gap_ne, gap_blank := o.gap_blank
      name_word := o.name_word.recased hname, gapBehind_blank := o.gapBehind_blank }
  have hfront : SameButCase o.front o'.front := hkeyword.append hgap
  refine ⟨o', rest', by simp [o', Opening.text], ⟨hfront, hname, ?_⟩, hrest⟩
  exact ((hfront.append hname).append hbehind).append (SameButCase.refl [0x28])

/-- What a clause holds before its type. -/
def ReturnClause.front (c : ReturnClause) : Bytes :=
  [0x29] ++ c.gapBefore ++ c.keyword ++ c.gap

/-- A return clause in another letter case. -/
structure ReturnClause.Recased (c c' : ReturnClause) : Prop where
  front : SameButCase c.front c'.front
  returnType : SameButCase c.returnType c'.returnType
  text : SameButCase c.text c'.text

theorem ReturnClause.exists_recased {c : ReturnClause} (h : SameButCase (c.text ++ rest) t) :
    ∃ c' rest', t = ReturnClause.text c' ++ rest' ∧ c.Recased c' ∧ SameButCase rest rest' := by
  have htext : c.text ++ rest = 0x29 :: (c.gapBefore ++ (c.keyword ++ (c.gap ++
      (c.returnType ++ (c.gapBehind ++ (c.isKeyword ++ rest)))))) := by
    simp [ReturnClause.text]
  rw [htext] at h
  obtain ⟨_, rfl, hinner⟩ := (SameButCase.cons_iff (by decide)).mp h
  obtain ⟨gapBefore, _, rfl, hbefore, h⟩ := hinner.exists_append
  obtain ⟨keyword, _, rfl, hkeyword, h⟩ := h.exists_append
  obtain ⟨gap, _, rfl, hgap, h⟩ := h.exists_append
  obtain ⟨returnType, _, rfl, htype, h⟩ := h.exists_append
  obtain ⟨gapBehind, _, rfl, hbehind, h⟩ := h.exists_append
  obtain ⟨isKeyword, rest', rfl, hisKeyword, hrest⟩ := h.exists_append
  obtain rfl := hbefore.isGap c.gapBefore_blank
  obtain rfl := hgap.isGap c.gap_blank
  obtain rfl := hbehind.isGap c.gapBehind_blank
  let c' : ReturnClause :=
    { gapBefore := c.gapBefore, keyword, gap := c.gap, returnType, gapBehind := c.gapBehind
      isKeyword
      gapBefore_blank := c.gapBefore_blank
      keyword_eq := equalFold_recased c.keyword_eq hkeyword
      gap_ne := c.gap_ne, gap_blank := c.gap_blank
      returnType_word := c.returnType_word.recased htype
      gapBehind_ne := c.gapBehind_ne, gapBehind_blank := c.gapBehind_blank
      isKeyword_eq := equalFold_recased c.isKeyword_eq hisKeyword }
  have hfront : SameButCase c.front c'.front :=
    (((SameButCase.refl [0x29]).append hbefore).append hkeyword).append hgap
  refine ⟨c', rest', by simp [c', ReturnClause.text], ⟨hfront, htype, ?_⟩, hrest⟩
  exact ((hfront.append htype).append hbehind).append hisKeyword

theorem Closing.exists_recased {name name' : Bytes} (hname : SameButCase name name')
    {c : Closing name} (h : SameButCase (c.text ++ rest) t) :
    ∃ (c' : Closing name') (rest' : Bytes), t = c'.text ++ rest' ∧ SameButCase rest rest' := by
  have htext : c.text ++ rest = c.keyword ++ (c.gap ++ (c.again ++ 0x3B :: rest)) := by
    simp [Closing.text]
  rw [htext] at h
  obtain ⟨keyword, _, rfl, hkeyword, h⟩ := h.exists_append
  obtain ⟨gap, _, rfl, hgap, h⟩ := h.exists_append
  obtain ⟨again, _, rfl, hagain, h⟩ := h.exists_append
  obtain ⟨rest', rfl, hrest⟩ := (SameButCase.cons_iff (by decide)).mp h
  obtain rfl := hgap.isGap c.gap_blank
  have hfold : again.equalFold name' := by
    rw [Bytes.equalFold_iff, ← hname.folded_eq, ← Bytes.equalFold_iff]
    exact equalFold_recased c.again_eq hagain
  let c' : Closing name' :=
    { keyword, gap := c.gap, again
      keyword_eq := equalFold_recased c.keyword_eq hkeyword
      gap_ne := c.gap_ne, gap_blank := c.gap_blank, again_eq := hfold }
  exact ⟨c', rest', by simp [c', Closing.text], hrest⟩

/-! ## What a text holds, in another letter case -/

theorem exists_clause_recased {before behind : Bytes} {c : ReturnClause}
    (h : SameButCase (before ++ c.text ++ behind) t) :
    ∃ before' c' behind', t = before' ++ ReturnClause.text c' ++ behind' ∧
      SameButCase behind behind' := by
  rw [List.append_assoc] at h
  obtain ⟨before', _, rfl, -, h⟩ := h.exists_append
  obtain ⟨c', behind', rfl, -, hbehind⟩ := ReturnClause.exists_recased h
  exact ⟨before', c', behind', by rw [List.append_assoc], hbehind⟩

theorem HasClause.recased (hs : HasClause s) (h : SameButCase s t) : HasClause t := by
  obtain ⟨before, c, behind, rfl⟩ := hs
  obtain ⟨before', c', behind', rfl, -⟩ := exists_clause_recased h
  exact ⟨before', c', behind', rfl⟩

theorem HasClosing.recased {name name' : Bytes} (hs : HasClosing name s)
    (hname : SameButCase name name') (h : SameButCase s t) : HasClosing name' t := by
  obtain ⟨before, c, behind, rfl⟩ := hs
  rw [List.append_assoc] at h
  obtain ⟨before', _, rfl, -, h⟩ := h.exists_append
  obtain ⟨c', behind', rfl, -⟩ := Closing.exists_recased hname h
  exact ⟨before', c', behind', by rw [List.append_assoc]⟩

theorem skipSpace_recased (hs : skipSpace s = s) (h : SameButCase s t) : skipSpace t = t := by
  rw [skipSpace_eq_self_iff] at hs ⊢
  intro b hb
  cases h with
  | nil => cases hb
  | @cons a _ _ _ hab _ =>
    cases hb
    rw [← Bool.not_eq_true]
    intro hspace
    have hsame := hab.symm.eq_of_not_isWordByte (not_isWordByte_of_isSpaceByte hspace).1
    rw [← hsame, hs a rfl] at hspace
    cases hspace

/-! ## Definitions and faults in another letter case -/

/-- A definition in another letter case. -/
structure Definition.Recased (d d' : Definition) : Prop where
  opening : d.opening.Recased d'.opening
  params : SameButCase d.params d'.params
  clause : d.clause.Recased d'.clause
  gap : d'.gap = d.gap
  body : SameButCase d.body d'.body

theorem Definition.exists_recased {d : Definition} (h : SameButCase (d.text ++ rest) t) :
    ∃ d' rest', t = Definition.text d' ++ rest' ∧ d.Recased d' ∧ SameButCase rest rest' := by
  rw [Definition.text_append] at h
  obtain ⟨opening, _, rfl, hopening, h⟩ := Opening.exists_recased h
  obtain ⟨params, _, rfl, hparams, h⟩ := h.exists_append
  obtain ⟨clause, _, rfl, hclause, h⟩ := ReturnClause.exists_recased h
  obtain ⟨gap, _, rfl, hgap, h⟩ := h.exists_append
  obtain ⟨body, _, rfl, hbody, h⟩ := h.exists_append
  obtain ⟨closing, rest', rfl, hrest⟩ := Closing.exists_recased hopening.name h
  obtain rfl := hgap.isGap d.gap_blank
  let d' : Definition := ⟨opening, params, clause, d.gap, body, closing, d.gap_blank⟩
  exact ⟨d', rest', (d'.text_append rest').symm, ⟨hopening, hparams, hclause, rfl, hbody⟩, hrest⟩

theorem Definition.Tight.recased {d d' : Definition} (hd : d.Tight) (h : d.Recased d') :
    d'.Tight where
  params_free hclause := hd.params_free (hclause.recased h.params.symm)
  body_front := skipSpace_recased hd.body_front h.body
  body_free hclosing := hd.body_free (hclosing.recased h.opening.name.symm h.body.symm)

theorem Fault.Describes.recased {fault : Fault} {name name' rest' : Bytes}
    (hfault : fault.Describes name rest) (hname : SameButCase name name')
    (hrest : SameButCase rest rest') : fault.Describes name' rest' := by
  cases fault with
  | noSignature => exact fun hclause => hfault (hclause.recased hrest.symm)
  | noTerminator =>
    refine ⟨hfault.1.recased hrest, ?_⟩
    rintro before' c' behind' rfl hclosing
    -- the clause stands in the first text as well, and there no closing is behind it
    obtain ⟨before, c, behind, rfl, hbehind⟩ := exists_clause_recased hrest.symm
    exact hfault.2 before c behind rfl (hclosing.recased hname.symm hbehind)

/-! ## The places of the pieces -/

/-- A range of places of a text, `stop` not included. -/
structure Span where
  start : Nat
  stop : Nat
  deriving DecidableEq, Repr

namespace Span

/-- The bytes of a text in a range of places. -/
def of (p : Span) (source : Bytes) : Bytes :=
  (source.take p.stop).drop p.start

/-- The places that a piece takes up from a given one on. -/
def placed (start : Nat) (piece : Bytes) : Span :=
  ⟨start, start + piece.length⟩

theorem of_placed {source front piece behind : Bytes} {offset start : Nat}
    (h : source.drop offset = front ++ (piece ++ behind)) (hstart : start = offset + front.length) :
    (placed start piece).of source = piece := by
  rw [of, placed, hstart, List.drop_take, ← List.drop_drop, h, List.drop_left,
    Nat.add_sub_cancel_left, List.take_left]

theorem sameButCase_of (p : Span) (h : SameButCase s t) : SameButCase (p.of s) (p.of t) :=
  (h.take p.stop).drop p.start

end Span

/-- The places of the parts of a unit. -/
structure Layout where
  offset : Nat
  name : Span
  params : Span
  returnType : Span
  body : Span
  deriving DecidableEq, Repr

namespace Layout

/-- The unit that a text has at these places. -/
def unit (l : Layout) (source : Bytes) : FunctionUnit where
  name := l.name.of source
  params := l.params.of source
  returnType := l.returnType.of source
  body := l.body.of source
  offset := l.offset

/-- The parts follow each other in a text of a given length. Between them there is room for the
words and marks of the definition; name and type are not empty. -/
structure InOrder (l : Layout) (length : Nat) : Prop where
  name : l.offset < l.name.start ∧ l.name.start < l.name.stop
  params : l.name.stop < l.params.start ∧ l.params.start ≤ l.params.stop
  returnType : l.params.stop < l.returnType.start ∧ l.returnType.start < l.returnType.stop
  body : l.returnType.stop < l.body.start ∧ l.body.start ≤ l.body.stop
  closing : l.body.stop < length

end Layout

namespace Definition

def layout (d : Definition) (offset : Nat) : Layout :=
  let params := offset + d.opening.text.length
  let clause := params + d.params.length
  { offset
    name := .placed (offset + d.opening.front.length) d.opening.name
    params := .placed params d.params
    returnType := .placed (clause + d.clause.front.length) d.clause.returnType
    body := .placed (clause + d.clause.text.length + d.gap.length) d.body }

theorem unit_layout {d : Definition} {source : Bytes} {offset : Nat}
    (h : source.drop offset = d.text ++ rest) : (d.layout offset).unit source = d.unit offset := by
  have hname : source.drop offset =
      d.opening.front ++ (d.opening.name ++ (d.opening.gapBehind ++ 0x28 :: (d.params ++
        (d.clause.text ++ (d.gap ++ (d.body ++ (d.closing.text ++ rest))))))) := by
    rw [h, Definition.text_append]
    simp [Opening.text, Opening.front]
  have hparams : source.drop offset = d.opening.text ++ (d.params ++
      (d.clause.text ++ (d.gap ++ (d.body ++ (d.closing.text ++ rest))))) := by
    rw [h, Definition.text_append]
  have htype : source.drop offset = (d.opening.text ++ d.params ++ d.clause.front) ++
      (d.clause.returnType ++ (d.clause.gapBehind ++ (d.clause.isKeyword ++
        (d.gap ++ (d.body ++ (d.closing.text ++ rest)))))) := by
    rw [h, Definition.text_append]
    simp [ReturnClause.text, ReturnClause.front]
  have hbody : source.drop offset = (d.opening.text ++ d.params ++ d.clause.text ++ d.gap) ++
      (d.body ++ (d.closing.text ++ rest)) := by
    rw [h, Definition.text_append]
    simp
  simp only [Layout.unit, Definition.unit, layout]
  rw [Span.of_placed hname rfl, Span.of_placed hparams rfl,
    Span.of_placed htype (by simp only [List.length_append]; omega),
    Span.of_placed hbody (by simp only [List.length_append]; omega)]

theorem Recased.layout_eq {d d' : Definition} (h : d.Recased d') (offset : Nat) :
    d'.layout offset = d.layout offset := by
  simp only [layout, Span.placed, h.opening.front.length_eq, h.opening.name.length_eq,
    h.opening.text.length_eq, h.params.length_eq, h.clause.front.length_eq,
    h.clause.returnType.length_eq, h.clause.text.length_eq, h.gap, h.body.length_eq]

theorem layout_inOrder (d : Definition) (offset : Nat) :
    (d.layout offset).InOrder (offset + d.text.length) := by
  have hkeyword := List.length_pos_iff.mpr d.opening.keyword_word.ne_nil
  have hname := List.length_pos_iff.mpr d.opening.name_word.ne_nil
  have htype := List.length_pos_iff.mpr d.clause.returnType_word.ne_nil
  have hbehind := List.length_pos_iff.mpr d.clause.gapBehind_ne
  constructor
  all_goals
    simp only [layout, Span.placed, Opening.text, Opening.front, ReturnClause.text,
      ReturnClause.front, Definition.text, Closing.text, List.length_append, List.length_singleton]
    omega

end Definition

/-- The places of a header that begins no definition, with the reason. -/
structure Report where
  offset : Nat
  name : Span
  fault : Fault
  deriving DecidableEq, Repr

namespace Report

/-- The skipped header that a text has at these places. -/
def skipped (r : Report) (source : Bytes) : Skipped where
  name := r.name.of source
  offset := r.offset
  fault := r.fault

structure InOrder (r : Report) (length : Nat) : Prop where
  name : r.offset < r.name.start ∧ r.name.start < r.name.stop
  opening : r.name.stop < length

end Report

def Opening.report (o : Opening) (offset : Nat) (fault : Fault) : Report :=
  ⟨offset, .placed (offset + o.front.length) o.name, fault⟩

theorem Opening.skipped_report {o : Opening} {source : Bytes} {offset : Nat}
    (h : source.drop offset = o.text ++ rest) (fault : Fault) :
    (o.report offset fault).skipped source = ⟨o.name, offset, fault⟩ := by
  have hname : source.drop offset = o.front ++ (o.name ++ (o.gapBehind ++ 0x28 :: rest)) := by
    rw [h]
    simp [Opening.text, Opening.front]
  simp only [Report.skipped, Opening.report]
  rw [Span.of_placed hname rfl]

theorem Opening.Recased.report_eq {o o' : Opening} (h : o.Recased o') (offset : Nat)
    (fault : Fault) : o'.report offset fault = o.report offset fault := by
  simp only [Opening.report, Span.placed, h.front.length_eq, h.name.length_eq]

theorem Opening.report_inOrder (o : Opening) (offset : Nat) (fault : Fault) :
    (o.report offset fault).InOrder (offset + o.text.length) := by
  have hkeyword := List.length_pos_iff.mpr o.keyword_word.ne_nil
  have hname := List.length_pos_iff.mpr o.name_word.ne_nil
  constructor
  all_goals
    simp only [Opening.report, Span.placed, Opening.text, Opening.front, List.length_append,
      List.length_singleton]
    omega

/-! ## Two scans -/

/-- What is found at a header, without its letters. -/
inductive Outline where
  | unit (l : Layout)
  | skipped (r : Report)
  deriving DecidableEq, Repr

namespace Outline

def finding (source : Bytes) : Outline → Finding
  | .unit l => .unit (l.unit source)
  | .skipped r => .skipped (r.skipped source)

def InOrder (length : Nat) : Outline → Prop
  | .unit l => l.InOrder length
  | .skipped r => r.InOrder length

def layout? : Outline → Option Layout
  | .unit l => some l
  | .skipped _ => none

def report? : Outline → Option Report
  | .unit _ => none
  | .skipped r => some r

theorem filterMap_unit? (source : Bytes) (os : List Outline) :
    (os.map (·.finding source)).filterMap Finding.unit? =
      (os.filterMap layout?).map (·.unit source) := by
  rw [List.filterMap_map, List.map_filterMap]
  congr 1
  funext o
  cases o <;> rfl

theorem filterMap_skipped? (source : Bytes) (os : List Outline) :
    (os.map (·.finding source)).filterMap Finding.skipped? =
      (os.filterMap report?).map (·.skipped source) := by
  rw [List.filterMap_map, List.map_filterMap]
  congr 1
  funext o
  cases o <;> rfl

end Outline

theorem length_of_drop {source text : Bytes} {offset : Nat} (h : source.drop offset = text ++ rest)
    (hne : text ≠ []) : offset + text.length ≤ source.length := by
  have hlength := congrArg List.length h
  have hpos := List.length_pos_iff.mpr hne
  simp only [List.length_drop, List.length_append] at hlength
  omega

/-- A scan of one text is a scan of the other with the same outlines. The induction is over the scan
of the first text; at each place the pieces that stand there stand in the other text as well. -/
theorem Scanned.outlined {source target : Bytes} {offset : Nat} {fs : List Finding}
    (h : Scanned offset s fs) (hs : source.drop offset = s) (hcase : SameButCase source target) :
    ∃ os : List Outline, (∀ o ∈ os, o.InOrder source.length) ∧ fs = os.map (·.finding source) ∧
      Scanned offset (target.drop offset) (os.map (·.finding target)) := by
  have hst : SameButCase s (target.drop offset) := hs ▸ hcase.drop offset
  induction h with
  | done offset =>
    refine ⟨[], by simp, rfl, ?_⟩
    rw [List.eq_nil_of_length_eq_zero hst.length_eq.symm]
    exact .done offset
  | @pass offset b rest fs hnone _ ih =>
    have hrest := drop_succ_of_drop_eq_cons hs
    obtain ⟨os, horder, hfs, hscan⟩ := ih hrest (hrest ▸ hcase.drop (offset + 1))
    refine ⟨os, horder, hfs, ?_⟩
    obtain ⟨b', rest', -, -, ht⟩ := List.forall₂_cons_left_iff.mp hst
    rw [drop_succ_of_drop_eq_cons ht] at hscan
    rw [ht] at hst ⊢
    refine .pass ?_ hscan
    intro o r ho
    rw [ho] at hst
    obtain ⟨o', r', hs', -⟩ := Opening.exists_recased hst.symm
    exact hnone o' r' hs'
  | @unit offset d rest fs hd _ ih =>
    have hrest := drop_add_of_drop_eq_append hs
    obtain ⟨os, horder, hfs, hscan⟩ := ih hrest (hrest ▸ hcase.drop _)
    obtain ⟨d', rest', ht, hrecased, hcaserest⟩ := Definition.exists_recased hst
    have hlength : d.text.length = d'.text.length := by
      have htotal := hst.length_eq
      rw [ht, List.length_append, List.length_append, hcaserest.length_eq] at htotal
      omega
    refine ⟨.unit (d.layout offset) :: os, ?_, ?_, ?_⟩
    · have hle := length_of_drop hs d.text_ne_nil
      have hlayout := d.layout_inOrder offset
      refine List.forall_mem_cons.mpr ⟨?_, horder⟩
      exact { hlayout with closing := Nat.lt_of_lt_of_le hlayout.closing hle }
    · rw [List.map_cons, ← hfs, Outline.finding, Definition.unit_layout hs]
    · rw [hlength, drop_add_of_drop_eq_append ht] at hscan
      rw [List.map_cons, Outline.finding, ← hrecased.layout_eq, Definition.unit_layout ht, ht]
      exact .unit (hd.recased hrecased) hscan
  | @skipped offset b rest behind o fault fs ho hfault _ ih =>
    have hrest := drop_succ_of_drop_eq_cons hs
    obtain ⟨os, horder, hfs, hscan⟩ := ih hrest (hrest ▸ hcase.drop (offset + 1))
    rw [ho] at hst hs
    obtain ⟨o', behind', ht, hrecased, hbehind⟩ := Opening.exists_recased hst
    obtain ⟨b', rest', hb'⟩ := List.exists_cons_of_ne_nil
      (List.append_ne_nil_of_left_ne_nil o'.text_ne_nil behind')
    refine ⟨.skipped (o.report offset fault) :: os, ?_, ?_, ?_⟩
    · have hle := length_of_drop hs o.text_ne_nil
      have hreport := o.report_inOrder offset fault
      refine List.forall_mem_cons.mpr ⟨?_, horder⟩
      exact { hreport with opening := Nat.lt_of_lt_of_le hreport.opening hle }
    · rw [List.map_cons, ← hfs, Outline.finding, Opening.skipped_report hs]
    · rw [drop_succ_of_drop_eq_cons (ht.trans hb')] at hscan
      rw [List.map_cons, Outline.finding, ← hrecased.report_eq, Opening.skipped_report ht,
        ht.trans hb']
      exact .skipped hb'.symm (hfault.recased hrecased.name hbehind) hscan

/-- Places have the same line and column in both texts: a line feed has no case. -/
theorem Place.ofOffset_recased (h : SameButCase s t) (offset : Nat) :
    Place.ofOffset s offset = Place.ofOffset t offset := by
  have hfeeds := (h.take offset).map_beq (m := 0x0A) (by decide)
  have hreverse : (s.take offset).reverse.map (· == 0x0A) =
      (t.take offset).reverse.map (· == 0x0A) := by
    rw [List.map_reverse, List.map_reverse, hfeeds]
  have hcount : ∀ u : Bytes, u.count 0x0A = (u.map (· == 0x0A)).count true := by
    intro u
    simp [List.count, List.countP_map, Function.comp_def]
  have hcolumn : ∀ u : Bytes, (u.takeWhile (· != 0x0A)).length =
      ((u.map (· == 0x0A)).takeWhile (! ·)).length := by
    intro u
    rw [List.takeWhile_map, List.length_map]
    rfl
  simp only [Place.ofOffset, hcount, hcolumn, hfeeds, hreverse]

/-- A scan does not depend on the case of the letters of ASCII. Two texts that differ in nothing
else are cut at the same places: one list of layouts gives the units of both, each part being what
stands there in the one text and in the other, and one list of reports gives the skipped headers.
The reports have the same lines and columns, and the functions the same names in C. -/
theorem scan_ignores_letter_case (h : SameButCase s t) :
    (∃ layouts : List Layout, (∀ l ∈ layouts, l.InOrder s.length) ∧
      units s = layouts.map (·.unit s) ∧ units t = layouts.map (·.unit t)) ∧
    (∃ reports : List Report, (∀ r ∈ reports, r.InOrder s.length) ∧
      skipped s = reports.map (·.skipped s) ∧ skipped t = reports.map (·.skipped t)) ∧
    (skipped s).map (fun x => (x.offset, Place.ofOffset s x.offset, x.fault)) =
      (skipped t).map (fun x => (x.offset, Place.ofOffset t x.offset, x.fault)) ∧
    (units s).map (fun u => (Function.ofUnit u).symbol) =
      (units t).map (fun u => (Function.ofUnit u).symbol) := by
  obtain ⟨os, horder, hs, ht⟩ := (scanned_scanFrom 0 s).outlined rfl h
  have ht : scan t = os.map (·.finding t) := ht.eq_scanFrom
  have hunits : ∀ source, scan source = os.map (·.finding source) →
      units source = (os.filterMap Outline.layout?).map (·.unit source) := by
    intro source hscan
    rw [units, hscan, Outline.filterMap_unit?]
  have hskipped : ∀ source, scan source = os.map (·.finding source) →
      skipped source = (os.filterMap Outline.report?).map (·.skipped source) := by
    intro source hscan
    rw [skipped, hscan, Outline.filterMap_skipped?]
  refine ⟨⟨_, ?_, hunits s hs, hunits t ht⟩, ⟨_, ?_, hskipped s hs, hskipped t ht⟩, ?_, ?_⟩
  · intro l hl
    obtain ⟨o, ho, hlayout⟩ := List.mem_filterMap.mp hl
    cases o with
    | unit l' => cases hlayout; exact horder _ ho
    | skipped r => cases hlayout
  · intro r hr
    obtain ⟨o, ho, hreport⟩ := List.mem_filterMap.mp hr
    cases o with
    | unit l => cases hreport
    | skipped r' => cases hreport; exact horder _ ho
  · rw [hskipped s hs, hskipped t ht, List.map_map, List.map_map]
    refine List.map_congr_left fun r _ => ?_
    simp only [Function.comp_apply, Report.skipped, Place.ofOffset_recased h]
  · rw [hunits s hs, hunits t ht, List.map_map, List.map_map]
    refine List.map_congr_left fun l _ => ?_
    exact congrArg (bytes "ada_" ++ ·) (l.name.sameButCase_of h).lower_eq

/-- A definition with letters outside ASCII in its name and in `is`, its name closed in yet another
case, and a header that is skipped. -/
theorem scan_ignores_letter_case_mixed :
    let s := bytes "FUNCTION \u212Aind (X : Float)\nRETURN Float I\u017F NULL; END kIND; " ++
      bytes "function Open("
    let t := bytes "function \u212AIND (x : fLOAT)\nreturn fLOAT i\u017F null; end Kind; " ++
      bytes "Function oPEN("
    SameButCase s t ∧ (units s).map (·.body) = [bytes "NULL; "] ∧
      (units t).map (·.body) = [bytes "null; "] ∧ (skipped t).map (·.name) = [bytes "oPEN"] ∧
      (∃ layouts : List Layout, (∀ l ∈ layouts, l.InOrder s.length) ∧
        units s = layouts.map (·.unit s) ∧ units t = layouts.map (·.unit t)) ∧
      (∃ reports : List Report, (∀ r ∈ reports, r.InOrder s.length) ∧
        skipped s = reports.map (·.skipped s) ∧ skipped t = reports.map (·.skipped t)) ∧
      (skipped s).map (fun x => (x.offset, Place.ofOffset s x.offset, x.fault)) =
        (skipped t).map (fun x => (x.offset, Place.ofOffset t x.offset, x.fault)) ∧
      (units s).map (fun u => (Function.ofUnit u).symbol) =
        (units t).map (fun u => (Function.ofUnit u).symbol) := by
  intro s t
  have hcase : SameButCase s t := by decide +kernel
  exact ⟨hcase, by decide +kernel, by decide +kernel, by decide +kernel,
    scan_ignores_letter_case hcase⟩

end AdaToC.Ada
