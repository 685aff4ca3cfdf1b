import AdaToC.Proofs.Ada.Occurrence

/-!
# The definition that a header begins

A text can begin with several definitions: any later clause may end the parameters, white space
behind `is` may count to the body, any later closing may end it. The scanner takes the first
clause, all the white space and the first closing, and gives up if there is no closing behind the
first clause. `Tight` describes the definition it takes by its pieces alone, with no regard to the
text behind it: no clause in the parameters, no white space at the front of the body, no closing
in the body.

The main results say that `Header.complete` finds exactly the tight definition, that a header is
given up only if no definition starts there at all, and that the tight definition is the one that
every choice between two ways of cutting the text prefers.
-/

namespace AdaToC.Ada

namespace Definition

/-- The pieces end as early as they can, white space behind `is` apart, which is taken whole. -/
structure Tight (d : Definition) : Prop where
  params_free : ¬ HasClause d.params
  body_front : skipSpace d.body = d.body
  body_free : ¬ HasClosing d.opening.name d.body

/-- Of two ways to cut a text, the one with the shorter parameters comes first, then the one with
more white space behind `is`, then the one with the shorter body. -/
def Preferred (d d' : Definition) : Prop :=
  d.params.length < d'.params.length ∨
    d.params.length = d'.params.length ∧
      (d'.gap.length < d.gap.length ∨
        d.gap.length = d'.gap.length ∧ d.body.length ≤ d'.body.length)

theorem text_append (d : Definition) (rest : Bytes) :
    d.text ++ rest = d.opening.text ++
      (d.params ++ (d.clause.text ++ (d.gap ++ (d.body ++ (d.closing.text ++ rest))))) := by
  simp [Definition.text]

end Definition

/-! ## White space before a body -/

theorem skipSpace_eq_self_iff {s : Bytes} :
    skipSpace s = s ↔ ∀ b ∈ s.head?, isSpaceByte b = false := by
  cases s with
  | nil => simp [skipSpace]
  | cons b s =>
    simp only [List.head?_cons, Option.mem_some_iff, forall_eq']
    constructor
    · intro hself
      cases hb : isSpaceByte b with
      | false => rfl
      | true =>
        have hshort := congrArg List.length hself
        rw [skipSpace, List.dropWhile_cons, if_pos hb, List.length_cons] at hshort
        have hle := (List.dropWhile_suffix isSpaceByte (l := s)).length_le
        omega
    · intro hb
      exact skipSpace_cons hb s

theorem Closing.skipSpace_text {name : Bytes} (c : Closing name) (s : Bytes) :
    skipSpace (c.text ++ s) = c.text ++ s := by
  simpa [Closing.text] using skipSpace_word_append c.keyword_word (c.gap ++ (c.again ++ 0x3B :: s))

/-- White space at the front of a body is white space at the front of the text that it starts. -/
theorem skipSpace_body_append_iff {name body : Bytes} (c : Closing name) (s : Bytes) :
    skipSpace (body ++ (c.text ++ s)) = body ++ (c.text ++ s) ↔ skipSpace body = body := by
  cases body with
  | nil => simpa [skipSpace] using c.skipSpace_text s
  | cons b body => simp [skipSpace_eq_self_iff]

/-- A closing does not start in white space. -/
theorem hasClosing_gap_append_iff {name g : Bytes} (hg : IsGap g) (s : Bytes) :
    HasClosing name (g ++ s) ↔ HasClosing name s := by
  constructor
  · rintro ⟨before, c, behind, h⟩
    rw [List.append_assoc] at h
    rcases List.append_eq_append_iff.mp h with ⟨z, rfl, rfl⟩ | ⟨z, hz, hc⟩
    · exact ⟨z, c, behind, by rw [List.append_assoc]⟩
    · cases z with
      | nil => exact ⟨[], c, behind, by simpa using hc.symm⟩
      | cons b z =>
        -- the first byte of the closing would be in the white space
        have hspace : isSpaceByte b = true := hg b (by rw [hz]; simp)
        have hword := skipSpace_eq_self_iff.mp (c.skipSpace_text behind) b (by rw [hc]; rfl)
        rw [hspace] at hword
        cases hword
  · rintro ⟨before, c, behind, rfl⟩
    exact ⟨g ++ before, c, behind, by simp⟩

/-! ## What completing a header finds -/

/-- Completing a header takes the tight definition, whatever stands behind it. -/
theorem Definition.Tight.complete {d : Definition} (hd : d.Tight) (rest : Bytes) (offset : Nat) :
    Header.complete ⟨d.opening.name,
      d.params ++ (d.clause.text ++ (d.gap ++ (d.body ++ (d.closing.text ++ rest))))⟩ offset =
        .ok (d.unit offset, rest) := by
  have hname := d.opening.name_word
  have hskip : skipSpace (d.gap ++ (d.body ++ (d.closing.text ++ rest))) =
      d.body ++ (d.closing.text ++ rest) := by
    rw [skipSpace_gap_append d.gap_blank]
    exact (skipSpace_body_append_iff d.closing rest).mpr hd.body_front
  have hsignature := reads_signature.firstAt?_append hd.params_free
    (signature_of_clause d.clause (d.gap ++ (d.body ++ (d.closing.text ++ rest))))
  have hterminator := (reads_terminator hname).firstAt?_append hd.body_free
    ((terminator?_eq_some_iff hname).mpr ⟨d.closing, (rfl : d.closing.text ++ rest = _)⟩)
  simp only [Header.complete, hsignature, hskip, hterminator, List.take_left, Definition.unit]

/-- What completing a header takes is a tight definition. -/
theorem exists_tight_of_complete {o : Opening} {rest behind : Bytes} {offset : Nat}
    {u : FunctionUnit} (h : Header.complete ⟨o.name, rest⟩ offset = .ok (u, behind)) :
    ∃ d : Definition, d.Tight ∧ o.text ++ rest = d.text ++ behind ∧ u = d.unit offset := by
  unfold Header.complete at h
  split at h
  · cases h
  · next k signature hsignature =>
    -- the text behind the parenthesis: parameters without a clause, then the clause
    obtain ⟨params, c, t, rfl, rfl, hparams, hread⟩ := reads_signature.exists_of_firstAt? hsignature
    rw [signature_of_clause] at hread
    cases hread
    split at h
    · cases h
    · next m behind' hterminator =>
      obtain ⟨body, e, t', hskip, rfl, hbody, hread⟩ :=
        (reads_terminator o.name_word).exists_of_firstAt? hterminator
      obtain ⟨gap, hgap, ht⟩ := exists_gap_append_skipSpace t
      cases h
      have hbehind : behind = t' := by
        have hself := (terminator?_eq_some_iff o.name_word).mpr ⟨e, (rfl : e.text ++ t' = _)⟩
        exact (Option.some.inj (hself.symm.trans hread)).symm
      subst hbehind
      dsimp only at hskip
      refine ⟨⟨o, params, c, gap, body, e, hgap⟩, ⟨hparams, ?_, hbody⟩, ?_, ?_⟩
      · have hself := skipSpace_skipSpace t
        rw [hskip] at hself
        exact (skipSpace_body_append_iff e behind).mp hself
      · rw [ht, hskip, Definition.text_append]
      · simp only [Definition.unit, hskip, List.take_left]

/-! ## Headers that are given up -/

theorem Header.complete_eq_noSignature_iff {h : Header} {offset : Nat} :
    h.complete offset = .error .noSignature ↔ ¬ HasClause h.rest := by
  rw [← reads_signature.firstAt?_eq_none_iff_not_holds]
  unfold Header.complete
  split
  · next hnone => simp [hnone]
  · next hsome =>
    rw [hsome]
    split <;> simp

/-- Behind the first clause stands all that stands behind any other. -/
theorem exists_append_of_clause {x t y r : Bytes} {c c' : ReturnClause} (hx : ¬ HasClause x)
    (h : x ++ (c.text ++ t) = y ++ (c'.text ++ r)) : ∃ z, t = z ++ r := by
  obtain ⟨w, rfl, hw⟩ := reads_signature.exists_append_of_not_holds hx h
  by_cases hne : w = []
  · subst hne
    exact ⟨[], (ReturnClause.text_append_inj hw).2⟩
  · obtain ⟨z, rfl⟩ := ReturnClause.no_overlap hne hw
    rw [List.append_assoc] at hw
    exact ⟨z ++ c'.text, by rw [List.append_cancel_left hw, List.append_assoc]⟩

/-- A header is given up for want of a terminator only if there is none behind any clause: to try a
later clause would only shorten the text that is searched. -/
theorem complete_eq_noTerminator_iff {o : Opening} {rest : Bytes} {offset : Nat} :
    Header.complete ⟨o.name, rest⟩ offset = .error .noTerminator ↔
      HasClause rest ∧ ∀ before, ∀ c : ReturnClause, ∀ behind,
        rest = before ++ c.text ++ behind → ¬ HasClosing o.name behind := by
  unfold Header.complete
  cases hfirst : firstAt? Signature.read? 0 rest with
  | none =>
    have hfree := reads_signature.firstAt?_eq_none_iff_not_holds.mp hfirst
    simp [hfree]
  | some found =>
    obtain ⟨k, signature⟩ := found
    obtain ⟨params, c, t, rfl, rfl, hparams, hread⟩ := reads_signature.exists_of_firstAt? hfirst
    rw [signature_of_clause] at hread
    cases hread
    have hholds : HasClause (params ++ (c.text ++ t)) := ⟨params, c, t, by simp⟩
    -- the terminator is searched behind the white space, where no closing can have started
    have hclosing : HasClosing o.name t ↔ HasClosing o.name (skipSpace t) := by
      obtain ⟨gap, hgap, ht⟩ := exists_gap_append_skipSpace t
      rw [← hasClosing_gap_append_iff hgap (skipSpace t), ← ht]
    have hnone := (reads_terminator o.name_word).firstAt?_eq_none_iff_not_holds
      (s := skipSpace t)
    simp only
    cases hterm : firstAt? (terminator? (foldWord o.name)) 0 (skipSpace t) with
    | none =>
      have hfree : ¬ HasClosing o.name t := fun hc => hnone.mp hterm (hclosing.mp hc)
      simp only [true_iff]
      refine ⟨hholds, ?_⟩
      rintro before c' behind hrest ⟨u, e, v, rfl⟩
      rw [List.append_assoc] at hrest
      -- a closing behind another clause is also behind the first one
      obtain ⟨z, rfl⟩ := exists_append_of_clause hparams hrest
      exact hfree ⟨z ++ u, e, v, by simp⟩
    | some found =>
      simp only [reduceCtorEq, false_iff]
      rintro ⟨-, hall⟩
      have hfree := hall params c t (by rw [List.append_assoc])
      rw [hclosing, ← hnone, hterm] at hfree
      cases hfree

/-- What a fault says about the name of a header and the text behind its parenthesis. -/
def Fault.Describes (name rest : Bytes) : Fault → Prop
  | .noSignature => ¬ HasClause rest
  | .noTerminator => HasClause rest ∧ ∀ before, ∀ c : ReturnClause, ∀ behind,
      rest = before ++ c.text ++ behind → ¬ HasClosing name behind

theorem complete_eq_error_iff {o : Opening} {rest : Bytes} {offset : Nat} {fault : Fault} :
    Header.complete ⟨o.name, rest⟩ offset = .error fault ↔ fault.Describes o.name rest := by
  cases fault with
  | noSignature => exact Header.complete_eq_noSignature_iff
  | noTerminator => exact complete_eq_noTerminator_iff

/-- A header that is given up begins no definition. -/
theorem Fault.Describes.no_definition {o : Opening} {rest : Bytes} {fault : Fault}
    (hfault : fault.Describes o.name rest) (d : Definition) (behind : Bytes) :
    o.text ++ rest ≠ d.text ++ behind := by
  intro h
  rw [Definition.text_append] at h
  obtain ⟨hname, rfl⟩ := Opening.text_append_inj h
  rw [hname] at hfault
  cases fault with
  | noSignature => exact hfault ⟨d.params, d.clause, _, by rw [List.append_assoc]⟩
  | noTerminator =>
    refine hfault.2 d.params d.clause _ (by rw [List.append_assoc]) ?_
    exact ⟨d.gap ++ d.body, d.closing, behind, by simp⟩

/-! ## The preferred way to cut a text -/

/-- Two ways to cut one text agree on the name, and on the text behind the parenthesis. -/
theorem Definition.opening_eq {d d' : Definition} {r r' : Bytes}
    (h : d.text ++ r = d'.text ++ r') :
    d.opening.name = d'.opening.name ∧
      d.params ++ (d.clause.text ++ (d.gap ++ (d.body ++ (d.closing.text ++ r)))) =
        d'.params ++ (d'.clause.text ++ (d'.gap ++ (d'.body ++ (d'.closing.text ++ r')))) := by
  rw [Definition.text_append, Definition.text_append] at h
  exact Opening.text_append_inj h

/-- With parameters of one length the clauses are the same. -/
theorem Definition.clause_eq {d d' : Definition} {r r' : Bytes}
    (h : d.text ++ r = d'.text ++ r') (hlength : d.params.length = d'.params.length) :
    d.params = d'.params ∧ d.clause.returnType = d'.clause.returnType ∧
      d.gap ++ (d.body ++ (d.closing.text ++ r)) =
        d'.gap ++ (d'.body ++ (d'.closing.text ++ r')) := by
  obtain ⟨hparams, hclause⟩ := List.append_inj (Definition.opening_eq h).2 hlength
  obtain ⟨htype, hgap⟩ := ReturnClause.text_append_inj hclause
  exact ⟨hparams, htype, hgap⟩

theorem Closing.exists_of_name_eq {name name' : Bytes} (c : Closing name') (h : name = name') :
    ∃ e : Closing name, e.text = c.text := by
  subst h
  exact ⟨c, rfl⟩

/-- A tight definition is preferred to every other way to cut the text. -/
theorem Definition.Tight.preferred {d d' : Definition} {r r' : Bytes} (hd : d.Tight)
    (h : d.text ++ r = d'.text ++ r') : d.Preferred d' := by
  obtain ⟨hname, hrest⟩ := Definition.opening_eq h
  obtain ⟨w, hw, -⟩ := reads_signature.exists_append_of_not_holds hd.params_free hrest
  have hlength : d'.params.length = d.params.length + w.length := by
    rw [hw, List.length_append]
  by_cases hshort : d.params.length = d'.params.length
  · refine Or.inr ⟨hshort, ?_⟩
    obtain ⟨-, -, hgap⟩ := Definition.clause_eq h hshort
    -- behind `is` the tight definition takes all the white space
    have hskip : skipSpace (d.gap ++ (d.body ++ (d.closing.text ++ r))) =
        d.body ++ (d.closing.text ++ r) := by
      rw [skipSpace_gap_append d.gap_blank]
      exact (skipSpace_body_append_iff d.closing r).mpr hd.body_front
    rw [hgap, skipSpace_gap_append d'.gap_blank] at hskip
    have hle := (List.dropWhile_suffix isSpaceByte
      (l := d'.body ++ (d'.closing.text ++ r'))).length_le
    have hgaps := congrArg List.length hgap
    rw [skipSpace] at hskip
    rw [hskip] at hle
    simp only [List.length_append] at hgaps hle
    -- so the other one takes as much, or gives some of it to its body
    by_cases hsame : d.gap.length = d'.gap.length
    · refine Or.inr ⟨hsame, ?_⟩
      have hbody := (List.append_inj hgap hsame).2
      obtain ⟨e, he⟩ := d'.closing.exists_of_name_eq hname
      rw [← he] at hbody
      obtain ⟨v, hv, -⟩ :=
        (reads_terminator d.opening.name_word).exists_append_of_not_holds hd.body_free hbody
      rw [hv, List.length_append]
      omega
    · left
      omega
  · left
    omega

/-- Two ways to cut one text, each preferred to the other, give the same unit and leave the same
text behind. -/
theorem Definition.unit_eq_of_preferred {d d' : Definition} {r r' : Bytes}
    (h : d.text ++ r = d'.text ++ r') (hd : d.Preferred d') (hd' : d'.Preferred d)
    (offset : Nat) : d.unit offset = d'.unit offset ∧ r = r' := by
  unfold Definition.Preferred at hd hd'
  obtain ⟨hname, -⟩ := Definition.opening_eq h
  obtain ⟨hparams, htype, hgap⟩ := Definition.clause_eq h (by omega)
  obtain ⟨-, hbehind⟩ := List.append_inj hgap (by omega)
  obtain ⟨hbody, hclosing⟩ := List.append_inj hbehind (by omega)
  have hrest : r = r' := by
    obtain ⟨e, he⟩ := d'.closing.exists_of_name_eq hname
    rw [← he] at hclosing
    exact Closing.text_append_inj d.opening.name_word hclosing
  exact ⟨by simp [Definition.unit, hname, hparams, htype, hbody], hrest⟩

end AdaToC.Ada
