import AdaToC.Proofs.Ada.Completion

/-!
# Extraction finds the leftmost definitions

`Scanned` retells a scan in terms of the grammar, one constructor for each thing that can happen at
a place: the text ends, no opening stands there, a tight definition stands there, or an opening that
begins none. `scanFrom_eq_iff_scanned` says that this is all a scan does.

`Leftmost` knows nothing of scanning. It says which units a search for definitions has to give: from
each place on, the least place where the text can be cut as a definition in any way, of all the ways
to cut it there the preferred one, and so on behind it. The main result is that extraction gives
these units and no others.
-/

namespace AdaToC.Ada

/-! ## One step of a scan -/

theorem scanFrom_eq_drop (passed offset : Nat) (s : Bytes) :
    scanFrom passed offset s = scanFrom 0 (offset + passed) (s.drop passed) := by
  induction s generalizing passed offset with
  | nil => cases passed <;> simp [scanFrom]
  | cons b rest ih =>
    cases passed with
    | zero => rfl
    | succ passed =>
      rw [scanFrom, ih, List.drop_succ_cons]
      congr 1
      omega

theorem Header.read?_eq_none_iff {s : Bytes} :
    Header.read? s = none ↔ ∀ (o : Opening) (r : Bytes), s ≠ o.text ++ r := by
  constructor
  · intro hnone o r hs
    have hsome : Header.read? s = some ⟨o.name, r⟩ := Header.read?_eq_some_iff.mpr ⟨o, rfl, hs⟩
    rw [hnone] at hsome
    cases hsome
  · intro h
    cases hread : Header.read? s with
    | none => rfl
    | some header =>
      obtain ⟨o, -, hs⟩ := Header.read?_eq_some_iff.mp hread
      exact absurd hs (h o header.rest)

theorem scanFrom_of_no_opening {offset : Nat} {b : UInt8} {rest : Bytes}
    (h : ∀ (o : Opening) (r : Bytes), b :: rest ≠ o.text ++ r) :
    scanFrom 0 offset (b :: rest) = scanFrom 0 (offset + 1) rest := by
  simp only [scanFrom, Header.read?_eq_none_iff.mpr h]

/-- White space is passed over: an opening starts with a word. -/
theorem scanFrom_space_cons {b : UInt8} (hb : isSpaceByte b) (offset : Nat) (rest : Bytes) :
    scanFrom 0 offset (b :: rest) = scanFrom 0 (offset + 1) rest := by
  refine scanFrom_of_no_opening ?_
  intro o r ho
  obtain ⟨c, keyword, hkeyword⟩ := List.exists_cons_of_ne_nil o.keyword_word.ne_nil
  have hspace := o.keyword_word.not_space (b := c) (by rw [hkeyword]; exact List.mem_cons_self)
  simp only [Opening.text, hkeyword, List.cons_append] at ho
  rw [(List.cons.inj ho).1, hspace] at hb
  cases hb

theorem scanFrom_of_fault {offset : Nat} {b : UInt8} {rest behind : Bytes} {o : Opening}
    {fault : Fault} (ho : b :: rest = o.text ++ behind) (hfault : fault.Describes o.name behind) :
    scanFrom 0 offset (b :: rest) =
      .skipped ⟨o.name, offset, fault⟩ :: scanFrom 0 (offset + 1) rest := by
  have hread : Header.read? (b :: rest) = some ⟨o.name, behind⟩ :=
    Header.read?_eq_some_iff.mpr ⟨o, rfl, ho⟩
  simp only [scanFrom, hread, complete_eq_error_iff.mpr hfault]

theorem Opening.text_ne_nil (o : Opening) : o.text ≠ [] := by
  simp [Opening.text]

theorem Definition.text_ne_nil (d : Definition) : d.text ≠ [] := by
  simp [Definition.text, d.opening.text_ne_nil]

theorem scanFrom_of_tight {d : Definition} (hd : d.Tight) (offset : Nat) (rest : Bytes) :
    scanFrom 0 offset (d.text ++ rest) =
      .unit (d.unit offset) :: scanFrom 0 (offset + d.text.length) rest := by
  obtain ⟨b, tail, htext⟩ := List.exists_cons_of_ne_nil d.text_ne_nil
  have hread : Header.read? (b :: (tail ++ rest)) = some ⟨d.opening.name,
      d.params ++ (d.clause.text ++ (d.gap ++ (d.body ++ (d.closing.text ++ rest))))⟩ := by
    refine Header.read?_eq_some_iff.mpr ⟨d.opening, rfl, ?_⟩
    rw [← Definition.text_append, htext, List.cons_append]
  rw [htext, List.cons_append]
  simp only [scanFrom, hread, hd.complete rest offset]
  rw [scanFrom_eq_drop]
  have hpassed : (tail ++ rest).length - rest.length = tail.length := by simp
  rw [hpassed, List.drop_left, List.length_cons]
  congr 2
  omega

/-! ## A scan in terms of the grammar -/

/-- The findings of a text that starts at an offset. -/
inductive Scanned : Nat → Bytes → List Finding → Prop where
  | done (offset : Nat) : Scanned offset [] []
  | pass {offset : Nat} {b : UInt8} {rest : Bytes} {fs : List Finding}
      (hnone : ∀ (o : Opening) (r : Bytes), b :: rest ≠ o.text ++ r)
      (hrest : Scanned (offset + 1) rest fs) :
      Scanned offset (b :: rest) fs
  | unit {offset : Nat} {d : Definition} {rest : Bytes} {fs : List Finding}
      (hd : d.Tight)
      (hrest : Scanned (offset + d.text.length) rest fs) :
      Scanned offset (d.text ++ rest) (.unit (d.unit offset) :: fs)
  | skipped {offset : Nat} {b : UInt8} {rest behind : Bytes} {o : Opening} {fault : Fault}
      {fs : List Finding}
      (ho : b :: rest = o.text ++ behind) (hfault : fault.Describes o.name behind)
      (hrest : Scanned (offset + 1) rest fs) :
      Scanned offset (b :: rest) (.skipped ⟨o.name, offset, fault⟩ :: fs)

/-- Every scan goes as `Scanned` tells. Induction on the length of the text: behind a definition it
has become shorter. -/
theorem scanned_scanFrom (offset : Nat) (s : Bytes) : Scanned offset s (scanFrom 0 offset s) := by
  induction hn : s.length using Nat.strongRecOn generalizing offset s with
  | ind n ih =>
    subst hn
    cases s with
    | nil => exact .done offset
    | cons b rest =>
      have hrest := ih rest.length (by simp) (offset + 1) rest rfl
      cases hread : Header.read? (b :: rest) with
      | none =>
        have hnone := Header.read?_eq_none_iff.mp hread
        rw [scanFrom_of_no_opening hnone]
        exact .pass hnone hrest
      | some header =>
        obtain ⟨name, behind⟩ := header
        obtain ⟨o, rfl, ho⟩ := Header.read?_eq_some_iff.mp hread
        cases hcomplete : Header.complete ⟨o.name, behind⟩ offset with
        | error fault =>
          have hfault := complete_eq_error_iff.mp hcomplete
          rw [scanFrom_of_fault ho hfault]
          exact .skipped ho hfault hrest
        | ok found =>
          obtain ⟨u, behind'⟩ := found
          obtain ⟨d, hd, hsplit, -⟩ := exists_tight_of_complete hcomplete
          have hshort : behind'.length < (b :: rest).length := by
            have hpos := List.length_pos_iff.mpr d.text_ne_nil
            rw [ho, hsplit, List.length_append]
            omega
          rw [ho, hsplit, scanFrom_of_tight hd]
          exact .unit hd (ih behind'.length hshort _ behind' rfl)

theorem Scanned.eq_scanFrom {offset : Nat} {s : Bytes} {fs : List Finding}
    (h : Scanned offset s fs) : scanFrom 0 offset s = fs := by
  induction h with
  | done offset => rfl
  | pass hnone _ ih => rw [scanFrom_of_no_opening hnone, ih]
  | unit hd _ ih => rw [scanFrom_of_tight hd, ih]
  | skipped ho hfault _ ih => rw [scanFrom_of_fault ho hfault, ih]

theorem scanFrom_eq_iff_scanned {offset : Nat} {s : Bytes} {fs : List Finding} :
    scanFrom 0 offset s = fs ↔ Scanned offset s fs :=
  ⟨fun h => h ▸ scanned_scanFrom offset s, Scanned.eq_scanFrom⟩

/-! ## The leftmost definitions -/

/-- The text can be cut, in some way, so that it starts with a definition. -/
def StartsDefinition (s : Bytes) : Prop :=
  ∃ d : Definition, ∃ rest, s = d.text ++ rest

/-- Of all definitions that the text starts with, `d` is the preferred one. -/
def Takes (s : Bytes) (d : Definition) (rest : Bytes) : Prop :=
  s = d.text ++ rest ∧ ∀ (d' : Definition) (rest' : Bytes), s = d'.text ++ rest' → d.Preferred d'

/-- The units that a search from `pos` on gives: at the least place where a definition starts the
preferred one, then those from its end on. -/
inductive Leftmost (source : Bytes) : Nat → List FunctionUnit → Prop where
  | stop {pos : Nat} (hnone : ∀ s, pos ≤ s → ¬ StartsDefinition (source.drop s)) :
      Leftmost source pos []
  | next {pos s : Nat} {d : Definition} {rest : Bytes} {us : List FunctionUnit}
      (hpos : pos ≤ s)
      (hleast : ∀ s', pos ≤ s' → s' < s → ¬ StartsDefinition (source.drop s'))
      (htakes : Takes (source.drop s) d rest)
      (hus : Leftmost source (s + d.text.length) us) :
      Leftmost source pos (d.unit s :: us)

theorem takes_of_tight {d : Definition} {s rest : Bytes} (hd : d.Tight) (hs : s = d.text ++ rest) :
    Takes s d rest :=
  ⟨hs, fun _ _ h => hd.preferred (hs.symm.trans h)⟩

theorem Takes.unique {s rest rest' : Bytes} {d d' : Definition} (h : Takes s d rest)
    (h' : Takes s d' rest') (offset : Nat) : d.unit offset = d'.unit offset ∧ d.text = d'.text := by
  have hsame := h.1.symm.trans h'.1
  obtain ⟨hunit, rfl⟩ := Definition.unit_eq_of_preferred hsame (h.2 d' rest' h'.1)
    (h'.2 d rest h.1) offset
  exact ⟨hunit, List.append_cancel_right hsame⟩

/-- A place where no definition starts makes no difference to the search. -/
theorem Leftmost.of_succ {source : Bytes} {pos : Nat} {us : List FunctionUnit}
    (h : Leftmost source (pos + 1) us) (hpos : ¬ StartsDefinition (source.drop pos)) :
    Leftmost source pos us := by
  have hextend : ∀ s, pos ≤ s → pos + 1 ≤ s ∨ s = pos := by omega
  cases h with
  | stop hnone =>
    refine .stop fun s hs => ?_
    rcases hextend s hs with hs | rfl
    · exact hnone s hs
    · exact hpos
  | next hle hleast htakes hus =>
    refine .next (by omega) (fun s hs hlt => ?_) htakes hus
    rcases hextend s hs with hs | rfl
    · exact hleast s hs hlt
    · exact hpos

theorem drop_eq_nil_of_le {source : Bytes} {offset place : Nat} (h : source.drop offset = [])
    (hle : offset ≤ place) : source.drop place = [] := by
  rw [List.drop_eq_nil_iff] at h ⊢
  omega

theorem drop_succ_of_drop_eq_cons {source rest : Bytes} {offset : Nat} {b : UInt8}
    (h : source.drop offset = b :: rest) : source.drop (offset + 1) = rest := by
  rw [← List.drop_drop, h]
  rfl

theorem drop_add_of_drop_eq_append {source text rest : Bytes} {offset : Nat}
    (h : source.drop offset = text ++ rest) : source.drop (offset + text.length) = rest := by
  rw [← List.drop_drop, h, List.drop_left]

/-- The units of a scan are the leftmost definitions, from the place where it starts. -/
theorem Scanned.leftmost {source s : Bytes} {offset : Nat} {fs : List Finding}
    (h : Scanned offset s fs) (hs : source.drop offset = s) :
    Leftmost source offset (fs.filterMap Finding.unit?) := by
  induction h with
  | done offset =>
    refine .stop ?_
    rintro s hpos ⟨d, rest, hd⟩
    rw [drop_eq_nil_of_le hs hpos] at hd
    exact d.text_ne_nil (List.append_eq_nil_iff.mp hd.symm).1
  | pass hnone _ ih =>
    -- a definition would start with an opening
    refine (ih (drop_succ_of_drop_eq_cons hs)).of_succ ?_
    rintro ⟨d, rest, hd⟩
    rw [hs, Definition.text_append] at hd
    exact hnone _ _ hd
  | @unit offset d rest fs hd _ ih =>
    exact .next (Nat.le_refl offset) (by omega) (takes_of_tight hd hs)
      (ih (drop_add_of_drop_eq_append hs))
  | skipped ho hfault _ ih =>
    -- the scan gave up after one look, but no other cut would have done better
    refine (ih (drop_succ_of_drop_eq_cons hs)).of_succ ?_
    rintro ⟨d, rest, hd⟩
    rw [hs, ho] at hd
    exact hfault.no_definition d rest hd

/-- There is one list of leftmost definitions. -/
theorem Leftmost.unique {source : Bytes} {pos : Nat} {us us' : List FunctionUnit}
    (h : Leftmost source pos us) (h' : Leftmost source pos us') : us = us' := by
  induction h generalizing us' with
  | stop hnone =>
    cases h' with
    | stop _ => rfl
    | next hpos _ htakes _ => exact absurd ⟨_, _, htakes.1⟩ (hnone _ hpos)
  | @next pos s d rest us hpos hleast htakes hus ih =>
    cases h' with
    | stop hnone => exact absurd ⟨_, _, htakes.1⟩ (hnone _ hpos)
    | @next _ s' d' rest' us' hpos' hleast' htakes' hus' =>
      -- neither place can be before the other, since both are the least
      have hsame : s = s' := by
        rcases Nat.lt_trichotomy s s' with hlt | heq | hgt
        · exact absurd ⟨_, _, htakes.1⟩ (hleast' s hpos hlt)
        · exact heq
        · exact absurd ⟨_, _, htakes'.1⟩ (hleast s' hpos' hgt)
      subst hsame
      obtain ⟨hunit, htext⟩ := htakes.unique htakes' s
      rw [← htext] at hus'
      rw [hunit, ih hus']

/-- Extraction gives the leftmost definitions, in order and without overlap, and misses none. -/
theorem units_eq_iff_leftmost (source : Bytes) (us : List FunctionUnit) :
    units source = us ↔ Leftmost source 0 us := by
  have hunits : Leftmost source 0 (units source) := (scanned_scanFrom 0 source).leftmost rfl
  exact ⟨fun h => h ▸ hunits, fun h => hunits.unique h⟩

end AdaToC.Ada
