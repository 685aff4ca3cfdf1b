import AdaToC.Proofs.Ada.Extraction

/-!
# Every header is accounted for once

A scan goes on behind the definition it found, but only one byte further after a header that begins
none. So a header may be the start of a unit, be reported, or stand inside the definition of a unit,
where it is neither. The main result says that each header falls under exactly one of the three, and
that a report gives the right reason.
-/

namespace AdaToC.Ada

/-- An opening stands at a place of the source. -/
def OpensAt (source : Bytes) (place : Nat) : Prop :=
  ∃ o : Opening, ∃ rest, source.drop place = o.text ++ rest

/-- The definition that a unit was cut from reaches up to `stop`, the place behind `end NAME;`. -/
def Spans (source : Bytes) (u : FunctionUnit) (stop : Nat) : Prop :=
  ∃ d : Definition, ∃ rest, Takes (source.drop u.offset) d rest ∧ d.unit u.offset = u ∧
    stop = u.offset + d.text.length

/-- A place lies strictly inside the definition that a unit was cut from. -/
def Inside (source : Bytes) (u : FunctionUnit) (place : Nat) : Prop :=
  ∃ stop, Spans source u stop ∧ u.offset < place ∧ place < stop

theorem opensAt_iff {source : Bytes} {place : Nat} :
    OpensAt source place ↔ (Header.read? (source.drop place)).isSome := by
  rw [Option.isSome_iff_exists]
  constructor
  · rintro ⟨o, rest, ho⟩
    exact ⟨⟨o.name, rest⟩, Header.read?_eq_some_iff.mpr ⟨o, rfl, ho⟩⟩
  · rintro ⟨header, hread⟩
    obtain ⟨o, -, ho⟩ := Header.read?_eq_some_iff.mp hread
    exact ⟨o, header.rest, ho⟩

/-! ## The span of a unit -/

theorem spans_of_takes {source rest : Bytes} {offset : Nat} {d : Definition}
    (h : Takes (source.drop offset) d rest) :
    Spans source (d.unit offset) (offset + d.text.length) :=
  ⟨d, rest, h, rfl, rfl⟩

/-- All ways to see a unit in the source agree on where it ends. -/
theorem Spans.eq_of_takes {source rest : Bytes} {offset stop : Nat} {d : Definition}
    (h : Takes (source.drop offset) d rest) (hspan : Spans source (d.unit offset) stop) :
    stop = offset + d.text.length := by
  obtain ⟨d', rest', htakes, -, rfl⟩ := hspan
  have hd' : Takes (source.drop offset) d' rest' := htakes
  obtain ⟨-, htext⟩ := h.unique hd' offset
  rw [htext]
  rfl

/-! ## Where the findings of a scan stand -/

def Finding.offset : Finding → Nat
  | .unit u => u.offset
  | .skipped s => s.offset

theorem Scanned.offset_le {offset : Nat} {s : Bytes} {fs : List Finding}
    (h : Scanned offset s fs) : ∀ f ∈ fs, offset ≤ f.offset := by
  induction h with
  | done offset => simp
  | pass _ _ ih =>
    intro f hf
    have := ih f hf
    omega
  | @unit offset d rest fs _ _ ih =>
    intro f hf
    rcases List.mem_cons.mp hf with rfl | hf
    · exact Nat.le_refl offset
    · have := ih f hf
      omega
  | @skipped offset b rest behind o fault fs _ _ _ ih =>
    intro f hf
    rcases List.mem_cons.mp hf with rfl | hf
    · exact Nat.le_refl offset
    · have := ih f hf
      omega

/-- Every unit of a scan has its span. -/
theorem Scanned.takes_of_mem {source s : Bytes} {offset : Nat} {fs : List Finding}
    (h : Scanned offset s fs) (hs : source.drop offset = s) :
    ∀ u, .unit u ∈ fs → ∃ d : Definition, ∃ rest,
      Takes (source.drop u.offset) d rest ∧ u = d.unit u.offset := by
  induction h with
  | done offset => simp
  | pass _ _ ih => exact ih (drop_succ_of_drop_eq_cons hs)
  | @unit offset d rest fs hd _ ih =>
    intro u hu
    rcases List.mem_cons.mp hu with heq | hu
    · cases heq
      exact ⟨d, rest, takes_of_tight hd hs, rfl⟩
    · exact ih (drop_add_of_drop_eq_append hs) u hu
  | skipped _ _ _ ih =>
    intro u hu
    rcases List.mem_cons.mp hu with heq | hu
    · cases heq
    · exact ih (drop_succ_of_drop_eq_cons hs) u hu

/-- Every report stands at an opening, and its fault describes what is behind. -/
theorem Scanned.describes_of_mem {source s : Bytes} {offset : Nat} {fs : List Finding}
    (h : Scanned offset s fs) (hs : source.drop offset = s) :
    ∀ x, .skipped x ∈ fs → ∃ o : Opening, ∃ rest,
      source.drop x.offset = o.text ++ rest ∧ o.name = x.name ∧
        x.fault.Describes o.name rest := by
  induction h with
  | done offset => simp
  | pass _ _ ih => exact ih (drop_succ_of_drop_eq_cons hs)
  | unit _ _ ih =>
    intro x hx
    rcases List.mem_cons.mp hx with heq | hx
    · cases heq
    · exact ih (drop_add_of_drop_eq_append hs) x hx
  | @skipped offset b rest behind o fault fs ho hfault _ ih =>
    intro x hx
    rcases List.mem_cons.mp hx with heq | hx
    · cases heq
      exact ⟨o, behind, hs.trans ho, rfl, hfault⟩
    · exact ih (drop_succ_of_drop_eq_cons hs) x hx

theorem Scanned.pairwise_offset {offset : Nat} {s : Bytes} {fs : List Finding}
    (h : Scanned offset s fs) : fs.Pairwise (fun f g => f.offset < g.offset) := by
  induction h with
  | done offset => exact .nil
  | pass _ _ ih => exact ih
  | @unit offset d rest fs _ hrest ih =>
    have hpos := List.length_pos_iff.mpr d.text_ne_nil
    refine List.pairwise_cons.mpr ⟨?_, ih⟩
    intro f hf
    have hle := hrest.offset_le f hf
    change offset < f.offset
    omega
  | @skipped offset b rest behind o fault fs _ _ hrest ih =>
    refine List.pairwise_cons.mpr ⟨?_, ih⟩
    intro f hf
    exact hrest.offset_le f hf

/-- No report stands in the span of a unit, its start included. -/
theorem Scanned.skipped_outside {source s : Bytes} {offset : Nat} {fs : List Finding}
    (h : Scanned offset s fs) (hs : source.drop offset = s) :
    ∀ x u stop, .skipped x ∈ fs → .unit u ∈ fs → Spans source u stop →
      ¬ (u.offset ≤ x.offset ∧ x.offset < stop) := by
  induction h with
  | done offset => simp
  | pass _ _ ih => exact ih (drop_succ_of_drop_eq_cons hs)
  | @unit offset d rest fs hd hrest ih =>
    intro x u stop hx hu hspan
    rcases List.mem_cons.mp hx with heq | hx
    · cases heq
    · rcases List.mem_cons.mp hu with heq | hu
      · cases heq
        -- the scan went on behind the span
        have hstop := Spans.eq_of_takes (takes_of_tight hd hs) hspan
        have hle : offset + d.text.length ≤ x.offset := hrest.offset_le _ hx
        omega
      · exact ih (drop_add_of_drop_eq_append hs) x u stop hx hu hspan
  | @skipped offset b rest behind o fault fs _ _ hrest ih =>
    intro x u stop hx hu hspan
    rcases List.mem_cons.mp hu with heq | hu
    · cases heq
    · rcases List.mem_cons.mp hx with heq | hx
      · cases heq
        have hle : offset + 1 ≤ u.offset := hrest.offset_le _ hu
        change ¬ (u.offset ≤ offset ∧ offset < stop)
        omega
      · exact ih (drop_succ_of_drop_eq_cons hs) x u stop hx hu hspan

/-! ## Counting what accounts for a place -/

open Classical in
/-- How often the findings account for a place: as the start of a unit, as a report, as a place
inside a unit. -/
noncomputable def tally (source : Bytes) (place : Nat) (fs : List Finding) : Nat :=
  (fs.filterMap Finding.unit?).countP (fun u => u.offset = place) +
  (fs.filterMap Finding.skipped?).countP (fun x => x.offset = place) +
  (fs.filterMap Finding.unit?).countP (fun u => Inside source u place)

open Classical in
theorem tally_unit_cons (source : Bytes) (place : Nat) (u : FunctionUnit) (fs : List Finding) :
    tally source place (.unit u :: fs) = tally source place fs +
      (if u.offset = place then 1 else 0) + (if Inside source u place then 1 else 0) := by
  simp only [tally, List.filterMap_cons, Finding.unit?, Finding.skipped?, List.countP_cons,
    decide_eq_true_eq]
  omega

theorem tally_skipped_cons (source : Bytes) (place : Nat) (x : Skipped) (fs : List Finding) :
    tally source place (.skipped x :: fs) = tally source place fs +
      (if x.offset = place then 1 else 0) := by
  simp only [tally, List.filterMap_cons, Finding.unit?, Finding.skipped?, List.countP_cons,
    decide_eq_true_eq]
  omega

/-- Findings behind a place do not account for it. -/
theorem tally_eq_zero_of_lt {source : Bytes} {place : Nat} {fs : List Finding}
    (h : ∀ f ∈ fs, place < f.offset) : tally source place fs = 0 := by
  induction fs with
  | nil => rfl
  | cons f fs ih =>
    have hfs := ih fun g hg => h g (List.mem_cons_of_mem _ hg)
    have hf := h f List.mem_cons_self
    cases f with
    | unit u =>
      have hlt : place < u.offset := hf
      have hinside : ¬ Inside source u place := by
        rintro ⟨stop, -, hgt, -⟩
        omega
      rw [tally_unit_cons, hfs, if_neg (by omega), if_neg hinside]
    | skipped x =>
      have hlt : place < x.offset := hf
      rw [tally_skipped_cons, hfs, if_neg (by omega)]

/-- A scan accounts for no place before its start. -/
theorem Scanned.tally_eq_zero {source s : Bytes} {offset place : Nat} {fs : List Finding}
    (h : Scanned offset s fs) (hlt : place < offset) : tally source place fs = 0 :=
  tally_eq_zero_of_lt fun f hf => Nat.lt_of_lt_of_le hlt (h.offset_le f hf)

/-- From the place where a scan starts, every opening is accounted for once. -/
theorem Scanned.tally_eq_one {source s : Bytes} {offset place : Nat} {fs : List Finding}
    (h : Scanned offset s fs) (hs : source.drop offset = s) (hle : offset ≤ place)
    (hopens : OpensAt source place) : tally source place fs = 1 := by
  induction h with
  | done offset =>
    -- behind the end of the text stands no opening
    obtain ⟨o, rest, ho⟩ := hopens
    rw [drop_eq_nil_of_le hs hle] at ho
    exact absurd (List.append_eq_nil_iff.mp ho.symm).1 o.text_ne_nil
  | @pass offset b rest fs hnone _ ih =>
    by_cases heq : place = offset
    · -- the place was passed over because no opening stands there
      obtain ⟨o, rest', ho⟩ := hopens
      rw [heq, hs] at ho
      exact absurd ho (hnone o rest')
    · exact ih (drop_succ_of_drop_eq_cons hs) (by omega)
  | @unit offset d rest fs hd hrest ih =>
    have htakes : Takes (source.drop offset) d rest := takes_of_tight hd hs
    have hinside : Inside source (d.unit offset) place ↔
        offset < place ∧ place < offset + d.text.length := by
      constructor
      · rintro ⟨stop, hspan, hgt, hlt⟩
        rw [Spans.eq_of_takes htakes hspan] at hlt
        exact ⟨hgt, hlt⟩
      · rintro ⟨hgt, hlt⟩
        exact ⟨_, spans_of_takes htakes, hgt, hlt⟩
    have hoffset : (d.unit offset).offset = offset := rfl
    rw [tally_unit_cons, hoffset]
    simp only [hinside]
    by_cases hbehind : offset + d.text.length ≤ place
    · have hpos := List.length_pos_iff.mpr d.text_ne_nil
      rw [ih (drop_add_of_drop_eq_append hs) hbehind, if_neg (by omega), if_neg (by omega)]
    · -- the findings behind are too far, so the unit alone accounts for the place
      rw [hrest.tally_eq_zero (by omega)]
      by_cases heq : offset = place
      · rw [if_pos heq, if_neg (by omega)]
      · rw [if_neg heq, if_pos (by omega)]
  | @skipped offset b rest behind o fault fs ho hfault hrest ih =>
    rw [tally_skipped_cons]
    by_cases heq : offset = place
    · rw [hrest.tally_eq_zero (by omega), if_pos heq]
    · rw [ih (drop_succ_of_drop_eq_cons hs) (by omega), if_neg heq]

/-! ## Reports and their reasons -/

/-- The two reasons that can be given for a header never read alike. -/
theorem Skipped.message_eq_iff (x : Skipped) :
    (x.message = bytes "function " ++ x.name ++
        bytes " skipped: missing \"return TYPE is\" after parameter list" ↔
      x.fault = .noSignature) ∧
    (x.message = bytes "function " ++ x.name ++ bytes " skipped: missing \"end " ++ x.name ++
        bytes ";\"" ↔
      x.fault = .noTerminator) := by
  have hsignature : bytes " skipped: missing \"return TYPE is\" after parameter list" =
      bytes " skipped: " ++ bytes "missing \"return TYPE is\" after parameter list" := by decide
  have hterminator : bytes " skipped: missing \"end " =
      bytes " skipped: " ++ bytes "missing \"end " := by decide
  have hdiffer : bytes "missing \"return TYPE is\" after parameter list" ≠
      bytes "missing \"end " ++ (x.name ++ bytes ";\"") := by
    intro h
    have hletter := congrArg (List.take 10) h
    rw [List.take_append_of_le_length (by decide)] at hletter
    exact absurd hletter (by decide)
  rw [hsignature, hterminator]
  cases hfault : x.fault with
  | noSignature => simp [Skipped.message, hfault, hdiffer]
  | noTerminator => simp [Skipped.message, hfault, hdiffer.symm]

theorem mem_units_iff {source : Bytes} {u : FunctionUnit} :
    u ∈ units source ↔ .unit u ∈ scan source := by
  constructor
  · intro h
    obtain ⟨f, hf, hu⟩ := List.mem_filterMap.mp h
    cases f with
    | unit u' => cases hu; exact hf
    | skipped x => cases hu
  · intro h
    exact List.mem_filterMap.mpr ⟨_, h, rfl⟩

theorem mem_skipped_iff {source : Bytes} {x : Skipped} :
    x ∈ skipped source ↔ .skipped x ∈ scan source := by
  constructor
  · intro h
    obtain ⟨f, hf, hx⟩ := List.mem_filterMap.mp h
    cases f with
    | unit u => cases hx
    | skipped x' => cases hx; exact hf
  · intro h
    exact List.mem_filterMap.mpr ⟨_, h, rfl⟩

open Classical in
/-- Every header of a text is the start of one unit, or is reported once, or stands inside the
definition of one unit, and only one of the three. The reports come in the order of the text, none
of them from inside a definition. A report blames the signature exactly if no closing parenthesis
behind the header starts one; it blames the terminator exactly if some do, but behind none of these
signatures the header's name is closed. -/
theorem openings_accounted_once (source : Bytes) :
    (∀ place, OpensAt source place →
      (units source).countP (fun u => u.offset = place) +
      (skipped source).countP (fun x => x.offset = place) +
      (units source).countP (fun u => Inside source u place) = 1) ∧
    (∀ u ∈ units source, ∃ stop, Spans source u stop ∧
      ∀ stop', Spans source u stop' → stop' = stop) ∧
    ((skipped source).map (·.offset)).Pairwise (· < ·) ∧
    (∀ x ∈ skipped source, ∀ u ∈ units source, ∀ stop, Spans source u stop →
      ¬ (u.offset ≤ x.offset ∧ x.offset < stop)) ∧
    (∀ x ∈ skipped source, ∃ o : Opening, ∃ rest,
      source.drop x.offset = o.text ++ rest ∧ o.name = x.name ∧
      (x.message = bytes "function " ++ x.name ++
          bytes " skipped: missing \"return TYPE is\" after parameter list" ↔
        ¬ HasClause rest) ∧
      (x.message = bytes "function " ++ x.name ++ bytes " skipped: missing \"end " ++ x.name ++
          bytes ";\"" ↔
        HasClause rest ∧ ∀ before, ∀ c : ReturnClause, ∀ behind,
          rest = before ++ c.text ++ behind → ¬ HasClosing x.name behind)) := by
  have hscan : Scanned 0 source (scan source) := scanned_scanFrom 0 source
  refine ⟨?_, ?_, ?_, ?_, ?_⟩
  · intro place hopens
    exact hscan.tally_eq_one rfl (Nat.zero_le place) hopens
  · intro u hu
    obtain ⟨d, rest, htakes, hunit⟩ := hscan.takes_of_mem rfl u (mem_units_iff.mp hu)
    refine ⟨u.offset + d.text.length, ⟨d, rest, htakes, hunit.symm, rfl⟩, ?_⟩
    intro stop' hspan
    rw [hunit] at hspan
    exact Spans.eq_of_takes htakes hspan
  · refine List.pairwise_map.mpr (hscan.pairwise_offset.filterMap Finding.skipped? ?_)
    intro f g hlt x hx y hy
    cases f with
    | unit u => cases hx
    | skipped x' =>
      cases g with
      | unit u => cases hy
      | skipped y' =>
        cases hx
        cases hy
        exact hlt
  · intro x hx u hu stop hspan
    exact hscan.skipped_outside rfl x u stop (mem_skipped_iff.mp hx) (mem_units_iff.mp hu) hspan
  · intro x hx
    obtain ⟨o, rest, ho, hname, hfault⟩ := hscan.describes_of_mem rfl x (mem_skipped_iff.mp hx)
    obtain ⟨hsignature, hterminator⟩ := x.message_eq_iff
    refine ⟨o, rest, ho, hname, ?_, ?_⟩
    · rw [hsignature]
      cases hx' : x.fault with
      | noSignature => simpa [hx', Fault.Describes] using hfault
      | noTerminator =>
        rw [hx'] at hfault
        simp [hfault.1]
    · rw [hterminator, ← hname]
      cases hx' : x.fault with
      | noSignature =>
        rw [hx'] at hfault
        have hfree : ¬ HasClause rest := hfault
        simp [hfree]
      | noTerminator =>
        rw [hx'] at hfault
        exact ⟨fun _ => hfault, fun _ => rfl⟩

open Classical in
/-- A header that is reported, one that gives a unit and one inside that unit. -/
theorem openings_accounted_once_nested :
    let source := bytes "function F( function G(X) return T is function H( end G;"
    OpensAt source 0 ∧ OpensAt source 12 ∧ OpensAt source 38 ∧
      (units source).map (·.offset) = [12] ∧ (skipped source).map (·.offset) = [0] ∧
      (∀ place ∈ [0, 12, 38],
        (units source).countP (fun u => u.offset = place) +
        (skipped source).countP (fun x => x.offset = place) +
        (units source).countP (fun u => Inside source u place) = 1) ∧
      ∃ x ∈ skipped source, ∃ u ∈ units source, ∃ stop, Spans source u stop ∧
        ¬ (u.offset ≤ x.offset ∧ x.offset < stop) ∧
        ∃ o : Opening, ∃ rest, source.drop x.offset = o.text ++ rest ∧ HasClause rest := by
  intro source
  have hfirst : OpensAt source 0 := opensAt_iff.mpr (by decide +kernel)
  have hsecond : OpensAt source 12 := opensAt_iff.mpr (by decide +kernel)
  have hthird : OpensAt source 38 := opensAt_iff.mpr (by decide +kernel)
  obtain ⟨honce, hspan, -, houtside, hreason⟩ := openings_accounted_once source
  refine ⟨hfirst, hsecond, hthird, by decide +kernel, by decide +kernel, ?_, ?_⟩
  · intro place hplace
    refine honce place ?_
    simp only [List.mem_cons, List.not_mem_nil, or_false] at hplace
    rcases hplace with rfl | rfl | rfl
    · exact hfirst
    · exact hsecond
    · exact hthird
  · obtain ⟨x, hx⟩ : ∃ x, x ∈ skipped source :=
      List.exists_mem_of_ne_nil _ (by decide +kernel)
    obtain ⟨u, hu⟩ : ∃ u, u ∈ units source := List.exists_mem_of_ne_nil _ (by decide +kernel)
    obtain ⟨stop, hstop, -⟩ := hspan u hu
    have hmessage : ∀ y ∈ skipped source, y.message = bytes "function " ++ y.name ++
        bytes " skipped: missing \"end " ++ y.name ++ bytes ";\"" := by decide +kernel
    obtain ⟨o, rest, hrest, -, -, hterminator⟩ := hreason x hx
    exact ⟨x, hx, u, hu, stop, hstop, houtside x hx u hu stop hstop, o, rest, hrest,
      (hterminator.mp (hmessage x hx)).1⟩

end AdaToC.Ada
