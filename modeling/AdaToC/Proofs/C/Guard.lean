import AdaToC.Proofs.C.Symbol

/-!
# Include guards are names of C

A header name is any text: it may start with a digit, have letters of any alphabet, and need not be
well-formed. Its guard is a name of C in capital letters nevertheless. The texts with this property
are the fixed points of `includeGuard`, so making a guard of a guard changes nothing.
-/

namespace AdaToC

/-! ## Upper case -/

theorem CaseTable.upperRuns_above_capitals : ∀ run ∈ upperRuns, 0x61 ≤ run.first := by
  decide +kernel

/-- Below the small letters every character is its own upper-case form. -/
theorem upperChar_of_lt {c : Char} (hc : c.toNat < 0x61) : upperChar c = c := by
  rcases CaseTable.apply_cases CaseTable.upperRuns c with hsame | ⟨run, hrun, hcovers, -⟩
  · exact hsame
  · have hfirst := CaseTable.upperRuns_above_capitals run hrun
    simp only [CaseRun.covers, Bool.and_eq_true, decide_eq_true_eq] at hcovers
    omega

/-- A text in which no byte is stray is what its characters are written as. -/
theorem Utf8.encodeAll_scalars {s : Bytes} (h : replacementChar ∉ scalars s) :
    encodeAll (scalars s) = s := by
  have hglyph : ∀ g ∈ glyphs s, encode g.scalar = g.bytes := by
    intro g hg
    cases g with
    | char c => rfl
    | stray b => exact absurd (List.mem_map.mpr ⟨_, hg, rfl⟩) h
  rw [scalars, encodeAll, List.flatMap_map, List.flatMap_def, List.map_congr_left hglyph,
    ← List.flatMap_def, flatMap_bytes_glyphs]

namespace C

/-! ## The characters of guards -/

/-- A capital letter, a digit or the underscore of ASCII. -/
def IsGuardChar (c : Char) : Prop :=
  'A' ≤ c ∧ c ≤ 'Z' ∨ '0' ≤ c ∧ c ≤ '9' ∨ c = '_'

/-- Whether the first of some characters is a digit. -/
def startsWithDigit (cs : List Char) : Bool :=
  cs.head?.any Char.isDigit

/-- A text of capital letters, digits and underscores that does not start with a digit. Unless it is
empty, it is a name of C. -/
structure IsGuardText (s : Bytes) : Prop where
  chars : ∀ c ∈ Utf8.scalars s, IsGuardChar c
  head : startsWithDigit (Utf8.scalars s) = false

theorem isGuardChar_iff {c : Char} : IsGuardChar c ↔
    0x41 ≤ c.toNat ∧ c.toNat ≤ 0x5A ∨ 0x30 ≤ c.toNat ∧ c.toNat ≤ 0x39 ∨ c.toNat = 0x5F := by
  have hunderscore : c = '_' ↔ c.toNat = 0x5F := Char.toNat_inj.symm
  simp only [IsGuardChar, Char.le_def, UInt32.le_iff_toNat_le, hunderscore]
  rfl

theorem isGuardChar_guardChar (c : Char) : IsGuardChar (guardChar c) := by
  rw [isGuardChar_iff]
  have hrange := guardChar_range c
  omega

theorem guardChar_eq_self {c : Char} (hc : IsGuardChar c) : guardChar c = c := by
  refine if_pos ?_
  simp only [Bool.or_eq_true, Bool.and_eq_true, decide_eq_true_eq, beq_iff_eq]
  rcases hc with hletter | hdigit | hunderscore
  · exact Or.inl (Or.inl hletter)
  · exact Or.inr hdigit
  · exact Or.inl (Or.inr hunderscore)

/-- A character that is no digit does not become one. -/
theorem isDigit_guardChar {c : Char} (hc : c.isDigit = false) : (guardChar c).isDigit = false := by
  unfold guardChar
  split
  · exact hc
  · rfl

theorem scalars_includeGuard (header : Bytes) :
    Utf8.scalars (includeGuard header) =
      (if startsWithDigit header.upperScalars then ['_'] else []) ++
        header.upperScalars.map guardChar := by
  rw [includeGuard, Utf8.scalars_encodeAll]
  cases header.upperScalars <;> rfl

theorem isGuardText_includeGuard (header : Bytes) : IsGuardText (includeGuard header) where
  chars := by
    intro c hc
    rw [scalars_includeGuard, List.mem_append] at hc
    rcases hc with hlead | hname
    · split at hlead
      · rw [List.mem_singleton.mp hlead]
        exact Or.inr (Or.inr rfl)
      · cases hlead
    · obtain ⟨d, -, rfl⟩ := List.mem_map.mp hname
      exact isGuardChar_guardChar d
  head := by
    rw [scalars_includeGuard]
    cases hdigit : startsWithDigit header.upperScalars with
    | true => rfl
    | false =>
      -- nothing is put in front, so the guard starts with what the first character becomes
      cases hname : header.upperScalars with
      | nil => rfl
      | cons c cs =>
        rw [hname] at hdigit
        exact isDigit_guardChar hdigit

theorem length_scalars_includeGuard (header : Bytes) :
    (Utf8.scalars (includeGuard header)).length =
      header.upperScalars.length + if startsWithDigit header.upperScalars then 1 else 0 := by
  rw [scalars_includeGuard, List.length_append, List.length_map, Nat.add_comm]
  split <;> rfl

/-- A text that could be a guard is its own guard. -/
theorem IsGuardText.includeGuard_eq {s : Bytes} (hs : IsGuardText s) : includeGuard s = s := by
  have hupper : s.upperScalars = Utf8.scalars s := by
    refine (List.map_congr_left fun c hc => ?_).trans (List.map_id _)
    have hrange := isGuardChar_iff.mp (hs.chars c hc)
    exact upperChar_of_lt (by omega)
  have hguard : (Utf8.scalars s).map guardChar = Utf8.scalars s :=
    (List.map_congr_left fun c hc => guardChar_eq_self (hs.chars c hc)).trans (List.map_id _)
  have hscalars : Utf8.scalars (includeGuard s) = Utf8.scalars s := by
    rw [scalars_includeGuard, hupper, hs.head, hguard]
    rfl
  -- neither text has stray bytes, so they are told apart by their characters
  have hstray : ∀ {t : Bytes}, IsGuardText t → replacementChar ∉ Utf8.scalars t := by
    intro t ht hmem
    have hrange := isGuardChar_iff.mp (ht.chars _ hmem)
    rw [show replacementChar.toNat = 0xFFFD from rfl] at hrange
    omega
  rw [← Utf8.encodeAll_scalars (hstray (isGuardText_includeGuard s)), hscalars,
    Utf8.encodeAll_scalars (hstray hs)]

theorem includeGuard_eq_self_iff {s : Bytes} : includeGuard s = s ↔ IsGuardText s :=
  ⟨fun h => h ▸ isGuardText_includeGuard s, IsGuardText.includeGuard_eq⟩

theorem includeGuard_ne_nil {header : Bytes} (h : header ≠ []) : includeGuard header ≠ [] := by
  obtain ⟨b, rest, rfl⟩ := List.exists_cons_of_ne_nil h
  intro hempty
  have hlength := length_scalars_includeGuard (b :: rest)
  rw [hempty] at hlength
  simp only [Bytes.upperScalars, Utf8.scalars, Utf8.glyphs, Utf8.glyphsFrom, List.map_cons,
    List.map_nil, List.length_cons, List.length_nil] at hlength
  omega

/-! ## The guard of a header -/

theorem Naming.complete_header_ne_nil (naming : Naming) : naming.complete.header ≠ [] :=
  Bytes.orElse_ne_nil (by decide)

theorem split_trailer (front guard : Bytes) (hguard : 0x0A ∉ guard) :
    ∃ lines, Bytes.split 0x0A (front ++ trailer guard) =
      lines ++ [bytes "#endif /* " ++ guard ++ bytes " */", []] := by
  have hlines : trailer guard = bytes "\n#ifdef __cplusplus\n\x7d\n#endif\n" ++ 0x0A ::
      ((bytes "#endif /* " ++ guard ++ bytes " */") ++ 0x0A :: []) := by
    rw [trailer, show bytes "\n#ifdef __cplusplus\n\x7d\n#endif\n\n#endif /* " =
        bytes "\n#ifdef __cplusplus\n\x7d\n#endif\n" ++ 0x0A :: bytes "#endif /* " from by decide,
      show bytes " */\n" = bytes " */" ++ [0x0A] from by decide]
    simp only [List.append_assoc, List.cons_append]
  have hlast : 0x0A ∉ bytes "#endif /* " ++ guard ++ bytes " */" := by
    simp only [List.mem_append, not_or]
    exact ⟨⟨by decide, hguard⟩, by decide⟩
  rw [hlines, ← List.append_assoc, Bytes.split_append, Bytes.split_append_cons hlast]
  exact ⟨_, rfl⟩

/-- The first two lines of a header and its last one hold the guard. -/
theorem split_headerText (fns : List Function) (naming : Naming) :
    ∃ lines, Bytes.split 0x0A (headerText fns naming) =
      (bytes "#ifndef " ++ includeGuard naming.complete.header) ::
        (bytes "#define " ++ includeGuard naming.complete.header) ::
          (lines ++
            [bytes "#endif /* " ++ includeGuard naming.complete.header ++ bytes " */", []]) := by
  obtain ⟨lines, hlines⟩ := split_trailer
    (linkage ++ ((fns.map Function.prototype).map Prototype.text).flatMap (· ++ bytes ";\n"))
    (includeGuard naming.complete.header) (not_mem_includeGuard _ (by decide))
  refine ⟨lines, ?_⟩
  rw [headerText_eq, Bytes.split_append_cons (newline_not_mem_guardLine _ (by decide)),
    Bytes.split_append_cons (newline_not_mem_guardLine _ (by decide)), ← List.append_assoc, hlines]

/-- The guard that a header tests, defines and names at its end is a name of C, whatever the header
is called: it is not empty, it is made of capital letters, digits and underscores, and it does not
start with a digit. A guard has one character for each character of the name in upper case, and one
more if that starts with a digit. Texts that could be guards are not changed, and no others are
left as they are, so the guard of a guard is itself. -/
theorem header_guard_is_name :
    (∀ (fns : List Function) (naming : Naming), ∃ guard lines,
      guard = includeGuard naming.complete.header ∧ guard ≠ [] ∧ IsGuardText guard ∧
      Bytes.split 0x0A (headerText fns naming) =
        (bytes "#ifndef " ++ guard) :: (bytes "#define " ++ guard) ::
          (lines ++ [bytes "#endif /* " ++ guard ++ bytes " */", []])) ∧
    ∀ header : Bytes,
      includeGuard (includeGuard header) = includeGuard header ∧
      (includeGuard header = header ↔ IsGuardText header) ∧
      (Utf8.scalars (includeGuard header)).length =
        header.upperScalars.length + if startsWithDigit header.upperScalars then 1 else 0 := by
  constructor
  · intro fns naming
    obtain ⟨lines, hlines⟩ := split_headerText fns naming
    exact ⟨_, lines, rfl, includeGuard_ne_nil naming.complete_header_ne_nil,
      isGuardText_includeGuard _, hlines⟩
  · intro header
    exact ⟨(isGuardText_includeGuard header).includeGuard_eq, includeGuard_eq_self_iff,
      length_scalars_includeGuard header⟩

/-- A digit in front, a letter that becomes one of ASCII, one that does not, and a stray byte. -/
example : includeGuard (bytes "2ſ-é" ++ [0xFF]) = bytes "_2S___" := by decide +kernel

end C

end AdaToC
