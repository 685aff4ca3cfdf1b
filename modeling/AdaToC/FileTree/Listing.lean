import AdaToC.Path

/-!
# Listings

A listing has the files and directories below a root, each under the names that lead to it. A
well-formed listing is in the order of these names, compared name by name and byte by byte, so that
a directory comes right before what it holds; it has only names that a file can have, and everything
in it stands in a directory. Putting in an entry where there is a place for it, and taking one out
with all below it, keeps a listing well-formed.
-/

namespace AdaToC

/-- What stands at a place of the tree. -/
inductive Entry where
  | file (data : Bytes)
  | directory
  deriving DecidableEq, Repr

/-- A place in the tree: the names from the root down. -/
abbrev Location := List Bytes

namespace Location

/-- A location as an absolute path. -/
def path (l : Location) : Bytes :=
  Path.slash :: Bytes.joinWith [Path.slash] l

/-- The location that a path names from another one. No file is looked at. -/
def follow (start : Location) (p : Bytes) : Location :=
  Path.reduce true start.reverse (p.split Path.slash)

/-- The location that a path names from the root. -/
def ofPath (p : Bytes) : Location :=
  follow [] p

/-- Every name on the way to a location can be that of a file. -/
def Proper (l : Location) : Prop :=
  ∀ n ∈ l, Path.IsName n ∧ Path.slash ∉ n ∧ 0 ∉ n

instance (l : Location) : Decidable l.Proper :=
  inferInstanceAs (Decidable (∀ n ∈ l, Path.IsName n ∧ Path.slash ∉ n ∧ 0 ∉ n))

end Location

/-- Files and directories, each with its location. The root is not listed. -/
abbrev Listing := List (Location × Entry)

namespace Listing

/-- What stands at a location. The root is a directory. -/
def entryAt (es : Listing) (l : Location) : Option Entry :=
  if l.isEmpty then some .directory else es.lookup l

/-- The listing with an entry put in its place or replaced. -/
def put (l : Location) (e : Entry) : Listing → Listing
  | [] => [(l, e)]
  | (l', e') :: rest =>
    if l = l' then (l, e) :: rest
    else if l < l' then (l, e) :: (l', e') :: rest
    else (l', e') :: put l e rest

/-- The listing without a location and everything below it. -/
def without (es : Listing) (l : Location) : Listing :=
  es.filter fun x => !l.isPrefixOf x.1

/-- The listing is in order, and all that stands in it stands in a directory under a proper name. -/
structure WellFormed (es : Listing) : Prop where
  ordered : es.Pairwise fun x y => x.1 < y.1
  ne_nil : ∀ x ∈ es, x.1 ≠ []
  proper : ∀ x ∈ es, x.1.Proper
  parent : ∀ x ∈ es, es.entryAt x.1.dropLast = some .directory

instance (es : Listing) : Decidable es.WellFormed :=
  decidable_of_iff (es.Pairwise (fun x y => x.1 < y.1) ∧ (∀ x ∈ es, x.1 ≠ []) ∧
      (∀ x ∈ es, x.1.Proper) ∧ ∀ x ∈ es, es.entryAt x.1.dropLast = some .directory)
    ⟨fun h => ⟨h.1, h.2.1, h.2.2.1, h.2.2.2⟩, fun h => ⟨h.ordered, h.ne_nil, h.proper, h.parent⟩⟩

/-- There is a place for an entry: a directory to hold it, and no other directory that it would take
the place of. -/
structure Admits (es : Listing) (l : Location) (e : Entry) : Prop where
  ne_nil : l ≠ []
  proper : l.Proper
  parent : es.entryAt l.dropLast = some .directory
  directory : es.entryAt l = some .directory → e = .directory

instance (es : Listing) (l : Location) (e : Entry) : Decidable (es.Admits l e) :=
  decidable_of_iff (l ≠ [] ∧ l.Proper ∧ es.entryAt l.dropLast = some .directory ∧
      (es.entryAt l = some .directory → e = .directory))
    ⟨fun h => ⟨h.1, h.2.1, h.2.2.1, h.2.2.2⟩, fun h => ⟨h.ne_nil, h.proper, h.parent, h.directory⟩⟩

variable {es : Listing} {l l' : Location} {e : Entry}

/-! ### Looking up -/

theorem entryAt_of_ne_nil (hl : l ≠ []) : es.entryAt l = es.lookup l :=
  if_neg (by simpa using hl)

theorem mem_of_entryAt (hl : l ≠ []) (h : es.entryAt l = some e) : (l, e) ∈ es := by
  rw [entryAt_of_ne_nil hl, List.lookup_eq_some_iff] at h
  obtain ⟨front, back, rfl, -⟩ := h
  exact List.mem_append_right _ List.mem_cons_self

theorem entryAt_of_mem (ordered : es.Pairwise fun x y => x.1 < y.1) (hl : l ≠ [])
    (h : (l, e) ∈ es) : es.entryAt l = some e := by
  obtain ⟨front, back, rfl⟩ := List.append_of_mem h
  rw [entryAt_of_ne_nil hl, List.lookup_eq_some_iff]
  refine ⟨front, back, rfl, fun x hx => ?_⟩
  have hlt : x.1 < l := (List.pairwise_append.mp ordered).2.2 x hx (l, e) List.mem_cons_self
  rw [bne_iff_ne]
  rintro rfl
  exact List.lt_irrefl _ hlt

/-! ### Putting in an entry -/

theorem lookup_put (l : Location) (e : Entry) (es : Listing) (l' : Location) :
    (put l e es).lookup l' = if l' = l then some e else es.lookup l' := by
  by_cases h : l' = l
  · subst h
    rw [if_pos rfl]
    induction es with
    | nil => simp [put]
    | cons x rest ih =>
      unfold put
      split
      · simp
      · next hne =>
        split
        · simp
        · rw [List.lookup_cons, beq_false_of_ne hne]
          exact ih
  · have hne : (l' == l) = false := beq_false_of_ne h
    rw [if_neg h]
    induction es with
    | nil => simp [put, List.lookup_cons, hne]
    | cons x rest ih =>
      obtain ⟨k, y⟩ := x
      unfold put
      split
      · next heq => simp [List.lookup_cons, hne, ← heq]
      · split
        · simp [List.lookup_cons, hne]
        · rw [List.lookup_cons, List.lookup_cons, ih]

theorem entryAt_put (hl : l ≠ []) (e : Entry) (l' : Location) :
    (put l e es).entryAt l' = if l' = l then some e else es.entryAt l' := by
  cases l' with
  | nil => rw [if_neg (Ne.symm hl)]; rfl
  | cons name names => exact lookup_put l e es (name :: names)

theorem mem_put {x : Location × Entry} (hx : x ∈ put l e es) : x = (l, e) ∨ x ∈ es := by
  induction es with
  | nil => exact Or.inl (List.mem_singleton.mp hx)
  | cons first rest ih =>
    unfold put at hx
    split at hx
    · rcases List.mem_cons.mp hx with rfl | hx
      · exact Or.inl rfl
      · exact Or.inr (List.mem_cons_of_mem _ hx)
    · split at hx
      · exact (List.mem_cons.mp hx)
      · rcases List.mem_cons.mp hx with rfl | hx
        · exact Or.inr List.mem_cons_self
        · exact (ih hx).imp_right (List.mem_cons_of_mem _)

theorem pairwise_put (l : Location) (e : Entry) (h : es.Pairwise fun x y => x.1 < y.1) :
    (put l e es).Pairwise fun x y => x.1 < y.1 := by
  induction es with
  | nil => exact List.pairwise_singleton _ _
  | cons first rest ih =>
    obtain ⟨hfirst, hrest⟩ := List.pairwise_cons.mp h
    unfold put
    split
    · next heq =>
      refine List.pairwise_cons.mpr ⟨?_, hrest⟩
      intro x hx
      rw [heq]
      exact hfirst x hx
    · next hne =>
      split
      · next hlt =>
        refine List.pairwise_cons.mpr ⟨?_, h⟩
        intro x hx
        rcases List.mem_cons.mp hx with rfl | hx
        · exact hlt
        · exact List.lt_trans hlt (hfirst x hx)
      · next hlt =>
        refine List.pairwise_cons.mpr ⟨?_, ih hrest⟩
        intro x hx
        rcases mem_put hx with rfl | hmem
        · exact Std.lt_of_le_of_ne (List.not_lt.mp hlt) (Ne.symm hne)
        · exact hfirst x hmem

/-- A directory stays one when something is put in its place. -/
theorem Admits.entryAt_put_directory (h : es.Admits l e) (hl' : es.entryAt l' = some .directory) :
    (put l e es).entryAt l' = some .directory := by
  rw [entryAt_put h.ne_nil]
  split
  · next heq =>
    subst heq
    rw [h.directory hl']
  · exact hl'

theorem WellFormed.put (h : es.WellFormed) (hadmits : es.Admits l e) :
    (Listing.put l e es).WellFormed := by
  refine ⟨pairwise_put l e h.ordered, ?_, ?_, ?_⟩
  · intro x hx
    rcases mem_put hx with rfl | hx
    · exact hadmits.ne_nil
    · exact h.ne_nil x hx
  · intro x hx
    rcases mem_put hx with rfl | hx
    · exact hadmits.proper
    · exact h.proper x hx
  · intro x hx
    apply hadmits.entryAt_put_directory
    rcases mem_put hx with rfl | hx
    · exact hadmits.parent
    · exact h.parent x hx

/-! ### Taking out an entry -/

theorem WellFormed.entryAt_without (h : es.WellFormed) (hl' : l.isPrefixOf l' = false) :
    (es.without l).entryAt l' = es.entryAt l' := by
  have hne : l' ≠ [] ∨ l' = [] := by
    cases l' with
    | nil => exact Or.inr rfl
    | cons => exact Or.inl (List.cons_ne_nil _ _)
  rcases hne with hne | rfl
  · have hordered : (es.without l).Pairwise fun x y => x.1 < y.1 := h.ordered.filter _
    cases hentry : es.entryAt l' with
    | some e =>
      refine entryAt_of_mem hordered hne (List.mem_filter.mpr ⟨mem_of_entryAt hne hentry, ?_⟩)
      simp [hl']
    | none =>
      cases hkept : (es.without l).entryAt l' with
      | none => rfl
      | some e =>
        have hmem := (List.mem_filter.mp (mem_of_entryAt hne hkept)).1
        rw [entryAt_of_mem h.ordered hne hmem] at hentry
        cases hentry
  · rfl

theorem WellFormed.without (h : es.WellFormed) (l : Location) : (es.without l).WellFormed := by
  have hmem : ∀ x ∈ es.without l, x ∈ es := fun x hx => (List.mem_filter.mp hx).1
  refine ⟨h.ordered.filter _, fun x hx => h.ne_nil x (hmem x hx),
    fun x hx => h.proper x (hmem x hx), fun x hx => ?_⟩
  rw [h.entryAt_without]
  · exact h.parent x (hmem x hx)
  · -- what stands in a directory that is taken out is taken out as well
    have hkept := (List.mem_filter.mp hx).2
    rw [Bool.eq_false_iff]
    intro hfront
    have hfront := (List.isPrefixOf_iff_prefix.mp hfront).trans (List.dropLast_prefix x.1)
    simp [List.isPrefixOf_iff_prefix.mpr hfront] at hkept

end Listing

end AdaToC
