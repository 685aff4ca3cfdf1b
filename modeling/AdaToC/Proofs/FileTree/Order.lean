import AdaToC.Proofs.Source

/-!
# The order of a tree

Entries stand in the order of their locations, which are compared name by name. What is listed of a
tree is in order as well: the entries of a directory by name, and everything below a directory by
the names that lead there. The latter is also what a walk visits that enters every directory where
it comes to it.
-/

namespace AdaToC

namespace Location

theorem lt_of_append_lt_append {l a b : Location} (h : l ++ a < l ++ b) : a < b := by
  induction l with
  | nil => exact h
  | cons name l ih =>
    rw [List.cons_append, List.cons_append, List.cons_lt_cons_iff] at h
    rcases h with hlt | ⟨-, h⟩
    · exact absurd hlt (List.lt_irrefl name)
    · exact ih h

end Location

namespace FileTree

variable {t : FileTree} {l : Location}

/-! ## What is listed is in order -/

theorem pairwise_below (t : FileTree) (l : Location) :
    (t.below l).Pairwise fun x y => x.1 < y.1 := by
  refine List.pairwise_filterMap.mpr (t.wellFormed.ordered.imp ?_)
  rintro ⟨l₁, e₁⟩ ⟨l₂, e₂⟩ hlt x hx y hy
  simp only at hlt hx hy
  split at hx
  · next name₁ rest₁ h₁ =>
    split at hy
    · next name₂ rest₂ h₂ =>
      cases hx
      cases hy
      -- both locations start with that of the directory
      rw [← List.isPrefixOf?_eq_some_iff_append_eq.mp h₁,
        ← List.isPrefixOf?_eq_some_iff_append_eq.mp h₂] at hlt
      exact Location.lt_of_append_lt_append hlt
    · cases hy
  · cases hx

theorem pairwise_children (t : FileTree) (l : Location) :
    (t.children l).Pairwise fun x y => x.1 < y.1 := by
  refine List.pairwise_filterMap.mpr ((t.pairwise_below l).imp ?_)
  rintro ⟨names₁, e₁⟩ ⟨names₂, e₂⟩ hlt x hx y hy
  simp only at hlt hx hy
  split at hx
  · split at hy
    · cases hx
      cases hy
      rcases List.cons_lt_cons_iff.mp hlt with hlt | ⟨-, hnil⟩
      · exact hlt
      · exact absurd hnil (List.lt_irrefl [])
    · cases hy
  · cases hx

theorem mem_children_iff {name : Bytes} {e : Entry} :
    (name, e) ∈ t.children l ↔ (l ++ [name], e) ∈ t.entries := by
  unfold FileTree.children
  rw [List.mem_filterMap]
  constructor
  · rintro ⟨⟨names, e'⟩, hmem, hchild⟩
    simp only at hchild
    split at hchild
    · cases hchild
      exact (mem_below_iff.mp hmem).2
    · cases hchild
  · intro hmem
    exact ⟨([name], e), mem_below_iff.mpr ⟨List.cons_ne_nil _ _, hmem⟩, rfl⟩

theorem mem_entries_iff (hl : l ≠ []) {e : Entry} : (l, e) ∈ t.entries ↔ t.lookup l = some e :=
  ⟨lookup_of_mem, mem_of_lookup hl⟩

/-! ## The walk below a directory -/

/-- An entry of a directory and what is below it, each with the names from the directory. -/
def withBelow (t : FileTree) (l : Location) (x : Bytes × Entry) : List (Location × Entry) :=
  ([x.1], x.2) :: (t.below (l ++ [x.1])).map fun y => (x.1 :: y.1, y.2)

theorem pairwise_withBelow (t : FileTree) (l : Location) (x : Bytes × Entry) :
    (t.withBelow l x).Pairwise fun y z => y.1 < z.1 := by
  refine List.pairwise_cons.mpr ⟨?_, List.pairwise_map.mpr ((t.pairwise_below _).imp ?_)⟩
  · intro y hy
    obtain ⟨⟨names, e⟩, hmem, rfl⟩ := List.mem_map.mp hy
    obtain ⟨first, rest, rfl⟩ := List.exists_cons_of_ne_nil (mem_below_iff.mp hmem).1
    exact List.cons_lt_cons_iff.mpr (Or.inr ⟨rfl, List.nil_lt_cons first rest⟩)
  · intro y z hlt
    exact List.cons_lt_cons_iff.mpr (Or.inr ⟨rfl, hlt⟩)

theorem eq_cons_of_mem_withBelow {x : Bytes × Entry} {y : Location × Entry}
    (hy : y ∈ t.withBelow l x) : ∃ names, y.1 = x.1 :: names := by
  rcases List.mem_cons.mp hy with rfl | hy
  · exact ⟨[], rfl⟩
  · obtain ⟨z, -, rfl⟩ := List.mem_map.mp hy
    exact ⟨z.1, rfl⟩

theorem mem_below_iff_withBelow {y : Location × Entry} :
    y ∈ t.below l ↔ ∃ x ∈ t.children l, y ∈ t.withBelow l x := by
  obtain ⟨names, e⟩ := y
  rw [mem_below_iff]
  constructor
  · rintro ⟨hne, hmem⟩
    obtain ⟨name, rest, rfl⟩ := List.exists_cons_of_ne_nil hne
    by_cases hrest : rest = []
    · subst hrest
      exact ⟨(name, e), mem_children_iff.mpr hmem, List.mem_cons_self⟩
    · -- the entry lies further down, in a directory that is listed as well
      have hassoc : l ++ name :: rest = l ++ [name] ++ rest := by simp
      have hdirectory : t.lookup (l ++ [name]) = some .directory :=
        lookup_above (lookup_of_mem hmem) ⟨rest, hassoc.symm⟩ (by simpa using Ne.symm hrest)
      refine ⟨(name, .directory), mem_children_iff.mpr (mem_of_lookup (by simp) hdirectory),
        List.mem_cons_of_mem _ (List.mem_map.mpr ⟨(rest, e), ?_, rfl⟩)⟩
      rw [hassoc] at hmem
      exact mem_below_iff.mpr ⟨hrest, hmem⟩
  · rintro ⟨⟨name, e'⟩, hchild, hmem⟩
    rcases List.mem_cons.mp hmem with heq | hmem
    · cases heq
      exact ⟨List.cons_ne_nil _ _, mem_children_iff.mp hchild⟩
    · obtain ⟨⟨rest, e''⟩, hbelow, heq⟩ := List.mem_map.mp hmem
      cases heq
      have hinner := (mem_below_iff.mp hbelow).2
      rw [List.append_assoc] at hinner
      exact ⟨List.cons_ne_nil _ _, hinner⟩

theorem nodup_of_pairwise {ys : List (Location × Entry)} (h : ys.Pairwise fun y z => y.1 < z.1) :
    ys.Nodup := by
  refine List.Pairwise.imp ?_ h
  rintro y z hlt rfl
  exact List.lt_irrefl _ hlt

/-- Everything below a directory, entry by entry: each is followed by what is below it. -/
theorem below_eq_flatMap (t : FileTree) (l : Location) :
    t.below l = (t.children l).flatMap (t.withBelow l) := by
  have hleft := t.pairwise_below l
  have hright : ((t.children l).flatMap (t.withBelow l)).Pairwise fun y z => y.1 < z.1 := by
    refine List.pairwise_flatMap.mpr
      ⟨fun x _ => t.pairwise_withBelow l x, (t.pairwise_children l).imp ?_⟩
    intro x x' hlt y hy z hz
    obtain ⟨front, hfront⟩ := eq_cons_of_mem_withBelow hy
    obtain ⟨back, hback⟩ := eq_cons_of_mem_withBelow hz
    rw [hfront, hback]
    exact List.cons_lt_cons_iff.mpr (Or.inl hlt)
  -- both lists are in strict order and have the same members
  refine List.Perm.eq_of_pairwise ?_ hleft hright
    ((List.perm_ext_iff_of_nodup (nodup_of_pairwise hleft) (nodup_of_pairwise hright)).mpr
      fun y => ?_)
  · intro y z _ _ hlt hlt'
    exact absurd (List.lt_trans hlt hlt') (List.lt_irrefl _)
  · rw [mem_below_iff_withBelow, List.mem_flatMap]

/-- What a walk visits that goes through the entries of a directory: each entry is visited, and if
it is a directory, what is in it is visited next. -/
inductive Visits (t : FileTree) : Location → List (Bytes × Entry) → List (Location × Entry) → Prop
  | done {l : Location} : Visits t l [] []
  | file {l : Location} {name data : Bytes} {rest : List (Bytes × Entry)}
      {visited : List (Location × Entry)} (hrest : Visits t l rest visited) :
      Visits t l ((name, .file data) :: rest) (([name], .file data) :: visited)
  | directory {l : Location} {name : Bytes} {rest : List (Bytes × Entry)}
      {inner visited : List (Location × Entry)}
      (hinner : Visits t (l ++ [name]) (t.children (l ++ [name])) inner)
      (hrest : Visits t l rest visited) :
      Visits t l ((name, .directory) :: rest)
        (([name], .directory) :: (inner.map fun y => (name :: y.1, y.2)) ++ visited)

theorem below_file {data : Bytes} (h : t.lookup l = some (.file data)) : t.below l = [] := by
  rw [List.eq_nil_iff_forall_not_mem]
  rintro ⟨names, e⟩ hmem
  obtain ⟨hne, hmem⟩ := mem_below_iff.mp hmem
  have hdirectory :=
    lookup_above (lookup_of_mem hmem) (List.prefix_append l names) (by simpa using hne)
  rw [h] at hdirectory
  cases hdirectory

/-- The walk below a directory visits everything below it. Induction on how much that is: what is
below an entry of the directory is less. -/
theorem visits_below (t : FileTree) (l : Location) :
    t.Visits l (t.children l) (t.below l) := by
  induction hsize : (t.below l).length using Nat.strongRecOn generalizing l with
  | ind n ih =>
    subst hsize
    have hless : ∀ x ∈ t.children l, (t.below (l ++ [x.1])).length < (t.below l).length := by
      intro x hx
      have hsub : (t.withBelow l x).length ≤ ((t.children l).flatMap (t.withBelow l)).length :=
        (List.sublist_flatten_of_mem (List.mem_map_of_mem hx)).length_le
      rw [← t.below_eq_flatMap l] at hsub
      simp only [FileTree.withBelow, List.length_cons, List.length_map] at hsub
      omega
    -- the entries that are still to come are among those of the directory
    have hrest : ∀ rest, (∀ x ∈ rest, x ∈ t.children l) →
        t.Visits l rest (rest.flatMap (t.withBelow l)) := by
      intro rest
      induction rest with
      | nil => exact fun _ => .done
      | cons x rest ihrest =>
        intro hmem
        have hx := hmem x List.mem_cons_self
        have hvisits := ihrest fun y hy => hmem y (List.mem_cons_of_mem _ hy)
        obtain ⟨name, e⟩ := x
        rw [List.flatMap_cons]
        cases e with
        | file data =>
          have hlookup := lookup_of_mem (mem_children_iff.mp hx)
          have hnone : t.withBelow l (name, .file data) = [([name], .file data)] := by
            simp [FileTree.withBelow, below_file hlookup]
          rw [hnone]
          exact .file hvisits
        | directory =>
          exact .directory (ih _ (hless _ hx) _ rfl) hvisits
    rw [t.below_eq_flatMap l]
    exact hrest _ fun x hx => hx

end FileTree

end AdaToC
