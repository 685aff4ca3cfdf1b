import AdaToC.Proofs.Toml

/-!
# The names of a TOML document are different

However a document is put together, it changes only by entries that are set somewhere in it. An
entry that is there already is set in its place, so no two entries of a document have one name, and
looking up the name of an entry gives that entry.
-/

namespace AdaToC

namespace Toml

namespace Entries

variable {es : Entries} {k : Bytes} {n : Node}

/-- The names of the entries of a table. -/
def names (es : Entries) : List Bytes :=
  es.map (·.1)

theorem names_set (k : Bytes) (n : Node) (es : Entries) :
    names (set k n es) = if k ∈ names es then names es else names es ++ [k] := by
  induction es with
  | nil => rfl
  | cons e rest ih =>
    obtain ⟨k', n'⟩ := e
    unfold set
    by_cases hk : k = k'
    · simp [names, hk]
    · have hnames : names ((k', n') :: rest) = k' :: names rest := rfl
      have hset : names ((k', n') :: set k n rest) = k' :: names (set k n rest) := rfl
      rw [if_neg hk, hset, hnames, ih]
      by_cases hrest : k ∈ names rest
      · simp [hrest]
      · simp [hrest, hk]

theorem mem_names_of_lookup (h : es.lookup k = some n) : k ∈ names es := by
  obtain ⟨front, back, rfl, -⟩ := List.lookup_eq_some_iff.mp h
  simp [names]

/-- A change further down leaves the names of a table as they are. -/
theorem names_modify_cons (f : Entries → Entries) (k : Bytes) (key : Key) (es : Entries) :
    names (modify f (k :: key) es) = names es := by
  simp only [modify]
  split
  next inner hlookup => rw [names_set, if_pos (mem_names_of_lookup hlookup)]
  next elements hlookup =>
    split
    · rw [names_set, if_pos (mem_names_of_lookup hlookup)]
    · rfl
  · rfl

/-- No two entries of the table have one name. -/
def Distinct (es : Entries) : Prop :=
  (names es).Nodup

theorem Distinct.set (h : es.Distinct) (k : Bytes) (n : Node) : (Entries.set k n es).Distinct := by
  unfold Distinct
  rw [names_set]
  split
  · exact h
  next hk =>
    refine List.nodup_append.mpr ⟨h, by simp, fun name hname other hother => ?_⟩
    rw [List.mem_singleton.mp hother]
    exact ne_of_mem_of_not_mem hname hk

theorem Distinct.modify_set (h : es.Distinct) (context : Key) (k : Bytes) (n : Node) :
    (modify (Entries.set k n) context es).Distinct := by
  cases context with
  | nil => exact h.set k n
  | cons k' key =>
    unfold Distinct
    rw [names_modify_cons]
    exact h

theorem Distinct.lookup_of_mem (h : es.Distinct) (hmem : (k, n) ∈ es) : es.lookup k = some n := by
  induction es with
  | nil => cases hmem
  | cons e rest ih =>
    obtain ⟨k', n'⟩ := e
    obtain ⟨hfirst, hrest⟩ := List.nodup_cons.mp h
    rcases List.mem_cons.mp hmem with heq | hmem
    · cases heq
      exact List.lookup_cons_self
    · have hne : k ≠ k' := ne_of_mem_of_not_mem (List.mem_map_of_mem hmem) hfirst
      have hbeq : (k == k') = false := by simpa using hne
      rw [List.lookup_cons, hbeq]
      exact ih hrest hmem

end Entries

theorem Puts.distinct {es es' : Entries} (h : Puts es es') (hes : es.Distinct) :
    es'.Distinct := by
  induction h with
  | refl => exact hes
  | put _ context k _ ih => exact ih.modify_set context k _

theorem distinct_of_document? {data : Bytes} {document : Entries}
    (h : document? data = some document) : document.Distinct :=
  (puts_of_document? h).distinct List.nodup_nil

end Toml

end AdaToC
