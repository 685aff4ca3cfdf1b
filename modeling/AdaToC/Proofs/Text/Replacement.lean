import AdaToC.Proofs.Text.Pieces

/-!
# Replacing a piece of text

Occurrences of a piece are replaced from left to right, each search starting behind the last
occurrence. `SoleBehind` says that only one occurrence is met in this way. Then replacing changes
that one and nothing else. The converse holds as well, unless the new piece is shorter: with a
second occurrence the result becomes too long, or differs at the first place that was replaced.
-/

namespace AdaToC.Bytes

theorem occursIn_iff_isInfix {piece s : Bytes} : occursIn piece s = true ↔ piece <:+: s := by
  constructor
  · intro h
    induction s with
    | nil =>
      rw [occursIn, List.isEmpty_iff] at h
      exact List.infix_nil.mpr h
    | cons b s ih =>
      rw [occursIn, Bool.or_eq_true, List.isPrefixOf_iff_prefix] at h
      rcases h with hfront | hrest
      · exact hfront.isInfix
      · exact List.infix_cons (ih hrest)
  · rintro ⟨front, behind, rfl⟩
    exact occursIn_append front piece behind

variable {old new front behind s : Bytes}

/-! ## One occurrence after the other -/

theorem replaceFrom_eq_drop (old new : Bytes) (passed : Nat) (s : Bytes) :
    replaceFrom old new passed s = replaceAll old new (s.drop passed) := by
  induction s generalizing passed with
  | nil => cases passed <;> rfl
  | cons b s ih =>
    cases passed with
    | zero => rfl
    | succ passed => rw [replaceFrom, ih, List.drop_succ_cons]

theorem replaceAll_old_append (hne : old ≠ []) (s : Bytes) :
    replaceAll old new (old ++ s) = new ++ replaceAll old new s := by
  obtain ⟨b, rest, rfl⟩ := List.exists_cons_of_ne_nil hne
  have hfront : (b :: rest).isPrefixOf (b :: (rest ++ s)) = true :=
    List.isPrefixOf_iff_prefix.mpr ⟨s, rfl⟩
  rw [List.cons_append, replaceAll, replaceFrom, if_pos hfront, replaceFrom_eq_drop,
    List.length_cons, Nat.add_sub_cancel, List.drop_left]

/-- Text in which no occurrence starts stays as it is. -/
theorem replaceAll_append (h : ∀ k < front.length, ¬ old <+: (front ++ s).drop k) :
    replaceAll old new (front ++ s) = front ++ replaceAll old new s := by
  induction front with
  | nil => rfl
  | cons b front ih =>
    have hb : (old.isPrefixOf (b :: (front ++ s))) = false := by
      rw [Bool.eq_false_iff, ne_eq, List.isPrefixOf_iff_prefix]
      exact h 0 (by simp)
    have hfront : ∀ k < front.length, ¬ old <+: (front ++ s).drop k := fun k hk =>
      h (k + 1) (by simpa using hk)
    rw [List.cons_append, replaceAll, replaceFrom, hb]
    exact congrArg (b :: ·) (ih hfront)

theorem replaceAll_of_not_isInfix (h : ¬ old <:+: s) : replaceAll old new s = s := by
  have hnone : ∀ k < s.length, ¬ old <+: (s ++ []).drop k := by
    intro k _ hstarts
    rw [List.append_nil] at hstarts
    exact h (hstarts.isInfix.trans (List.drop_suffix k s).isInfix)
  have hreplace : replaceAll old new (s ++ []) = s ++ replaceAll old new [] :=
    replaceAll_append hnone
  simpa [replaceAll, replaceFrom] using hreplace

/-- Where a piece occurs, it occurs for the first time. -/
theorem exists_first_occurrence (h : old <:+: s) :
    ∃ front behind, s = front ++ (old ++ behind) ∧ ∀ k < front.length, ¬ old <+: s.drop k := by
  induction s with
  | nil =>
    obtain rfl := List.infix_nil.mp h
    exact ⟨[], [], rfl, by simp⟩
  | cons b s ih =>
    by_cases hfront : old <+: b :: s
    · obtain ⟨behind, hbehind⟩ := hfront
      exact ⟨[], behind, hbehind.symm, by simp⟩
    · obtain ⟨front, behind, hs, hfirst⟩ :=
        ih ((List.infix_cons_iff.mp h).resolve_left hfront)
      refine ⟨b :: front, behind, by rw [hs, List.cons_append], ?_⟩
      intro k hk
      cases k with
      | zero => exact hfront
      | succ k => exact hfirst k (by simpa using hk)

/-! ## Lengths -/

/-- Every occurrence that is replaced adds what the new piece is longer. Induction on the length of
the text: behind the first occurrence it is shorter. -/
theorem length_replaceAll (hne : old ≠ []) (hle : old.length ≤ new.length) (s : Bytes) :
    ∃ count, (replaceAll old new s).length = s.length + count * (new.length - old.length) ∧
      (old <:+: s → 1 ≤ count) := by
  induction hn : s.length using Nat.strongRecOn generalizing s with
  | ind n ih =>
    subst hn
    by_cases hoccurs : old <:+: s
    · obtain ⟨front, behind, rfl, hfirst⟩ := exists_first_occurrence hoccurs
      have hpos := List.length_pos_iff.mpr hne
      obtain ⟨count, hcount, -⟩ := ih behind.length (by simp; omega) behind rfl
      refine ⟨count + 1, ?_, fun _ => by omega⟩
      rw [replaceAll_append hfirst, replaceAll_old_append hne]
      simp only [List.length_append, hcount, Nat.add_mul, Nat.one_mul]
      omega
    · exact ⟨0, by rw [replaceAll_of_not_isInfix hoccurs]; omega, fun h => absurd h hoccurs⟩

theorem length_le_length_replaceAll (hne : old ≠ []) (hle : old.length ≤ new.length) (s : Bytes) :
    s.length ≤ (replaceAll old new s).length := by
  obtain ⟨count, hlength, -⟩ := length_replaceAll hne hle s
  omega

theorem length_replaceAll_of_isInfix (hne : old ≠ []) (hle : old.length ≤ new.length)
    (h : old <:+: s) : s.length + new.length ≤ (replaceAll old new s).length + old.length := by
  obtain ⟨count, hlength, hcount⟩ := length_replaceAll hne hle s
  have hone : 1 * (new.length - old.length) ≤ count * (new.length - old.length) :=
    Nat.mul_le_mul_right _ (hcount h)
  omega

/-! ## A single occurrence -/

/-- Of the occurrences of a piece that a search from left to right meets in `front`, the piece and
`behind`, the one between the two is the only one. -/
def SoleBehind (piece front behind : Bytes) : Prop :=
  (∀ k < front.length, ¬ piece <+: (front ++ (piece ++ behind)).drop k) ∧
    occursIn piece behind = false

instance (piece front behind : Bytes) : Decidable (SoleBehind piece front behind) :=
  inferInstanceAs (Decidable (_ ∧ _))

theorem SoleBehind.replaceAll_eq (hne : old ≠ []) (h : SoleBehind old front behind) :
    replaceAll old new (front ++ (old ++ behind)) = front ++ (new ++ behind) := by
  have hbehind : ¬ old <:+: behind := by
    rw [← occursIn_iff_isInfix, h.2]
    exact Bool.false_ne_true
  rw [replaceAll_append h.1, replaceAll_old_append hne, replaceAll_of_not_isInfix hbehind]

/-- A text that differs from another at a place, and is not shorter from there on, is no part of
it. -/
theorem not_infix_of_differs (first : Bytes) {more last : Bytes} (hdiff : old ≠ new)
    (hle : old.length ≤ new.length) (hlast : last.length ≤ more.length) :
    ¬ first ++ (new ++ more) <:+: first ++ (old ++ last) := by
  intro h
  have hlength := h.length_le
  simp only [List.length_append] at hlength
  have hequal := h.eq_of_length (by simp only [List.length_append]; omega)
  exact hdiff (List.append_inj (List.append_cancel_left hequal) (by omega)).1.symm

/-- If a search meets another occurrence, replacing does more than to change the one behind `front`.
The mark `q` at the end of `front` keeps occurrences from reaching across it. -/
theorem not_infix_of_not_soleBehind {init : Bytes} {q : UInt8} (hne : old ≠ []) (hdiff : old ≠ new)
    (hle : old.length ≤ new.length) (hq : q ∉ old)
    (h : ¬ SoleBehind old (init ++ [q]) behind) :
    ¬ replaceAll old new (init ++ [q] ++ (old ++ behind)) <:+: init ++ [q] ++ (new ++ behind) := by
  by_cases hstart : ∀ k < (init ++ [q]).length, ¬ old <+: (init ++ [q] ++ (old ++ behind)).drop k
  · -- the other occurrence is behind
    have hoccurs : old <:+: behind := by
      rw [← occursIn_iff_isInfix, ← Bool.not_eq_false]
      exact fun hnone => h ⟨hstart, hnone⟩
    obtain ⟨first, last, rfl, hfirst⟩ := exists_first_occurrence hoccurs
    rw [replaceAll_append hstart, replaceAll_old_append hne, replaceAll_append hfirst,
      replaceAll_old_append hne]
    have hnot := not_infix_of_differs (init ++ [q] ++ (new ++ first)) hdiff hle
      (length_le_length_replaceAll hne hle last)
    simpa using hnot
  · -- the first occurrence starts before the mark, so it ends there too
    simp only [Classical.not_forall, Classical.not_not] at hstart
    obtain ⟨k, hk, hstarts⟩ := hstart
    obtain ⟨first, middle, hfirst, hleast⟩ :=
      exists_first_occurrence (hstarts.isInfix.trans (List.drop_suffix k _).isInfix)
    have hle_k : first.length ≤ k := Nat.le_of_not_lt fun hlt => hleast k hlt hstarts
    rw [List.length_append, List.length_singleton] at hk
    obtain ⟨z, rfl⟩ : first <+: init := List.prefix_of_prefix_length_le
      (hfirst ▸ List.prefix_append first _) ⟨[q] ++ (old ++ behind), by simp⟩ (by omega)
    obtain ⟨w, rfl, rfl⟩ : ∃ w, z = old ++ w ∧ middle = w ++ q :: (old ++ behind) := by
      have hcut : z ++ q :: (old ++ behind) = old ++ middle := by simpa using hfirst
      rcases List.append_eq_append_iff.mp hcut with ⟨w, hold, hmiddle⟩ | ⟨w, hz, hmiddle⟩
      · cases w with
        | nil => exact ⟨[], by simpa using hold.symm, by simpa using hmiddle.symm⟩
        | cons b w =>
          obtain ⟨rfl, -⟩ := List.cons.inj hmiddle
          exact absurd (by simp [hold]) hq
      · exact ⟨w, hz, hmiddle⟩
    have hagain : old <:+: w ++ q :: (old ++ behind) := ⟨w ++ [q], behind, by simp⟩
    have hgrown := length_replaceAll_of_isInfix hne hle hagain
    have hlength : (w ++ q :: (new ++ behind)).length ≤
        (replaceAll old new (w ++ q :: (old ++ behind))).length := by
      simp only [List.length_append, List.length_cons] at hgrown ⊢
      omega
    have hnot := not_infix_of_differs first hdiff hle hlength
    rw [hfirst, replaceAll_append (hfirst ▸ hleast), replaceAll_old_append hne]
    simpa using hnot

end AdaToC.Bytes
