import Mathlib.Data.List.Forall2

/-!
# Traversals that can fail

A list is gone through with a step that can fail, and the first failure ends the traversal. It comes
to its end just if every step gives a result, and its result is then the list of these.
-/

namespace AdaToC

variable {α β ε : Type}

theorem mapM_eq_pure_map {m : Type → Type} [Monad m] [LawfulMonad m] {f : α → m β} {view : α → β}
    {xs : List α} (h : ∀ x ∈ xs, f x = pure (view x)) : xs.mapM f = pure (xs.map view) := by
  induction xs with
  | nil => rfl
  | cons x xs ih =>
    rw [List.mapM_cons, h x List.mem_cons_self, ih fun y hy => h y (List.mem_cons_of_mem _ hy)]
    simp

/-- What is read back from pieces that were written one by one. -/
theorem mapM_map_eq_some {read : β → Option α} {write : α → β} {xs : List α}
    (h : ∀ x ∈ xs, read (write x) = some x) : (xs.map write).mapM read = some xs := by
  have hread : xs.mapM (read ∘ write) = some (xs.map id) := mapM_eq_pure_map h
  rw [List.mapM_map, hread, List.map_id]

variable {f : α → Except ε β} {xs : List α} {ys : List β}

theorem mapM_eq_ok_iff :
    xs.mapM f = .ok ys ↔ List.Forall₂ (fun x y => f x = .ok y) xs ys := by
  constructor
  · intro h
    induction xs generalizing ys with
    | nil =>
      cases h
      exact .nil
    | cons x xs ih =>
      rw [List.mapM_cons] at h
      cases hx : f x with
      | error e =>
        rw [hx] at h
        cases h
      | ok first =>
        cases hxs : xs.mapM f with
        | error e =>
          rw [hx, hxs] at h
          cases h
        | ok rest =>
          rw [hx, hxs] at h
          cases h
          exact .cons hx (ih hxs)
  · intro h
    induction h with
    | nil => rfl
    | cons hx _ ih =>
      rw [List.mapM_cons, hx, ih]
      rfl

theorem exists_of_mapM_eq_ok (h : xs.mapM f = .ok ys) {y : β} (hy : y ∈ ys) :
    ∃ x ∈ xs, f x = .ok y := by
  have hall := mapM_eq_ok_iff.mp h
  clear h
  induction hall with
  | nil => cases hy
  | cons hx _ ih =>
    rcases List.mem_cons.mp hy with rfl | hy
    · exact ⟨_, List.mem_cons_self, hx⟩
    · obtain ⟨x, hmem, hfound⟩ := ih hy
      exact ⟨x, List.mem_cons_of_mem _ hmem, hfound⟩

theorem exists_mapM_eq_ok {R : α → β → Prop} (h : ∀ x ∈ xs, ∃ y, f x = .ok y ∧ R x y) :
    ∃ ys, xs.mapM f = .ok ys ∧ List.Forall₂ R xs ys := by
  have hall : ∃ ys, List.Forall₂ (fun x y => f x = .ok y ∧ R x y) xs ys := by
    induction xs with
    | nil => exact ⟨[], .nil⟩
    | cons x xs ih =>
      obtain ⟨y, hy⟩ := h x List.mem_cons_self
      obtain ⟨ys, hys⟩ := ih fun x hx => h x (List.mem_cons_of_mem _ hx)
      exact ⟨y :: ys, .cons hy hys⟩
  obtain ⟨ys, hall⟩ := hall
  exact ⟨ys, mapM_eq_ok_iff.mpr (hall.imp fun _ _ => And.left), hall.imp fun _ _ => And.right⟩

/-- A traversal fails where the first of its steps does. -/
theorem mapM_eq_error_iff {e : ε} :
    xs.mapM f = .error e ↔ ∃ before x behind, xs = before ++ x :: behind ∧ f x = .error e ∧
      ∀ y ∈ before, ∃ b, f y = .ok b := by
  constructor
  · intro h
    induction xs with
    | nil => cases h
    | cons x xs ih =>
      rw [List.mapM_cons] at h
      cases hx : f x with
      | error e' =>
        rw [hx] at h
        cases h
        exact ⟨[], x, xs, rfl, hx, by simp⟩
      | ok b =>
        rw [hx] at h
        cases hxs : xs.mapM f with
        | error e' =>
          rw [hxs] at h
          cases h
          obtain ⟨before, y, behind, rfl, hy, hbefore⟩ := ih hxs
          exact ⟨x :: before, y, behind, rfl, hy, List.forall_mem_cons.mpr ⟨⟨b, hx⟩, hbefore⟩⟩
        | ok bs =>
          rw [hxs] at h
          cases h
  · rintro ⟨before, x, behind, rfl, hx, hbefore⟩
    induction before with
    | nil =>
      rw [List.nil_append, List.mapM_cons, hx]
      rfl
    | cons y before ih =>
      obtain ⟨b, hy⟩ := hbefore y List.mem_cons_self
      rw [List.cons_append, List.mapM_cons, hy,
        ih fun z hz => hbefore z (List.mem_cons_of_mem _ hz)]
      rfl

end AdaToC
