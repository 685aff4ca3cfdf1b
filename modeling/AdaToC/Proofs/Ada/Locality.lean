import AdaToC.Ada.Place
import AdaToC.Proofs.Ada.Extraction

/-!
# Scanning texts one behind the other

A scan looks ahead without bound, so text that is added behind another can change what is found in
the first: a header that was reported may be completed. If nothing was reported, nothing changes. A
definition that was found is tight, whatever follows it, and where no opening stands none appears,
since an opening that reached into the added text would have to contain the semicolon before it.

`scan_append_newline` puts this together: the findings of two texts with a line feed between them
are those of the first, followed by those of the second at their new places.
-/

namespace AdaToC.Ada

/-- A text in which no header was reported and which ends with a semicolon, if it is not empty. -/
def Closed (a : Bytes) : Prop :=
  skipped a = [] ∧ (a = [] ∨ a.getLast? = some 0x3B)

instance (a : Bytes) : Decidable (Closed a) := by unfold Closed; infer_instance

/-! ## Moving findings to another place -/

def FunctionUnit.shift (k : Nat) (u : FunctionUnit) : FunctionUnit :=
  { u with offset := u.offset + k }

def Skipped.shift (k : Nat) (x : Skipped) : Skipped :=
  { x with offset := x.offset + k }

def Finding.shift (k : Nat) : Finding → Finding
  | .unit u => .unit (u.shift k)
  | .skipped x => .skipped (x.shift k)

/-- What is found in a text does not depend on the offset it is said to start at. -/
theorem Scanned.shift {offset : Nat} {s : Bytes} {fs : List Finding} (h : Scanned offset s fs)
    (k : Nat) : Scanned (offset + k) s (fs.map (Finding.shift k)) := by
  induction h with
  | done offset => exact .done _
  | @pass offset b rest fs hnone _ ih =>
    rw [Nat.add_right_comm] at ih
    exact .pass hnone ih
  | @unit offset d rest fs hd _ ih =>
    rw [Nat.add_right_comm] at ih
    exact .unit hd ih
  | @skipped offset b rest behind o fault fs ho hfault _ ih =>
    rw [Nat.add_right_comm] at ih
    exact .skipped ho hfault ih

theorem filterMap_unit?_shift (k : Nat) (fs : List Finding) :
    (fs.map (Finding.shift k)).filterMap Finding.unit? =
      (fs.filterMap Finding.unit?).map (FunctionUnit.shift k) := by
  rw [List.filterMap_map, List.map_filterMap]
  congr 1
  funext f
  cases f <;> rfl

theorem filterMap_skipped?_shift (k : Nat) (fs : List Finding) :
    (fs.map (Finding.shift k)).filterMap Finding.skipped? =
      (fs.filterMap Finding.skipped?).map (Skipped.shift k) := by
  rw [List.filterMap_map, List.map_filterMap]
  congr 1
  funext f
  cases f <;> rfl

/-! ## Adding text behind a closed one -/

/-- Text added behind a semicolon lets no opening appear before it. -/
theorem no_opening_append {s : Bytes} (hend : s.getLast? = some 0x3B)
    (hnone : ∀ (o : Opening) (r : Bytes), s ≠ o.text ++ r) (t : Bytes) :
    ∀ (o : Opening) (r : Bytes), s ++ t ≠ o.text ++ r := by
  intro o r ho
  rcases List.append_eq_append_iff.mp ho with ⟨z, hz, -⟩ | ⟨z, hz, -⟩
  · -- the opening contains all of `s`, and with it the semicolon
    have hmem : (0x3B : UInt8) ∈ o.text := by
      rw [hz]
      exact List.mem_append_left _ (List.mem_of_getLast? hend)
    exact o.semicolon_not_mem hmem
  · exact hnone o z hz

theorem end_of_append {s t : Bytes} (h : s ++ t = [] ∨ (s ++ t).getLast? = some 0x3B) :
    t = [] ∨ t.getLast? = some 0x3B := by
  cases t with
  | nil => exact Or.inl rfl
  | cons b t =>
    right
    rcases h with h | h
    · simp at h
    · simpa [List.getLast?_append, List.getLast?_cons] using h

/-- Behind a closed text a scan goes on as if it started there. -/
theorem Scanned.append {offset : Nat} {s t : Bytes} {fs gs : List Finding}
    (h : Scanned offset s fs) (hquiet : fs.filterMap Finding.skipped? = [])
    (hend : s = [] ∨ s.getLast? = some 0x3B) (ht : Scanned (offset + s.length) t gs) :
    Scanned offset (s ++ t) (fs ++ gs) := by
  induction h with
  | done offset => exact ht
  | @pass offset b rest fs hnone _ ih =>
    have hrest : rest = [] ∨ rest.getLast? = some 0x3B := end_of_append (s := [b]) hend
    have hlast : (b :: rest).getLast? = some 0x3B := hend.resolve_left (List.cons_ne_nil b rest)
    have hnext : offset + 1 + rest.length = offset + (b :: rest).length := by
      simp only [List.length_cons]
      omega
    exact .pass (no_opening_append hlast hnone t) (ih hquiet hrest (hnext ▸ ht))
  | @unit offset d rest fs hd _ ih =>
    have hnext : offset + d.text.length + rest.length = offset + (d.text ++ rest).length := by
      simp only [List.length_append]
      omega
    rw [List.append_assoc]
    exact .unit hd (ih hquiet (end_of_append hend) (hnext ▸ ht))
  | skipped _ _ _ _ => simp [Finding.skipped?] at hquiet

/-- The findings of two texts, the first of them closed, with a line feed between them. -/
theorem scan_append_newline {a : Bytes} (ha : Closed a) (b : Bytes) :
    scan (a ++ 0x0A :: b) = scan a ++ (scan b).map (Finding.shift (a.length + 1)) := by
  have hbehind : Scanned (0 + a.length) (0x0A :: b)
      ((scan b).map (Finding.shift (a.length + 1))) := by
    have hshift := (scanned_scanFrom 0 b).shift (a.length + 1)
    rw [← scanFrom_eq_iff_scanned] at hshift ⊢
    rw [scanFrom_space_cons (by decide)]
    simpa [scan, Nat.add_assoc] using hshift
  exact ((scanned_scanFrom 0 a).append ha.1 ha.2 hbehind).eq_scanFrom

theorem units_append_newline {a : Bytes} (ha : Closed a) (b : Bytes) :
    units (a ++ 0x0A :: b) = units a ++ (units b).map (FunctionUnit.shift (a.length + 1)) := by
  rw [units, scan_append_newline ha, List.filterMap_append, filterMap_unit?_shift]
  rfl

theorem skipped_append_newline {a : Bytes} (ha : Closed a) (b : Bytes) :
    skipped (a ++ 0x0A :: b) = (skipped b).map (Skipped.shift (a.length + 1)) := by
  rw [skipped, scan_append_newline ha, List.filterMap_append, filterMap_skipped?_shift]
  exact congrArg (· ++ _) ha.1

/-! ## Lines and columns of the new places -/

/-- A text before a line feed moves places down by its lines and leaves their columns. -/
theorem Place.ofOffset_append_newline (a b : Bytes) (offset : Nat) :
    Place.ofOffset (a ++ 0x0A :: b) (offset + (a.length + 1)) =
      { line := (Place.ofOffset b offset).line + (a.count 0x0A + 1)
        column := (Place.ofOffset b offset).column } := by
  have htake : (a ++ 0x0A :: b).take (offset + (a.length + 1)) = a ++ 0x0A :: b.take offset := by
    rw [List.take_append, List.take_of_length_le (by omega),
      show offset + (a.length + 1) - a.length = offset + 1 from by omega, List.take_succ_cons]
  have hcolumn : ((a ++ 0x0A :: b.take offset).reverse.takeWhile (· != 0x0A)) =
      (b.take offset).reverse.takeWhile (· != 0x0A) := by
    rw [List.reverse_append, List.reverse_cons, List.append_assoc, List.singleton_append,
      List.takeWhile_append]
    split
    · next hall =>
      have hself : (b.take offset).reverse.takeWhile (· != 0x0A) = (b.take offset).reverse :=
        (List.takeWhile_sublist _).eq_of_length hall
      simp [hself]
    · rfl
  simp only [Place.ofOffset, htake, hcolumn, List.count_append, List.count_cons_self]
  congr 1
  omega

end AdaToC.Ada
