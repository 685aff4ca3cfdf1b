import AdaToC.C.Body
import AdaToC.Proofs.Text.Replacement

/-!
# The shape of a body and the text around its marker

Markers are looked for anywhere in a body, so a marker of an earlier shape could form where the
marker of a later one meets the text around it. This takes one of the marks `+ - * / . " ( '`: every
marker has one, and has it at a place where no later marker fits. `clashes` is a check for this,
and `occursIn_eq_false_of_clashes` carries it over to all surroundings without marks.

More text around a body never hides a marker, so it can only lead to an earlier shape.
-/

namespace AdaToC

namespace Bytes

/-! ## Occurrences across a seam -/

/-- The text before and the text behind every place where a byte stands. -/
def cutsAt (b : UInt8) : Bytes → List (Bytes × Bytes)
  | [] => []
  | d :: s =>
    (if d = b then [([], s)] else []) ++ (cutsAt b s).map fun cut => (d :: cut.1, cut.2)

theorem mem_cutsAt {b : UInt8} (before behind : Bytes) :
    (before, behind) ∈ cutsAt b (before ++ b :: behind) := by
  induction before with
  | nil => simp [cutsAt]
  | cons d before ih =>
    rw [List.cons_append, cutsAt]
    exact List.mem_append_right _ (List.mem_map.mpr ⟨(before, behind), ih, rfl⟩)

theorem exists_of_mem_cutsAt {b : UInt8} {s : Bytes} {cut : Bytes × Bytes} (h : cut ∈ cutsAt b s) :
    s = cut.1 ++ b :: cut.2 := by
  induction s generalizing cut with
  | nil => cases h
  | cons d s ih =>
    rw [cutsAt, List.mem_append, List.mem_map] at h
    rcases h with h | ⟨inner, hinner, rfl⟩
    · split at h
      · next hd =>
        rw [List.mem_singleton.mp h, hd, List.nil_append]
      · cases h
    · rw [ih hinner, List.cons_append]

/-- Whether two texts with the same byte marked in them can be laid over each other at this byte:
on either side of it the shorter text agrees with the longer one. -/
def fits (cut other : Bytes × Bytes) : Bool :=
  (cut.1.isSuffixOf other.1 || other.1.isSuffixOf cut.1) &&
    (cut.2.isPrefixOf other.2 || other.2.isPrefixOf cut.2)

/-- Whether one of the marks stands in `piece` at a place that fits on no place of the same mark in
`text`. -/
def clashes (marks piece text : Bytes) : Bool :=
  marks.any fun b =>
    (cutsAt b piece).any fun cut => (cutsAt b text).all fun other => !fits cut other

/-- A byte that is not in the text in front stands behind it. -/
theorem exists_append_of_not_mem_front {b : UInt8} {before behind front s : Bytes}
    (h : before ++ b :: behind = front ++ s) (hb : b ∉ front) :
    ∃ between, before = front ++ between ∧ s = between ++ b :: behind := by
  rcases List.append_eq_append_iff.mp h with ⟨between, hfront, hs⟩ | ⟨between, hbefore, hs⟩
  · cases between with
    | nil => exact ⟨[], by simpa using hfront.symm, hs.symm⟩
    | cons d between =>
      obtain ⟨rfl, -⟩ := List.cons.inj hs
      exact absurd (hfront ▸ List.mem_append_right _ List.mem_cons_self) hb
  · exact ⟨between, hbefore, hs⟩

/-- A byte that is not in the text at the end stands before it. -/
theorem exists_append_of_not_mem_back {b : UInt8} {before behind s back : Bytes}
    (h : s ++ back = before ++ b :: behind) (hb : b ∉ back) :
    ∃ between, s = before ++ b :: between ∧ behind = between ++ back := by
  rcases List.append_eq_append_iff.mp h with ⟨between, -, hback⟩ | ⟨between, hs, hbehind⟩
  · exact absurd (hback ▸ List.mem_append_right _ List.mem_cons_self) hb
  · cases between with
    | nil =>
      rw [List.nil_append] at hbehind
      exact absurd (hbehind ▸ List.mem_cons_self) hb
    | cons d between =>
      rw [List.cons_append] at hbehind
      obtain ⟨rfl, hrest⟩ := List.cons.inj hbehind
      exact ⟨between, hs, hrest⟩

/-- A piece that occurs in a text with surroundings, and has a byte that the surroundings do not
have, lies over the text so that the two agree around this byte. -/
theorem exists_fits_of_isInfix {b : UInt8} {cut : Bytes × Bytes} {front text back : Bytes}
    (hfront : b ∉ front) (hback : b ∉ back)
    (h : cut.1 ++ b :: cut.2 <:+: front ++ text ++ back) :
    ∃ other ∈ cutsAt b text, fits cut other = true := by
  obtain ⟨left, right, hplace⟩ := h
  -- the byte is neither in front nor at the back, so it cuts the text in the middle
  have hbody : (left ++ cut.1) ++ b :: (cut.2 ++ right) = front ++ (text ++ back) := by
    simpa only [List.append_assoc, List.cons_append] using hplace
  obtain ⟨before, hleft, htext⟩ := exists_append_of_not_mem_front hbody hfront
  obtain ⟨behind, rfl, hright⟩ := exists_append_of_not_mem_back htext hback
  refine ⟨(before, behind), mem_cutsAt before behind, ?_⟩
  -- on either side of it two texts end, or start, at the same place of the whole
  have hbefore : cut.1 <:+ before ∨ before <:+ cut.1 :=
    List.suffix_or_suffix_of_suffix ⟨left, hleft⟩ ⟨front, rfl⟩
  have hbehind : cut.2 <+: behind ∨ behind <+: cut.2 :=
    List.prefix_or_prefix_of_prefix ⟨right, hright⟩ ⟨back, rfl⟩
  simpa [fits] using ⟨hbefore, hbehind⟩

theorem occursIn_eq_false_of_clashes {marks piece text : Bytes}
    (h : clashes marks piece text = true) {front back : Bytes}
    (hmarks : ∀ b ∈ marks, b ∉ front ∧ b ∉ back) :
    occursIn piece (front ++ text ++ back) = false := by
  rw [← Bool.not_eq_true, occursIn_iff_isInfix]
  intro hoccurs
  obtain ⟨b, hb, hclash⟩ := List.any_eq_true.mp h
  obtain ⟨cut, hcut, hnone⟩ := List.any_eq_true.mp hclash
  rw [exists_of_mem_cutsAt hcut] at hoccurs
  obtain ⟨other, hother, hfits⟩ :=
    exists_fits_of_isInfix (hmarks b hb).1 (hmarks b hb).2 hoccurs
  have hmiss := List.all_eq_true.mp hnone other hother
  rw [hfits] at hmiss
  cases hmiss

end Bytes

namespace C.Shape

/-! ## The order of the shapes -/

/-- The bytes of markers that the text around a marker must not have. -/
def marks : Bytes :=
  bytes "+-*/.\"('"

/-- The shapes that are tried before a shape. -/
def before (shape : Shape) : List Shape :=
  all.takeWhile (· != shape)

theorem exists_all_eq (shape : Shape) : ∃ after, all = shape.before ++ shape :: after := by
  cases shape <;> exact ⟨_, rfl⟩

theorem mem_all (shape : Shape) : shape ∈ all := by
  cases shape <;> decide

/-- A marker clashes with every later one: it has a mark that the later one lacks, or the two differ
next to the mark. The second is so for `*` in a power, and for markers that are the same up to their
last mark. -/
theorem all_clashes : all.all (fun shape =>
    shape.before.all fun other => Bytes.clashes marks other.marker shape.marker) = true := by
  decide +kernel

theorem clashes_of_mem_before {shape other : Shape} (h : other ∈ shape.before) :
    Bytes.clashes marks other.marker shape.marker = true :=
  List.all_eq_true.mp (List.all_eq_true.mp all_clashes shape shape.mem_all) other h

/-- A body has the shape of a marker in it if no earlier marker is in it. -/
theorem ofBody?_eq_some {body : Bytes} {shape : Shape} (h : shape.marker.occursIn body = true)
    (hbefore : ∀ other ∈ shape.before, other.marker.occursIn body = false) :
    ofBody? body = some shape := by
  obtain ⟨after, hall⟩ := shape.exists_all_eq
  refine List.find?_eq_some_iff_append.mpr ⟨h, shape.before, after, hall, ?_⟩
  intro other hother
  rw [hbefore other hother]
  rfl

theorem occursIn_of_ofBody? {body : Bytes} {shape : Shape} (h : ofBody? body = some shape) :
    shape.marker.occursIn body = true := by
  unfold ofBody? at h
  simpa using List.find?_some h

/-- A body in which a marker stands has the shape of that marker or an earlier one. -/
theorem exists_ofBody?_of_occursIn {body : Bytes} {shape : Shape} {i : Nat}
    (hi : all[i]? = some shape) (h : shape.marker.occursIn body = true) :
    ∃ j ≤ i, ∃ other, all[j]? = some other ∧ ofBody? body = some other := by
  unfold ofBody?
  -- the order of the shapes does not matter here; induction is on any list of them
  generalize all = shapes at hi ⊢
  induction shapes generalizing i with
  | nil => cases hi
  | cons first shapes ih =>
    cases hfirst : first.marker.occursIn body with
    | true => exact ⟨0, Nat.zero_le i, first, rfl, by rw [List.find?_cons, hfirst]⟩
    | false =>
      cases i with
      | zero =>
        obtain rfl : first = shape := Option.some.inj hi
        rw [hfirst] at h
        cases h
      | succ i =>
        obtain ⟨j, hj, other, hother, hfind⟩ := ih hi
        refine ⟨j + 1, Nat.succ_le_succ hj, other, hother, ?_⟩
        rw [List.find?_cons, hfirst]
        exact hfind

/-- Text around a marker does not lead to another shape if it has no marks in it; and whatever
stands around a body, the shape that it leads to is not tried later than that of the body. -/
theorem surroundings_keep_shape :
    (∀ (shape : Shape) (front back : Bytes), (∀ b ∈ marks, b ∉ front ∧ b ∉ back) →
      ofBody? (front ++ shape.marker ++ back) = some shape) ∧
    ∀ (body body' : Bytes) (i : Nat) (shape : Shape), body <:+: body' → all[i]? = some shape →
      ofBody? body = some shape →
      ∃ j ≤ i, ∃ other, all[j]? = some other ∧ ofBody? body' = some other := by
  constructor
  · intro shape front back hmarks
    refine ofBody?_eq_some (Bytes.occursIn_append front shape.marker back) ?_
    intro other hother
    exact Bytes.occursIn_eq_false_of_clashes (clashes_of_mem_before hother) hmarks
  · intro body body' i shape hinside hi hshape
    have hmarker := occursIn_of_ofBody? hshape
    refine exists_ofBody?_of_occursIn hi ?_
    rw [Bytes.occursIn_iff_isInfix] at hmarker ⊢
    exact hmarker.trans hinside

/-- Text that nearly makes a product of a power, with a byte that belongs to no character; and a
minimum inside a larger body, in which a maximum is found first. -/
theorem surroundings_keep_shape_power :
    let front := bytes "return A"
    let back := 0xFF :: bytes " B"
    let body := bytes "return Float'Min (A, B)"
    let body' := bytes "begin " ++ body ++ bytes " * Float'Max (A, B);"
    (∀ b ∈ marks, b ∉ front ∧ b ∉ back) ∧
      ofBody? (front ++ power.marker ++ back) = some .power ∧
      body <:+: body' ∧ ofBody? body = some .min ∧
      ∃ j ≤ 8, ∃ other, all[j]? = some other ∧ ofBody? body' = some other := by
  intro front back body body'
  have hmarks : ∀ b ∈ marks, b ∉ front ∧ b ∉ back := by
    have hall : marks.all (fun b => !front.contains b && !back.contains b) := by decide
    intro b hb
    simpa using List.all_eq_true.mp hall b hb
  have hinside : body <:+: body' := ⟨_, _, rfl⟩
  have hshape : ofBody? body = some .min := by decide +kernel
  obtain ⟨hkept, hearlier⟩ := surroundings_keep_shape
  exact ⟨hmarks, hkept .power front back hmarks, hinside, hshape,
    hearlier body body' 8 .min hinside rfl hshape⟩

end C.Shape

end AdaToC
