import AdaToC.Artifacts
import AdaToC.Proofs.Ada.Locality
import AdaToC.Proofs.Ada.Printing

/-!
# Generated files and the texts they come from

The generated files depend on a text only through the parts of its units. So two texts whose units
have the same parts give the same files, wherever the units stand and whatever else is in the texts.

The two main results follow from this and from the theory of scanning: printing the units of a text
and reading them back changes nothing, and neither does putting closed texts into one.
-/

namespace AdaToC

/-- The functions that are found in a text. -/
def functionsOf (source : Bytes) : List Function :=
  (Ada.units source).map Function.ofUnit

namespace Artifacts

theorem header_ofText (source : Bytes) (naming : C.Naming) :
    (ofText source naming).header = C.headerText (functionsOf source) naming := by
  simp [ofText, ofResults, FileResult.ofSource, functionsOf, Ada.units]

theorem implementation_ofText (source : Bytes) (naming : C.Naming) :
    (ofText source naming).implementation = C.implementationText (functionsOf source) naming := by
  simp [ofText, ofResults, FileResult.ofSource, functionsOf, Ada.units]

theorem functions_ofSources (sources : List (Bytes × Bytes)) (naming : C.Naming) :
    (ofSources sources naming).functions = sources.flatMap fun f => functionsOf f.2 := by
  simp [functions, ofSources, ofResults, List.flatMap_map, FileResult.ofSource, functionsOf,
    Ada.units]

theorem header_ofSources (sources : List (Bytes × Bytes)) (naming : C.Naming) :
    (ofSources sources naming).header =
      C.headerText (sources.flatMap fun f => functionsOf f.2) naming := by
  simp [ofSources, ofResults, List.flatMap_map, FileResult.ofSource, functionsOf, Ada.units]

theorem implementation_ofSources (sources : List (Bytes × Bytes)) (naming : C.Naming) :
    (ofSources sources naming).implementation =
      C.implementationText (sources.flatMap fun f => functionsOf f.2) naming := by
  simp [ofSources, ofResults, List.flatMap_map, FileResult.ofSource, functionsOf, Ada.units]

end Artifacts

/-- A function is made from the parts of a unit. -/
theorem functionsOf_eq_of_parts_eq {s t : Bytes}
    (h : (Ada.units s).map Ada.FunctionUnit.parts = (Ada.units t).map Ada.FunctionUnit.parts) :
    functionsOf s = functionsOf t := by
  have hparts : ∀ us : List Ada.FunctionUnit, us.map Function.ofUnit =
      (us.map Ada.FunctionUnit.parts).map fun p =>
        ⟨p.1, Ada.Parameter.parse p.2.1, p.2.2.1, p.2.2.2⟩ := by
    intro us
    rw [List.map_map]
    rfl
  rw [functionsOf, functionsOf, hparts, hparts, h]

/-! ## Printing and reading back -/

/-- The printed units of a text are found again with the same parts and in the same order, nothing
is reported, and the generated files stay the same. -/
theorem printed_units_scan_back (source : Bytes) :
    (Ada.units (Ada.printAll (Ada.units source))).map Ada.FunctionUnit.parts =
        (Ada.units source).map Ada.FunctionUnit.parts ∧
      Ada.skipped (Ada.printAll (Ada.units source)) = [] ∧
      ∀ naming : C.Naming,
        (Artifacts.ofText (Ada.printAll (Ada.units source)) naming).header =
            (Artifacts.ofText source naming).header ∧
          (Artifacts.ofText (Ada.printAll (Ada.units source)) naming).implementation =
            (Artifacts.ofText source naming).implementation := by
  obtain ⟨hparts, hskipped⟩ :=
    Ada.scanFrom_printAll (Ada.scanned_scanFrom 0 source).exists_tight 0
  have hfunctions := functionsOf_eq_of_parts_eq hparts
  refine ⟨hparts, hskipped, fun naming => ⟨?_, ?_⟩⟩
  · rw [Artifacts.header_ofText, Artifacts.header_ofText]
    exact congrArg (C.headerText · naming) hfunctions
  · rw [Artifacts.implementation_ofText, Artifacts.implementation_ofText]
    exact congrArg (C.implementationText · naming) hfunctions

/-! ## Texts put into one -/

theorem functionsOf_append_newline {a : Bytes} (ha : Ada.Closed a) (b : Bytes) :
    functionsOf (a ++ 0x0A :: b) = functionsOf a ++ functionsOf b := by
  rw [functionsOf, Ada.units_append_newline ha, List.map_append, List.map_map]
  rfl

/-- The functions of closed texts and one more are those of all of them in one text. -/
theorem functionsOf_joinWith {texts : List Bytes} (h : ∀ s ∈ texts.dropLast, Ada.Closed s) :
    functionsOf (Bytes.joinWith (bytes "\n") texts) = texts.flatMap functionsOf := by
  induction texts with
  | nil => rfl
  | cons s texts ih =>
    cases texts with
    | nil => simp [Bytes.joinWith]
    | cons t texts =>
      have hs : Ada.Closed s := h s (by simp)
      have hrest := ih fun u hu => h u (by simp [hu])
      have hjoin : Bytes.joinWith (bytes "\n") (s :: t :: texts) =
          s ++ 0x0A :: Bytes.joinWith (bytes "\n") (t :: texts) := by
        simp [Bytes.joinWith, show bytes "\n" = [0x0A] from by decide]
      rw [hjoin, functionsOf_append_newline hs, hrest]
      exact List.flatMap_cons.symm

/-- A diagnostic behind a line feed says the same, but for its line and the lines it shows. -/
theorem Diagnostic.ofSkipped_append_newline (file a b : Bytes) (x : Ada.Skipped) :
    ofSkipped file (a ++ 0x0A :: b) (x.shift (a.length + 1)) =
      { ofSkipped file b x with
        line := (ofSkipped file b x).line + (a.count 0x0A + 1)
        context := (ofSkipped file (a ++ 0x0A :: b) (x.shift (a.length + 1))).context } := by
  have hplace := Ada.Place.ofOffset_append_newline a b x.offset
  simp only [ofSkipped, Ada.Skipped.shift, Ada.Skipped.message, hplace]
  congr 1

/-- Extraction is local: behind a closed text, what is found in another is the same as in that text
alone, at its new place. So the generated files of closed texts and one more are those of all of
them in one text. -/
theorem extraction_local :
    (∀ a b : Bytes, Ada.Closed a →
      Ada.units (a ++ bytes "\n" ++ b) =
        Ada.units a ++ (Ada.units b).map (Ada.FunctionUnit.shift (a.length + 1)) ∧
      Ada.skipped (a ++ bytes "\n" ++ b) =
        (Ada.skipped b).map (Ada.Skipped.shift (a.length + 1)) ∧
      ∀ (file : Bytes) (x : Ada.Skipped),
        let alone := Diagnostic.ofSkipped file b x
        let behind := Diagnostic.ofSkipped file (a ++ bytes "\n" ++ b) (x.shift (a.length + 1))
        behind = { alone with
          line := alone.line + (a.count 0x0A + 1)
          context := behind.context }) ∧
    (∀ (files : List (Bytes × Bytes)) (naming : C.Naming),
      (∀ f ∈ files.dropLast, Ada.Closed f.2) →
      ∃ made, Artifacts.ofSources? false files naming = some made ∧
        made.header =
          (Artifacts.ofText (Bytes.joinWith (bytes "\n") (files.map (·.2))) naming).header ∧
        made.implementation = Artifacts.implementation
          (Artifacts.ofText (Bytes.joinWith (bytes "\n") (files.map (·.2))) naming)) := by
  refine ⟨?_, ?_⟩
  · intro a b ha
    have htext : a ++ bytes "\n" ++ b = a ++ 0x0A :: b := by
      rw [List.append_assoc]
      rfl
    rw [htext]
    exact ⟨Ada.units_append_newline ha b, Ada.skipped_append_newline ha b,
      fun file x => Diagnostic.ofSkipped_append_newline file a b x⟩
  · intro files naming hclosed
    have hfunctions : functionsOf (Bytes.joinWith (bytes "\n") (files.map (·.2))) =
        files.flatMap fun f => functionsOf f.2 := by
      rw [functionsOf_joinWith, List.flatMap_map]
      intro s hs
      rw [← List.map_dropLast] at hs
      obtain ⟨f, hf, rfl⟩ := List.mem_map.mp hs
      exact hclosed f hf
    refine ⟨Artifacts.ofSources files naming, rfl, ?_, ?_⟩
    · rw [Artifacts.header_ofSources, Artifacts.header_ofText, hfunctions]
    · rw [Artifacts.implementation_ofSources, Artifacts.implementation_ofText, hfunctions]

/-- A header that is reported behind a closed text, in one text and in two files. -/
theorem extraction_local_two_files :
    let a := bytes "function F(X) return T is\nbegin null; end F;"
    let b := bytes "\n  function G( function H(Y) return T is end H;"
    let files := [(bytes "a.adb", a), (bytes "b.adb", b)]
    Ada.Closed a ∧ (Ada.units a).length = 1 ∧ (Ada.skipped b).length = 1 ∧
      Ada.units (a ++ bytes "\n" ++ b) =
        Ada.units a ++ (Ada.units b).map (Ada.FunctionUnit.shift (a.length + 1)) ∧
      Ada.skipped (a ++ bytes "\n" ++ b) =
        (Ada.skipped b).map (Ada.Skipped.shift (a.length + 1)) ∧
      (∀ x ∈ Ada.skipped b,
        (Diagnostic.ofSkipped [] (a ++ bytes "\n" ++ b) (x.shift (a.length + 1))).line = 4) ∧
      ∀ naming : C.Naming, ∃ made, Artifacts.ofSources? false files naming = some made ∧
        made.header =
          (Artifacts.ofText (Bytes.joinWith (bytes "\n") (files.map (·.2))) naming).header ∧
        made.implementation = Artifacts.implementation
          (Artifacts.ofText (Bytes.joinWith (bytes "\n") (files.map (·.2))) naming) := by
  intro a b files
  have ha : Ada.Closed a := by decide +kernel
  have hfiles : ∀ f ∈ files.dropLast, Ada.Closed f.2 := by
    intro f hf
    obtain rfl : f = (bytes "a.adb", a) := List.mem_singleton.mp hf
    exact ha
  obtain ⟨hunits, hskipped, hbehind⟩ := extraction_local.1 a b ha
  refine ⟨ha, by decide +kernel, by decide +kernel, hunits, hskipped, ?_,
    fun naming => extraction_local.2 files naming hfiles⟩
  intro x hx
  have hline : ∀ y ∈ Ada.skipped b,
      (Diagnostic.ofSkipped [] b y).line + (a.count 0x0A + 1) = 4 := by decide +kernel
  rw [hbehind [] x]
  exact hline x hx

end AdaToC
