import AdaToC.Proofs.Text.Replacement
import AdaToC.Run

/-!
# Comparison up to the name of the header

Before a generated implementation is compared with the reference, the name of its header is replaced
by the name under which the reference includes it. The name is replaced wherever it stands, in the
fixed lines, in names and in bodies as well as in the line that includes the header. So texts that
differ in the included name alone are found to agree if the name stands in no other place, and where
it does they are not, unless the name of the reference is shorter.
-/

namespace AdaToC

namespace C

/-- The generated implementation from the quotation mark on that ends the name of the header. -/
def behindHeaderName (fns : List Function) (generator : Bytes) : Bytes :=
  bytes "\"\n#include <math.h>\n\n" ++
  bytes "// Auto-generated from Ada source - DO NOT EDIT MANUALLY\n" ++
  bytes "// Generated by " ++ generator.orElse (bytes "ada2c") ++ bytes "\n\n" ++
  fns.flatMap fun f => f.definition ++ bytes "\n\n"

/-- The name of a header is met in the implementation that includes it only where it is included, if
its occurrences are taken from left to right without overlap. -/
def NamedOnce (fns : List Function) (naming : Naming) : Prop :=
  Bytes.SoleBehind naming.header (bytes "#include \"") (behindHeaderName fns naming.generator)

instance (fns : List Function) (naming : Naming) : Decidable (NamedOnce fns naming) :=
  inferInstanceAs (Decidable (Bytes.SoleBehind _ _ _))

theorem implementationText_eq (fns : List Function) {header : Bytes} (h : header ≠ [])
    (generator : Bytes) :
    implementationText fns ⟨header, generator⟩ =
      bytes "#include \"" ++ (header ++ behindHeaderName fns generator) := by
  have hheader : header.orElse (bytes "ada_math.h") = header := by
    simp [Bytes.orElse, h]
  simp only [implementationText, preamble, Naming.complete, hheader, behindHeaderName,
    List.append_assoc]

end C

namespace Reference

variable {fns : List Function} {generator g c : Bytes}

theorem normalize_of_ne (hg : g ≠ []) (hdiff : g ≠ c) (generated : Bytes) :
    normalize generated g c = Bytes.replaceAll g c generated := by
  simp [normalize, hg, hdiff]

theorem normalize_self (generated : Bytes) : normalize generated g g = generated := by
  simp [normalize]

/-- If the header is named once, its name is all that changes. -/
theorem normalize_implementationText (hg : g ≠ []) (hc : c ≠ [])
    (h : g = c ∨ C.NamedOnce fns ⟨g, generator⟩) :
    normalize (C.implementationText fns ⟨g, generator⟩) g c =
      C.implementationText fns ⟨c, generator⟩ := by
  by_cases hdiff : g = c
  · subst hdiff
    exact normalize_self _
  · have honce : C.NamedOnce fns ⟨g, generator⟩ := h.resolve_left hdiff
    rw [normalize_of_ne hg hdiff, C.implementationText_eq fns hg, C.implementationText_eq fns hc,
      Bytes.SoleBehind.replaceAll_eq hg honce]

theorem agrees_of_namedOnce {existing : Bytes} (hg : g ≠ []) (hc : c ≠ [])
    (h : g = c ∨ C.NamedOnce fns ⟨g, generator⟩)
    (hexisting : (C.implementationText fns ⟨c, generator⟩).occursIn existing = true) :
    agrees (C.implementationText fns ⟨g, generator⟩) existing g c = true := by
  rw [agrees, normalize_implementationText hg hc h]
  exact hexisting

theorem not_agrees_of_not_namedOnce (hg : g ≠ []) (hc : c ≠ []) (hdiff : g ≠ c)
    (hle : g.length ≤ c.length) (hquote : 0x22 ∉ g) (h : ¬ C.NamedOnce fns ⟨g, generator⟩) :
    agrees (C.implementationText fns ⟨g, generator⟩) (C.implementationText fns ⟨c, generator⟩) g c =
      false := by
  rw [Bool.eq_false_iff, ne_eq, agrees, Bytes.occursIn_iff_isInfix, normalize_of_ne hg hdiff,
    C.implementationText_eq fns hg, C.implementationText_eq fns hc]
  have hfront : bytes "#include \"" = bytes "#include " ++ [0x22] := by decide
  rw [C.NamedOnce, hfront] at h
  rw [hfront]
  exact Bytes.not_infix_of_not_soleBehind hg hdiff hle hquote h

/-- A run reports agreement where the comparison finds it. -/
theorem compare_of_agrees {t : FileTree} {s : Settings} {m : Manifest} {generated existing : Bytes}
    (hcompare : s.noCompare = false) (henabled : m.compare.enabled = true)
    (hread : t.readFile m.referencePath m.referencePath = .ok existing)
    (h : agrees generated existing m.output.header m.output.canonicalHeader = true) :
    Run.compare t s m generated =
      .ok [Run.record .info "Generated code matches existing implementation"
        [("path", .text m.referencePath)]] := by
  simp [Run.compare, hcompare, henabled, Reference.check, hread, h]

/-- Implementations that differ only in the name of the included header agree, and a run reports it,
if the names are the same or the generated text holds its own only where the header is included.
The condition cannot be left out: a name without a quotation mark, not longer than the other, that
is met in another place is replaced there too, and then the texts do not agree. -/
theorem agrees_up_to_included_name :
    (∀ (fns : List Function) (generator g c existing : Bytes), g ≠ [] → c ≠ [] →
      (C.implementationText fns ⟨c, generator⟩).occursIn existing = true →
      g = c ∨ C.NamedOnce fns ⟨g, generator⟩ →
      agrees (C.implementationText fns ⟨g, generator⟩) existing g c = true) ∧
    (∀ (fns : List Function) (generator g c : Bytes), g ≠ [] → c ≠ [] → g ≠ c →
      g.length ≤ c.length → 0x22 ∉ g → ¬ C.NamedOnce fns ⟨g, generator⟩ →
      agrees (C.implementationText fns ⟨g, generator⟩) (C.implementationText fns ⟨c, generator⟩)
        g c = false) ∧
    (∀ (t : FileTree) (s : Settings) (m : Manifest) (fns : List Function) (existing : Bytes),
      s.noCompare = false → m.compare.enabled = true →
      m.output.header ≠ [] → m.output.canonicalHeader ≠ [] →
      t.readFile m.referencePath m.referencePath = .ok existing →
      (C.implementationText fns
        { Run.naming m with header := m.output.canonicalHeader }).occursIn existing = true →
      m.output.header = m.output.canonicalHeader ∨ C.NamedOnce fns (Run.naming m) →
      Run.compare t s m (C.implementationText fns (Run.naming m)) =
        .ok [Run.record .info "Generated code matches existing implementation"
          [("path", .text m.referencePath)]]) := by
  refine ⟨?_, ?_, ?_⟩
  · intro fns generator g c existing hg hc hexisting h
    exact agrees_of_namedOnce hg hc h hexisting
  · intro fns generator g c hg hc hdiff hle hquote h
    exact not_agrees_of_not_namedOnce hg hc hdiff hle hquote h
  · intro t s m fns existing hcompare henabled hg hc hread hexisting h
    exact compare_of_agrees hcompare henabled hread (agrees_of_namedOnce hg hc h hexisting)

/-- The default names agree in a project with its reference, a header that is called like the one of
the C library does not. -/
theorem agrees_up_to_included_name_default :
    let half : Function :=
      ⟨bytes "Half", [⟨bytes "X", bytes "Float"⟩], bytes "Float", bytes "null; "⟩
    let m := Manifest.default (bytes "/p")
    let s : Settings := ⟨[], [], [], .info, 0, false, false, false, false⟩
    let kept := C.implementationText [half] ⟨bytes "ada_math.h", bytes "ada2c"⟩
    let t : FileTree := { entries := [([bytes "p"], .directory),
      ([bytes "p", bytes "ada_math_android.c"], .file (bytes "/* by hand */\n" ++ kept))] }
    C.NamedOnce [half] (Run.naming m) ∧ ¬ C.NamedOnce [half] ⟨bytes "math.h", []⟩ ∧
      Run.compare t s m (C.implementationText [half] (Run.naming m)) =
        .ok [Run.record .info "Generated code matches existing implementation"
          [("path", .text (bytes "/p/ada_math_android.c"))]] ∧
      agrees (C.implementationText [half] ⟨bytes "ada_math_generated.h", bytes "ada2c"⟩) kept
        (bytes "ada_math_generated.h") (bytes "ada_math.h") = true ∧
      agrees (C.implementationText [half] ⟨bytes "math.h", []⟩) kept (bytes "math.h")
        (bytes "ada_math.h") = false := by
  intro half m s kept t
  have honce : C.NamedOnce [half] (Run.naming m) := by decide +kernel
  have htwice : ¬ C.NamedOnce [half] ⟨bytes "math.h", []⟩ := by decide +kernel
  obtain ⟨hagrees, hdiffers, hreported⟩ := agrees_up_to_included_name
  refine ⟨honce, htwice, ?_, ?_, ?_⟩
  · exact hreported t s m [half] _ rfl rfl (by decide) (by decide) rfl (by decide +kernel)
      (Or.inr honce)
  · exact hagrees [half] (bytes "ada2c") _ _ kept (by decide) (by decide) (by decide +kernel)
      (Or.inr honce)
  · exact hdiffers [half] [] _ _ (by decide) (by decide) (by decide) (by decide) (by decide) htwice

/-- A header that is called like the one of the C library: the line that includes the latter is
changed as well, and the texts do not agree although they differ in the first line only. -/
theorem included_name_replaced_elsewhere :
    let generated := C.implementationText [] ⟨bytes "math.h", bytes "ada2c"⟩
    let existing := C.implementationText [] ⟨bytes "ada_math.h", bytes "ada2c"⟩
    existing.occursIn existing = true ∧
      agrees generated existing (bytes "math.h") (bytes "ada_math.h") = false := by
  decide +kernel

end Reference

end AdaToC
