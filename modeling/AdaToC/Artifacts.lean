import AdaToC.C.File
import AdaToC.Diagnostic

/-!
# From Ada texts to C files

Every Ada text is converted on its own; the generated files then hold the functions of all texts,
in the order of the texts.
-/

namespace AdaToC

/-- What one Ada text gave. -/
structure FileResult where
  file : Bytes
  functions : List Function
  diagnostics : List Diagnostic
  deriving DecidableEq, Repr

/-- The functions and diagnostics of one Ada text. -/
def FileResult.ofSource (file source : Bytes) : FileResult :=
  let findings := Ada.scan source
  { file
    functions := (findings.filterMap Ada.Finding.unit?).map Function.ofUnit
    diagnostics :=
      (findings.filterMap Ada.Finding.skipped?).map (Diagnostic.ofSkipped file source) }

/-- The generated files, with the results they were made from. -/
structure Artifacts where
  header : Bytes
  implementation : Bytes
  files : List FileResult
  deriving DecidableEq, Repr

namespace Artifacts

def functions (a : Artifacts) : List Function :=
  a.files.flatMap (·.functions)

def diagnostics (a : Artifacts) : List Diagnostic :=
  a.files.flatMap (·.diagnostics)

/-- The generated files for the results of some texts. -/
def ofResults (files : List FileResult) (naming : C.Naming) : Artifacts :=
  let fns := files.flatMap (·.functions)
  { header := C.headerText fns naming
    implementation := C.implementationText fns naming
    files }

/-- The generated files for one text that comes from no file. -/
def ofText (source : Bytes) (naming : C.Naming) : Artifacts :=
  ofResults [FileResult.ofSource [] source] naming

/-- The generated files for named texts. -/
def ofSources (sources : List (Bytes × Bytes)) (naming : C.Naming) : Artifacts :=
  ofResults (sources.map fun (name, source) => FileResult.ofSource name source) naming

/-- The generated files for named texts, unless the work was cancelled before it began. With no
text there is no work to cancel. -/
def ofSources? (cancelled : Bool) (sources : List (Bytes × Bytes)) (naming : C.Naming) :
    Option Artifacts :=
  if cancelled && !sources.isEmpty then none else some (ofSources sources naming)

end Artifacts

end AdaToC
