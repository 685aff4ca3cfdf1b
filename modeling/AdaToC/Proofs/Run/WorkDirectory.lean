import AdaToC.Proofs.Run.Stages
import AdaToC.Proofs.Settings.Trailing

/-!
# A project is built from any of its directories

Without inputs, a run looks for the manifest from the working directory outwards, and takes
everything else from the manifest: all paths are followed from the directory of the manifest. So two
runs whose nearest manifest is the same one do not differ at all.
-/

namespace AdaToC

namespace CommandLine

theorem last?_of_not_given {flag : Flag} {args : List Bytes} (h : ¬ Given flag args) :
    last? flag (assignments args) = none := by
  have hnone : (assignments args).filterMap (valueFor? flag) = [] := by
    rw [List.filterMap_eq_nil_iff]
    intro a ha
    obtain ⟨piece, hpiece, hassign⟩ := List.mem_filterMap.mp ha
    refine dif_neg ?_
    rintro rfl
    apply h
    cases piece with
    | input arg => cases hassign
    | flag arg value =>
      refine ⟨arg, value, hpiece, ?_⟩
      simp only [Piece.assignment?] at hassign
      cases hresult : assign arg value with
      | error e => simp [hresult, Except.toOption] at hassign
      | ok b =>
        obtain rfl : b = a := by simpa [hresult, Except.toOption] using hassign
        exact Flag.mem_names_of_named? (named_of_assign hresult).2
  rw [last?, hnone]
  rfl

end CommandLine

namespace Run

open CommandLine

/-! ## Runs without inputs -/

/-- Settings under which a run asks for the working directory only to find the manifest. -/
structure Portable (s : Settings) : Prop where
  inputs : s.inputs = []
  config : s.config = []
  out : s.out = [] ∨ Path.isAbsolute s.out = true

theorem portable_of_read {args : List Bytes} {env : Environment} {s : Settings}
    (hread : Settings.read args env = .ok s) (hinputs : CommandLine.inputs args = [])
    (hconfig : ¬ Given .config args)
    (hout : ∀ dir, last? .out (assignments args) = some dir →
      dir = [] ∨ Path.isAbsolute dir = true) :
    Portable s := by
  rw [read_eq (complete_of_read hread hinputs), interpret] at hread
  split at hread
  · cases hread
  · obtain ⟨jobs, level, -, -, rfl⟩ := settle_eq_ok_iff.mp hread
    unfold settled
    refine ⟨hinputs, by simp [last?_of_not_given hconfig], ?_⟩
    dsimp only
    cases hlast : last? .out (assignments args) with
    | none => exact Or.inl rfl
    | some dir => exact hout dir hlast

variable {t : FileTree} {basis : Basis} {tables : Encoding.Tables} {s : Settings} (d₁ d₂ : Bytes)

theorem Portable.chooseManifest_eq {d₁ d₂ : Bytes} (h : Portable s)
    (hsearch : Manifest.search t basis d₁ = Manifest.search t basis d₂)
    (hfound : Manifest.search t basis d₁ ≠ .error .notFound) :
    chooseManifest t basis d₁ s = chooseManifest t basis d₂ s := by
  unfold chooseManifest
  simp only [h.config, List.isEmpty_nil, if_true, ← hsearch]
  split
  · rfl
  · next hnone => exact absurd hnone hfound
  · rfl

theorem Portable.loadSources_eq (h : Portable s) (m : Manifest) :
    loadSources t tables d₁ s m = loadSources t tables d₂ s m := by
  simp [loadSources, h.inputs]

theorem Portable.outputPaths_eq (h : Portable s) (m : Manifest) :
    outputPaths d₁ s m = outputPaths d₂ s m := by
  unfold outputPaths
  rcases h.out with hempty | habs
  · simp [hempty]
  · simp only [Path.resolve, habs, if_true]

theorem Portable.finish_eq (h : Portable s) (m : Manifest) (log : List Log.Record)
    (converted : Option Artifacts) :
    finish t d₁ s m log converted = finish t d₂ s m log converted := by
  have hemit : ∀ a, emit t d₁ s m a = emit t d₂ s m a := by
    intro a
    unfold emit
    rw [h.outputPaths_eq d₁ d₂]
  cases converted with
  | none => rfl
  | some a => simp only [finish, hemit]

/-- Without inputs, without a manifest named on the command line, and with the generated files going
where the manifest says or to an absolute path, a run from one directory is the same as from any
other for which the same manifest is the nearest. -/
theorem run_eq_of_nearest (t : FileTree) (inv : Invocation) (d₁ d₂ : Bytes) (l : Location)
    (h₁ : Manifest.Nearest t d₁ l) (h₂ : Manifest.Nearest t d₂ l)
    (hinputs : CommandLine.inputs inv.args = []) (hconfig : ¬ Given .config inv.args)
    (hout : ∀ dir, last? .out (assignments inv.args) = some dir →
      dir = [] ∨ Path.isAbsolute dir = true) :
    run t { inv with workDir := d₁ } = run t { inv with workDir := d₂ } := by
  have hsearch : Manifest.search t inv.basis d₁ = Manifest.search t inv.basis d₂ := by
    rw [h₁.search_eq, h₂.search_eq]
  have hfound : Manifest.search t inv.basis d₁ ≠ .error .notFound := by
    rw [h₁.search_eq]
    exact Manifest.load_ne_notFound
  unfold run
  cases hread : Settings.read inv.args inv.env with
  | error e => rfl
  | ok s =>
    have hs := portable_of_read hread hinputs hconfig hout
    have hsettings : withSettings t { inv with workDir := d₁ } s =
        withSettings t { inv with workDir := d₂ } s := by
      unfold withSettings
      simp only [hs.chooseManifest_eq hsearch hfound, hs.loadSources_eq d₁ d₂, hs.finish_eq d₁ d₂]
    simp only [hsettings]

/-- A manifest with paths that lead out of its directory, and another manifest further out. The run
from a directory below gives what the run from the directory of the manifest gives. -/
theorem run_eq_of_nearest_below :
    let manifest := bytes "[source]\ndir = \"../lib\"\nfiles = []\n[output]\ndir = \"gen\"\n"
    let t : FileTree := { entries := [
      ([bytes "ada2c.toml"], .file []),
      ([bytes "lib"], .directory),
      ([bytes "lib", bytes "f.adb"], .file (bytes "function F() return T is end F;")),
      ([bytes "p"], .directory),
      ([bytes "p", bytes "ada2c.toml"], .file manifest),
      ([bytes "p", bytes "src"], .directory)] }
    let args := [bytes "--no-compare", bytes "-o", bytes "/out"]
    let inv : Invocation := { args, env := {}, workDir := bytes "/p/src", cancelled := false }
    Manifest.Nearest t (bytes "/p/src") [bytes "p"] ∧ Manifest.Nearest t (bytes "/p") [bytes "p"] ∧
      CommandLine.inputs args = [] ∧ ¬ Given .config args ∧
      last? .out (assignments args) = some (bytes "/out") ∧
      run t inv = run t { inv with workDir := bytes "/p" } ∧ (run t inv).failure = none ∧
      ((run t inv).tree.lookup [bytes "out", bytes "ada_math_generated.c"]).isSome := by
  intro manifest t args inv
  have hstands : Manifest.StandsAt t [bytes "p"] :=
    ⟨([bytes "p", bytes "ada2c.toml"], .file manifest), by decide +kernel⟩
  have hnone : t.find (Manifest.pathAt [bytes "p", bytes "src"]) = .error .noSuchEntry := by
    decide +kernel
  have hbelow : Manifest.Nearest t (bytes "/p/src") [bytes "p"] := by
    have hpath : t.locationOf (bytes "/p/src") = [bytes "p"] ++ [bytes "src"] := by
      decide +kernel
    refine ⟨hpath ▸ List.prefix_append _ _, hstands, ?_⟩
    intro l hl hhere
    rw [hpath] at hl
    rcases List.prefix_concat_iff.mp hl with rfl | hl
    · obtain ⟨found, hfound⟩ := hhere
      cases hnone.symm.trans hfound
    · exact hl
  have hhere : Manifest.Nearest t (bytes "/p") [bytes "p"] := by
    have hpath : t.locationOf (bytes "/p") = [bytes "p"] := by decide +kernel
    exact ⟨hpath ▸ List.prefix_rfl, hstands, fun l hl _ => hpath ▸ hl⟩
  have hinputs : CommandLine.inputs args = [] := by decide +kernel
  have hpieces : pieces args = [.flag (bytes "--no-compare") (some (bytes "true")),
      .flag (bytes "-o") (some (bytes "/out"))] := by
    decide +kernel
  have hconfig : ¬ Given .config args := by
    rintro ⟨arg, value, hpiece, hname⟩
    rw [hpieces] at hpiece
    simp only [List.mem_cons, List.not_mem_nil, or_false, Piece.flag.injEq] at hpiece
    rcases hpiece with ⟨rfl, -⟩ | ⟨rfl, -⟩ <;> exact absurd hname (by decide +kernel)
  have hlast : last? .out (assignments args) = some (bytes "/out") := by decide +kernel
  have hout : ∀ dir, last? .out (assignments args) = some dir →
      dir = [] ∨ Path.isAbsolute dir = true := by
    intro dir hdir
    rw [hlast, Option.some.injEq] at hdir
    exact Or.inr (hdir ▸ by decide +kernel)
  exact ⟨hbelow, hhere, hinputs, hconfig, hlast,
    run_eq_of_nearest t inv _ _ _ hbelow hhere hinputs hconfig hout, by decide +kernel⟩

end Run

end AdaToC
