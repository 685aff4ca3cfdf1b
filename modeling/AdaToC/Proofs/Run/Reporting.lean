import AdaToC.Proofs.Pool
import AdaToC.Proofs.Run.Stages
import AdaToC.Proofs.Settings

/-!
# Reporting options

Four settings say how a run reports and how it shares out its work: the log level, the number of
jobs, whether skipped headers are reported, and whether the result is compared. Two runs that differ
in these alone leave the same tree and print the same.

The number of jobs matters to the pool in which the texts are converted. `Run.Pooled` is a run that
leaves the conversion to a pool under any schedule; such a run is the sequential one.
-/

namespace AdaToC

/-! ## The conversion in a pool -/

namespace Pool

variable {bound : Nat} {naming : C.Naming} {p p' : Pool} {a : Action}
  {files : List (Bytes × Bytes)} {cancelled : Bool} {converted : Option Artifacts}

/-- What a pool can give under some schedule, if nobody cancels it once it has begun. -/
def Gives (bound : Nat) (cancelled : Bool) (files : List (Bytes × Bytes)) (naming : C.Naming)
    (converted : Option Artifacts) : Prop :=
  ∃ schedule p answer,
    run bound naming (initial files (if cancelled then some .canceled else none)) schedule =
        some p ∧
      (cancelled = true ∨ p.outer = none) ∧ p.answer = some answer ∧ answer.artifacts? = converted

theorem Gives.eq_ofSources? (h : Gives bound cancelled files naming converted) :
    converted = Artifacts.ofSources? cancelled files naming := by
  obtain ⟨schedule, p, answer, hrun, houter, hanswer, rfl⟩ := h
  cases cancelled with
  | false => exact artifacts?_of_run hrun hanswer (houter.imp_left nofun)
  | true => exact artifacts?_of_run hrun hanswer (Or.inl nofun)

theorem Steps.outer_eq (h : Steps bound naming p a p') (hcancel : ∀ c, a ≠ .cancel c) :
    p'.outer = p.outer := by
  cases h with
  | cancel houter => exact absurd rfl (hcancel _)
  | _ => rfl

/-- Left to itself, a pool comes to an answer. -/
theorem exists_schedule (hbound : 0 < bound) (naming : C.Naming) (p : Pool) :
    ∃ schedule p', run bound naming p schedule = some p' ∧ p'.outer = p.outer ∧
      p'.answer.isSome := by
  induction hdistance : p.distance using Nat.strongRecOn generalizing p with
  | ind n ih =>
    subst hdistance
    cases hanswer : p.answer with
    | some answer => exact ⟨[], p, rfl, rfl, by rw [hanswer]; rfl⟩
    | none =>
      -- some worker can go on, and every step brings the pool nearer to its end
      obtain ⟨a, hcancel, hsome⟩ : ∃ a, (∀ c, a ≠ .cancel c) ∧ (p.step bound naming a).isSome :=
        exists_step hbound hanswer
      obtain ⟨q, hstep⟩ := Option.isSome_iff_exists.mp hsome
      have hsteps := steps_of_step hstep
      obtain ⟨schedule, p', hrun, houter, hend⟩ := ih _ hsteps.distance_lt q rfl
      refine ⟨a :: schedule, p', ?_, houter.trans (hsteps.outer_eq hcancel), hend⟩
      rw [run, hstep]
      exact hrun

theorem gives_ofSources? (hbound : 0 < bound) (cancelled : Bool) (files : List (Bytes × Bytes))
    (naming : C.Naming) :
    Gives bound cancelled files naming (Artifacts.ofSources? cancelled files naming) := by
  obtain ⟨schedule, p, hrun, houter, hanswer⟩ := exists_schedule hbound naming
    (initial files (if cancelled then some .canceled else none))
  obtain ⟨answer, hanswer⟩ := Option.isSome_iff_exists.mp hanswer
  have hnever : cancelled = true ∨ p.outer = none := by
    cases cancelled with
    | true => exact Or.inl rfl
    | false => exact Or.inr houter
  have hgives : Gives bound cancelled files naming answer.artifacts? :=
    ⟨schedule, p, answer, hrun, hnever, hanswer, rfl⟩
  rw [← hgives.eq_ofSources?]
  exact hgives

end Pool

namespace Run

open Log

/-- What a run can leave behind whose texts are converted in a pool, on a machine with some number
of processors. -/
inductive Pooled (processors : Nat) (t : FileTree) (inv : Invocation) : Outcome → Prop where
  /-- The run does not come to the conversion. -/
  | unconverted (h : ∀ x, ¬ Loads t inv x) : Pooled processors t inv (run t inv)
  | converted {x : Load} {converted : Option Artifacts} (hloads : Loads t inv x)
      (hgives : Pool.Gives (Pool.limit x.settings.jobs processors) inv.cancelled
        (namedTexts x.files) (naming x.manifest) converted) :
      Pooled processors t inv (x.outcome t inv.workDir converted)

variable {processors : Nat} {t : FileTree} {inv : Invocation} {o : Outcome}

theorem Pooled.eq_run (h : Pooled processors t inv o) : o = run t inv := by
  cases h with
  | unconverted h => rfl
  | converted hloads hgives => rw [hloads.run_eq, hgives.eq_ofSources?]

/-- Runs in a pool are the sequential run, whatever the number of jobs. -/
theorem pooled_iff (hprocessors : 0 < processors) : Pooled processors t inv o ↔ o = run t inv := by
  refine ⟨Pooled.eq_run, ?_⟩
  rintro rfl
  by_cases hloads : ∃ x, Loads t inv x
  · obtain ⟨x, hloads⟩ := hloads
    have hlimit : 0 < Pool.limit x.settings.jobs processors := by
      unfold Pool.limit
      split <;> omega
    rw [hloads.run_eq]
    exact .converted hloads (Pool.gives_ofSources? hlimit _ _ _)
  · exact .unconverted fun x hx => hloads ⟨x, hx⟩

/-! ## Two runs -/

/-- Two settings ask for the same work. They may differ in the log level, the number of jobs, and
whether skipped headers are reported and the result is compared. -/
structure SameWork (s s' : Settings) : Prop where
  inputs : s.inputs = s'.inputs
  config : s.config = s'.config
  out : s.out = s'.out
  stdout : s.stdout = s'.stdout
  help : s.help = s'.help

/-- Two runs fail alike, but for a comparison that only one of them makes. -/
inductive FailAlike (s s' : Settings) : Option Failure → Option Failure → Prop where
  | same (failure : Option Failure) : FailAlike s s' failure failure
  | first (e : Reference.Error) (h : s.noCompare = false) (h' : s'.noCompare = true) :
      FailAlike s s' (some (.comparison e)) none
  | second (e : Reference.Error) (h : s.noCompare = true) (h' : s'.noCompare = false) :
      FailAlike s s' none (some (.comparison e))

variable {s s' : Settings} {workDir : Bytes} {m : Manifest}

theorem SameWork.chooseManifest_eq (h : SameWork s s') (t : FileTree) (basis : Basis)
    (workDir : Bytes) :
    chooseManifest t basis workDir s = chooseManifest t basis workDir s' := by
  unfold chooseManifest
  rw [h.config]

theorem SameWork.loadSources_eq (h : SameWork s s') (t : FileTree) (tables : Encoding.Tables)
    (workDir : Bytes) (m : Manifest) :
    loadSources t tables workDir s m = loadSources t tables workDir s' m := by
  unfold loadSources
  rw [h.inputs]

theorem SameWork.emit_eq (h : SameWork s s') (t : FileTree) (workDir : Bytes) (m : Manifest)
    (a : Artifacts) : emit t workDir s m a = emit t workDir s' m a := by
  unfold emit outputPaths
  rw [h.stdout, h.out]

/-- The failure that a comparison ends a run with. -/
def comparisonFailure : Except Reference.Error (List Record) → Option Failure
  | .error e => some (.comparison e)
  | .ok _ => none

theorem compare_alike (s s' : Settings) (t : FileTree) (m : Manifest) (implementation : Bytes) :
    FailAlike s s' (comparisonFailure (compare t s m implementation))
      (comparisonFailure (compare t s' m implementation)) := by
  have hskip : ∀ {s : Settings}, s.noCompare = true → compare t s m implementation = .ok [] := by
    intro s h
    simp [compare, h]
  -- a comparison that is not made does not fail, and one that both make is the same
  cases h : s.noCompare with
  | true =>
    rw [hskip h]
    cases h' : s'.noCompare with
    | true =>
      rw [hskip h']
      exact .same _
    | false =>
      cases compare t s' m implementation with
      | error e => exact .second e h h'
      | ok records => exact .same _
  | false =>
    cases h' : s'.noCompare with
    | true =>
      rw [hskip h']
      cases compare t s m implementation with
      | error e => exact .first e h h'
      | ok records => exact .same _
    | false =>
      have hsame : compare t s m implementation = compare t s' m implementation := by
        unfold compare
        rw [h, h']
      rw [hsame]
      exact .same _

/-- A run whose output succeeded fails only if the comparison does. -/
theorem finish_emitted {tree : FileTree} {stdout : Bytes} {records log : List Record}
    {a : Artifacts} (hfunctions : a.functions.isEmpty = false)
    (hemit : emit t workDir s m a = (tree, stdout, records, none)) :
    (finish t workDir s m log (some a)).tree = tree ∧
      (finish t workDir s m log (some a)).stdout = stdout ∧
      (finish t workDir s m log (some a)).failure =
        comparisonFailure (compare tree s m a.implementation) := by
  simp only [finish, hfunctions, Bool.false_eq_true, if_false, hemit]
  cases compare tree s m a.implementation <;> exact ⟨rfl, rfl, rfl⟩

theorem SameWork.finish_alike (h : SameWork s s') (t : FileTree) (workDir : Bytes) (m : Manifest)
    (log log' : List Record) (converted : Option Artifacts) :
    (finish t workDir s m log converted).tree = (finish t workDir s' m log' converted).tree ∧
      (finish t workDir s m log converted).stdout =
        (finish t workDir s' m log' converted).stdout ∧
      FailAlike s s' (finish t workDir s m log converted).failure
        (finish t workDir s' m log' converted).failure := by
  cases converted with
  | none => exact ⟨rfl, rfl, .same _⟩
  | some a =>
    cases hfunctions : a.functions.isEmpty with
    | true =>
      simp only [finish, hfunctions, if_true, true_and]
      exact .same _
    | false =>
      rcases hemit : emit t workDir s' m a with ⟨tree, stdout, records, failure⟩
      have hemit' := (h.emit_eq t workDir m a).trans hemit
      cases failure with
      | some e =>
        simp only [finish, hfunctions, hemit, hemit', Bool.false_eq_true, if_false, true_and]
        exact .same _
      | none =>
        obtain ⟨htree, hstdout, hfailure⟩ := finish_emitted hfunctions hemit'
        obtain ⟨htree', hstdout', hfailure'⟩ := finish_emitted hfunctions hemit
        rw [htree, hstdout, hfailure, htree', hstdout', hfailure']
        exact ⟨rfl, rfl, compare_alike s s' tree m a.implementation⟩

theorem SameWork.withSettings_alike (h : SameWork s s') (t : FileTree) (inv : Invocation) :
    (withSettings t inv s).tree = (withSettings t inv s').tree ∧
      (withSettings t inv s).stdout = (withSettings t inv s').stdout ∧
      FailAlike s s' (withSettings t inv s).failure (withSettings t inv s').failure := by
  simp only [withSettings, h.chooseManifest_eq, h.loadSources_eq]
  split
  · exact ⟨rfl, rfl, .same _⟩
  · split
    · exact ⟨rfl, rfl, .same _⟩
    · exact h.finish_alike _ _ _ _ _ _

/-- The records of a run depend neither on the level of the log nor on the number of jobs. -/
theorem SameWork.log_withSettings (h : SameWork s s')
    (hdiagnostics : s.diagnostics = s'.diagnostics) (hcompare : s.noCompare = s'.noCompare)
    (t : FileTree) (inv : Invocation) :
    (withSettings t inv s).log = (withSettings t inv s').log := by
  have hfinish : ∀ m log converted,
      finish t inv.workDir s m log converted = finish t inv.workDir s' m log converted := by
    intro m log converted
    have hrecords : functionRecords s = functionRecords s' := by
      funext a
      unfold functionRecords
      rw [hdiagnostics]
    have hcompared : ∀ tree implementation,
        compare tree s m implementation = compare tree s' m implementation := by
      intro tree implementation
      unfold compare
      rw [hcompare]
    cases converted with
    | none => rfl
    | some a => simp only [finish, hrecords, h.emit_eq, hcompared]
  simp only [withSettings, h.chooseManifest_eq, h.loadSources_eq, hfinish]

theorem visible_debug (records : List Record) : visible .debug records = records := by
  unfold visible
  rw [List.filter_eq_self]
  intro r hr
  cases r.level <;> decide

/-- What a run leaves and prints, and how it fails, does not depend on the reporting options, nor on
the schedule of the pool; only the comparison may fail in one run and not be made in the other. The
log at a level holds the records of the log at the lowest level that are not below it. -/
theorem reporting_options_keep_artifacts (t : FileTree) (inv : Invocation) (args : List Bytes)
    (env : Environment) (s s' : Settings) (hread : Settings.read inv.args inv.env = .ok s)
    (hread' : Settings.read args env = .ok s') (hsame : SameWork s s')
    (processors processors' : Nat) (o o' : Outcome) (hrun : Pooled processors t inv o)
    (hrun' : Pooled processors' t { inv with args, env } o') :
    o.tree = o'.tree ∧ o.stdout = o'.stdout ∧ FailAlike s s' o.failure o'.failure ∧
      (s.diagnostics = s'.diagnostics → s.noCompare = s'.noCompare → s'.logLevel = .debug →
        o.log = o'.log.filter fun r => s.logLevel.rank ≤ r.level.rank) := by
  rw [hrun.eq_run, hrun'.eq_run]
  -- once the settings are read, a run does not look at its command line
  have hargs : withSettings t { inv with args, env } s' = withSettings t inv s' := rfl
  unfold run
  simp only [hread, hread', hsame.help, hargs]
  split
  · exact ⟨rfl, rfl, .same _, fun _ _ _ => rfl⟩
  · obtain ⟨htree, hstdout, hfailure⟩ := hsame.withSettings_alike t inv
    refine ⟨htree, hstdout, hfailure, fun hdiagnostics hcompare hdebug => ?_⟩
    simp only [hdebug, visible_debug, hsame.log_withSettings hdiagnostics hcompare t inv]
    rfl

/-- A directory stands where the reference is looked for. The run that compares fails, the one that
does not succeeds, and the generated files are the same; its log at level `warn` is the part of its
log at level `debug` from `warn` on. -/
theorem reporting_options_keep_artifacts_unreadable_reference :
    let t : FileTree := { entries := [([bytes "p"], .directory),
      ([bytes "p", bytes "ada_math_android.c"], .directory),
      ([bytes "p", bytes "library.adb"], .file (bytes "function F() return T is end F;"))] }
    let inv : Invocation :=
      { args := [bytes "--no-compare", bytes "-l", bytes "warn"], env := {}
        workDir := bytes "/p", cancelled := false }
    let comparing := [bytes "--diagnostics"]
    let loud := [bytes "--no-compare", bytes "-j", bytes "7", bytes "-l", bytes "debug"]
    (run t inv).failure = none ∧ (run t { inv with args := comparing, env := {} }).failure ≠ none ∧
      (run t inv).tree = (run t { inv with args := comparing, env := {} }).tree ∧
      (run t inv).log = (run t { inv with args := loud, env := {} }).log.filter fun r =>
        Level.warn.rank ≤ r.level.rank := by
  intro t inv comparing loud
  let s : Settings :=
    { inputs := [], config := [], out := [], logLevel := .warn, jobs := 0, stdout := false
      noCompare := true, diagnostics := false, help := false }
  let s' : Settings := { s with logLevel := .info, noCompare := false, diagnostics := true }
  let s'' : Settings := { s with logLevel := .debug, jobs := 7 }
  have hread : Settings.read inv.args inv.env = .ok s := by decide +kernel
  have hread' : Settings.read comparing {} = .ok s' := by decide +kernel
  have hread'' : Settings.read loud {} = .ok s'' := by decide +kernel
  have hpooled : ∀ i, Pooled 1 t i (run t i) := fun i => (pooled_iff Nat.one_pos).mpr rfl
  obtain ⟨htree, -⟩ := reporting_options_keep_artifacts t inv comparing {} s s' hread hread'
    ⟨rfl, rfl, rfl, rfl, rfl⟩ 1 1 (run t inv) (run t { inv with args := comparing, env := {} })
    (hpooled inv) (hpooled { inv with args := comparing, env := {} })
  obtain ⟨-, -, -, hlog⟩ := reporting_options_keep_artifacts t inv loud {} s s'' hread hread''
    ⟨rfl, rfl, rfl, rfl, rfl⟩ 1 1 (run t inv) (run t { inv with args := loud, env := {} })
    (hpooled inv) (hpooled { inv with args := loud, env := {} })
  refine ⟨?_, ?_, htree, hlog rfl rfl rfl⟩
  · decide +kernel
  · decide +kernel

end Run

end AdaToC
