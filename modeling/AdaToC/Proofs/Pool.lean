import AdaToC.Artifacts
import AdaToC.Proofs.Text.Pieces
import AdaToC.Proofs.Traversal

/-!
# Converting texts in a pool of workers

The texts may be converted by several workers at a time. A caller may cancel the work at any moment,
and workers that start after they can see this do nothing but report it. `Pool.step` says what one
worker, the caller or the pool itself can do next; a schedule is a list of such actions.

Under every schedule the pool gives what converting the texts one after the other gives, or the
error of the cancellation. The invariant that carries this is `Pool.Consistent`: a result at a place
is the result of the text at that place, and a worker that ended without one has left an error
behind.

The group in which the workers run is taken to behave as follows. At most as many workers as the
limit run at a time, and they are started in the order of the texts. The context of the group is
cancelled by its first error, and by the outer context, which takes a step of its own. Waiting for
the group ends when all workers have ended, and gives the first error.
-/

namespace AdaToC

inductive Cause where
  | canceled
  | deadlineExceeded
  deriving DecidableEq, Repr

/-- How far the worker of a text has come. -/
inductive Phase where
  /-- It has not been started. -/
  | waiting
  /-- It has been started and has not looked at the context. -/
  | started
  /-- It has seen that the context is not cancelled. -/
  | working
  /-- It has seen that the context is cancelled. -/
  | refused (c : Cause)
  /-- It has stored its result. -/
  | stored
  | ended
  deriving DecidableEq, Repr

def Phase.isRunning : Phase → Bool
  | .waiting | .ended => false
  | _ => true

structure Task where
  name : Bytes
  source : Bytes
  phase : Phase := .waiting
  /-- The place where the worker stores what the text gave. -/
  result : Option FileResult := none
  deriving DecidableEq, Repr

/-- What the caller gets. -/
inductive Answer where
  | artifacts (a : Artifacts)
  | error (c : Cause)
  /-- The generated files were to be made although a result was missing. -/
  | crashed
  deriving DecidableEq, Repr

def Answer.artifacts? : Answer → Option Artifacts
  | .artifacts a => some a
  | _ => none

structure Pool where
  tasks : List Task
  /-- The error of the context that the caller passed. -/
  outer : Option Cause
  /-- The error of the context that the workers look at. -/
  group : Option Cause
  /-- The first error that a worker ended with. -/
  failure : Option Cause := none
  answer : Option Answer := none
  deriving DecidableEq, Repr

inductive Action where
  | cancel (c : Cause)
  /-- The cancellation of the outer context reaches that of the group. -/
  | propagate
  /-- The next text gets a worker. -/
  | start
  /-- The worker of the text at an index takes a step. -/
  | work (i : Nat)
  /-- The pool has waited for its workers and answers. -/
  | finish
  deriving DecidableEq, Repr

/-! ## Steps -/

/-- The next step of a worker: what becomes of its task, and the error that it ends with. -/
def Task.next (group : Option Cause) (t : Task) : Option (Task × Option Cause) :=
  match t.phase with
  | .waiting | .ended => none
  | .started =>
    match group with
    | some c => some ({ t with phase := .refused c }, none)
    | none => some ({ t with phase := .working }, none)
  | .working =>
    some ({ t with phase := .stored, result := some (FileResult.ofSource t.name t.source) }, none)
  | .refused c => some ({ t with phase := .ended }, some c)
  | .stored => some ({ t with phase := .ended }, none)

namespace Pool

/-- The number of workers that may run at a time. -/
def limit (jobs : Int) (processors : Nat) : Nat :=
  if jobs ≤ 0 then processors else jobs.toNat

/-- The pool for some texts and a context that may have been cancelled before. -/
def initial (files : List (Bytes × Bytes)) (before : Option Cause) : Pool where
  tasks := files.map fun (name, source) => { name, source }
  outer := before
  group := before

def running (p : Pool) : Nat :=
  p.tasks.countP (·.phase.isRunning)

/-- Only the first error is kept, and it cancels the context of the group. -/
def report (p : Pool) (e : Option Cause) : Pool :=
  { p with
    failure := p.failure.or e
    group := p.group.or (e.map fun _ => .canceled) }

/-- What the pool answers once its workers have ended. -/
def outcome (naming : C.Naming) (p : Pool) : Answer :=
  match p.failure with
  | some c => .error c
  | none =>
    match p.tasks.mapM (·.result) with
    | some results => .artifacts (Artifacts.ofResults results naming)
    | none => .crashed

def step (bound : Nat) (naming : C.Naming) (p : Pool) : Action → Option Pool
  | .cancel c => if p.outer = none then some { p with outer := some c } else none
  | .propagate => if p.group = none ∧ p.outer ≠ none then some { p with group := p.outer } else none
  | .start => do
    let i ← p.tasks.findIdx? (·.phase == .waiting)
    let t ← p.tasks[i]?
    if p.running < bound then some { p with tasks := p.tasks.set i { t with phase := .started } }
    else none
  | .work i => do
    let t ← p.tasks[i]?
    let (t', e) ← t.next p.group
    some ({ p with tasks := p.tasks.set i t' }.report e)
  | .finish =>
    if p.answer = none ∧ ∀ t ∈ p.tasks, t.phase = .ended then
      some { p with answer := some (p.outcome naming) }
    else none

/-- The pool after a schedule, if every action of it could be taken in turn. -/
def run (bound : Nat) (naming : C.Naming) : Pool → List Action → Option Pool
  | p, [] => some p
  | p, a :: schedule => (p.step bound naming a).bind fun q => run bound naming q schedule

end Pool

/-- What a step of a worker can be: what becomes of its task, and the error that it ends with. -/
inductive Task.Moves (group : Option Cause) (t : Task) : Task → Option Cause → Prop where
  | refuse {c : Cause} (hphase : t.phase = .started) (hgroup : group = some c) :
      Moves group t { t with phase := .refused c } none
  | accept (hphase : t.phase = .started) (hgroup : group = none) :
      Moves group t { t with phase := .working } none
  | store (hphase : t.phase = .working) :
      Moves group t
        { t with phase := .stored, result := some (FileResult.ofSource t.name t.source) } none
  | fail {c : Cause} (hphase : t.phase = .refused c) :
      Moves group t { t with phase := .ended } (some c)
  | succeed (hphase : t.phase = .stored) : Moves group t { t with phase := .ended } none

theorem Task.moves_of_next {group : Option Cause} {t t' : Task} {e : Option Cause}
    (h : t.next group = some (t', e)) : t.Moves group t' e := by
  unfold Task.next at h
  split at h
  · cases h
  · cases h
  · next hphase =>
    split at h
    · next c =>
      cases h
      exact .refuse hphase rfl
    · cases h
      exact .accept hphase rfl
  · next hphase =>
    cases h
    exact .store hphase
  · next c hphase =>
    cases h
    exact .fail hphase
  · next hphase =>
    cases h
    exact .succeed hphase

namespace Pool

/-- What a step of the pool can be, and when it can be taken. -/
inductive Steps (bound : Nat) (naming : C.Naming) (p : Pool) : Action → Pool → Prop where
  | cancel {c : Cause} (houter : p.outer = none) :
      Steps bound naming p (.cancel c) { p with outer := some c }
  | propagate (hgroup : p.group = none) (houter : p.outer ≠ none) :
      Steps bound naming p .propagate { p with group := p.outer }
  | start {i : Nat} {t : Task} (hroom : p.running < bound) (ht : p.tasks[i]? = some t)
      (hphase : t.phase = .waiting) :
      Steps bound naming p .start { p with tasks := p.tasks.set i { t with phase := .started } }
  | work {i : Nat} {t t' : Task} {e : Option Cause} (ht : p.tasks[i]? = some t)
      (hmoves : t.Moves p.group t' e) :
      Steps bound naming p (.work i) ({ p with tasks := p.tasks.set i t' }.report e)
  | finish (hanswer : p.answer = none) (hended : ∀ t ∈ p.tasks, t.phase = .ended) :
      Steps bound naming p .finish { p with answer := some (p.outcome naming) }

variable {bound : Nat} {naming : C.Naming} {p p' : Pool} {a : Action}

theorem steps_of_step (h : p.step bound naming a = some p') : Steps bound naming p a p' := by
  cases a with
  | cancel c =>
    rw [step] at h
    split at h
    · next houter =>
      cases h
      exact .cancel houter
    · cases h
  | propagate =>
    rw [step] at h
    split at h
    · next hready =>
      cases h
      exact .propagate hready.1 hready.2
    · cases h
  | start =>
    simp only [step, Option.bind_eq_bind, Option.bind_eq_some_iff] at h
    obtain ⟨i, hfind, t, ht, h⟩ := h
    split at h
    · next hroom =>
      cases h
      -- that the task is the first one that waits is not needed below
      obtain ⟨hlt, hwaiting, -⟩ := List.findIdx?_eq_some_iff_getElem.mp hfind
      rw [List.getElem?_eq_getElem hlt, Option.some.injEq] at ht
      rw [ht] at hwaiting
      exact .start hroom (by rw [← ht]; exact List.getElem?_eq_getElem hlt) (eq_of_beq hwaiting)
    · cases h
  | work i =>
    simp only [step, Option.bind_eq_bind, Option.bind_eq_some_iff] at h
    obtain ⟨t, ht, ⟨t', e⟩, hnext, h⟩ := h
    cases h
    exact .work ht (Task.moves_of_next hnext)
  | finish =>
    rw [step] at h
    split at h
    · next hready =>
      cases h
      exact .finish hready.1 hready.2
    · cases h

end Pool

/-! ## The invariant -/

/-- What holds of a task while the contexts and the first error are as given. -/
structure Task.Sound (group failure : Option Cause) (t : Task) : Prop where
  result_eq : ∀ r, t.result = some r → r = FileResult.ofSource t.name t.source
  of_refused : ∀ c, t.phase = .refused c → group = some c
  of_stored : t.phase = .stored → t.result ≠ none
  of_ended : t.phase = .ended → t.result ≠ none ∨ failure ≠ none

theorem Task.Sound.mono {group group' failure failure' : Option Cause} {t : Task}
    (h : t.Sound group failure) (hgroup : ∀ c, group = some c → group' = some c)
    (hfailure : failure ≠ none → failure' ≠ none) : t.Sound group' failure' where
  result_eq := h.result_eq
  of_refused c hphase := hgroup c (h.of_refused c hphase)
  of_stored := h.of_stored
  of_ended hphase := (h.of_ended hphase).imp_right hfailure

/-- A worker that ends has a result or leaves its error behind. -/
theorem Task.Sound.moves {group failure : Option Cause} {t t' : Task} {e : Option Cause}
    (h : t.Sound group failure) (hmoves : t.Moves group t' e) :
    t'.Sound group (failure.or e) := by
  cases hmoves with
  | refuse hphase hgroup =>
    refine ⟨h.result_eq, ?_, by simp, by simp⟩
    intro c hc
    cases hc
    exact hgroup
  | accept hphase hgroup => exact ⟨h.result_eq, by simp, by simp, by simp⟩
  | store hphase => exact ⟨by simp, by simp, by simp, by simp⟩
  | fail hphase =>
    refine ⟨h.result_eq, by simp, by simp, fun _ => Or.inr ?_⟩
    cases failure <;> simp
  | succeed hphase =>
    exact ⟨h.result_eq, by simp, by simp, fun _ => Or.inl (h.of_stored hphase)⟩

theorem Task.Moves.same_text {group : Option Cause} {t t' : Task} {e : Option Cause}
    (hmoves : t.Moves group t' e) : t'.name = t.name ∧ t'.source = t.source := by
  cases hmoves <;> exact ⟨rfl, rfl⟩

namespace Pool

variable {bound : Nat} {naming : C.Naming} {p p' : Pool} {a : Action}

structure Consistent (files : List (Bytes × Bytes)) (naming : C.Naming) (p : Pool) : Prop where
  files_eq : p.tasks.map (fun t => (t.name, t.source)) = files
  sound : ∀ t ∈ p.tasks, t.Sound p.group p.failure
  group_eq : ∀ c, p.group = some c → p.outer = some c
  failure_eq : ∀ c, p.failure = some c → p.group = some c
  failure_of_nil : p.tasks = [] → p.failure = none
  answer_eq : ∀ answer, p.answer = some answer →
    (∀ t ∈ p.tasks, t.phase = .ended) ∧ answer = p.outcome naming

theorem consistent_initial (files : List (Bytes × Bytes)) (naming : C.Naming)
    (before : Option Cause) : (initial files before).Consistent files naming where
  files_eq := by
    rw [initial, List.map_map]
    exact List.map_id files
  sound := by
    intro t ht
    obtain ⟨f, -, rfl⟩ := List.mem_map.mp ht
    exact ⟨by simp, by simp, by simp, by simp⟩
  group_eq c h := h
  failure_eq := by simp [initial]
  failure_of_nil _ := rfl
  answer_eq := by simp [initial]

theorem map_text_set {tasks : List Task} {i : Nat} {t t' : Task} (ht : tasks[i]? = some t)
    (htext : t'.name = t.name ∧ t'.source = t.source) :
    (tasks.set i t').map (fun t => (t.name, t.source)) = tasks.map fun t => (t.name, t.source) := by
  obtain ⟨hlt, rfl⟩ := List.getElem?_eq_some_iff.mp ht
  have hlt' : i < (tasks.map fun t => (t.name, t.source)).length := by simpa using hlt
  have hsame : (t'.name, t'.source) = (tasks.map fun t => (t.name, t.source))[i] := by
    rw [List.getElem_map, htext.1, htext.2]
  rw [List.map_set, hsame, List.set_getElem_self hlt']

/-- A task that has not ended may change, together with the first error, if this keeps it sound. -/
theorem Consistent.set {files : List (Bytes × Bytes)} (h : p.Consistent files naming) {i : Nat}
    {t t' : Task} (ht : p.tasks[i]? = some t) (hopen : t.phase ≠ .ended)
    (htext : t'.name = t.name ∧ t'.source = t.source) {failure : Option Cause}
    (hkept : p.failure ≠ none → failure ≠ none)
    (hfailure : ∀ c, failure = some c → p.group = some c) (hsound : t'.Sound p.group failure) :
    { p with tasks := p.tasks.set i t', failure }.Consistent files naming where
  files_eq := by
    rw [← h.files_eq]
    exact map_text_set ht htext
  sound := by
    intro u hu
    rcases List.mem_or_eq_of_mem_set hu with hmem | rfl
    · exact (h.sound u hmem).mono (fun c hc => hc) hkept
    · exact hsound
  group_eq := h.group_eq
  failure_eq := hfailure
  failure_of_nil := by
    intro hnil
    rw [List.set_eq_nil_iff] at hnil
    rw [hnil] at ht
    cases ht
  answer_eq := by
    -- a pool that has answered has no task left that could change
    intro answer hanswer
    exact absurd ((h.answer_eq answer hanswer).1 t (List.mem_of_getElem? ht)) hopen

/-- An error is reported only by a worker that has seen the context of the group cancelled, so the
report does not change that context. -/
theorem report_eq {e : Option Cause} (h : ∀ c, e = some c → p.group = some c) :
    p.report e = { p with failure := p.failure.or e } := by
  cases e with
  | none => simp [report]
  | some c => simp [report, h c rfl]

theorem Consistent.steps {files : List (Bytes × Bytes)} (h : p.Consistent files naming)
    (hsteps : Steps bound naming p a p') : p'.Consistent files naming := by
  cases hsteps with
  | cancel houter =>
    -- the context of the group follows the outer one, so it is not cancelled yet
    refine ⟨h.files_eq, h.sound, ?_, h.failure_eq, h.failure_of_nil, h.answer_eq⟩
    intro d hd
    rw [h.group_eq d hd] at houter
    cases houter
  | propagate hgroup houter =>
    -- nothing can have been refused or reported while the context of the group was open
    refine ⟨h.files_eq, ?_, fun d hd => hd, ?_, h.failure_of_nil, h.answer_eq⟩
    · intro t ht
      refine (h.sound t ht).mono ?_ id
      intro d hd
      rw [hgroup] at hd
      cases hd
    · intro d hd
      rw [h.failure_eq d hd] at hgroup
      cases hgroup
  | @start i t hroom ht hphase =>
    have hsound := h.sound t (List.mem_of_getElem? ht)
    have hopen : t.phase ≠ .ended := by simp [hphase]
    have hstarted : Task.Sound p.group p.failure { t with phase := .started } :=
      ⟨hsound.result_eq, by simp, by simp, by simp⟩
    refine h.set ht hopen ?_ id h.failure_eq hstarted
    exact ⟨rfl, rfl⟩
  | @work i t t' e ht hmoves =>
    have hsound := h.sound t (List.mem_of_getElem? ht)
    have hopen : t.phase ≠ .ended := by cases hmoves <;> simp_all
    -- the error that a worker ends with is the one it saw in the context of the group
    have hseen : ∀ c, e = some c → p.group = some c := by
      intro c hc
      cases hmoves with
      | fail hphase => exact hsound.of_refused c (by rw [hphase]; cases hc; rfl)
      | _ => cases hc
    have hreport : { p with tasks := p.tasks.set i t' }.report e =
        { p with tasks := p.tasks.set i t', failure := p.failure.or e } := report_eq hseen
    rw [hreport]
    refine h.set ht hopen hmoves.same_text ?_ ?_ (hsound.moves hmoves)
    · intro hsome
      cases hfailure : p.failure with
      | none => exact absurd hfailure hsome
      | some c => simp
    · intro c hc
      cases hfailure : p.failure with
      | none =>
        rw [hfailure, Option.none_or] at hc
        exact hseen c hc
      | some d =>
        rw [hfailure, Option.some_or] at hc
        exact h.failure_eq c (hfailure.trans hc)
  | finish hanswer hended =>
    refine ⟨h.files_eq, h.sound, h.group_eq, h.failure_eq, h.failure_of_nil, ?_⟩
    intro answer heq
    cases heq
    exact ⟨hended, rfl⟩

/-- What holds at first and is kept by every step holds after every schedule. -/
theorem run_induction {P : Pool → Prop}
    (hkeeps : ∀ {p p' : Pool} {a : Action}, P p → Steps bound naming p a p' → P p')
    {schedule : List Action} (hrun : run bound naming p schedule = some p') (h : P p) : P p' := by
  induction schedule generalizing p with
  | nil =>
    cases hrun
    exact h
  | cons a schedule ih =>
    rw [run, Option.bind_eq_some_iff] at hrun
    obtain ⟨q, hstep, hrest⟩ := hrun
    exact ih hrest (hkeeps h (steps_of_step hstep))

/-! ## Answers -/

/-- Where no error is left behind, every text has its result, in the order of the texts. -/
theorem Consistent.outcome_of_no_failure {files : List (Bytes × Bytes)}
    (h : p.Consistent files naming) (hended : ∀ t ∈ p.tasks, t.phase = .ended)
    (hfailure : p.failure = none) :
    p.outcome naming = .artifacts (Artifacts.ofSources files naming) := by
  have hresult : ∀ t ∈ p.tasks, t.result = some (FileResult.ofSource t.name t.source) := by
    intro t ht
    have hsound := h.sound t ht
    rcases hsound.of_ended (hended t ht) with hsome | herror
    · obtain ⟨r, hr⟩ := Option.ne_none_iff_exists'.mp hsome
      rw [hr, hsound.result_eq r hr]
    · exact absurd hfailure herror
  have hresults : p.tasks.mapM (·.result) =
      some (p.tasks.map fun t => FileResult.ofSource t.name t.source) :=
    mapM_eq_pure_map hresult
  rw [outcome, hfailure]
  simp only [hresults, Artifacts.ofSources, ← h.files_eq, List.map_map]
  rfl

/-- Once the pool has answered, the answer is that of the sequential conversion, or the error of the
outer context. -/
theorem Consistent.answer_cases {files : List (Bytes × Bytes)} (h : p.Consistent files naming)
    {answer : Answer} (hanswer : p.answer = some answer) :
    (p.failure = none ∧ answer = .artifacts (Artifacts.ofSources files naming)) ∨
      ∃ c, p.failure = some c ∧ p.outer = some c ∧ answer = .error c := by
  obtain ⟨hended, rfl⟩ := h.answer_eq answer hanswer
  cases hfailure : p.failure with
  | none => exact Or.inl ⟨rfl, h.outcome_of_no_failure hended hfailure⟩
  | some c =>
    refine Or.inr ⟨c, rfl, h.group_eq c (h.failure_eq c hfailure), ?_⟩
    rw [outcome, hfailure]

/-! ## Cancellation before the start -/

/-- No worker has seen a context that is not cancelled. -/
structure Refusing (c : Cause) (p : Pool) : Prop where
  group_eq : p.group = some c
  result_eq : ∀ t ∈ p.tasks, t.result = none ∧ t.phase ≠ .working

theorem refusing_initial (files : List (Bytes × Bytes)) (c : Cause) :
    (initial files (some c)).Refusing c where
  group_eq := rfl
  result_eq := by
    intro t ht
    obtain ⟨f, -, rfl⟩ := List.mem_map.mp ht
    exact ⟨rfl, by simp⟩

theorem Refusing.steps {c : Cause} (h : p.Refusing c) (hsteps : Steps bound naming p a p') :
    p'.Refusing c := by
  cases hsteps with
  | cancel houter => exact ⟨h.group_eq, h.result_eq⟩
  | propagate hgroup houter =>
    rw [h.group_eq] at hgroup
    cases hgroup
  | @start i t hroom ht hphase =>
    refine ⟨h.group_eq, ?_⟩
    intro u hu
    rcases List.mem_or_eq_of_mem_set hu with hmem | rfl
    · exact h.result_eq u hmem
    · exact ⟨(h.result_eq t (List.mem_of_getElem? ht)).1, by simp⟩
  | @work i t t' e ht hmoves =>
    have ht' := h.result_eq t (List.mem_of_getElem? ht)
    refine ⟨by simp [report, h.group_eq], ?_⟩
    intro u hu
    rcases List.mem_or_eq_of_mem_set hu with hmem | rfl
    · exact h.result_eq u hmem
    · cases hmoves with
      | refuse hphase hgroup => exact ⟨ht'.1, by simp⟩
      | accept hphase hgroup =>
        -- no worker gets past a context that is cancelled
        rw [h.group_eq] at hgroup
        cases hgroup
      | store hphase => exact absurd hphase ht'.2
      | fail hphase => exact ⟨ht'.1, by simp⟩
      | succeed hphase => exact ⟨ht'.1, by simp⟩
  | finish hanswer hended => exact ⟨h.group_eq, h.result_eq⟩

/-- With a text to convert, some worker has reported the cancellation. -/
theorem Refusing.answer_eq {files : List (Bytes × Bytes)} {c : Cause} (h : p.Refusing c)
    (hconsistent : p.Consistent files naming) {answer : Answer} (hanswer : p.answer = some answer)
    (hfiles : files ≠ []) : answer = .error c := by
  obtain ⟨t, ht⟩ : ∃ t, t ∈ p.tasks := by
    apply List.exists_mem_of_ne_nil
    intro hnil
    apply hfiles
    rw [← hconsistent.files_eq, hnil, List.map_nil]
  have hended := (hconsistent.answer_eq answer hanswer).1 t ht
  have hfailure : p.failure ≠ none := by
    rcases (hconsistent.sound t ht).of_ended hended with hresult | hfailure
    · exact absurd (h.result_eq t ht).1 hresult
    · exact hfailure
  rcases hconsistent.answer_cases hanswer with ⟨hnone, -⟩ | ⟨d, hd, -, hanswer⟩
  · exact absurd hnone hfailure
  · have hgroup := hconsistent.failure_eq d hd
    rw [h.group_eq] at hgroup
    rw [hanswer, Option.some.inj hgroup]

end Pool

/-! ## Progress -/

/-- The number of steps that a worker still takes at most. -/
def Phase.distance : Phase → Nat
  | .waiting => 4
  | .started => 3
  | .working => 2
  | .refused _ | .stored => 1
  | .ended => 0

theorem Task.Moves.distance_lt {group : Option Cause} {t t' : Task} {e : Option Cause}
    (hmoves : t.Moves group t' e) : t'.phase.distance < t.phase.distance := by
  cases hmoves with
  | refuse hphase _ | accept hphase _ | store hphase | fail hphase | succeed hphase =>
    simp [hphase, Phase.distance]

theorem Task.Moves.isRunning {group : Option Cause} {t t' : Task} {e : Option Cause}
    (hmoves : t.Moves group t' e) : t.phase.isRunning = true := by
  cases hmoves with
  | refuse hphase _ | accept hphase _ | store hphase | fail hphase | succeed hphase =>
    simp [hphase, Phase.isRunning]

theorem Task.exists_next {t : Task} (h : t.phase.isRunning = true) (group : Option Cause) :
    ∃ t' e, t.next group = some (t', e) := by
  unfold Task.next
  cases hphase : t.phase with
  | waiting => simp [hphase, Phase.isRunning] at h
  | ended => simp [hphase, Phase.isRunning] at h
  | started => cases group <;> exact ⟨_, _, rfl⟩
  | working => exact ⟨_, _, rfl⟩
  | refused c => exact ⟨_, _, rfl⟩
  | stored => exact ⟨_, _, rfl⟩

namespace Pool

variable {bound : Nat} {naming : C.Naming} {p p' : Pool} {a : Action}

def totalDistance (tasks : List Task) : Nat :=
  tasks.foldr (fun t rest => t.phase.distance + rest) 0

/-- The number of steps that are still taken at most. -/
def distance (p : Pool) : Nat :=
  totalDistance p.tasks + p.outer.isNone.toNat + p.group.isNone.toNat + p.answer.isNone.toNat

theorem totalDistance_set_lt {tasks : List Task} {i : Nat} {t t' : Task} (ht : tasks[i]? = some t)
    (hlt : t'.phase.distance < t.phase.distance) :
    totalDistance (tasks.set i t') < totalDistance tasks := by
  induction tasks generalizing i with
  | nil => simp at ht
  | cons u tasks ih =>
    cases i with
    | zero =>
      rw [List.getElem?_cons_zero, Option.some.injEq] at ht
      subst ht
      simp only [totalDistance, List.set_cons_zero, List.foldr_cons]
      omega
    | succ i =>
      rw [List.getElem?_cons_succ] at ht
      have hrest := ih ht
      simp only [totalDistance, List.set_cons_succ, List.foldr_cons] at hrest ⊢
      omega

theorem Steps.distance_lt (hsteps : Steps bound naming p a p') : p'.distance < p.distance := by
  cases hsteps with
  | cancel houter => simp [distance, houter]
  | propagate hgroup houter =>
    obtain ⟨c, hc⟩ := Option.ne_none_iff_exists'.mp houter
    simp [distance, hgroup, hc]
  | @start i t hroom ht hphase =>
    have hlt : totalDistance (p.tasks.set i { t with phase := .started }) < _ :=
      totalDistance_set_lt ht (by simp [hphase, Phase.distance])
    simp only [distance]
    omega
  | @work i t t' e ht hmoves =>
    have hlt := totalDistance_set_lt ht hmoves.distance_lt
    -- a report may cancel the context of the group, but never the other way round
    have hgroup : (p.group.or (e.map fun _ => Cause.canceled)).isNone.toNat ≤
        p.group.isNone.toNat := by
      cases p.group with
      | none => exact Bool.toNat_le _
      | some c => simp
    simp only [distance, report]
    omega
  | finish hanswer hended => simp [distance, hanswer]

theorem length_add_distance_le {schedule : List Action}
    (hrun : run bound naming p schedule = some p') :
    schedule.length + p'.distance ≤ p.distance := by
  induction schedule generalizing p with
  | nil =>
    cases hrun
    simp
  | cons a schedule ih =>
    rw [run, Option.bind_eq_some_iff] at hrun
    obtain ⟨q, hstep, hrest⟩ := hrun
    have hlt := (steps_of_step hstep).distance_lt
    have hle := ih hrest
    rw [List.length_cons]
    omega

theorem distance_initial_le (files : List (Bytes × Bytes)) (before : Option Cause) :
    (initial files before).distance ≤ 4 * files.length + 3 := by
  have hsum : totalDistance (initial files before).tasks = 4 * files.length := by
    unfold initial
    induction files with
    | nil => rfl
    | cons f files ih =>
      simp only [totalDistance, List.map_cons, List.foldr_cons, List.length_cons] at ih ⊢
      rw [ih]
      show 4 + 4 * files.length = 4 * (files.length + 1)
      omega
  have houter := Bool.toNat_le (initial files before).outer.isNone
  have hgroup := Bool.toNat_le (initial files before).group.isNone
  have hanswer := Bool.toNat_le (initial files before).answer.isNone
  rw [distance, hsum]
  omega

theorem running_initial (files : List (Bytes × Bytes)) (before : Option Cause) :
    (initial files before).running = 0 := by
  rw [running, List.countP_eq_zero]
  intro t ht
  obtain ⟨f, -, rfl⟩ := List.mem_map.mp ht
  exact Bool.false_ne_true

theorem Steps.running_le (h : p.running ≤ bound) (hsteps : Steps bound naming p a p') :
    p'.running ≤ bound := by
  cases hsteps with
  | cancel houter => exact h
  | propagate hgroup houter => exact h
  | @start i t hroom ht hphase =>
    obtain ⟨hlt, rfl⟩ := List.getElem?_eq_some_iff.mp ht
    unfold running at hroom ⊢
    rw [List.countP_set hlt]
    split <;> split <;> omega
  | @work i t t' e ht hmoves =>
    obtain ⟨hlt, rfl⟩ := List.getElem?_eq_some_iff.mp ht
    -- the worker that moves was counted before
    have hpos : 0 < p.tasks.countP (·.phase.isRunning) :=
      List.countP_pos_iff.mpr ⟨_, List.getElem_mem hlt, hmoves.isRunning⟩
    show (p.tasks.set i t').countP (·.phase.isRunning) ≤ bound
    unfold running at h
    rw [List.countP_set hlt, if_pos hmoves.isRunning]
    split <;> omega
  | finish hanswer hended => exact h

/-- As long as the pool has not answered, something can happen without the caller. -/
theorem exists_step (hbound : 0 < bound) (hanswer : p.answer = none) :
    ∃ a, (∀ c, a ≠ .cancel c) ∧ (p.step bound naming a).isSome := by
  by_cases hended : ∀ t ∈ p.tasks, t.phase = .ended
  · refine ⟨.finish, by simp, ?_⟩
    rw [step, if_pos ⟨hanswer, hended⟩]
    rfl
  by_cases hrunning : ∃ t ∈ p.tasks, t.phase.isRunning = true
  · -- a worker that runs can go on
    obtain ⟨t, ht, hphase⟩ := hrunning
    obtain ⟨i, hi⟩ := List.mem_iff_getElem?.mp ht
    obtain ⟨t', e, hnext⟩ := t.exists_next hphase p.group
    exact ⟨.work i, by simp, by simp [step, hi, hnext]⟩
  · -- no worker runs, so there is room for one that waits
    have hnone : p.running = 0 := by
      rw [running, List.countP_eq_zero]
      intro t ht hphase
      exact hrunning ⟨t, ht, hphase⟩
    have hwaiting : (p.tasks.findIdx? (·.phase == .waiting)).isSome := by
      rw [List.findIdx?_isSome, List.any_eq_true]
      obtain ⟨t, ht⟩ := Classical.not_forall.mp hended
      obtain ⟨hmem, hopen⟩ := Classical.not_imp.mp ht
      refine ⟨t, hmem, ?_⟩
      cases hphase : t.phase with
      | waiting => rfl
      | ended => exact absurd hphase hopen
      | _ => exact absurd ⟨t, hmem, by rw [hphase]; rfl⟩ hrunning
    obtain ⟨i, hi⟩ := Option.isSome_iff_exists.mp hwaiting
    obtain ⟨hlt, -, -⟩ := List.findIdx?_eq_some_iff_getElem.mp hi
    refine ⟨.start, by simp, ?_⟩
    simp [step, hi, List.getElem?_eq_getElem hlt, hnone, hbound]

/-! ## The answer -/

section Answer

variable {schedule : List Action} {files : List (Bytes × Bytes)} {answer : Answer}

theorem Consistent.answer_of_outer_none (h : p.Consistent files naming)
    (hanswer : p.answer = some answer) (houter : p.outer = none) :
    answer = .artifacts (Artifacts.ofSources files naming) := by
  rcases h.answer_cases hanswer with ⟨-, hartifacts⟩ | ⟨c, -, hc, -⟩
  · exact hartifacts
  · rw [houter] at hc
    cases hc

theorem consistent_of_run {before : Option Cause}
    (hrun : run bound naming (initial files before) schedule = some p) :
    p.Consistent files naming :=
  run_induction Consistent.steps hrun (consistent_initial files naming before)

/-- If the context was cancelled before the start, this is reported as soon as there is a text. -/
theorem answer_of_cancelled_before {c : Cause}
    (hrun : run bound naming (initial files (some c)) schedule = some p)
    (hanswer : p.answer = some answer) (hfiles : files ≠ []) : answer = .error c :=
  (run_induction Refusing.steps hrun (refusing_initial files c)).answer_eq
    (consistent_of_run hrun) hanswer hfiles

/-- A pool that is cancelled before the start or never gives what the sequential conversion does. -/
theorem artifacts?_of_run {before : Option Cause}
    (hrun : run bound naming (initial files before) schedule = some p)
    (hanswer : p.answer = some answer) (hwhen : before ≠ none ∨ p.outer = none) :
    answer.artifacts? = Artifacts.ofSources? before.isSome files naming := by
  have hconsistent := consistent_of_run hrun
  cases before with
  | none =>
    rw [hconsistent.answer_of_outer_none hanswer (hwhen.resolve_left fun h => h rfl)]
    rfl
  | some c =>
    cases files with
    | nil =>
      -- without a text there is no worker that could report the cancellation
      have htasks : p.tasks = [] := by
        rw [← List.map_eq_nil_iff, hconsistent.files_eq]
      rcases hconsistent.answer_cases hanswer with ⟨-, hartifacts⟩ | ⟨d, hd, -, -⟩
      · rw [hartifacts]
        rfl
      · rw [hconsistent.failure_of_nil htasks] at hd
        cases hd
    | cons f rest =>
      rw [answer_of_cancelled_before hrun hanswer (List.cons_ne_nil f rest)]
      rfl

end Answer

/-- Whatever the schedule and however many workers may run at a time, the pool comes to an answer,
and the answer is that of the sequential conversion or the error of the cancellation: an error only
if the context was cancelled, and always if this was before the start and there is a text. -/
theorem sequential_result_or_error (files : List (Bytes × Bytes)) (naming : C.Naming) (jobs : Int)
    (processors : Nat) (hprocessors : 0 < processors) (before : Option Cause)
    (schedule : List Action) (p : Pool)
    (hrun : run (limit jobs processors) naming (initial files before) schedule = some p) :
    p.running ≤ limit jobs processors ∧
    schedule.length ≤ 4 * files.length + 3 ∧
    (p.answer = none →
      ∃ a, (∀ c, a ≠ .cancel c) ∧ (p.step (limit jobs processors) naming a).isSome) ∧
    ∀ answer, p.answer = some answer →
      (answer = .artifacts (Artifacts.ofSources files naming) ∨
        ∃ c, p.outer = some c ∧ answer = .error c) ∧
      (p.outer = none → answer = .artifacts (Artifacts.ofSources files naming)) ∧
      (∀ c, before = some c → files ≠ [] → answer = .error c) ∧
      (before ≠ none ∨ p.outer = none →
        answer.artifacts? = Artifacts.ofSources? before.isSome files naming) := by
  have hlimit : 0 < limit jobs processors := by
    unfold limit
    split <;> omega
  have hlength := length_add_distance_le hrun
  have hdistance := distance_initial_le files before
  refine ⟨?_, by omega, fun hanswer => exists_step hlimit hanswer, fun answer hanswer => ?_⟩
  · refine run_induction Steps.running_le hrun ?_
    rw [running_initial]
    exact Nat.zero_le _
  have hconsistent := consistent_of_run hrun
  refine ⟨?_, hconsistent.answer_of_outer_none hanswer, ?_, artifacts?_of_run hrun hanswer⟩
  · rcases hconsistent.answer_cases hanswer with ⟨-, hartifacts⟩ | ⟨c, -, houter, herror⟩
    · exact Or.inl hartifacts
    · exact Or.inr ⟨c, houter, herror⟩
  · rintro c rfl hfiles
    exact answer_of_cancelled_before hrun hanswer hfiles

/-- Two texts and two workers. If the caller cancels after the first worker has looked at the
context and before the second does, then the second reports it, and the result of the first is
dropped. If nobody cancels, the second worker may end first, and the functions still come in the
order of the texts. -/
theorem sequential_result_or_error_two_workers :
    let files := [
      (bytes "a.adb", bytes "function F (A : Float) return Float is begin return abs(A); end F;"),
      (bytes "b.adb", bytes "function G () return Integer is begin null; end G;")]
    let cancelledBetween : List Action := [.start, .start, .work 0, .cancel .deadlineExceeded,
      .propagate, .work 1, .work 0, .work 1, .work 0, .finish]
    let lastFirst : List Action :=
      [.start, .start, .work 1, .work 1, .work 1, .work 0, .work 0, .work 0, .finish]
    (∃ p, run (limit 2 8) {} (initial files none) cancelledBetween = some p ∧
        p.answer = some (.error .deadlineExceeded) ∧ p.outer = some .deadlineExceeded) ∧
      ∃ p, run (limit 0 8) {} (initial files none) lastFirst = some p ∧
        p.answer = some (.artifacts (Artifacts.ofSources files {})) := by
  intro files cancelledBetween lastFirst
  constructor
  · have hend : (run (limit 2 8) {} (initial files none) cancelledBetween).bind Pool.answer =
        some (.error .deadlineExceeded) := by
      decide +kernel
    obtain ⟨p, hrun, hanswer⟩ := Option.bind_eq_some_iff.mp hend
    have hall := sequential_result_or_error files {} 2 8 (by decide) none cancelledBetween p hrun
    refine ⟨p, hrun, hanswer, ?_⟩
    rcases (hall.2.2.2 _ hanswer).1 with hartifacts | ⟨c, houter, herror⟩
    · cases hartifacts
    · cases herror
      exact houter
  · have hend : ((run (limit 0 8) {} (initial files none) lastFirst).filter
        fun p => p.outer.isNone && p.answer.isSome).isSome := by
      decide +kernel
    obtain ⟨p, hfilter⟩ := Option.isSome_iff_exists.mp hend
    obtain ⟨hrun, hstate⟩ := Option.filter_eq_some_iff.mp hfilter
    rw [Bool.and_eq_true, Option.isNone_iff_eq_none, Option.isSome_iff_exists] at hstate
    obtain ⟨houter, answer, hanswer⟩ := hstate
    have hall := sequential_result_or_error files {} 0 8 (by decide) none lastFirst p hrun
    exact ⟨p, hrun, by rw [hanswer, (hall.2.2.2 _ hanswer).2.1 houter]⟩

end Pool

end AdaToC
