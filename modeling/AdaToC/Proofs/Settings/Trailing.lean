import AdaToC.Proofs.Settings

/-!
# A flag at the end of the command line

A flag that needs a value may be the last argument, with nothing behind it to take. The arguments in
front of it are read as if they stood alone. What becomes of the flag then depends on them: when the
arguments are put into order, the flag comes to stand in front of the terminator that parts flags
from inputs, if there are inputs, and takes the terminator for its value.
-/

namespace AdaToC

namespace Flag

/-- An argument is one of the names of a flag behind one dash or two, and nothing else. -/
def Spells (flag : Flag) (arg : Bytes) : Prop :=
  ∃ name ∈ flag.names, arg = bytes "-" ++ name ∨ arg = bytes "--" ++ name

end Flag

namespace CommandLine

/-- A flag may stand behind these arguments: they hold no terminator where a flag may stand, and no
flag among them still waits for its value. -/
inductive Open : List Bytes → Prop where
  | nil : Open []
  | input {arg : Bytes} {rest : List Bytes} (hinput : isFlag arg = false) (hrest : Open rest) :
      Open (arg :: rest)
  | flag {arg value : Bytes} {written rest : List Bytes} (hflag : isFlag arg = true)
      (hne : arg ≠ bytes "--") (hwritten : Written arg value written) (hrest : Open rest) :
      Open (written ++ rest)

/-- An argument is a flag that takes the next argument for its value. -/
structure Waits (flag : Flag) (arg : Bytes) : Prop where
  isFlag : isFlag arg = true
  ne : arg ≠ bytes "--"
  bare : attached? arg = none
  named : Flag.named? (flagName arg) = some flag
  value : flag.isSwitch = false

variable {front more tail : List Bytes} {arg : Bytes} {flag : Flag} {given : List Assignment}

/-! ## The arguments in front -/

theorem pieces_written {value : Bytes} {written : List Bytes} (hflag : isFlag arg = true)
    (hne : arg ≠ bytes "--") (hwritten : Written arg value written) (rest : List Bytes) :
    pieces (written ++ rest) = .flag arg (some value) :: pieces rest := by
  cases hwritten with
  | alone h =>
    rw [List.singleton_append, pieces.eq_def]
    simp [hne, hflag, h]
  | next h => simp [pieces, hne, hflag, h]

theorem pieces_input (hinput : isFlag arg = false) (rest : List Bytes) :
    pieces (arg :: rest) = .input arg :: pieces rest := by
  have hne : arg ≠ bytes "--" := by
    rintro rfl
    exact absurd hinput (by decide)
  rw [pieces.eq_def]
  simp [hne, hinput]

theorem Open.pieces_append (h : Open front) (more : List Bytes) :
    pieces (front ++ more) = pieces front ++ pieces more := by
  induction h with
  | nil => rfl
  | input hinput hrest ih =>
    rw [List.cons_append, pieces_input hinput, pieces_input hinput, ih]
    rfl
  | flag hflag hne hwritten hrest ih =>
    rw [List.append_assoc, pieces_written hflag hne hwritten, pieces_written hflag hne hwritten, ih]
    rfl

theorem Open.complete (h : Open front) : Complete front := by
  unfold Complete
  induction h with
  | nil => simp [pieces]
  | input hinput hrest ih =>
    rw [pieces_input hinput]
    simpa [Piece.lacksValue] using ih
  | flag hflag hne hwritten hrest ih =>
    rw [pieces_written hflag hne hwritten]
    simpa [Piece.lacksValue] using ih

/-- The flags in front are read piece by piece, whatever stands behind. -/
theorem Open.readFlags (h : Open front) (more tail : List Bytes) :
    (draft given).readFlags ((partitionArguments (front ++ more)).1 ++ tail) =
      readBehind given (pieces front) ((partitionArguments more).1 ++ tail) := by
  induction h generalizing given with
  | nil => simp [pieces, readBehind]
  | input hinput hrest ih =>
    rw [List.cons_append, partitionArguments_input hinput, pieces_input hinput, readBehind_input]
    exact ih
  | flag hflag hne hwritten hrest ih =>
    rw [List.append_assoc, readFlags_written hflag hne hwritten, pieces_written hflag hne hwritten,
      readBehind_flag]
    simp only [ih]

/-- The inputs in front are kept, if no flag there is bad. -/
theorem Open.inputs (h : Open front) (hgood : ∀ piece ∈ pieces front, piece.error? = none)
    (more : List Bytes) :
    (partitionArguments (front ++ more)).2 =
      CommandLine.inputs front ++ (partitionArguments more).2 := by
  unfold CommandLine.inputs
  induction h with
  | nil => rfl
  | input hinput hrest ih =>
    rw [pieces_input hinput] at hgood ⊢
    rw [List.cons_append, partitionArguments_input hinput,
      ih fun piece hpiece => hgood piece (List.mem_cons_of_mem _ hpiece)]
    rfl
  | @flag arg value written rest hflag hne hwritten hrest ih =>
    rw [pieces_written hflag hne hwritten] at hgood ⊢
    have htail := ih fun piece hpiece => hgood piece (List.mem_cons_of_mem _ hpiece)
    obtain ⟨a, hassign⟩ := assign_of_error? (hgood _ List.mem_cons_self)
    have htakes := takesNext_eq hflag hne (named_of_assign hassign).1
    rw [List.append_assoc]
    cases hwritten with
    | alone hown =>
      rw [hown] at htakes
      rw [List.singleton_append, partitionArguments_own hflag hne htakes, htail]
      rfl
    | next hown =>
      rw [hown] at htakes
      rw [List.cons_append, List.singleton_append, partitionArguments_next hflag hne htakes, htail]
      rfl

/-- No input in front of an open place is a flag, so it ends the reading of flags. -/
theorem Open.isFlag_input (h : Open front) {input : Bytes}
    (hinput : input ∈ CommandLine.inputs front) :
    isFlag input = false := by
  unfold CommandLine.inputs at hinput
  induction h with
  | nil => cases hinput
  | input harg hrest ih =>
    rw [pieces_input harg] at hinput
    rcases List.mem_cons.mp hinput with rfl | hinput
    · exact harg
    · exact ih hinput
  | flag hflag hne hwritten hrest ih =>
    rw [pieces_written hflag hne hwritten] at hinput
    exact ih hinput

/-! ## The flag at the end -/

theorem Waits.ownValue? (h : Waits flag arg) : ownValue? arg = none := by
  rw [ownValue?_of_named h.named, h.bare, h.value]
  rfl

theorem Waits.malformed (h : Waits flag arg) : malformed arg = false := by
  have hname : flagText arg ∈ flag.names := by
    have hmem := Flag.mem_names_of_named? h.named
    rwa [flagName, Option.map_eq_none_iff.mp h.bare] at hmem
  have hheads : ∀ flag : Flag, ∀ name ∈ flag.names,
      (name.head?.all fun b => b == 0x2D || b == 0x3D) = false := by
    intro flag
    cases flag <;> decide
  exact hheads flag _ hname

theorem waits_of_spells (hvalue : flag.isSwitch = false) (h : flag.Spells arg) :
    Waits flag arg := by
  have hspellings : ∀ flag : Flag, flag.isSwitch = false → ∀ name ∈ flag.names,
      ∀ dashes ∈ [bytes "-", bytes "--"], isFlag (dashes ++ name) = true ∧
        dashes ++ name ≠ bytes "--" ∧ attached? (dashes ++ name) = none ∧
        Flag.named? (flagName (dashes ++ name)) = some flag := by
    intro flag
    cases flag <;> decide
  obtain ⟨name, hname, harg⟩ := h
  obtain ⟨dashes, hdashes, rfl⟩ : ∃ dashes ∈ [bytes "-", bytes "--"], arg = dashes ++ name := by
    rcases harg with rfl | rfl
    · exact ⟨_, List.mem_cons_self, rfl⟩
    · exact ⟨_, List.mem_cons_of_mem _ List.mem_cons_self, rfl⟩
  obtain ⟨hflag, hne, hbare, hnamed⟩ := hspellings flag hvalue name hname dashes hdashes
  exact ⟨hflag, hne, hbare, hnamed, hvalue⟩

theorem Waits.partitionArguments (h : Waits flag arg) : partitionArguments [arg] = ([arg], []) := by
  simp [AdaToC.partitionArguments, h.ne, isDashed_eq_isFlag, h.isFlag]

theorem Waits.readFlags_alone (h : Waits flag arg) (d : Draft) :
    d.readFlags [arg] = .error (.needsValue (flagName arg)) := by
  have hof := ofText_flag h.isFlag h.ne
  rw [h.malformed, if_neg Bool.false_ne_true, h.bare] at hof
  simp [Draft.readFlags, hof, Flag.ofName?_eq_named?, h.named, h.value]

/-- In front of the terminator the flag takes it for its value. -/
theorem Waits.readFlags_terminator (h : Waits flag arg) {inputs : List Bytes}
    (hinputs : ∀ input ∈ inputs, CommandLine.isFlag input = false) :
    (draft given).readFlags (arg :: bytes "--" :: inputs) =
      (assign arg (some (bytes "--"))).map fun a => (draft (given ++ [a]), inputs) := by
  have hof := ofText_flag h.isFlag h.ne
  rw [h.malformed, if_neg Bool.false_ne_true] at hof
  have hwritten : Written arg (bytes "--") [arg, bytes "--"] := .next h.ownValue?
  have hread : (draft given).readFlags ([arg, bytes "--"] ++ inputs) =
      (assign arg (some (bytes "--"))).bind fun a => (draft (given ++ [a])).readFlags inputs :=
    readFlags_named hwritten hof h.named h.malformed
  -- behind the terminator come the inputs, the first of which ends the reading
  have hrest : ∀ d : Draft, d.readFlags inputs = .ok (d, inputs) := by
    intro d
    cases inputs with
    | nil => rfl
    | cons input rest =>
      have hof : Argument.ofText input = .input := by
        have hdashed : isDashed input = false := by
          rw [isDashed_eq_isFlag]
          exact hinputs input List.mem_cons_self
        unfold Argument.ofText
        split
        · simp [isDashed] at hdashed
        · rfl
      simp only [Draft.readFlags, hof]
  show (draft given).readFlags ([arg, bytes "--"] ++ inputs) = _
  rw [hread]
  cases assign arg (some (bytes "--")) with
  | error e => rfl
  | ok a => exact hrest _

/-- How arguments are read at the end of which a flag waits for its value. -/
theorem Open.read_append (hfront : Open front) (harg : Waits flag arg) (env : Environment) :
    Settings.read (front ++ [arg]) env =
      match firstError? front with
      | some e => .error e
      | none =>
        if CommandLine.inputs front = [] then .error (.needsValue (flagName arg))
        else (assign arg (some (bytes "--"))).bind fun a =>
          settle (assignments front ++ [a]) env (CommandLine.inputs front) := by
  have hempty : ({} : Draft) = draft [] := rfl
  -- whatever follows the flags, a bad one among them ends the reading
  have hflags : ∀ tail,
      Draft.readFlags {} ((AdaToC.partitionArguments (front ++ [arg])).1 ++ tail) =
        readBehind [] (pieces front) (arg :: tail) := by
    intro tail
    rw [hempty, hfront.readFlags, harg.partitionArguments]
    rfl
  unfold Settings.read orderArguments
  cases herror : firstError? front with
  | some e =>
    have hbad : ∀ tail, readBehind [] (pieces front) tail = .error e := by
      intro tail
      unfold readBehind
      rw [show (pieces front).findSome? Piece.error? = some e from herror]
    rcases hparts : AdaToC.partitionArguments (front ++ [arg]) with ⟨flags, _ | ⟨input, rest⟩⟩
    · have hread := hflags []
      rw [hparts, List.append_nil, hbad] at hread
      simp only [hread]
    · have hread := hflags (bytes "--" :: input :: rest)
      rw [hparts, hbad] at hread
      simp only [hread]
  | none =>
    have hgood : ∀ tail, readBehind [] (pieces front) tail =
        (draft (assignments front)).readFlags tail := by
      intro tail
      unfold readBehind
      rw [show (pieces front).findSome? Piece.error? = none from herror]
      rfl
    have hinputs : (AdaToC.partitionArguments (front ++ [arg])).2 = CommandLine.inputs front := by
      rw [hfront.inputs (List.findSome?_eq_none_iff.mp herror), harg.partitionArguments]
      exact List.append_nil _
    rcases hparts : AdaToC.partitionArguments (front ++ [arg]) with ⟨flags, _ | ⟨input, rest⟩⟩
    · rw [hparts] at hinputs
      have hread := hflags []
      rw [hparts, List.append_nil, hgood, harg.readFlags_alone] at hread
      simp only [hread, ← hinputs, if_true]
    · rw [hparts] at hinputs
      have hread := hflags (bytes "--" :: input :: rest)
      have hstop : ∀ i ∈ input :: rest, CommandLine.isFlag i = false :=
        fun i hi => hfront.isFlag_input (hinputs ▸ hi)
      rw [hparts, hgood, harg.readFlags_terminator hstop] at hread
      simp only [hread, ← hinputs, reduceCtorEq, if_false]
      cases assign arg (some (bytes "--")) with
      | error e => rfl
      | ok a => exact finish_draft _ _ _

/-- Either every flag has its value, or the last argument is a flag that waits for it. -/
theorem complete_or_waits (args : List Bytes) :
    Complete args ∨ ∃ front flag arg, args = front ++ [arg] ∧ Open front ∧ Waits flag arg := by
  unfold Complete
  fun_induction pieces args with
  | case1 => exact Or.inl (by simp)
  | case2 rest => exact Or.inl (by simp [Piece.lacksValue])
  | case3 arg rest hne hflag value hown ih =>
    rcases ih with hcomplete | ⟨front, flag, last, rfl, hfront, hlast⟩
    · exact Or.inl (by simpa [Piece.lacksValue] using hcomplete)
    · exact Or.inr ⟨arg :: front, flag, last, rfl, .flag hflag hne (.alone hown) hfront, hlast⟩
  | case4 arg hne hflag hown =>
    cases hnamed : Flag.named? (flagName arg) with
    | none => exact Or.inl (by simp [Piece.lacksValue, hnamed])
    | some flag =>
      rw [ownValue?_of_named hnamed, Option.or_eq_none_iff] at hown
      obtain ⟨hbare, hvalue⟩ := hown
      exact Or.inr ⟨[], flag, arg, rfl, .nil, hflag, hne, hbare, hnamed, by simpa using hvalue⟩
  | case5 arg hne hflag hown next rest ih =>
    rcases ih with hcomplete | ⟨front, flag, last, rfl, hfront, hlast⟩
    · exact Or.inl (by simpa [Piece.lacksValue] using hcomplete)
    · exact Or.inr
        ⟨arg :: next :: front, flag, last, rfl, .flag hflag hne (.next hown) hfront, hlast⟩
  | case6 arg rest hne hflag ih =>
    rcases ih with hcomplete | ⟨front, flag, last, rfl, hfront, hlast⟩
    · exact Or.inl (by simpa [Piece.lacksValue] using hcomplete)
    · exact Or.inr
        ⟨arg :: front, flag, last, rfl, .input (Bool.eq_false_iff.mpr hflag) hfront, hlast⟩

/-- Without inputs nothing stands behind a flag at the end, so a missing value is noticed. -/
theorem complete_of_read {args : List Bytes} {env : Environment} {s : Settings}
    (hread : Settings.read args env = .ok s) (hinputs : inputs args = []) : Complete args := by
  rcases complete_or_waits args with hcomplete | ⟨front, flag, arg, rfl, hfront, harg⟩
  · exact hcomplete
  · have hnone : inputs front = [] := by
      unfold inputs at hinputs ⊢
      rw [hfront.pieces_append, List.filterMap_append] at hinputs
      exact (List.append_eq_nil_iff.mp hinputs).1
    rw [hfront.read_append harg] at hread
    cases herror : firstError? front with
    | some e => simp [herror] at hread
    | none => simp [herror, hnone] at hread

/-! ## What the terminator is as a value -/

theorem Waits.assign_eq (h : Waits flag arg) (value : Bytes) :
    assign arg (some value) = (flag.readValue (flagName arg) value).map (⟨flag, ·⟩) := by
  simp only [assign, h.malformed, Bool.false_eq_true, if_false, h.named]

/-- The settings that some assignments make, with a number of jobs and a level. -/
def settled (given : List Assignment) (inputs : List Bytes) (jobs : Nat) (level : Log.Level) :
    Settings where
  inputs
  config := (last? .config given).getD []
  out := (last? .out given).getD []
  logLevel := level
  jobs
  stdout := (last? .stdout given).getD false
  noCompare := (last? .noCompare given).getD false
  diagnostics := (last? .diagnostics given).getD false
  help := (last? .help given).getD false

/-- What settings come out, and when. -/
theorem settle_eq_ok_iff {env : Environment} {inputs : List Bytes} {s : Settings} :
    settle given env inputs = .ok s ↔
      ∃ (jobs : Nat) (level : Log.Level), jobsAsked given env = .ok jobs ∧
        Log.Level.ofName? (levelAsked given env) = some level ∧
        s = settled given inputs jobs level := by
  unfold settle settled
  cases jobsAsked given env with
  | error e => simp [bind, Except.bind]
  | ok asked =>
    cases Log.Level.ofName? (levelAsked given env) with
    | none => by_cases hneg : asked < 0 <;> simp [bind, Except.bind, hneg]
    | some level =>
      cases asked with
      | ofNat n =>
        have hneg : ¬ ((n : Int) < 0) := by omega
        have hinj : ∀ jobs : Nat, (n : Int) = jobs ↔ jobs = n := by omega
        simp [bind, Except.bind, hneg, hinj, eq_comm]
      | negSucc n =>
        have hneg : Int.negSucc n < 0 := by omega
        simp [bind, Except.bind, hneg]

section Terminator

variable {env : Environment} {inputs : List Bytes} {s' : Settings}

/-- An assignment that bears neither on the jobs nor on the level changes the settings and not
whether there are any. -/
theorem settle_concat {a : Assignment} (update : Settings → Settings) (hjobs : a.flag ≠ .jobs)
    (hlevel : a.flag ≠ .logLevel)
    (hsettled : ∀ jobs level,
      settled (given ++ [a]) inputs jobs level = update (settled given inputs jobs level)) :
    settle (given ++ [a]) env inputs = .ok s' ↔
      ∃ s, settle given env inputs = .ok s ∧ s' = update s := by
  simp only [settle_eq_ok_iff, jobsAsked, levelAsked, last?_concat, valueFor?, dif_neg hjobs,
    dif_neg hlevel, Option.none_or, hsettled]
  constructor
  · rintro ⟨jobs, level, hjobs, hlevel, rfl⟩
    exact ⟨_, ⟨jobs, level, hjobs, hlevel, rfl⟩, rfl⟩
  · rintro ⟨s, ⟨jobs, level, hjobs, hlevel, rfl⟩, rfl⟩
    exact ⟨jobs, level, hjobs, hlevel, rfl⟩

/-- No level has the terminator for its name. -/
theorem settle_logLevel :
    settle (given ++ [⟨.logLevel, bytes "--"⟩]) env inputs ≠ .ok s' := by
  intro hok
  obtain ⟨-, level, -, hlevel, -⟩ := settle_eq_ok_iff.mp hok
  have hasked : levelAsked (given ++ [⟨.logLevel, bytes "--"⟩]) env = bytes "--" := by
    rw [levelAsked, last?_concat]
    rfl
  have hnone : Log.Level.ofName? (bytes "--") = none := by decide
  rw [hasked, hnone] at hlevel
  cases hlevel

/-- With the terminator for its value, a flag for a path is accepted and the others are not. -/
theorem Waits.settle_terminator (harg : Waits flag arg) :
    ((assign arg (some (bytes "--"))).bind fun a => settle (given ++ [a]) env inputs) = .ok s' ↔
      ∃ s, settle given env inputs = .ok s ∧
        (flag = .config ∧ s' = { s with config := bytes "--" } ∨
          flag = .out ∧ s' = { s with out := bytes "--" }) := by
  rw [harg.assign_eq]
  have hvalue := harg.value
  cases flag with
  | config =>
    have hsettled : ∀ jobs level, settled (given ++ [⟨.config, bytes "--"⟩]) inputs jobs level =
        { settled given inputs jobs level with config := bytes "--" } := by
      simp [settled, last?_concat, valueFor?]
    show settle (given ++ [⟨.config, bytes "--"⟩]) env inputs = .ok s' ↔ _
    rw [settle_concat (fun s => { s with config := bytes "--" }) (by decide) (by decide) hsettled]
    simp
  | out =>
    have hsettled : ∀ jobs level, settled (given ++ [⟨.out, bytes "--"⟩]) inputs jobs level =
        { settled given inputs jobs level with out := bytes "--" } := by
      simp [settled, last?_concat, valueFor?]
    show settle (given ++ [⟨.out, bytes "--"⟩]) env inputs = .ok s' ↔ _
    rw [settle_concat (fun s => { s with out := bytes "--" }) (by decide) (by decide) hsettled]
    simp
  | logLevel =>
    show settle (given ++ [⟨.logLevel, bytes "--"⟩]) env inputs = .ok s' ↔ _
    simp [settle_logLevel]
  | jobs =>
    show .error (ArgumentError.badNumber (bytes "--") (flagName arg) .malformed) = Except.ok s' ↔ _
    simp
  | _ => cases hvalue

end Terminator

/-- When a flag stands at the end without its value: the arguments are accepted if there are inputs,
those in front are accepted, and the flag names a path, which then is the terminator. Only if
there are no inputs, and nothing in front is wrong, the missing value is what is reported. -/
theorem read_trailing_flag (front : List Bytes) (flag : Flag) (arg : Bytes) (env : Environment)
    (hfront : Open front) (hvalue : flag.isSwitch = false) (harg : flag.Spells arg) :
    ((∃ e, Settings.read (front ++ [arg]) env = .error e) ↔
      inputs front = [] ∨ flag = .logLevel ∨ flag = .jobs ∨
        ∃ e, Settings.read front env = .error e) ∧
    (∀ s', Settings.read (front ++ [arg]) env = .ok s' ↔
      inputs front ≠ [] ∧ ∃ s, Settings.read front env = .ok s ∧
        (flag = .config ∧ s' = { s with config := bytes "--" } ∨
          flag = .out ∧ s' = { s with out := bytes "--" })) ∧
    (inputs front = [] → (∀ piece ∈ pieces front, piece.error? = none) →
      Settings.read (front ++ [arg]) env = .error (.needsValue (flagName arg))) := by
  have hwaits := waits_of_spells hvalue harg
  have hread := hfront.read_append hwaits env
  have hok : ∀ s', Settings.read (front ++ [arg]) env = .ok s' ↔
      inputs front ≠ [] ∧ ∃ s, Settings.read front env = .ok s ∧
        (flag = .config ∧ s' = { s with config := bytes "--" } ∨
          flag = .out ∧ s' = { s with out := bytes "--" }) := by
    intro s'
    rw [hread, read_eq hfront.complete, interpret]
    cases firstError? front with
    | some e => simp
    | none =>
      by_cases hnone : inputs front = []
      · simp [hnone]
      · simp only [hnone, if_false, hwaits.settle_terminator, ne_eq, not_false_eq_true, true_and]
  refine ⟨?_, hok, ?_⟩
  · constructor
    · rintro ⟨e, herror⟩
      have hnot : ∀ s', Settings.read (front ++ [arg]) env ≠ .ok s' := by simp [herror]
      cases hsettings : Settings.read front env with
      | error e' => exact Or.inr (Or.inr (Or.inr ⟨e', rfl⟩))
      | ok s =>
        by_cases hinputs : inputs front = []
        · exact Or.inl hinputs
        · cases flag with
          | config => exact absurd ((hok _).mpr ⟨hinputs, s, hsettings, Or.inl ⟨rfl, rfl⟩⟩) (hnot _)
          | out => exact absurd ((hok _).mpr ⟨hinputs, s, hsettings, Or.inr ⟨rfl, rfl⟩⟩) (hnot _)
          | logLevel => exact Or.inr (Or.inl rfl)
          | jobs => exact Or.inr (Or.inr (Or.inl rfl))
          | _ => cases hvalue
    · intro hrejected
      cases hresult : Settings.read (front ++ [arg]) env with
      | error e => exact ⟨e, rfl⟩
      | ok s' =>
        obtain ⟨hinputs, s, hsettings, hpath⟩ := (hok s').mp hresult
        rcases hpath with ⟨rfl, -⟩ | ⟨rfl, -⟩ <;> simp [hinputs, hsettings] at hrejected
  · intro hnone hgood
    have herror : firstError? front = none := List.findSome?_eq_none_iff.mpr hgood
    rw [hread, herror]
    exact if_pos hnone

/-- Inputs, a flag that takes the next one for its value, and flags that have theirs. -/
theorem read_trailing_flag_accepted :
    let front := ["a.adb", "-o", "-c", "--stdout", "-j=2", "-"].map bytes
    let s : Settings := {
      inputs := ["a.adb", "-"].map bytes, config := [], out := bytes "-c", logLevel := .info
      jobs := 2, stdout := true, noCompare := false, diagnostics := false, help := false }
    Open front ∧ Flag.Spells .config (bytes "--config") ∧ Settings.read front {} = .ok s ∧
      Settings.read (front ++ [bytes "--config"]) {} = .ok { s with config := bytes "--" } := by
  intro front s
  have hout : Written (bytes "-o") (bytes "-c") [bytes "-o", bytes "-c"] := .next (by decide)
  have hstdout : Written (bytes "--stdout") (bytes "true") [bytes "--stdout"] := .alone (by decide)
  have hjobs : Written (bytes "-j=2") (bytes "2") [bytes "-j=2"] := .alone (by decide)
  have hfront : Open front :=
    .input (by decide) <| .flag (by decide) (by decide) hout <|
      .flag (by decide) (by decide) hstdout <| .flag (by decide) (by decide) hjobs <|
        .input (by decide) .nil
  have hspells : Flag.Spells .config (bytes "--config") :=
    ⟨bytes "config", by decide, Or.inr (by decide)⟩
  obtain ⟨-, hok, -⟩ := read_trailing_flag front .config _ {} hfront rfl hspells
  have hread : Settings.read front {} = .ok s := by decide +kernel
  exact ⟨hfront, hspells, hread, (hok _).mpr ⟨by decide, s, hread, Or.inl ⟨rfl, rfl⟩⟩⟩

/-- The value is missing, and the arguments are accepted. -/
theorem read_input_config :
    Settings.read [bytes "a.adb", bytes "-c"] {} = .ok {
      inputs := [bytes "a.adb"], config := bytes "--", out := [], logLevel := .info, jobs := 0
      stdout := false, noCompare := false, diagnostics := false, help := false } := by
  decide +kernel

end CommandLine

end AdaToC
