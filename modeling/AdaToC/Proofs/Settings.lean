import AdaToC.Proofs.Text.Pieces
import AdaToC.Settings
import Mathlib.Control.Monad.Basic

/-!
# The command line, from left to right

`Settings.read` puts the arguments into order before it reads them. Here the command line is cut
into pieces from left to right, each an input or a flag with the text of its value, and every piece
says by itself what it sets. Of several values for one setting the last one counts. Both ways give
the same settings and the same errors, provided that no flag is left without its value.
-/

namespace AdaToC

/-! ## Flags -/

namespace Flag

/-- How a flag can be spelled, the long way first. -/
def spellings : Flag → List String
  | .config => ["config", "c"]
  | .out => ["out", "o"]
  | .logLevel => ["log-level", "l"]
  | .jobs => ["jobs", "j"]
  | .stdout => ["stdout"]
  | .noCompare => ["no-compare"]
  | .diagnostics => ["diagnostics"]
  | .help => ["help", "h"]

def names (flag : Flag) : List Bytes :=
  flag.spellings.map bytes

def all : List Flag :=
  [config, out, logLevel, jobs, stdout, noCompare, diagnostics, help]

def named? (name : Bytes) : Option Flag :=
  all.find? (name ∈ ·.names)

/-- What a flag can set. -/
abbrev Value : Flag → Type
  | .config | .out | .logLevel => Bytes
  | .jobs => Int
  | .stdout | .noCompare | .diagnostics | .help => Bool

def readSwitch (name value : Bytes) : Except ArgumentError Bool :=
  match Draft.switchValue? value with
  | some b => .ok b
  | none => .error (.badSwitch value name)

/-- Reads the text of a value for a flag written under some name. -/
def readValue (name value : Bytes) : (flag : Flag) → Except ArgumentError flag.Value
  | .config | .out | .logLevel => .ok value
  | .jobs => (Numeral.read value).mapError (.badNumber value name)
  | .stdout | .noCompare | .diagnostics | .help => readSwitch name value

theorem ofName?_eq_named? (name : Bytes) : ofName? name = named? name := by
  have htable : ofName? name = (all.map fun flag => (flag, flag.spellings)).findSome?
      fun entry => if entry.2.any (fun n => bytes n == name) then some entry.1 else none := rfl
  rw [htable, List.findSome?_map, named?, List.find?_eq_findSome?_guard]
  congr 1
  funext flag
  simp [Option.guard, names]

theorem mem_names_of_named? {name : Bytes} {flag : Flag} (h : named? name = some flag) :
    name ∈ flag.names := by
  simpa using List.find?_some h

theorem named?_of_mem_names {name : Bytes} {flag : Flag} (h : name ∈ flag.names) :
    named? name = some flag := by
  have hnames : ∀ flag : Flag, ∀ n ∈ flag.names, named? n = some flag := by
    intro flag
    cases flag <;> decide
  exact hnames flag name h

theorem not_mem_names_of_named? {name : Bytes} (h : named? name = none) (flag : Flag) :
    name ∉ flag.names := by
  have hall : flag ∈ all := by cases flag <;> decide
  simpa using List.find?_eq_none.mp h flag hall

/-- The names of the flags that stand alone. -/
def switchNames : List Bytes :=
  ["stdout", "no-compare", "diagnostics", "help", "h"].map bytes

theorem contains_switchNames (name : Bytes) :
    switchNames.contains name = (named? name).any isSwitch := by
  cases h : named? name with
  | none =>
    have hnot := not_mem_names_of_named? h
    have hswitches : ∀ n ∈ switchNames, ∃ flag ∈ all, n ∈ flag.names := by decide
    rw [Option.any_none, Bool.eq_false_iff, ne_eq, List.contains_iff_mem]
    intro hmem
    obtain ⟨flag, -, hflag⟩ := hswitches name hmem
    exact hnot flag hflag
  | some flag =>
    have hflags : ∀ flag : Flag, ∀ n ∈ flag.names, switchNames.contains n = flag.isSwitch := by
      intro flag
      cases flag <;> decide
    exact hflags flag name (mem_names_of_named? h)

end Flag

/-! ## Pieces of the command line -/

namespace CommandLine

/-- A flag, and the value it is to have. -/
structure Assignment where
  flag : Flag
  value : flag.Value

/-- A piece of the command line. -/
inductive Piece where
  | input (arg : Bytes)
  /-- A flag as it was written, and the text of its value. -/
  | flag (arg : Bytes) (value : Option Bytes)
  deriving DecidableEq

/-- Whether an argument is a flag, where a flag may stand. -/
def isFlag (arg : Bytes) : Bool :=
  1 < arg.length && arg.head? == some 0x2D

/-- What stands behind the dashes of a flag, of which there are one or two. -/
def flagText : Bytes → Bytes
  | 0x2D :: 0x2D :: text => text
  | _ :: text => text
  | [] => []

/-- The name of a flag: its text, up to `=` if there is one. -/
def flagName (arg : Bytes) : Bytes :=
  match (flagText arg).cut? 0x3D with
  | some (name, _) => name
  | none => flagText arg

/-- The text behind the first `=` of a flag. -/
def attached? (arg : Bytes) : Option Bytes :=
  ((flagText arg).cut? 0x3D).map Prod.snd

/-- The value of a flag that does not need the next argument. A switch that stands alone is on. -/
def ownValue? (arg : Bytes) : Option Bytes :=
  (attached? arg).or
    (if Flag.switchNames.contains (flagText arg) then some (bytes "true") else none)

/-- Cuts arguments into pieces, from left to right. -/
def pieces : List Bytes → List Piece
  | [] => []
  | arg :: rest =>
    if arg = bytes "--" then rest.map .input
    else if isFlag arg then
      match ownValue? arg with
      | some value => .flag arg (some value) :: pieces rest
      | none =>
        match rest with
        | [] => [.flag arg none]
        | next :: rest => .flag arg (some next) :: pieces rest
    else .input arg :: pieces rest

/-- Whether nothing that could be a name stands behind the dashes of a flag. -/
def malformed (arg : Bytes) : Bool :=
  (flagText arg).head?.all fun b => b == 0x2D || b == 0x3D

/-- What a flag with some value sets. -/
def assign (arg : Bytes) (value : Option Bytes) : Except ArgumentError Assignment :=
  if malformed arg then .error (.malformed arg)
  else
    match Flag.named? (flagName arg), value with
    | none, _ => .error (.undefined (flagName arg))
    | some _, none => .error (.needsValue (flagName arg))
    | some flag, some value => (flag.readValue (flagName arg) value).map (⟨flag, ·⟩)

namespace Piece

def input? : Piece → Option Bytes
  | .input arg => some arg
  | .flag _ _ => none

def assignment? : Piece → Option Assignment
  | .input _ => none
  | .flag arg value => (assign arg value).toOption

def error? : Piece → Option ArgumentError
  | .input _ => none
  | .flag arg value =>
    match assign arg value with
    | .error e => some e
    | .ok _ => none

/-- Whether the value of a flag is missing. -/
def lacksValue : Piece → Bool
  | .flag arg none => (Flag.named? (flagName arg)).isSome
  | _ => false

end Piece

/-- The value for a flag in an assignment to it. -/
def valueFor? (flag : Flag) (a : Assignment) : Option flag.Value :=
  if h : a.flag = flag then some (h ▸ a.value) else none

/-- The last value that some assignments have for a flag. -/
def last? (flag : Flag) (given : List Assignment) : Option flag.Value :=
  (given.filterMap (valueFor? flag)).getLast?

/-- The number of jobs asked for. The environment is asked if no flag was given. -/
def jobsAsked (given : List Assignment) (env : Environment) : Except ArgumentError Int :=
  match last? .jobs given with
  | some n => .ok n
  | none =>
    if env.jobs.isEmpty then .ok 0
    else (Numeral.readDecimal env.jobs).mapError fun _ => .badJobsVariable env.jobs

/-- The name of the log level asked for. -/
def levelAsked (given : List Assignment) (env : Environment) : Bytes :=
  (last? .logLevel given).getD (if env.logLevel.isEmpty then bytes "info" else env.logLevel.lower)

/-- The settings that some assignments make, with the environment where they say nothing. -/
def settle (given : List Assignment) (env : Environment) (inputs : List Bytes) :
    Except ArgumentError Settings := do
  let jobs ← jobsAsked given env
  if jobs < 0 then .error (.negativeJobs jobs)
  else
    match Log.Level.ofName? (levelAsked given env) with
    | none => .error (.badLogLevel (levelAsked given env))
    | some logLevel =>
      .ok {
        inputs
        config := (last? .config given).getD []
        out := (last? .out given).getD []
        logLevel
        jobs := jobs.toNat
        stdout := (last? .stdout given).getD false
        noCompare := (last? .noCompare given).getD false
        diagnostics := (last? .diagnostics given).getD false
        help := (last? .help given).getD false }

/-- The assignments of a command line, bad ones left out. -/
def assignments (args : List Bytes) : List Assignment :=
  (pieces args).filterMap Piece.assignment?

/-- The inputs of a command line. -/
def inputs (args : List Bytes) : List Bytes :=
  (pieces args).filterMap Piece.input?

/-- The first bad flag of a command line. -/
def firstError? (args : List Bytes) : Option ArgumentError :=
  (pieces args).findSome? Piece.error?

/-- The settings that a command line asks for, read off its pieces. -/
def interpret (args : List Bytes) (env : Environment) : Except ArgumentError Settings :=
  match firstError? args with
  | some e => .error e
  | none => settle (assignments args) env (inputs args)

/-! ## One flag -/

variable {arg : Bytes} {rest : List Bytes} {given : List Assignment}

theorem isDashed_eq_isFlag (arg : Bytes) : isDashed arg = isFlag arg := by
  rcases arg with _ | ⟨b, _ | ⟨c, rest⟩⟩
  · rfl
  · simp [isDashed, isFlag]
  · by_cases h : b = 0x2D <;> simp [isDashed, isFlag, h]

/-- A flag has one dash or two, and text behind them. -/
theorem exists_flagText (hflag : isFlag arg = true) (hne : arg ≠ bytes "--") :
    ∃ (c : UInt8) (more : Bytes), flagText arg = c :: more ∧
      (arg = 0x2D :: c :: more ∧ c ≠ 0x2D ∨ arg = 0x2D :: 0x2D :: c :: more) := by
  rcases arg with _ | ⟨b, _ | ⟨c, more⟩⟩
  · cases hflag
  · simp [isFlag] at hflag
  · obtain rfl : b = 0x2D := by simpa [isFlag] using hflag
    by_cases hc : c = 0x2D
    · subst hc
      cases more with
      | nil => exact absurd (by decide) hne
      | cons d more => exact ⟨d, more, rfl, Or.inr rfl⟩
    · exact ⟨c, more, by simp [flagText, hc], Or.inl ⟨rfl, hc⟩⟩

theorem ofText_flag (hflag : isFlag arg = true) (hne : arg ≠ bytes "--") :
    Argument.ofText arg =
      if malformed arg then .malformed else .flag (flagName arg) (attached? arg) := by
  obtain ⟨c, more, htext, hcases⟩ := exists_flagText hflag hne
  have hof : Argument.ofText arg =
      if c == 0x2D || c == 0x3D then .malformed
      else
        .flag (c :: ((more.cut? 0x3D).map Prod.fst).getD more) ((more.cut? 0x3D).map Prod.snd) := by
    cases hcut : more.cut? 0x3D <;> rcases hcases with ⟨rfl, hc⟩ | rfl
    · simp [Argument.ofText, hc, hcut]
    · simp [Argument.ofText, hcut]
    · simp [Argument.ofText, hc, hcut]
    · simp [Argument.ofText, hcut]
  have hmalformed : malformed arg = (c == 0x2D || c == 0x3D) := by
    rw [malformed, htext]
    rfl
  rw [hof, hmalformed]
  split
  · rfl
  next hc =>
    have hequals : c ≠ 0x3D := by
      rintro rfl
      exact hc (by decide)
    rw [flagName, attached?, htext, Bytes.cut?_cons, if_neg hequals]
    cases more.cut? 0x3D <;> rfl

theorem takesNext_eq (hflag : isFlag arg = true) (hne : arg ≠ bytes "--")
    (hgood : malformed arg = false) : takesNext arg = (ownValue? arg).isNone := by
  obtain ⟨c, more, htext, hcases⟩ := exists_flagText hflag hne
  have hc : c ≠ 0x2D := by
    rintro rfl
    simp [malformed, htext] at hgood
  -- all leading dashes are dropped there, but behind the first two there is none
  have hname : arg.dropWhile (· == 0x2D) = flagText arg := by
    rcases hcases with ⟨rfl, -⟩ | rfl <;> simp [htext, hc]
  have hattached : (flagText arg).contains 0x3D = (attached? arg).isSome := by
    rw [Bool.eq_iff_iff, List.contains_iff_mem, attached?, Option.isSome_map,
      Option.isSome_iff_ne_none, ne_eq, Bytes.cut?_eq_none_iff, Decidable.not_not]
  rw [takesNext, hname, hattached, Flag.ofName?_eq_named?, ← Flag.contains_switchNames, ownValue?]
  cases attached? arg <;> cases Flag.switchNames.contains (flagText arg) <;> rfl

theorem ownValue?_of_named {flag : Flag} (h : Flag.named? (flagName arg) = some flag) :
    ownValue? arg = (attached? arg).or (if flag.isSwitch then some (bytes "true") else none) := by
  cases hattached : attached? arg with
  | some value => rw [ownValue?, hattached, Option.some_or, Option.some_or]
  | none =>
    have hname : flagName arg = flagText arg := by
      rw [flagName, Option.map_eq_none_iff.mp hattached]
    rw [ownValue?, hattached, Flag.contains_switchNames, ← hname, h]
    rfl

/-! ## One assignment -/

/-- The settings as far as some assignments go. -/
def draft (given : List Assignment) : Draft where
  config := (last? .config given).getD []
  out := (last? .out given).getD []
  logLevel := last? .logLevel given
  jobs := last? .jobs given
  stdout := (last? .stdout given).getD false
  noCompare := (last? .noCompare given).getD false
  diagnostics := (last? .diagnostics given).getD false
  help := (last? .help given).getD false

theorem last?_concat (flag : Flag) (given : List Assignment) (a : Assignment) :
    last? flag (given ++ [a]) = (valueFor? flag a).or (last? flag given) := by
  unfold last?
  rw [List.filterMap_append]
  cases h : valueFor? flag a <;> simp [h]

theorem setValue_draft {flag : Flag} (h : flag.isSwitch = false) (name value : Bytes) :
    (draft given).setValue flag name value =
      (flag.readValue name value).map fun v => draft (given ++ [⟨flag, v⟩]) := by
  cases flag with
  | config | out | logLevel =>
    simp [Draft.setValue, Flag.readValue, Except.map, draft, last?_concat, valueFor?]
  | jobs =>
    cases hn : Numeral.read value with
    | error e =>
      have hread : Flag.readValue name value .jobs = .error (.badNumber value name e) := by
        rw [Flag.readValue, hn]
        rfl
      simp [Draft.setValue, hread, Except.map, hn]
    | ok n =>
      have hread : Flag.readValue name value .jobs = .ok n := by
        rw [Flag.readValue, hn]
        rfl
      simp [Draft.setValue, hread, Except.map, draft, last?_concat, valueFor?, hn]
  | _ => cases h

theorem setSwitch_draft {flag : Flag} (h : flag.isSwitch = true) (name value : Bytes) :
    (Flag.readSwitch name value).map (fun b => (draft given).setSwitch flag b) =
      (flag.readValue name value).map fun v => draft (given ++ [⟨flag, v⟩]) := by
  cases flag with
  | stdout | noCompare | diagnostics | help =>
    cases hb : Flag.readSwitch name value <;>
      simp [Draft.setSwitch, Flag.readValue, Except.map, draft, last?_concat, valueFor?, hb]
  | _ => cases h

/-- The arguments that a flag with a value is written with: itself and, if it does not have the
value itself, the next one. -/
inductive Written (arg value : Bytes) : List Bytes → Prop where
  | alone (h : ownValue? arg = some value) : Written arg value [arg]
  | next (h : ownValue? arg = none) : Written arg value [arg, value]

section Named

variable {flag : Flag} {value : Bytes} {written : List Bytes}
  (hwritten : Written arg value written)
  (hof : Argument.ofText arg = .flag (flagName arg) (attached? arg))
  (hnamed : Flag.named? (flagName arg) = some flag)

include hwritten hof hnamed

theorem readFlags_switch (hswitch : flag.isSwitch = true) :
    (draft given).readFlags (written ++ rest) =
      ((flag.readValue (flagName arg) value).map fun v => draft (given ++ [⟨flag, v⟩])).bind
        fun d => d.readFlags rest := by
  have hown := ownValue?_of_named hnamed
  rw [hswitch, if_pos rfl] at hown
  rw [← setSwitch_draft hswitch]
  cases hwritten with
  | alone h =>
    rw [hown] at h
    simp only [List.singleton_append, Draft.readFlags, hof, Flag.ofName?_eq_named?, hnamed,
      hswitch, if_true]
    cases hattached : attached? arg with
    | none =>
      -- turning the switch on is reading the text `true`
      obtain rfl : bytes "true" = value := by simpa [hattached] using h
      rfl
    | some v =>
      obtain rfl : v = value := by simpa [hattached] using h
      simp only [Flag.readSwitch]
      cases Draft.switchValue? v <;> rfl
  | next h =>
    rw [hown] at h
    simp at h

theorem readFlags_value (hswitch : flag.isSwitch = false) :
    (draft given).readFlags (written ++ rest) =
      ((flag.readValue (flagName arg) value).map fun v => draft (given ++ [⟨flag, v⟩])).bind
        fun d => d.readFlags rest := by
  have hown := ownValue?_of_named hnamed
  rw [hswitch, if_neg Bool.false_ne_true, Option.or_none] at hown
  rw [← hown] at hof
  rw [← setValue_draft hswitch]
  cases hwritten with
  | alone h =>
    simp only [List.singleton_append, Draft.readFlags, hof, Flag.ofName?_eq_named?, hnamed,
      hswitch, Bool.false_eq_true, if_false, h]
    cases (draft given).setValue flag (flagName arg) value <;> rfl
  | next h =>
    simp only [List.cons_append, List.nil_append, Draft.readFlags, hof, Flag.ofName?_eq_named?,
      hnamed, hswitch, Bool.false_eq_true, if_false, h]
    cases (draft given).setValue flag (flagName arg) value <;> rfl

/-- The reader goes on with the assignment of a flag, or ends with its error. -/
theorem readFlags_named (hgood : malformed arg = false) :
    (draft given).readFlags (written ++ rest) =
      (assign arg (some value)).bind fun a => (draft (given ++ [a])).readFlags rest := by
  have hassign : assign arg (some value) =
      (flag.readValue (flagName arg) value).map (⟨flag, ·⟩) := by
    simp only [assign, hgood, Bool.false_eq_true, if_false, hnamed]
  have hread : (draft given).readFlags (written ++ rest) =
      ((flag.readValue (flagName arg) value).map fun v => draft (given ++ [⟨flag, v⟩])).bind
        fun d => d.readFlags rest := by
    cases hswitch : flag.isSwitch with
    | true => exact readFlags_switch hwritten hof hnamed hswitch
    | false => exact readFlags_value hwritten hof hnamed hswitch
  rw [hread, hassign]
  cases flag.readValue (flagName arg) value <;> rfl

end Named

theorem named_of_assign {value : Option Bytes} {a : Assignment} (h : assign arg value = .ok a) :
    malformed arg = false ∧ Flag.named? (flagName arg) = some a.flag := by
  unfold assign at h
  split at h
  · cases h
  next hgood =>
    refine ⟨Bool.eq_false_iff.mpr hgood, ?_⟩
    split at h
    · cases h
    · cases h
    next flag v hnamed =>
      rw [hnamed]
      cases hread : flag.readValue (flagName arg) v <;> rw [hread] at h <;> cases h
      rfl

/-- The reader ends at a flag that is malformed or has no meaning, whatever its value. -/
theorem readFlags_meaningless (hflag : isFlag arg = true) (hne : arg ≠ bytes "--")
    (hbad : malformed arg = true ∨ Flag.named? (flagName arg) = none) (value : Option Bytes) :
    ∃ e, assign arg value = .error e ∧
      ∀ d behind, Draft.readFlags d (arg :: behind) = .error e := by
  have hof := ofText_flag hflag hne
  cases hmalformed : malformed arg with
  | true =>
    rw [hmalformed, if_pos rfl] at hof
    refine ⟨.malformed arg, by simp [assign, hmalformed], fun d behind => ?_⟩
    rw [Draft.readFlags, hof]
  | false =>
    have hnamed := hbad.resolve_left (by simp [hmalformed])
    rw [hmalformed, if_neg Bool.false_ne_true] at hof
    refine ⟨.undefined (flagName arg), by simp [assign, hmalformed, hnamed], fun d behind => ?_⟩
    simp only [Draft.readFlags, hof, Flag.ofName?_eq_named?, hnamed]

/-! ## The order of the arguments -/

theorem partitionArguments_terminator (rest : List Bytes) :
    partitionArguments (bytes "--" :: rest) = ([], rest) := by
  cases rest <;> simp [partitionArguments]

theorem partitionArguments_input (h : isFlag arg = false) (rest : List Bytes) :
    partitionArguments (arg :: rest) =
      ((partitionArguments rest).1, arg :: (partitionArguments rest).2) := by
  have hne : arg ≠ bytes "--" := by
    rintro rfl
    exact absurd h (by decide)
  cases rest <;> simp [partitionArguments, hne, isDashed_eq_isFlag, h]

theorem partitionArguments_own (hflag : isFlag arg = true) (hne : arg ≠ bytes "--")
    (h : takesNext arg = false) (rest : List Bytes) :
    partitionArguments (arg :: rest) =
      (arg :: (partitionArguments rest).1, (partitionArguments rest).2) := by
  cases rest <;> simp [partitionArguments, hne, isDashed_eq_isFlag, hflag, h]

theorem partitionArguments_next (hflag : isFlag arg = true) (hne : arg ≠ bytes "--")
    (h : takesNext arg = true) (next : Bytes) (rest : List Bytes) :
    partitionArguments (arg :: next :: rest) =
      (arg :: next :: (partitionArguments rest).1, (partitionArguments rest).2) := by
  simp [partitionArguments, hne, isDashed_eq_isFlag, hflag, h]

theorem exists_partitionArguments (hflag : isFlag arg = true) (hne : arg ≠ bytes "--")
    (rest : List Bytes) : ∃ behind, (partitionArguments (arg :: rest)).1 = arg :: behind := by
  cases h : takesNext arg with
  | false => exact ⟨_, by rw [partitionArguments_own hflag hne h]⟩
  | true =>
    cases rest with
    | nil => exact ⟨[], by simp [partitionArguments, hne, isDashed_eq_isFlag, hflag]⟩
    | cons next rest => exact ⟨_, by rw [partitionArguments_next hflag hne h]⟩

/-- No flag that needs a value stands at the end, where no argument follows. -/
def Complete (args : List Bytes) : Prop :=
  ∀ piece ∈ pieces args, piece.lacksValue = false

instance (args : List Bytes) : Decidable (Complete args) :=
  inferInstanceAs (Decidable (∀ piece ∈ pieces args, piece.lacksValue = false))

/-- The reader goes on behind a flag and its value with what stands among the flags there. -/
theorem readFlags_written {value : Bytes} {written : List Bytes} (hflag : isFlag arg = true)
    (hne : arg ≠ bytes "--") (hwritten : Written arg value written) (tail : List Bytes) :
    (draft given).readFlags ((partitionArguments (written ++ rest)).1 ++ tail) =
      (assign arg (some value)).bind fun a =>
        (draft (given ++ [a])).readFlags ((partitionArguments rest).1 ++ tail) := by
  by_cases hbad : malformed arg = true ∨ Flag.named? (flagName arg) = none
  · -- the partition may give such a flag another value, or none, but it is not looked at
    obtain ⟨e, hassign, hread⟩ := readFlags_meaningless hflag hne hbad (some value)
    obtain ⟨behind, hbehind⟩ :
        ∃ behind, (partitionArguments (written ++ rest)).1 = arg :: behind := by
      cases hwritten <;> exact exists_partitionArguments hflag hne _
    rw [hbehind, List.cons_append, hread, hassign]
    rfl
  · rw [not_or, Bool.not_eq_true] at hbad
    obtain ⟨hgood, hnamed⟩ := hbad
    obtain ⟨flag, hnamed⟩ := Option.ne_none_iff_exists'.mp hnamed
    have hof := ofText_flag hflag hne
    rw [hgood, if_neg Bool.false_ne_true] at hof
    have hpartition : (partitionArguments (written ++ rest)).1 =
        written ++ (partitionArguments rest).1 := by
      have htakes := takesNext_eq hflag hne hgood
      cases hwritten with
      | alone h =>
        rw [h] at htakes
        exact congrArg Prod.fst (partitionArguments_own hflag hne htakes rest)
      | next h =>
        rw [h] at htakes
        exact congrArg Prod.fst (partitionArguments_next hflag hne htakes value rest)
    rw [hpartition, List.append_assoc, readFlags_named hwritten hof hnamed hgood]

/-- The reader behind some pieces: at the first bad one it has ended, else it has made all of their
assignments. -/
def readBehind (given : List Assignment) (ps : List Piece) (tail : List Bytes) :
    Except ArgumentError (Draft × List Bytes) :=
  match ps.findSome? Piece.error? with
  | some e => .error e
  | none => (draft (given ++ ps.filterMap Piece.assignment?)).readFlags tail

theorem readBehind_flag (value : Option Bytes) (ps : List Piece) (tail : List Bytes) :
    readBehind given (.flag arg value :: ps) tail =
      (assign arg value).bind fun a => readBehind (given ++ [a]) ps tail := by
  unfold readBehind
  cases h : assign arg value with
  | error e => simp [Piece.error?, h, Except.bind]
  | ok a => simp [Piece.error?, Piece.assignment?, h, Except.bind, Except.toOption]

theorem readBehind_input (ps : List Piece) (tail : List Bytes) :
    readBehind given (.input arg :: ps) tail = readBehind given ps tail :=
  rfl

theorem readBehind_inputs (args tail : List Bytes) :
    readBehind given (args.map .input) tail = (draft given).readFlags tail := by
  induction args with
  | nil => simp [readBehind]
  | cons arg args ih => rw [List.map_cons, readBehind_input, ih]

/-- The flags of a command line are read piece by piece. -/
theorem readFlags_partitionArguments {args : List Bytes} (h : Complete args) (tail : List Bytes) :
    (draft given).readFlags ((partitionArguments args).1 ++ tail) =
      readBehind given (pieces args) tail := by
  unfold Complete at h
  fun_induction pieces args generalizing given with
  | case1 => simp [partitionArguments, readBehind]
  | case2 rest => rw [partitionArguments_terminator, readBehind_inputs, List.nil_append]
  | case3 arg rest hne hflag value hown ih =>
    have hwritten : Written arg value [arg] := .alone hown
    rw [← List.singleton_append, readFlags_written hflag hne hwritten, readBehind_flag]
    simp only [ih fun piece hpiece => h piece (List.mem_cons_of_mem _ hpiece)]
  | case4 arg hne hflag hown =>
    -- no argument follows, so the flag is not one that needs a value
    have hunknown : Flag.named? (flagName arg) = none := by
      rw [← Option.not_isSome_iff_eq_none, Bool.not_eq_true]
      exact h _ List.mem_cons_self
    obtain ⟨e, hassign, hread⟩ := readFlags_meaningless hflag hne (Or.inr hunknown) none
    obtain ⟨behind, hbehind⟩ := exists_partitionArguments hflag hne []
    rw [hbehind, List.cons_append, hread, readBehind_flag, hassign]
    rfl
  | case5 arg hne hflag hown next rest ih =>
    have hwritten : Written arg next [arg, next] := .next hown
    have hargs : arg :: next :: rest = [arg, next] ++ rest := rfl
    rw [hargs, readFlags_written hflag hne hwritten, readBehind_flag]
    simp only [ih fun piece hpiece => h piece (List.mem_cons_of_mem _ hpiece)]
  | case6 arg rest hne hflag ih =>
    rw [partitionArguments_input (Bool.eq_false_iff.mpr hflag), readBehind_input]
    exact ih fun piece hpiece => h piece (List.mem_cons_of_mem _ hpiece)

theorem assign_of_error? {value : Option Bytes} (h : (Piece.flag arg value).error? = none) :
    ∃ a, assign arg value = .ok a := by
  cases hassign : assign arg value with
  | error e => simp [Piece.error?, hassign] at h
  | ok a => exact ⟨a, rfl⟩

/-- Inputs are kept in order. A bad flag may take another argument for its value than its piece
does, but then the arguments are refused. -/
theorem inputs_partitionArguments {args : List Bytes}
    (h : ∀ piece ∈ pieces args, piece.error? = none) :
    (partitionArguments args).2 = (pieces args).filterMap Piece.input? := by
  fun_induction pieces args with
  | case1 => rfl
  | case2 rest =>
    rw [partitionArguments_terminator, List.filterMap_map]
    exact List.filterMap_some.symm
  | case3 arg rest hne hflag value hown ih =>
    obtain ⟨a, hassign⟩ := assign_of_error? (h _ List.mem_cons_self)
    have htakes := takesNext_eq hflag hne (named_of_assign hassign).1
    rw [hown] at htakes
    rw [partitionArguments_own hflag hne htakes]
    exact ih fun piece hpiece => h piece (List.mem_cons_of_mem _ hpiece)
  | case4 arg hne hflag hown =>
    simp [partitionArguments, hne, isDashed_eq_isFlag, hflag, Piece.input?]
  | case5 arg hne hflag hown next rest ih =>
    obtain ⟨a, hassign⟩ := assign_of_error? (h _ List.mem_cons_self)
    have htakes := takesNext_eq hflag hne (named_of_assign hassign).1
    rw [hown] at htakes
    rw [partitionArguments_next hflag hne htakes]
    exact ih fun piece hpiece => h piece (List.mem_cons_of_mem _ hpiece)
  | case6 arg rest hne hflag ih =>
    rw [partitionArguments_input (Bool.eq_false_iff.mpr hflag),
      ih fun piece hpiece => h piece (List.mem_cons_of_mem _ hpiece)]
    rfl

/-! ## The settings -/

theorem readFlags_orderArguments {args : List Bytes} (h : Complete args) :
    Draft.readFlags {} (orderArguments args) =
      match firstError? args with
      | some e => .error e
      | none => .ok (draft (assignments args), inputs args) := by
  have hempty : ({} : Draft) = draft [] := rfl
  -- the inputs stand behind a terminator, if there are any
  obtain ⟨tail, horder, htail⟩ :
      ∃ tail, orderArguments args = (partitionArguments args).1 ++ tail ∧
        ∀ d, Draft.readFlags d tail = .ok (d, (partitionArguments args).2) := by
    unfold orderArguments
    rcases partitionArguments args with ⟨flags, _ | ⟨input, rest⟩⟩
    · exact ⟨[], by simp, fun d => rfl⟩
    · exact ⟨bytes "--" :: input :: rest, rfl, fun d => rfl⟩
  rw [horder, hempty, readFlags_partitionArguments h, readBehind, firstError?]
  cases herror : (pieces args).findSome? Piece.error? with
  | some e => rfl
  | none =>
    have hinputs := inputs_partitionArguments (List.findSome?_eq_none_iff.mp herror)
    simp only [htail, hinputs]
    rfl

theorem finish_draft (given : List Assignment) (env : Environment) (inputs : List Bytes) :
    (draft given).finish env inputs = settle given env inputs := by
  have hlevel : (draft given).logLevelName env = levelAsked given env := by
    unfold Draft.logLevelName levelAsked
    cases h : last? .logLevel given <;> simp [draft, h]
  have hjobs : (draft given).jobsNumber env = jobsAsked given env := by
    unfold Draft.jobsNumber jobsAsked
    cases h : last? .jobs given with
    | some n => simp [draft, h]
    | none =>
      simp only [draft, h]
      cases Numeral.readDecimal env.jobs <;> rfl
  unfold Draft.finish settle
  rw [hlevel, hjobs]
  cases jobsAsked given env with
  | error e => rfl
  | ok jobs =>
    simp only [bind, Except.bind]
    split
    · rfl
    · cases Log.Level.ofName? (levelAsked given env) <;> rfl

theorem read_eq {args : List Bytes} (h : Complete args) (env : Environment) :
    Settings.read args env = interpret args env := by
  unfold Settings.read interpret
  rw [readFlags_orderArguments h]
  cases firstError? args with
  | some e => rfl
  | none => exact finish_draft _ _ _

/-- One of the names of a flag stands on the command line. -/
def Given (flag : Flag) (args : List Bytes) : Prop :=
  ∃ arg value, Piece.flag arg value ∈ pieces args ∧ flagName arg ∈ flag.names

theorem exists_last?_of_given {flag : Flag} {args : List Bytes} (h : Given flag args)
    (herror : firstError? args = none) : ∃ value, last? flag (assignments args) = some value := by
  obtain ⟨arg, value, hpiece, hname⟩ := h
  obtain ⟨a, hassign⟩ := assign_of_error? (List.findSome?_eq_none_iff.mp herror _ hpiece)
  -- names are not shared between flags
  have hflag : a.flag = flag := by
    have hnamed := (named_of_assign hassign).2
    rw [Flag.named?_of_mem_names hname] at hnamed
    exact (Option.some.inj hnamed).symm
  have hmem : a ∈ assignments args := by
    rw [assignments, List.mem_filterMap]
    exact ⟨_, hpiece, by simp [Piece.assignment?, hassign, Except.toOption]⟩
  have hvalue : (assignments args).filterMap (valueFor? flag) ≠ [] := by
    apply List.ne_nil_of_mem
    rw [List.mem_filterMap]
    exact ⟨a, hmem, dif_pos hflag⟩
  exact ⟨_, List.getLast?_eq_some_getLast hvalue⟩

/-- The environment matters only where it is asked. -/
theorem interpret_congr {args : List Bytes} {env env' : Environment}
    (hjobs : firstError? args = none →
      jobsAsked (assignments args) env = jobsAsked (assignments args) env')
    (hlevel : firstError? args = none →
      levelAsked (assignments args) env = levelAsked (assignments args) env') :
    interpret args env = interpret args env' := by
  unfold interpret
  cases herror : firstError? args with
  | some e => rfl
  | none => simp only [settle, hjobs herror, hlevel herror]

theorem ofName?_eq_some_iff {name : Bytes} {level : Log.Level} :
    Log.Level.ofName? name = some level ↔ name = level.name := by
  constructor
  · intro h
    unfold Log.Level.ofName? at h
    repeat' split at h
    all_goals cases h
    all_goals assumption
  · rintro rfl
    cases level <;> decide

theorem exists_settle_iff (env : Environment) (inputs : List Bytes) :
    (∃ s, settle given env inputs = .ok s) ↔
      (∃ jobs, jobsAsked given env = .ok jobs ∧ 0 ≤ jobs) ∧
        ∃ level : Log.Level, levelAsked given env = level.name := by
  simp only [← ofName?_eq_some_iff]
  unfold settle
  cases jobsAsked given env with
  | error e => simp [bind, Except.bind]
  | ok jobs =>
    by_cases hjobs : jobs < 0
    · have hnot : ¬ 0 ≤ jobs := by omega
      simp [bind, Except.bind, hjobs, hnot]
    · have hjobs' : 0 ≤ jobs := by omega
      cases Log.Level.ofName? (levelAsked given env) <;> simp [bind, Except.bind, hjobs, hjobs']

/-- Settings are read as the pieces of the command line say, a variable does not matter where its
flag is given, and settings come out if no flag is bad, the number of jobs asked for can be read and
is not negative, and the level asked for is one. -/
theorem read_eq_interpret (args : List Bytes) (env : Environment) (h : Complete args) :
    Settings.read args env = interpret args env ∧
      (Given .logLevel args → ∀ value,
        Settings.read args { env with logLevel := value } = Settings.read args env) ∧
      (Given .jobs args → ∀ value,
        Settings.read args { env with jobs := value } = Settings.read args env) ∧
      ((∃ s, Settings.read args env = .ok s) ↔
        (∀ piece ∈ pieces args, piece.error? = none) ∧
          (∃ jobs, jobsAsked (assignments args) env = .ok jobs ∧ 0 ≤ jobs) ∧
          ∃ level : Log.Level, levelAsked (assignments args) env = level.name) := by
  refine ⟨read_eq h env, ?_, ?_, ?_⟩
  · intro hgiven value
    rw [read_eq h, read_eq h]
    refine interpret_congr (fun _ => rfl) fun herror => ?_
    obtain ⟨name, hname⟩ := exists_last?_of_given hgiven herror
    unfold levelAsked
    rw [hname]
    rfl
  · intro hgiven value
    rw [read_eq h, read_eq h]
    refine interpret_congr (fun herror => ?_) fun _ => rfl
    obtain ⟨jobs, hjobs⟩ := exists_last?_of_given hgiven herror
    unfold jobsAsked
    rw [hjobs]
  · rw [read_eq h, interpret, ← List.findSome?_eq_none_iff, ← firstError?,
      ← exists_settle_iff env (inputs args)]
    cases firstError? args <;> simp

/-- Values that look like flags or like a terminator, a dash alone, flags given twice and under both
names, inputs in between and behind, and variables that would be refused if they were asked. -/
theorem read_eq_interpret_mixed :
    let args := ["a.adb", "-c", "--", "--out=x=y", "-", "-stdout", "b", "-l", "-j", "--jobs=0x10",
      "--log-level", "warn", "-j", "3", "--no-compare", "-no-compare=F", "--", "-o", "--"].map bytes
    let env : Environment := { logLevel := bytes "LOUD", jobs := bytes "many" }
    Complete args ∧ Given .logLevel args ∧ Given .jobs args ∧
      Settings.read args env = .ok {
        inputs := ["a.adb", "-", "b", "-o", "--"].map bytes
        config := bytes "--", out := bytes "x=y", logLevel := .warn, jobs := 3
        stdout := true, noCompare := false, diagnostics := false, help := false } ∧
      (∀ value, Settings.read args { env with logLevel := value } = Settings.read args env) ∧
      ∀ value, Settings.read args { env with jobs := value } = Settings.read args env := by
  intro args env
  have hcomplete : Complete args := by decide +kernel
  have hlevel : Given .logLevel args :=
    ⟨bytes "-l", some (bytes "-j"), by decide +kernel, by decide +kernel⟩
  have hjobs : Given .jobs args :=
    ⟨bytes "-j", some (bytes "3"), by decide +kernel, by decide +kernel⟩
  obtain ⟨hread, hlevels, hnumbers, -⟩ := read_eq_interpret args env hcomplete
  refine ⟨hcomplete, hlevel, hjobs, ?_, hlevels hlevel, hnumbers hjobs⟩
  rw [hread]
  decide +kernel

end CommandLine

end AdaToC
