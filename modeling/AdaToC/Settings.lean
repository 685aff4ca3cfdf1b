import AdaToC.Log
import AdaToC.Text.Case

/-!
# Settings from the command line

Arguments may come in any order. They are first put into order, flags before inputs, and then read
from left to right. A flag is written with one or two dashes; a switch stands alone, any other flag
has a value, behind `=` or as the next argument. Two environment variables are looked at where the
flags for the same settings are not given.
-/

namespace AdaToC

/-- What a run is asked to do. -/
structure Settings where
  /-- Ada files and directories. -/
  inputs : List Bytes
  /-- The path of the manifest, empty if it is to be searched for. -/
  config : Bytes
  /-- The directory for the generated files, empty if the manifest says where. -/
  out : Bytes
  logLevel : Log.Level
  /-- How many files are worked on at a time; 0 for as many as there are processors. -/
  jobs : Nat
  /-- Print the generated text and write no file. -/
  stdout : Bool
  noCompare : Bool
  diagnostics : Bool
  help : Bool
  deriving DecidableEq, Repr

/-- The environment variables that settings can come from. An empty variable counts as unset. -/
structure Environment where
  logLevel : Bytes := []
  jobs : Bytes := []
  deriving DecidableEq, Repr

/-- Why arguments were refused. -/
inductive ArgumentError where
  | malformed (arg : Bytes)
  | undefined (name : Bytes)
  | needsValue (name : Bytes)
  | badNumber (value name : Bytes) (e : Numeral.Error)
  | badSwitch (value name : Bytes)
  | badJobsVariable (value : Bytes)
  | negativeJobs (n : Int)
  | badLogLevel (name : Bytes)
  deriving DecidableEq, Repr

def ArgumentError.message : ArgumentError → Bytes
  | .malformed arg => bytes "bad flag syntax: " ++ arg
  | .undefined name => bytes "flag provided but not defined: -" ++ name
  | .needsValue name => bytes "flag needs an argument: -" ++ name
  | .badNumber value name e =>
    let reason :=
      match e with
      | .malformed => bytes "parse error"
      | .outOfRange => bytes "value out of range"
    bytes "invalid value " ++ value.quoted ++ bytes " for flag -" ++ name ++ bytes ": " ++ reason
  | .badSwitch value name =>
    bytes "invalid boolean value " ++ value.quoted ++ bytes " for -" ++ name ++
      bytes ": parse error"
  | .badJobsVariable value => bytes "invalid ADA2C_JOBS: " ++ value.quoted
  | .negativeJobs n => bytes "jobs must be non-negative, got " ++ decimalInt n
  | .badLogLevel name =>
    bytes "invalid log level: " ++ name ++ bytes " (must be debug, info, warn, or error)"

/-- The flags. -/
inductive Flag where
  | config
  | out
  | logLevel
  | jobs
  | stdout
  | noCompare
  | diagnostics
  | help
  deriving DecidableEq, Repr

namespace Flag

/-- The flag with a given name, short or long. -/
def ofName? (name : Bytes) : Option Flag :=
  [(.config, ["config", "c"]), (.out, ["out", "o"]), (.logLevel, ["log-level", "l"]),
   (.jobs, ["jobs", "j"]), (.stdout, ["stdout"]), (.noCompare, ["no-compare"]),
   (.diagnostics, ["diagnostics"]), (.help, ["help", "h"])].findSome?
    fun (flag, names) => if names.any (fun n => bytes n == name) then some flag else none

/-- Whether a flag stands alone. -/
def isSwitch : Flag → Bool
  | .stdout | .noCompare | .diagnostics | .help => true
  | .config | .out | .logLevel | .jobs => false

end Flag

/-- An argument where a flag may stand. -/
inductive Argument where
  | input
  /-- The argument `--`, behind which there are only inputs. -/
  | terminator
  | flag (name : Bytes) (value : Option Bytes)
  | malformed
  deriving DecidableEq, Repr

/-- How an argument reads where a flag may stand. -/
def Argument.ofText : Bytes → Argument
  | 0x2D :: b :: rest =>
    if b == 0x2D && rest.isEmpty then .terminator
    else
      match (if b == 0x2D then rest else b :: rest) with
      | [] => .malformed
      | c :: more =>
        if c == 0x2D || c == 0x3D then .malformed
        else
          match Bytes.cut? 0x3D more with
          | some (name, value) => .flag (c :: name) (some value)
          | none => .flag (c :: more) none
  | _ => .input

/-- Whether an argument takes the next one with it when arguments are put into order: it starts
with a dash, is not a dash alone, has no `=` behind its dashes and is not the name of a switch. -/
def takesNext (arg : Bytes) : Bool :=
  let name := arg.dropWhile (· == 0x2D)
  !name.contains 0x3D && !((Flag.ofName? name).any Flag.isSwitch)

/-- Whether an argument is put among the flags. -/
def isDashed : Bytes → Bool
  | 0x2D :: _ :: _ => true
  | _ => false

/-- The arguments that are or belong to flags, and the inputs, both in the order given. -/
def partitionArguments : List Bytes → List Bytes × List Bytes
  | [] => ([], [])
  | [arg] =>
    if arg == bytes "--" then ([], [])
    else if isDashed arg then ([arg], []) else ([], [arg])
  | arg :: next :: rest =>
    if arg == bytes "--" then ([], next :: rest)
    else if isDashed arg then
      if takesNext arg then
        let (flags, inputs) := partitionArguments rest
        (arg :: next :: flags, inputs)
      else
        let (flags, inputs) := partitionArguments (next :: rest)
        (arg :: flags, inputs)
    else
      let (flags, inputs) := partitionArguments (next :: rest)
      (flags, arg :: inputs)

/-- The arguments with the flags in front. Inputs come behind `--`, so that one that starts with a
dash is not taken for a flag. -/
def orderArguments (args : List Bytes) : List Bytes :=
  match partitionArguments args with
  | (flags, []) => flags
  | (flags, inputs) => flags ++ bytes "--" :: inputs

/-- The settings as far as they have been read. -/
structure Draft where
  config : Bytes := []
  out : Bytes := []
  /-- The name of the log level, if a flag gave one. -/
  logLevel : Option Bytes := none
  /-- The number of jobs, if a flag gave one. -/
  jobs : Option Int := none
  stdout : Bool := false
  noCompare : Bool := false
  diagnostics : Bool := false
  help : Bool := false
  deriving DecidableEq, Repr

namespace Draft

/-- Reads the value of a switch. -/
def switchValue? (value : Bytes) : Option Bool :=
  if ["1", "t", "T", "TRUE", "true", "True"].any fun s => bytes s == value then some true
  else if ["0", "f", "F", "FALSE", "false", "False"].any fun s => bytes s == value then some false
  else none

/-- Sets what a flag other than a switch stands for. -/
def setValue (d : Draft) (flag : Flag) (name value : Bytes) : Except ArgumentError Draft :=
  match flag with
  | .config => .ok { d with config := value }
  | .out => .ok { d with out := value }
  | .logLevel => .ok { d with logLevel := some value }
  | .jobs =>
    match Numeral.read value with
    | .ok n => .ok { d with jobs := some n }
    | .error e => .error (.badNumber value name e)
  | _ => .ok d

/-- Turns a switch on or off. -/
def setSwitch (d : Draft) (flag : Flag) (b : Bool) : Draft :=
  match flag with
  | .stdout => { d with stdout := b }
  | .noCompare => { d with noCompare := b }
  | .diagnostics => { d with diagnostics := b }
  | .help => { d with help := b }
  | _ => d

/-- Reads flags up to the first input, or through `--`. Gives the inputs behind them. -/
def readFlags (d : Draft) : List Bytes → Except ArgumentError (Draft × List Bytes)
  | [] => .ok (d, [])
  | arg :: rest =>
    match Argument.ofText arg with
    | .input => .ok (d, arg :: rest)
    | .terminator => .ok (d, rest)
    | .malformed => .error (.malformed arg)
    | .flag name value =>
      match Flag.ofName? name with
      | none => .error (.undefined name)
      | some flag =>
        if flag.isSwitch then
          match value with
          | none => readFlags (d.setSwitch flag true) rest
          | some v =>
            match switchValue? v with
            | some b => readFlags (d.setSwitch flag b) rest
            | none => .error (.badSwitch v name)
        else
          match value with
          | some v =>
            match d.setValue flag name v with
            | .ok d' => readFlags d' rest
            | .error e => .error e
          | none =>
            match rest with
            | [] => .error (.needsValue name)
            | v :: rest' =>
              match d.setValue flag name v with
              | .ok d' => readFlags d' rest'
              | .error e => .error e

/-- The name of the log level that the flags and the environment ask for. -/
def logLevelName (d : Draft) (env : Environment) : Bytes :=
  match d.logLevel with
  | some name => name
  | none => if env.logLevel.isEmpty then bytes "info" else env.logLevel.lower

/-- The number of jobs that the flags and the environment ask for. -/
def jobsNumber (d : Draft) (env : Environment) : Except ArgumentError Int :=
  match d.jobs with
  | some n => .ok n
  | none =>
    if env.jobs.isEmpty then .ok 0
    else
      match Numeral.readDecimal env.jobs with
      | .ok n => .ok n
      | .error _ => .error (.badJobsVariable env.jobs)

/-- The finished settings. -/
def finish (d : Draft) (env : Environment) (inputs : List Bytes) :
    Except ArgumentError Settings :=
  match d.jobsNumber env with
  | .error e => .error e
  | .ok jobs =>
    if jobs < 0 then .error (.negativeJobs jobs)
    else
      match Log.Level.ofName? (d.logLevelName env) with
      | none => .error (.badLogLevel (d.logLevelName env))
      | some logLevel =>
        .ok { inputs, config := d.config, out := d.out, logLevel, jobs := jobs.toNat
              stdout := d.stdout, noCompare := d.noCompare, diagnostics := d.diagnostics
              help := d.help }

end Draft

/-- Reads the arguments of a run, given in any order. -/
def Settings.read (args : List Bytes) (env : Environment) : Except ArgumentError Settings :=
  match Draft.readFlags {} (orderArguments args) with
  | .error e => .error e
  | .ok (d, inputs) => d.finish env inputs

end AdaToC
