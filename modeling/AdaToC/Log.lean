import AdaToC.Text.Blank
import AdaToC.Text.Quoted

/-!
# Log records

A record has a level, a message and attributes. It is written as one line of `key=value` pairs;
texts that could be misread there are quoted.
-/

namespace AdaToC.Log

inductive Level where
  | debug
  | info
  | warn
  | error
  deriving DecidableEq, Repr

namespace Level

/-- The rank of a level; a higher level matters more. -/
def rank : Level → Int
  | .debug => -4
  | .info => 0
  | .warn => 4
  | .error => 8

/-- The level as it stands in a line. -/
def label : Level → Bytes
  | .debug => bytes "DEBUG"
  | .info => bytes "INFO"
  | .warn => bytes "WARN"
  | .error => bytes "ERROR"

/-- The level with a name in lower case. -/
def ofName? (name : Bytes) : Option Level :=
  if name = bytes "debug" then some .debug
  else if name = bytes "info" then some .info
  else if name = bytes "warn" then some .warn
  else if name = bytes "error" then some .error
  else none

/-- A name that is not that of a level. -/
structure Error where
  name : Bytes
  deriving DecidableEq, Repr

def Error.message (e : Error) : Bytes :=
  bytes "invalid log level: " ++ e.name

/-- The name of a level, in lower case. -/
def name : Level → Bytes
  | .debug => bytes "debug"
  | .info => bytes "info"
  | .warn => bytes "warn"
  | .error => bytes "error"

/-- Reads the name of a level. -/
def parse (name : Bytes) : Except Error Level :=
  match ofName? name with
  | some level => .ok level
  | none => .error ⟨name⟩

end Level

/-- The value of an attribute. -/
inductive Value where
  | text (s : Bytes)
  | number (n : Int)
  | boolean (b : Bool)
  | nothing
  deriving DecidableEq, Repr

/-- A named value. -/
structure Attribute where
  key : Bytes
  value : Value
  deriving DecidableEq, Repr

/-- The key of a value that has none. -/
def keyless : Bytes := bytes "!BADKEY"

/-- The attributes of a flat list in which each value follows its key. A text without a value
behind it, and a value that stands where a key should, are attributes without a key. -/
def attributes : List Value → List Attribute
  | [] => []
  | [.text s] => [⟨keyless, .text s⟩]
  | .text key :: value :: rest => ⟨key, value⟩ :: attributes rest
  | value :: rest => ⟨keyless, value⟩ :: attributes rest

structure Record where
  level : Level
  message : Bytes
  attributes : List Attribute := []
  deriving DecidableEq, Repr

/-- Whether a glyph makes it necessary to quote the text it stands in. -/
def needsQuotes : Glyph → Bool
  | .stray _ => true
  | .char c =>
    if c.toNat < 0x80 then c.toNat ≤ 0x20 || c == '=' || c == '"'
    else c == replacementChar || isBlank c || !isPrintable c

/-- A text as it stands in a line: quoted if it is empty or could be misread. -/
def writeText (s : Bytes) : Bytes :=
  if s.isEmpty || (Utf8.glyphs s).any needsQuotes then s.quoted else s

def writeValue : Value → Bytes
  | .text s => writeText s
  | .number n => decimalInt n
  | .boolean true => bytes "true"
  | .boolean false => bytes "false"
  | .nothing => bytes "<nil>"

/-- An attribute with a space before it. One that has neither key nor value is left out. -/
def writeAttribute (a : Attribute) : Bytes :=
  if a.key.isEmpty && a.value == .nothing then []
  else bytes " " ++ writeText a.key ++ bytes "=" ++ writeValue a.value

/-- The record as one line. -/
def Record.line (r : Record) : Bytes :=
  bytes "level=" ++ r.level.label ++ bytes " msg=" ++ writeText r.message ++
    r.attributes.flatMap writeAttribute

/-- The records that a log with a given threshold keeps. -/
def visible (threshold : Level) (records : List Record) : List Record :=
  records.filter fun r => threshold.rank ≤ r.level.rank

/-- The record of the beginning of a phase. -/
def phase (name : Bytes) (more : List Value) : Record :=
  ⟨.info, bytes "Starting phase", attributes (.text (bytes "phase") :: .text name :: more)⟩

/-- The record of the end of a phase. -/
def phaseComplete (name : Bytes) (more : List Value) : Record :=
  ⟨.info, bytes "Completed phase", attributes (.text (bytes "phase") :: .text name :: more)⟩

end AdaToC.Log
