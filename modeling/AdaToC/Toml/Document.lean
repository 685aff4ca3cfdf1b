import AdaToC.Toml.Grammar

/-!
# TOML documents

A document is what the statements of a file define together. A key may be defined once. Two things
do not count as a definition: a table that only a longer key has brought about is *provisional*, and
a header or assignment may still claim it; and the names in front of the last one in a dotted key
are made provisional each time, so that several dotted keys can fill one table.
-/

namespace AdaToC.Toml

/-- A part of a document. -/
inductive Node where
  | scalar (s : Scalar)
  | array (items : List Node)
  | table (entries : List (Bytes × Node))
  /-- An array of tables made by headers; a header below it goes to its last table. -/
  | tables (elements : List (List (Bytes × Node)))

/-- The entries of a table, in the order of their first appearance. -/
abbrev Entries := List (Bytes × Node)

namespace Entries

/-- The entries with one set; a new one comes last. -/
def set (k : Bytes) (n : Node) : Entries → Entries
  | [] => [(k, n)]
  | (k', n') :: rest => if k = k' then (k, n) :: rest else (k', n') :: set k n rest

/-- The entries of the table that a key leads to. An array of tables leads to its last table. -/
def at? : Key → Entries → Option Entries
  | [], es => some es
  | k :: key, es =>
    match es.lookup k with
    | some (.table inner) => at? key inner
    | some (.tables elements) => elements.getLast?.bind (at? key)
    | _ => none

/-- The entries with the table that a key leads to changed. -/
def modify (f : Entries → Entries) : Key → Entries → Entries
  | [], es => f es
  | k :: key, es =>
    match es.lookup k with
    | some (.table inner) => set k (.table (modify f key inner)) es
    | some (.tables elements) =>
      match elements.getLast? with
      | some last => set k (.tables (elements.dropLast ++ [modify f key last])) es
      | none => es
    | _ => es

/-- The entries with a value put under a key, where the tables on the way are made as needed. A
value that is no table cannot be on the way. -/
def put (n : Node) : Key → Entries → Option Entries
  | [], es => some es
  | [k], es => some (set k n es)
  | k :: key, es =>
    match es.lookup k with
    | none => (put n key []).map fun inner => set k (.table inner) es
    | some (.table inner) => (put n key inner).map fun inner => set k (.table inner) es
    | some _ => none

/-- Whether a key is defined, along tables only. -/
def defines : Key → Entries → Bool
  | [], _ => true
  | [k], es => (es.lookup k).isSome
  | k :: key, es =>
    match es.lookup k with
    | some (.table inner) => defines key inner
    | _ => false

end Entries

/-- A document while it is being put together. -/
structure Assembly where
  root : Entries := []
  /-- The keys of tables that may still be claimed. -/
  provisional : List Key := []
  /-- The keys of arrays written between brackets. -/
  arrays : List Key := []

namespace Assembly

def addProvisional (a : Assembly) (key : Key) : Assembly :=
  { a with provisional := key :: a.provisional }

def dropProvisional (a : Assembly) (key : Key) : Assembly :=
  { a with provisional := a.provisional.filter (· != key) }

/-- Sets an entry in the table at `context`, whatever is there. -/
def put (a : Assembly) (context : Key) (k : Bytes) (n : Node) : Assembly :=
  { a with root := Entries.modify (Entries.set k n) context a.root }

/-- Defines an entry in the table at `context`. A provisional table stays and is claimed; the
provisional contents of an array are replaced by the array. -/
def define (a : Assembly) (context : Key) (k : Bytes) (n : Node) : Option Assembly :=
  let key := context ++ [k]
  match Entries.at? context a.root with
  | none => none
  | some es =>
    if (es.lookup k).isNone then some (a.put context k n)
    else if !a.provisional.contains key then none
    else if a.arrays.contains key then some ((a.dropProvisional key).put context k n)
    else some (a.dropProvisional key)

/-- Makes the tables that lead from `context` along some names, as provisional ones. -/
def enter (a : Assembly) (context : Key) : Key → Option Assembly
  | [] => some a
  | k :: rest =>
    let next := context ++ [k]
    match Entries.at? context a.root with
    | none => none
    | some es =>
      match es.lookup k with
      | none => enter ((a.addProvisional next).put context k (.table [])) next rest
      | some (.table _) => enter a next rest
      | some (.tables _) => enter a next rest
      | some _ => none

/-- Starts the table at a key. -/
def openTable (a : Assembly) (key : Key) : Option Assembly := do
  let a ← a.enter [] key.dropLast
  a.define key.dropLast (key.getLastD []) (.table [])

/-- Starts another table of the array at a key. -/
def openElement (a : Assembly) (key : Key) : Option Assembly := do
  let context := key.dropLast
  let k := key.getLastD []
  let a ← a.enter [] context
  let es ← Entries.at? context a.root
  match es.lookup k with
  | none => some (a.put context k (.tables [[]]))
  | some (.tables elements) => some (a.put context k (.tables (elements ++ [[]])))
  | some _ => none

/-- Makes the tables that the names of a dotted key lead to, and claims each. -/
def openDotted (a : Assembly) (context : Key) : Key → Option (Assembly × Key)
  | [] => some (a, context)
  | k :: rest => do
    let next := context ++ [k]
    let a ← (a.addProvisional next).openTable next
    a.openDotted next rest

/-- The key under which the kind of an entry is remembered. An empty name stands for the table
around it. -/
def kindKey (context : Key) (k : Bytes) : Key :=
  if !k.isEmpty then context ++ [k] else if context.isEmpty then [[]] else context

/-- Remembers whether an entry is an array between brackets. -/
def noteKind (a : Assembly) (context : Key) (k : Bytes) (isArray : Bool) : Assembly :=
  let key := kindKey context k
  if isArray then { a with arrays := key :: a.arrays }
  else { a with arrays := a.arrays.filter (· != key) }

end Assembly

def Value.isArray : Value → Bool
  | .array _ => true
  | _ => false

mutual

/-- Builds the value of the entry `k` of the table at `context`. The tables inside it are entered
into the document on the way. -/
def Assembly.build (a : Assembly) (context : Key) (k : Bytes) (inArray : Bool) :
    Value → Option (Assembly × Node)
  | .scalar s => some (a, .scalar s)
  | .array items =>
    match (a.noteKind context k true).buildItems context k items with
    | some (a, nodes) => some (a, .array nodes)
    | none => none
  | .inlineTable fields =>
    let key := context ++ [k]
    let a := a.addProvisional key
    match (if inArray then a.openElement key else a.openTable key) with
    | none => none
    | some a =>
      match a.buildFields key [] fields with
      | some (a, entries) => some (a, .table entries)
      | none => none

/-- Builds the items of an array. -/
def Assembly.buildItems (a : Assembly) (context : Key) (k : Bytes) :
    List Value → Option (Assembly × List Node)
  | [] => some (a, [])
  | item :: rest =>
    match a.build context k true item with
    | none => none
    | some (a, node) =>
      match a.buildItems context k rest with
      | some (a, nodes) => some (a, node :: nodes)
      | none => none

/-- Builds the fields of an inline table behind those already built. -/
def Assembly.buildFields (a : Assembly) (context : Key) (built : Entries) :
    List (Key × Value) → Option (Assembly × Entries)
  | [] => some (a, built)
  | (key, value) :: rest =>
    let k := key.getLastD []
    match a.openDotted context key.dropLast with
    | none => none
    | some (a, inner) =>
      match a.build inner k false value with
      | none => none
      | some (a, node) =>
        match a.define inner k node, Entries.put node key built with
        | some a, some built =>
          (a.noteKind inner k value.isArray).buildFields context built rest
        | _, _ => none

end

/-- Carries out one statement below the header at `context`; gives the header for the next one. -/
def Assembly.step (a : Assembly) (context : Key) : Statement → Option (Assembly × Key)
  | .table key => (a.openTable key).map fun a =>
    ({ a with arrays := a.arrays.filter (· != key) }, key)
  | .element key => (a.openElement key).map fun a =>
    ({ a with arrays := a.arrays.filter (· != key) }, key)
  | .assign key value => do
    let k := key.getLastD []
    let (a, inner) ← a.openDotted context key.dropLast
    let (a, node) ← a.build inner k false value
    let a ← a.define inner k node
    some (a.noteKind inner k value.isArray, context)

/-- Carries out statements in order. -/
def Assembly.run (a : Assembly) (context : Key) : List Statement → Option Assembly
  | [] => some a
  | s :: rest =>
    match a.step context s with
    | some (a, context) => a.run context rest
    | none => none

/-- The entries of a TOML file. -/
def document? (data : Bytes) : Option Entries := do
  let statements ← parse? data
  let a ← Assembly.run {} [] statements
  some a.root

end AdaToC.Toml
