import RiscvBoot.Toml.Writer

/-!
# TOML tables under construction

A document names its tables in headers and in dotted keys, in any order, and may not define one
twice. While it is read, an entry remembers how it came about: a value is closed, a table of a
header is closed to dotted keys and to a second header, a table that was only passed through may
still get a header of its own, and a table made by dotted keys may only be extended by dotted
keys or hold tables of further headers. What does not fit is a `Conflict`. A `Draft` takes the
lines of a document one by one.
-/

set_option autoImplicit false

namespace RiscvBoot.Toml

/-- How a table came about. -/
inductive Origin where
  /-- It has a header, or it is the document itself. -/
  | header
  /-- A longer header passed through it. -/
  | passed
  /-- A dotted key passed through it. -/
  | dotted
  deriving DecidableEq, Repr

inductive Node where
  | value (t : Tree)
  | table (origin : Origin) (entries : List (String × Node))
  /-- The tables of a repeated header, the last of which is the open one. -/
  | tables (items : List (List (String × Node)))
  deriving Inhabited

/-- The entries of a table in the order in which they were first named; a table that was passed
through comes last when it gets its header. -/
abbrev Entries := List (String × Node)

/-- The entries with a new node for a name; a name that is not there yet is added at the end. -/
def Entries.set (name : String) (node : Node) : Entries → Entries
  | [] => [(name, node)]
  | (k, n) :: es => if k = name then (k, node) :: es else (k, n) :: Entries.set name node es

/-- Why a key or a header does not fit into the tables so far. -/
inductive Conflict where
  /-- A key has the name of an entry. -/
  | taken (name : String)
  /-- A header has the name of an entry that it may not open. -/
  | defined (name : String)
  /-- A key would go into a table that is closed to it, or would open one where it may not. -/
  | closed (name : String)
  /-- The names lead to a value. -/
  | atValue (names : List String) (value : Tree)
  deriving Repr

namespace Conflict

def kind : Tree → String
  | .text _ => "string"
  | .integer _ => "integer"
  | .real _ => "float"
  | .boolean _ => "boolean"
  | .dateTime _ => "datetime"
  | .list _ => "array"
  | .record _ => "inline table"
  | .null | .illFormed => "value"

def quote (names : List String) : String := "\x60" ++ ".".intercalate names ++ "\x60"

/-- A table given by the names that lead to it, in words. -/
def placeOf : List String → String
  | [] => "document root"
  | names => "table " ++ quote names

/-- What is wrong, where `place` leads to the table in question. -/
def message (place : List String) : Conflict → String
  | .taken name => s!"duplicate key {quote [name]} in {placeOf place}"
  | .defined name =>
    s!"duplicate key {quote [String.ofList (lineKey name)]} in {placeOf place}"
  | .closed name => s!"duplicate key {quote [name]}"
  | .atValue names value =>
    s!"dotted key {quote names} attempted to extend non-table type ({kind value})"

/-- What is wrong inside an inline table, which has no name and whose inner tables are closed. -/
def inlineMessage : Conflict → String
  | .taken name | .defined name | .closed name => s!"duplicate key {quote [name]}"
  | .atValue names value =>
    if kind value = "inline table" then s!"duplicate key {quote (names.drop (names.length - 1))}"
    else (atValue names value).message []

end Conflict

/-- Put a value below a dotted path. `origin` tells how the table of `entries` came about and
`above` which names of the path have led into it. A table that dotted keys did not make takes a
value only from its own section, and one that they made only from above. -/
def insert (origin : Origin) (above path : List String) (name : String) (value : Tree)
    (entries : Entries) : Except Conflict Entries :=
  match path with
  | [] =>
    if origin = .dotted ↔ above = [] then .error (.closed name)
    else
      match entries.lookup name with
      | some _ => .error (.taken name)
      | none => .ok (entries.set name (.value value))
  | key :: path =>
    match entries.lookup key with
    | none => do
      let inner ← insert .dotted (above ++ [key]) path name value []
      return entries.set key (.table .dotted inner)
    | some (.value t) => .error (.atValue (above ++ [key]) t)
    | some (.table .header _) => .error (.closed key)
    | some (.table o inner) => do
      let inner ← insert o (above ++ [key]) path name value inner
      return entries.set key (.table o inner)
    | some (.tables items) => do
      let last ← insert .header (above ++ [key]) path name value (items.getLastD [])
      return entries.set key (.tables (items.dropLast ++ [last]))

/-- A key: the names that lead to a table, and its own name there. -/
structure Key where
  path : List String
  name : String
  deriving DecidableEq, Repr

structure KeyValue extends Key where
  value : Tree

/-- A header. A repeated one starts another table of a list. -/
structure Header extends Key where
  repeated : Bool

/-- The entries with the table of a header, which is empty unless longer headers have passed
through it. -/
def openTable (h : Header) (entries : Entries) : Except Conflict Entries :=
  match h.repeated, entries.lookup h.name with
  | false, none => .ok (entries.set h.name (.table .header []))
  | false, some (.table .passed inner) =>
    .ok (entries.filter (·.1 ≠ h.name) ++ [(h.name, .table .header inner)])
  | true, none => .ok (entries.set h.name (.tables [[]]))
  | true, some (.tables items) => .ok (entries.set h.name (.tables (items ++ [[]])))
  | _, _ => .error (.defined h.name)

/-- Work on the table that a path of names leads to; missing tables on the way are made. `above`
are the names that have led here. -/
def under (above path : List String) (f : Entries → Except Conflict Entries)
    (entries : Entries) : Except Conflict Entries :=
  match path with
  | [] => f entries
  | key :: path =>
    match entries.lookup key with
    | none => do return entries.set key (.table .passed (← under (above ++ [key]) path f []))
    | some (.value t) => .error (.atValue (above ++ [key]) t)
    | some (.table o inner) => do
      return entries.set key (.table o (← under (above ++ [key]) path f inner))
    | some (.tables items) => do
      let last ← under (above ++ [key]) path f (items.getLastD [])
      return entries.set key (.tables (items.dropLast ++ [last]))

mutual

def Node.toTree : Node → Tree
  | .value t => t
  | .table _ entries => .record (entriesToTrees entries)
  | .tables items => .list (tablesToTrees items)

def entriesToTrees : List (String × Node) → List (String × Tree)
  | [] => []
  | (name, node) :: es => (name, node.toTree) :: entriesToTrees es

def tablesToTrees : List (List (String × Node)) → List Tree
  | [] => []
  | es :: rest => .record (entriesToTrees es) :: tablesToTrees rest

end

/-- The data of a table that only keys are put into. -/
def inlineTable (pairs : List KeyValue) : Except Conflict Tree := do
  let entries ← pairs.foldlM (fun es kv => insert .header [] kv.path kv.name kv.value es) []
  return .record (entriesToTrees entries)

inductive Line where
  | blank
  | pair (kv : KeyValue)
  | header (h : Header)

/-- A document of which some lines have been read: its tables, and the names that lead to the one
that keys go into. -/
structure Draft where
  root : Entries := []
  here : List String := []

namespace Draft

def add (d : Draft) : Line → Except Conflict Draft
  | .blank => .ok d
  | .pair kv => do
    return { d with root := ← under [] d.here (insert .header [] kv.path kv.name kv.value) d.root }
  | .header h => do
    return { root := ← under [] h.path (openTable h) d.root, here := h.path ++ [h.name] }

/-- The names of the table that a line is about: a key is put into the open table, a header opens
one in the table that it names first. -/
def tableOf (d : Draft) : Line → List String
  | .header h => h.path
  | _ => d.here

def toTree (d : Draft) : Tree := .record (entriesToTrees d.root)

end Draft

end RiscvBoot.Toml
