import PulseTrain.Toml.Value

/-!
# Tables under construction

A document defines its tables piece by piece: by headers, by keys joined by points and as elements
of arrays of tables. How a table came to be decides what may still be added to it, so until the
document ends each table carries its origin.

* A table under a header is closed once it is `defined`; the tables that a header leads through are
  `implied` and may get a header of their own later.
* A table that keys with points lead through is `dotted`; only such keys may add to it.
* Every key is set once.
-/

namespace PulseTrain.Toml

/-- How a table came to be. -/
inductive Origin where
  /-- Under a header of its own. -/
  | defined
  /-- On the way to the table of a header. -/
  | implied
  /-- On the way to a value set by keys with points. -/
  | dotted
deriving DecidableEq, Repr

/-- What a key stands for while the document is read. -/
inductive Node where
  | value (value : Value)
  | table (origin : Origin) (entries : List (String × Node))
  /-- An array of tables, each under a header of its own. -/
  | elements (tables : List (List (String × Node)))

/-- The entries of a table under construction, in the order in which their keys first appeared. -/
abbrev Nodes := List (String × Node)

namespace Nodes

/-- Puts another node in the place of a key. -/
def replace (entries : Nodes) (key : String) (node : Node) : Nodes :=
  entries.map fun e => if e.1 = key then (key, node) else e

/-- Takes a key out. -/
def remove (entries : Nodes) (key : String) : Nodes := entries.filter (·.1 ≠ key)

/-- Changes the last of a list of tables. -/
def changeLast (change : Nodes → Option Nodes) : List Nodes → Option (List Nodes)
  | [] => none
  | [last] => (change last).map ([·])
  | first :: rest => (changeLast change rest).map (first :: ·)

/-- Sets a value by a path of keys. Keys with points lead through tables that were not defined by a
header, and the last of these tables has to be `dotted` itself; `isOpen` says whether a value may be
set in the table at hand. -/
def assign (entries : Nodes) (path : List String) (value : Value) (isOpen : Bool := true) :
    Option Nodes :=
  match path with
  | [] => none
  | [key] =>
    if isOpen ∧ (entries.lookup key).isNone then some (entries ++ [(key, .value value)]) else none
  | key :: rest =>
    match entries.lookup key with
    | none => do return entries ++ [(key, .table .dotted (← assign [] rest value))]
    | some (.table .defined _) => none
    | some (.table origin inner) => do
      return entries.replace key (.table origin (← assign inner rest value (origin == .dotted)))
    | some (.elements tables) => do
      return entries.replace key
        (.elements (← changeLast (fun last => assign last rest value false) tables))
    | some (.value _) => none

/-- Changes the table at the end of a path of a header. The path leads through the last element of
an array of tables, and tables that do not exist yet are `implied`. -/
def changeAt (entries : Nodes) (path : List String) (change : Nodes → Option Nodes) :
    Option Nodes :=
  match path with
  | [] => change entries
  | key :: rest =>
    match entries.lookup key with
    | none => do return entries ++ [(key, .table .implied (← changeAt [] rest change))]
    | some (.table origin inner) => do
      return entries.replace key (.table origin (← changeAt inner rest change))
    | some (.elements tables) => do
      return entries.replace key
        (.elements (← changeLast (fun last => changeAt last rest change) tables))
    | some (.value _) => none

/-- Changes the table around the last key of a path of a header, by that key. -/
def changeParent (root : Nodes) (path : List String) (change : Nodes → String → Option Nodes) :
    Option Nodes :=
  match path.getLast? with
  | some key => root.changeAt path.dropLast fun entries => change entries key
  | none => none

/-- Values by their paths. -/
abbrev Assignments := List (List String × Value)

def assignAll (entries : Nodes) (assignments : Assignments) : Option Nodes :=
  assignments.foldlM (fun entries a => entries.assign a.1 a.2) entries

/-- Defines a table with its values. An implied table keeps what it holds, and moves to the end of
the table around it. -/
def defineTable (entries : Nodes) (key : String) (assignments : Assignments) : Option Nodes := do
  let held ← match entries.lookup key with
    | none => some []
    | some (.table .implied held) => some held
    | some _ => none
  return entries.remove key ++ [(key, .table .defined (← assignAll held assignments))]

def addElement (entries : Nodes) (key : String) (assignments : Assignments) : Option Nodes := do
  let element ← assignAll [] assignments
  match entries.lookup key with
  | none => return entries ++ [(key, .elements [element])]
  | some (.elements tables) => return entries.replace key (.elements (tables ++ [element]))
  | some _ => none

end Nodes

mutual

/-- The value that a node has become. -/
def Node.toValue : Node → Value
  | .value v => v
  | .table _ entries => .table (Nodes.toEntries entries)
  | .elements tables => .array (Nodes.toTables tables)

/-- The entries that a table has become. -/
def Nodes.toEntries : Nodes → Entries
  | [] => []
  | (key, node) :: rest => (key, node.toValue) :: Nodes.toEntries rest

/-- The tables that an array of tables has become. -/
def Nodes.toTables : List Nodes → List Value
  | [] => []
  | table :: rest => .table (Nodes.toEntries table) :: Nodes.toTables rest

end

end PulseTrain.Toml
