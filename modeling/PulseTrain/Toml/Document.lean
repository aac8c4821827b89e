import PulseTrain.Toml.Key
import PulseTrain.Toml.Number
import PulseTrain.Toml.Table

/-!
# TOML documents

A document is a list of statements, one a line: headers of tables, headers of elements, and
assignments. `Document.ofStatements` builds the tables, `Document.read` reads a whole text.
-/

namespace PulseTrain.Toml

/-! ## Values -/

/-- A value that holds no other values. -/
def readScalar : Reader Value := fun s =>
  match s with
  | '"' :: _ => (readString s).map fun (text, rest) => (.string text, rest)
  | '\'' :: _ => (readString s).map fun (text, rest) => (.string text, rest)
  | 't' :: 'r' :: 'u' :: 'e' :: rest => some (.boolean true, rest)
  | 'f' :: 'a' :: 'l' :: 's' :: 'e' :: rest => some (.boolean false, rest)
  | _ =>
    match Datetime.read s with
    | some (value, rest) => some (.datetime value, rest)
    | none => readNumber s

/-- The items of an array, from behind its opening bracket, at most `limit` of them. -/
def readItems (item : Reader Value) : (limit : Nat) → Reader (List Value)
  | 0, _ => none
  | limit + 1, s =>
    match skipSpacing s with
    | ']' :: rest => some ([], rest)
    | s => do
      let (value, s) ← item s
      match skipSpacing s with
      | ',' :: rest =>
        let (values, rest) ← readItems item limit rest
        some (value :: values, rest)
      | ']' :: rest => some ([value], rest)
      | _ => none

/-- A value with the path of the key it is set to. -/
def readAssignment (item : Reader Value) : Reader (List String × Value) := fun s => do
  let (path, s) ← readPath s
  let (value, s) ← item (skipBlanks (← expect? '=' s))
  some ((path, value), s)

/-- The assignments of a table on one line, from the first of them, at most `limit` of them. -/
def readMembers (item : Reader Value) : (limit : Nat) → Reader Nodes.Assignments
  | 0, _ => none
  | limit + 1, s => do
    let (member, s) ← readAssignment item s
    match skipBlanks s with
    | ',' :: rest =>
      let (members, rest) ← readMembers item limit rest
      some (member :: members, rest)
    | '}' :: rest => some ([member], rest)
    | _ => none

/-- A table on one line, from behind its opening brace. -/
def readInline (item : Reader Value) : Reader Value := fun s => do
  match skipBlanks s with
  | '}' :: rest => some (.table [], rest)
  | s =>
    let (members, rest) ← readMembers item s.length s
    some (.table (Nodes.toEntries (← Nodes.assignAll [] members)), rest)

/-- A value, in which arrays and tables are nested at most `depth` deep. -/
def readValue : (depth : Nat) → Reader Value
  | 0 => readScalar
  | depth + 1 => fun s =>
    match s with
    | '[' :: rest => do
      let (items, rest) ← readItems (readValue depth) rest.length rest
      some (.array items, rest)
    | '\x7b' :: rest => readInline (readValue depth) rest
    | _ => readScalar s

/-! ## Statements -/

/-- The table, or the element of an array of tables, that a line opens. -/
inductive Header where
  | table (path : List String)
  | element (path : List String)

inductive Statement where
  | assignment (path : List String) (value : Value)
  | header (header : Header)

/-- A statement without its line end. -/
def Statement.read : Reader Statement := fun s =>
  match s with
  | '[' :: '[' :: rest => do
    let (path, rest) ← readPath rest
    some (.header (.element path), ← expect? ']' (← expect? ']' rest))
  | '[' :: rest => do
    let (path, rest) ← readPath rest
    some (.header (.table path), ← expect? ']' rest)
  | _ => (readAssignment (readValue (nestingLimit - 1)) s).map fun ((path, value), rest) =>
    (.assignment path value, rest)

/-- The statements of a text of at most `limit` lines. -/
def readStatements : (limit : Nat) → List Char → Option (List Statement)
  | 0, s => if s.isEmpty then some [] else none
  | limit + 1, s =>
    match endOfLine? s with
    | some [] => some []
    | some rest => readStatements limit rest
    | none => do
      let (statement, rest) ← Statement.read (skipBlanks s)
      let rest ← endOfLine? rest
      return statement :: (← readStatements limit rest)

/-! ## Documents -/

/-- A header with the assignments under it. -/
structure Section where
  header : Header
  assignments : Nodes.Assignments

/-- The assignments before the first header, and the sections after them. -/
def sections : List Statement → Nodes.Assignments × List Section
  | [] => ([], [])
  | .assignment path value :: rest =>
    let (assignments, tail) := sections rest
    ((path, value) :: assignments, tail)
  | .header header :: rest =>
    let (assignments, tail) := sections rest
    ([], ⟨header, assignments⟩ :: tail)

def Nodes.addSection (root : Nodes) (s : Section) : Option Nodes :=
  match s.header with
  | .table path => root.changeParent path fun entries key => entries.defineTable key s.assignments
  | .element path => root.changeParent path fun entries key => entries.addElement key s.assignments

namespace Document

/-- The entries of the document that statements make up, if they do not contradict each other. -/
def ofStatements (statements : List Statement) : Option Entries := do
  let (assignments, tail) := sections statements
  let root ← Nodes.assignAll [] assignments
  return Nodes.toEntries (← tail.foldlM Nodes.addSection root)

/-- A byte order mark in front of a text is no part of it. -/
def skipMark : List Char → List Char
  | '\uFEFF' :: rest => rest
  | s => s

/-- The entries of a document, if the text is one. -/
def read (text : String) : Option Entries := do
  let s := skipMark text.toList
  ofStatements (← readStatements (s.length + 1) s)

end Document

end PulseTrain.Toml
