import PulseTrain.Toml.Text

/-!
# Keys of a document

A key is a name without quotes or a string on one line. Keys joined by points lead through nested
tables.
-/

namespace PulseTrain.Toml

/-- A path has fewer keys than this, and values are nested less deeply. -/
def nestingLimit : Nat := 80

def readKey : Reader String := fun s =>
  match s with
  | '"' :: _ => readQuoted s
  | '\'' :: _ => readQuoted s
  | _ =>
    match s.takeWhile isBare with
    | [] => none
    | name => some (String.ofList name, s.dropWhile isBare)

/-- Keys joined by points, at most `limit` of them, with the blanks around each. -/
def readKeys : (limit : Nat) → Reader (List String)
  | 0, _ => none
  | limit + 1, s => do
    let (key, s) ← readKey (skipBlanks s)
    match skipBlanks s with
    | '.' :: rest =>
      let (path, rest) ← readKeys limit rest
      some (key :: path, rest)
    | rest => some ([key], rest)

/-- A path through nested tables. -/
def readPath : Reader (List String) := readKeys (nestingLimit - 1)

end PulseTrain.Toml
