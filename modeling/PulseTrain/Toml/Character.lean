/-!
# Characters of a TOML document

The classes of characters that the grammar is made of, and what stands between its tokens: blanks,
line ends and comments. A reader takes a text as a list of characters and gives what it has read
with the rest of the text, or nothing if the text does not begin that way.
-/

namespace PulseTrain.Toml

/-- Reads something from the front of a text and gives the rest. -/
abbrev Reader (α : Type) := List Char → Option (α × List Char)

/-- Blanks separate tokens on one line. -/
def isBlank (c : Char) : Bool := c == ' ' || c == '\t'

/-- What may stand for itself in a comment or a string: every control character but the tab is kept
out. -/
def isPlain (c : Char) : Bool := c == '\t' || (0x20 ≤ c.toNat && c.toNat ≠ 0x7F)

/-- What a key without quotes is made of. -/
def isBare (c : Char) : Bool := c.isAlphanum || c == '_' || c == '-'

/-- The value of a hexadecimal digit of either case. -/
def hexValue? (c : Char) : Option Nat :=
  if c.isDigit then some (c.toNat - '0'.toNat)
  else if 'a' ≤ c ∧ c ≤ 'f' then some (c.toNat - 'a'.toNat + 10)
  else if 'A' ≤ c ∧ c ≤ 'F' then some (c.toNat - 'A'.toNat + 10)
  else none

/-- The number that digits of a base stand for. -/
def ofDigits (base : Nat) (digits : List Char) : Nat :=
  digits.foldl (fun n c => base * n + (hexValue? c).getD 0) 0

/-- The text after the blanks at its front. -/
def skipBlanks (s : List Char) : List Char := s.dropWhile isBlank

/-- The text after a line end. -/
def newline? : List Char → Option (List Char)
  | '\n' :: rest => some rest
  | '\r' :: '\n' :: rest => some rest
  | _ => none

/-- The text after a comment, if one stands at its front. -/
def skipComment : List Char → List Char
  | '#' :: rest => rest.dropWhile isPlain
  | s => s

/-- The next line, if nothing but blanks and a comment is left on this one. -/
def endOfLine? (s : List Char) : Option (List Char) :=
  match skipComment (skipBlanks s) with
  | [] => some []
  | rest => newline? rest

/-- The text after blanks, line ends and comments, which may stand between the items of an array. -/
def skipSpacing (s : List Char) : List Char :=
  match s with
  | ' ' :: rest => skipSpacing rest
  | '\t' :: rest => skipSpacing rest
  | '\n' :: rest => skipSpacing rest
  | '\r' :: '\n' :: rest => skipSpacing rest
  | '#' :: rest => skipSpacing (rest.dropWhile isPlain)
  | s => s
termination_by s.length
decreasing_by
  all_goals simp only [List.length_cons]
  all_goals have := (List.dropWhile_suffix (l := rest) isPlain).length_le
  all_goals omega

end PulseTrain.Toml
