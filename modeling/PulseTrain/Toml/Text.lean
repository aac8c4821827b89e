import PulseTrain.Toml.Character

/-!
# Strings of a document

Strings with escapes, between quotes, and literal strings, between apostrophes; each on one line or,
between three marks, over several. Line ends inside a string are read as one line feed.
-/

namespace PulseTrain.Toml

/-- The character of an escape of one letter. -/
def escaped? : Char → Option Char
  | 'b' => some '\x08'
  | 't' => some '\t'
  | 'n' => some '\n'
  | 'f' => some '\x0c'
  | 'r' => some '\r'
  | '"' => some '"'
  | '\\' => some '\\'
  | _ => none

/-- The character with a hexadecimal number, if there is one. -/
def scalar? (digits : List Char) : Option Char :=
  let n := ofDigits 16 digits
  if digits.all (fun c => (hexValue? c).isSome) ∧ n.isValidChar then some (Char.ofNat n) else none

/-- Puts a character in front of what has been read. -/
def prepend (c : Char) (read : List Char × List Char) : List Char × List Char :=
  (c :: read.1, read.2)

/-- What may stand for itself in a string with escapes. -/
def isUnescaped (c : Char) : Bool := isPlain c && c != '"' && c != '\\'

/-- A string with escapes, from behind its opening quote. -/
def readBasic : Reader (List Char)
  | '"' :: rest => some ([], rest)
  | '\\' :: 'u' :: a :: b :: c :: d :: rest => do
    return prepend (← scalar? [a, b, c, d]) (← readBasic rest)
  | '\\' :: 'U' :: a :: b :: c :: d :: e :: f :: g :: h :: rest => do
    return prepend (← scalar? [a, b, c, d, e, f, g, h]) (← readBasic rest)
  | '\\' :: c :: rest => do return prepend (← escaped? c) (← readBasic rest)
  | c :: rest => if isUnescaped c then (readBasic rest).map (prepend c) else none
  | [] => none

/-- A literal string, from behind its opening apostrophe. -/
def readLiteral : Reader (List Char)
  | '\'' :: rest => some ([], rest)
  | c :: rest => if isPlain c then (readLiteral rest).map (prepend c) else none
  | [] => none

/-- The text after blanks and line ends. -/
def skipLines : List Char → List Char
  | ' ' :: rest => skipLines rest
  | '\t' :: rest => skipLines rest
  | '\n' :: rest => skipLines rest
  | '\r' :: '\n' :: rest => skipLines rest
  | s => s

/-- What a backslash at the end of a line leaves out: the line end and all blanks and line ends up
to the next other character. Only blanks may stand between the backslash and the line end. -/
def skipLineBreak? (s : List Char) : Option (List Char) := (newline? (skipBlanks s)).map skipLines

/-- A line end is at least one character. -/
theorem length_newline? {s rest : List Char} (h : newline? s = some rest) :
    rest.length < s.length := by
  unfold newline? at h
  split at h
  · obtain rfl := Option.some.inj h
    exact Nat.lt_succ_self _
  · obtain rfl := Option.some.inj h
    simp only [List.length_cons]
    omega
  · contradiction

/-- Nothing is added by leaving characters out. -/
theorem length_skipLines (s : List Char) : (skipLines s).length ≤ s.length := by
  fun_induction skipLines s <;> simp_all <;> omega

/-- What a backslash leaves out is at least the line end, so reading goes on from a shorter text. -/
theorem length_skipLineBreak? {s rest : List Char} (h : skipLineBreak? s = some rest) :
    rest.length < s.length := by
  obtain ⟨line, hline, rfl⟩ := Option.map_eq_some_iff.1 h
  have hblanks := (List.dropWhile_suffix (l := s) isBlank).length_le
  have hline := length_newline? hline
  have hrest := length_skipLines line
  simp only [skipBlanks] at hline
  omega

/-- The marks that a closing mark of three takes into the string in front of it: up to two. -/
def readClosing (mark : Char) : List Char → List Char × List Char
  | a :: b :: rest =>
    if a = mark then (if b = mark then ([mark, mark], rest) else ([mark], b :: rest))
    else ([], a :: b :: rest)
  | [a] => if a = mark then ([mark], []) else ([], [a])
  | [] => ([], [])

/-- A string with escapes over several lines, from behind its opening marks. -/
def readBasicLines (s : List Char) : Option (List Char × List Char) :=
  match s with
  | '"' :: '"' :: '"' :: rest => some (readClosing '"' rest)
  | '"' :: rest => (readBasicLines rest).map (prepend '"')
  | '\\' :: 'u' :: a :: b :: c :: d :: rest => do
    return prepend (← scalar? [a, b, c, d]) (← readBasicLines rest)
  | '\\' :: 'U' :: a :: b :: c :: d :: e :: f :: g :: h :: rest => do
    return prepend (← scalar? [a, b, c, d, e, f, g, h]) (← readBasicLines rest)
  | '\\' :: c :: rest =>
    match _ : skipLineBreak? (c :: rest) with
    | some rest => readBasicLines rest
    | none => do return prepend (← escaped? c) (← readBasicLines rest)
  | '\r' :: '\n' :: rest => (readBasicLines rest).map (prepend '\n')
  | c :: rest =>
    if isUnescaped c ∨ c = '\n' then (readBasicLines rest).map (prepend c) else none
  | [] => none
termination_by s.length
decreasing_by
  all_goals simp only [List.length_cons]
  all_goals first
    | omega
    | have := length_skipLineBreak? ‹_›
      simp only [List.length_cons] at this
      omega

/-- A literal string over several lines, from behind its opening marks. -/
def readLiteralLines : Reader (List Char)
  | '\'' :: '\'' :: '\'' :: rest => some (readClosing '\'' rest)
  | '\r' :: '\n' :: rest => (readLiteralLines rest).map (prepend '\n')
  | c :: rest => if isPlain c ∨ c = '\n' then (readLiteralLines rest).map (prepend c) else none
  | [] => none

/-- A line end right behind the opening marks is no part of the string. -/
def skipFirstLineEnd (s : List Char) : List Char := (newline? s).getD s

/-- A string on one line: a key or a value. -/
def readQuoted : Reader String
  | '"' :: rest => (readBasic rest).map fun (cs, rest) => (String.ofList cs, rest)
  | '\'' :: rest => (readLiteral rest).map fun (cs, rest) => (String.ofList cs, rest)
  | _ => none

/-- A string in any of the written forms. -/
def readString : Reader String
  | '"' :: '"' :: '"' :: rest =>
    (readBasicLines (skipFirstLineEnd rest)).map fun (cs, rest) => (String.ofList cs, rest)
  | '\'' :: '\'' :: '\'' :: rest =>
    (readLiteralLines (skipFirstLineEnd rest)).map fun (cs, rest) => (String.ofList cs, rest)
  | s => readQuoted s

end PulseTrain.Toml
