import PulseTrain.Toml.Value

/-!
# Numbers of a document

Integers of 64 bits in four bases, and fractional numbers with a point, an exponent or both.
Single underscores may stand between digits. A fractional number too large for double precision is
an error, unless it is negative.
-/

namespace PulseTrain.Toml

/-- Further digits of a run, each of which may follow an underscore. -/
def moreDigits (isDigit : Char → Bool) : List Char → List Char × List Char
  | '_' :: c :: rest =>
    if isDigit c then
      let (digits, rest) := moreDigits isDigit rest
      (c :: digits, rest)
    else ([], '_' :: c :: rest)
  | c :: rest =>
    if isDigit c then
      let (digits, rest) := moreDigits isDigit rest
      (c :: digits, rest)
    else ([], c :: rest)
  | [] => ([], [])

/-- One digit or more. -/
def digitRun (isDigit : Char → Bool) : Reader (List Char)
  | c :: rest =>
    if isDigit c then
      let (digits, rest) := moreDigits isDigit rest
      some (c :: digits, rest)
    else none
  | [] => none

/-- The digits of a whole number: no zero stands in front of another digit. -/
def wholeDigits : Reader (List Char)
  | '0' :: rest => some (['0'], rest)
  | s => digitRun Char.isDigit s

/-- An integer that fits into 64 bits with a sign. -/
def integer64? (n : Int) : Option Value :=
  if Int64.minValue.toInt ≤ n ∧ n ≤ Int64.maxValue.toInt then some (.integer n) else none

/-- A leading sign, read as whether the number is negative. -/
def readSign : List Char → Bool × List Char
  | '+' :: rest => (false, rest)
  | '-' :: rest => (true, rest)
  | s => (false, s)

/-- The exponent of a fractional number, if one is written; nothing if its digits are missing. -/
def readExponent (s : List Char) : Option (Option Int × List Char) :=
  let exponent (rest : List Char) : Option (Option Int × List Char) := do
    let (negative, rest) := readSign rest
    let (digits, rest) ← digitRun Char.isDigit rest
    let size := ofDigits 10 digits
    some (some (if negative then -(size : Int) else size), rest)
  match s with
  | 'e' :: rest => exponent rest
  | 'E' :: rest => exponent rest
  | _ => some (none, s)

/-- The digits after the point, if one is written; nothing if there are none. -/
def readFractionDigits (s : List Char) : Option (Option (List Char) × List Char) :=
  match s with
  | '.' :: rest => (digitRun Char.isDigit rest).map fun (digits, rest) => (some digits, rest)
  | _ => some (none, s)

/-- The double nearest to `coefficient * 10 ^ exponent`. -/
def nearestDouble (coefficient : Nat) (exponent : Int) : Float :=
  if 0 ≤ exponent then .ofScientific coefficient false exponent.toNat
  else .ofScientific coefficient true (-exponent).toNat

/-- A fractional number of double precision. Only a negative one may be too large. -/
def double? (negative : Bool) (coefficient : Nat) (exponent : Int) : Option Value :=
  let size := nearestDouble coefficient exponent
  if negative then some (.float (-size))
  else if size.isInf then none
  else some (.float size)

/-- A decimal number: an integer, unless a point or an exponent follows its whole digits. -/
def readDecimal (negative : Bool) : Reader Value := fun s => do
  let (whole, s) ← wholeDigits s
  let (fraction, s) ← readFractionDigits s
  let (exponent, s) ← readExponent s
  let number ← match fraction, exponent with
    | none, none =>
      let size : Int := ofDigits 10 whole
      integer64? (if negative then -size else size)
    | _, _ =>
      let fraction := fraction.getD []
      double? negative (ofDigits 10 (whole ++ fraction)) (exponent.getD 0 - fraction.length)
  some (number, s)

/-- An integer in another base. -/
def readBased (base : Nat) : Reader Value := fun s => do
  let (digits, s) ← digitRun (fun c => (hexValue? c).any (· < base)) s
  some (← integer64? (ofDigits base digits), s)

/-- A number in any of the written forms. -/
def readNumber : Reader Value
  | '0' :: 'x' :: rest => readBased 16 rest
  | '0' :: 'o' :: rest => readBased 8 rest
  | '0' :: 'b' :: rest => readBased 2 rest
  | s =>
    match readSign s with
    | (negative, 'i' :: 'n' :: 'f' :: rest) =>
      let infinity : Float := 1 / 0
      some (.float (if negative then -infinity else infinity), rest)
    | (_, 'n' :: 'a' :: 'n' :: rest) => some (.float (0 / 0), rest)
    | (negative, rest) => readDecimal negative rest

end PulseTrain.Toml
