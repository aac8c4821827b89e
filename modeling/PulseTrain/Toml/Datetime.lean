import PulseTrain.Toml.Character

/-!
# Dates and times

A date, a time of day or both, with an offset from universal time if both are given.
`Datetime.read` accepts calendar dates only; `Datetime.text` writes the normal form, in which the
fraction of a second has no trailing zeros.
-/

namespace PulseTrain.Toml

structure Date where
  year : Nat
  month : Nat
  day : Nat
deriving DecidableEq, Repr

structure Time where
  hour : Nat
  minute : Nat
  second : Nat
  nanosecond : Nat
deriving DecidableEq, Repr

/-- The distance from universal time. -/
inductive Offset where
  | universal
  | minutes (east : Int)
deriving DecidableEq, Repr

/-- A date, a time of day or both. -/
structure Datetime where
  date : Option Date
  time : Option Time
  offset : Option Offset
deriving DecidableEq, Repr

/-- Every fourth year is a leap year, but of the centuries only every fourth one. -/
def isLeapYear (year : Nat) : Bool := year % 4 == 0 && (year % 100 != 0 || year % 400 == 0)

def daysInMonth (year month : Nat) : Nat :=
  if month = 2 then (if isLeapYear year then 29 else 28)
  else if month = 4 ∨ month = 6 ∨ month = 9 ∨ month = 11 then 30
  else 31

/-- A day that is in the calendar. -/
def Date.isValid (d : Date) : Bool :=
  1 ≤ d.month && d.month ≤ 12 && 1 ≤ d.day && d.day ≤ daysInMonth d.year d.month

/-- A time that a clock can show, leap seconds included. -/
def Time.isValid (t : Time) : Bool := t.hour ≤ 23 && t.minute ≤ 59 && t.second ≤ 60

/-! ## Reading -/

/-- A number of exactly `width` decimal digits. -/
def fixedNumber (width : Nat) : Reader Nat := fun s =>
  let digits := s.take width
  if digits.length = width ∧ digits.all Char.isDigit then some (ofDigits 10 digits, s.drop width)
  else none

/-- The text after one given character. -/
def expect? (c : Char) : List Char → Option (List Char)
  | d :: rest => if d = c then some rest else none
  | [] => none

def Date.read : Reader Date := fun s => do
  let (year, s) ← fixedNumber 4 s
  let (month, s) ← fixedNumber 2 (← expect? '-' s)
  let (day, s) ← fixedNumber 2 (← expect? '-' s)
  let date : Date := ⟨year, month, day⟩
  if date.isValid then some (date, s) else none

/-- The fraction of a second, in nanoseconds; digits beyond the ninth are cut off. -/
def readFraction (s : List Char) : Nat × List Char :=
  match s with
  | '.' :: rest =>
    match rest.takeWhile Char.isDigit with
    | [] => (0, s)
    | digits =>
      let kept := digits.take 9
      (ofDigits 10 kept * Nat.pow 10 (9 - kept.length), rest.dropWhile Char.isDigit)
  | _ => (0, s)

def Time.read : Reader Time := fun s => do
  let (hour, s) ← fixedNumber 2 s
  let (minute, s) ← fixedNumber 2 (← expect? ':' s)
  let (second, s) ← fixedNumber 2 (← expect? ':' s)
  let (nanosecond, s) := readFraction s
  let time : Time := ⟨hour, minute, second, nanosecond⟩
  if time.isValid then some (time, s) else none

def Offset.read : Reader Offset := fun s =>
  let signed (sign : Int) (s : List Char) : Option (Offset × List Char) := do
    let (hour, s) ← fixedNumber 2 s
    let (minute, s) ← fixedNumber 2 (← expect? ':' s)
    if hour ≤ 23 ∧ minute ≤ 59 then some (.minutes (sign * (60 * hour + minute)), s) else none
  match s with
  | 'Z' :: rest => some (.universal, rest)
  | 'z' :: rest => some (.universal, rest)
  | '+' :: rest => signed 1 rest
  | '-' :: rest => signed (-1) rest
  | _ => none

/-- The time and offset after a date. -/
def readTimeAfterDate : Reader (Time × Option Offset)
  | c :: rest => do
    if c ≠ 'T' ∧ c ≠ 't' ∧ c ≠ ' ' then none
    let (time, rest) ← Time.read rest
    match Offset.read rest with
    | some (offset, rest) => some ((time, some offset), rest)
    | none => some ((time, none), rest)
  | [] => none

def Datetime.read : Reader Datetime := fun s =>
  match Date.read s with
  | some (date, rest) =>
    match readTimeAfterDate rest with
    | some ((time, offset), rest) => some (⟨some date, some time, offset⟩, rest)
    | none => some (⟨some date, none, none⟩, rest)
  | none => (Time.read s).map fun (time, rest) => (⟨none, some time, none⟩, rest)

/-! ## Writing -/

/-- A number with zeros in front of it, to at least `width` digits. -/
def padded (width n : Nat) : String :=
  let digits := (toString n).toList
  String.ofList (List.replicate (width - digits.length) '0' ++ digits)

def Date.text (d : Date) : String :=
  padded 4 d.year ++ "-" ++ padded 2 d.month ++ "-" ++ padded 2 d.day

def Time.text (t : Time) : String :=
  let clock := padded 2 t.hour ++ ":" ++ padded 2 t.minute ++ ":" ++ padded 2 t.second
  if t.nanosecond = 0 then clock
  else
    let fraction := ((padded 9 t.nanosecond).toList.reverse.dropWhile (· == '0')).reverse
    clock ++ "." ++ String.ofList fraction

def Offset.text : Offset → String
  | .universal => "Z"
  | .minutes east =>
    let size := east.natAbs
    (if east < 0 then "-" else "+") ++ padded 2 (size / 60) ++ ":" ++ padded 2 (size % 60)

def Datetime.text (d : Datetime) : String :=
  let date := (d.date.map Date.text).getD ""
  let mark := if d.date.isSome ∧ d.time.isSome then "T" else ""
  date ++ mark ++ (d.time.map Time.text).getD "" ++ (d.offset.map Offset.text).getD ""

end PulseTrain.Toml
