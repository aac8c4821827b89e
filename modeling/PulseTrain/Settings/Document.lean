import PulseTrain.Settings
import PulseTrain.Text.Quoted
import PulseTrain.Toml.Document

/-!
# Settings from a document

The root of a document may hold a table `ticker` with the timing and a table `motors` with one
table per motor. Keys that are not known are passed over, and a field that is missing keeps its
default, at every level but one: each key of `motors` names a motor. The first entry that does not
fit, in document order, is the one reported.

An array may stand for a table of timing or of polarity; its items fill the fields in their order.
-/

namespace PulseTrain

open Toml (Value Entries)

/-- What is expected where a value does not fit. -/
inductive Expected where
  | number
  | boolean
  | timing
  | polarity
  | motors
  | name
deriving DecidableEq, Repr

/-- Why a document does not describe settings. -/
inductive Mismatch where
  | type (found : Value) (expected : Expected)
  | length (found : Nat) (expected : Expected)

def maxConfiguredMotors : Nat := 8

/-- The one key of the table that a date or time stands for. -/
def datetimeKey : String := "$__toml_private_datetime"

/-! ## Messages -/

def Expected.text : Expected → String
  | .number => "f32"
  | .boolean => "a boolean"
  | .timing => "struct TickerConfig"
  | .polarity => "struct MotorConfig"
  | .motors => "a map"
  | .name => "a string no more than " ++ toString maxNameBytes ++ " bytes long"

/-- A value as a message shows it. -/
def describe : Value → String
  | .string text => "string " ++ Text.quoted text
  | .integer n => "integer `" ++ toString n ++ "`"
  | .float x => "floating point `" ++ Decimal.Style.pointed.double x ++ "`"
  | .boolean b => "boolean `" ++ toString b ++ "`"
  | .datetime _ => "map"
  | .array _ => "sequence"
  | .table _ => "map"

def Mismatch.message : Mismatch → String
  | .type found expected => "invalid type: " ++ describe found ++ ", expected " ++ expected.text
  | .length found expected =>
    "invalid length " ++ toString found ++ ", expected " ++ expected.text

/-- The fault that a mismatch is reported as. -/
def Mismatch.fault (m : Mismatch) : SettingsFault :=
  .unusable (boundedText maxDetailBytes m.message)

/-! ## Fields -/

/-- The single-precision number nearest to one of double precision. -/
def narrow (x : Float) : Float32 :=
  match x.toModel.unpack with
  | .finite sign significand exponent _ =>
    .ofModel (.pack (.round .binary32 sign significand exponent))
  | special => .ofModel (.pack special)

/-- A number, whether it is written as an integer or not. -/
def decodeNumber : Value → Except Mismatch Float32
  | .integer n => .ok (Float32.ofInt n)
  | .float x => .ok (narrow x)
  | other => .error (.type other .number)

def decodeBoolean : Value → Except Mismatch Bool
  | .boolean b => .ok b
  | other => .error (.type other .boolean)

/-- A field of a record: the key it is set by, and what a value makes of the record. -/
structure Field (α : Type) where
  key : String
  set : α → Value → Except Mismatch α

def Timing.fields : List (Field Timing) := [
  ⟨"frequency_hz", fun t v => do return { t with tickRate := ⟨← decodeNumber v⟩ }⟩,
  ⟨"unstep_time_us", fun t v => do return { t with pulseWidth := ⟨← decodeNumber v⟩ }⟩,
  ⟨"timer_clock_hz", fun t v => do return { t with timerClock := ⟨← decodeNumber v⟩ }⟩]

def Polarity.fields : List (Field Polarity) := [
  ⟨"invert_direction", fun p v => do return { p with invertedDirection := ← decodeBoolean v }⟩,
  ⟨"invert_step", fun p v => do return { p with invertedStep := ← decodeBoolean v }⟩]

/-! ## Records -/

/-- Sets one field of a record by its key, if the record has it. -/
def setField {α : Type} (fields : List (Field α)) (record : α) (entry : String × Value) :
    Except Mismatch α :=
  match fields.find? (·.key == entry.1) with
  | some field => field.set record entry.2
  | none => .ok record

/-- A record from a table, or from an array that gives its fields in order. A date or time is a
table with one key, which no record knows. -/
def decodeRecord {α : Type} (fields : List (Field α)) (default : α) (expected : Expected) :
    Value → Except Mismatch α
  | .table entries => entries.foldlM (setField fields) default
  | .array items =>
    (fields.zip items).foldlM (fun record (field, item) => field.set record item) default
  | .datetime _ => .ok default
  | other => .error (.type other expected)

def decodeTiming : Value → Except Mismatch Timing := decodeRecord Timing.fields {} .timing

def decodePolarity : Value → Except Mismatch Polarity := decodeRecord Polarity.fields {} .polarity

/-- Adds the motor of one entry to those before it. -/
def decodeMotor (motors : List (String × Polarity)) (entry : String × Value) :
    Except Mismatch (List (String × Polarity)) := do
  if maxNameBytes < entry.1.utf8ByteSize then throw (.length entry.1.utf8ByteSize .name)
  let polarity ← decodePolarity entry.2
  if motors.length = maxConfiguredMotors then throw (.length (maxConfiguredMotors + 1) .motors)
  return motors ++ [(entry.1, polarity)]

/-- The motors of a table, in document order. -/
def decodeMotors : Value → Except Mismatch (List (String × Polarity))
  | .table entries => entries.foldlM decodeMotor []
  | .datetime d => [(datetimeKey, Value.string d.text)].foldlM decodeMotor []
  | other => .error (.type other .motors)

namespace Settings

def fields : List (Field Settings) := [
  ⟨"ticker", fun s v => do return { s with timing := ← decodeTiming v }⟩,
  ⟨"motors", fun s v => do return { s with motors := ← decodeMotors v }⟩]

def ofEntries (entries : Entries) : Except Mismatch Settings :=
  entries.foldlM (setField fields) {}

/-- The settings of a document, if they can be used. -/
def ofDocument (entries : Entries) : Except SettingsFault Settings := do
  let settings ← (ofEntries entries).mapError Mismatch.fault
  settings.check
  return settings

end Settings

/-- Why settings cannot be loaded. -/
inductive LoadFault where
  /-- There is no text to read. -/
  | unreadable
  /-- The text is no document. -/
  | malformed
  /-- The document describes no settings that can be used. -/
  | rejected (fault : SettingsFault)
deriving DecidableEq

namespace Settings

def ofText (text : String) : Except LoadFault Settings :=
  match Toml.Document.read text with
  | none => .error .malformed
  | some entries => (ofDocument entries).mapError .rejected

/-- The settings of a file, given what could be read from it. -/
def ofFile (content : Option ByteArray) : Except LoadFault Settings :=
  match content.bind String.fromUTF8? with
  | none => .error .unreadable
  | some text => ofText text

end Settings

end PulseTrain
