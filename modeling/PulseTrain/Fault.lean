import PulseTrain.Decimal.Style

/-!
# Faults

Everything that a setup call or the planner can be told went wrong, as causes, and the text that
reports each of them. The interrupt side of the engine has no faults: it handles every input.
-/

namespace PulseTrain

def maxNameBytes : Nat := 32

def maxDetailBytes : Nat := 128

/-- A text that has to fit a bounded field: one that does not fit is dropped as a whole. -/
def boundedText (limit : Nat) (text : String) : String :=
  if text.utf8ByteSize ≤ limit then text else ""

/-- What can be wrong with the settings. -/
inductive SettingsFault where
  /-- The document does not describe settings. -/
  | unusable (detail : String)
  /-- The document could not be read. -/
  | unreadable (detail : String)
  /-- The tick rate is not a positive number, or faster than the timer clock. -/
  | tickRate (value : Float32)
  /-- The pulse width is not a positive number, or shorter than one timer count. -/
  | pulseWidth (value : Float32)
  /-- The timer clock is not a positive number. -/
  | timerClock (value : Float32)
  /-- More motors are configured than can be driven. -/
  | tooManyMotors (configured capacity : Nat)
deriving DecidableEq

inductive RegistryFault where
  | full (capacity : Nat)
  | duplicateName (name : String)
  | nameTooLong
  | unknownName (name : String)
deriving DecidableEq, Repr

/-- What can be wrong with a motion block. -/
inductive BlockFault where
  /-- The three tick boundaries are not in order. -/
  | boundaries (rampUpEnd rampDownStart duration : UInt32)
  /-- A slot moves and the reference axis does not. -/
  | noReference
  /-- A slot moves further than the reference axis. -/
  | beyondReference (slot : Nat) (steps reference : UInt32)
  /-- A slot moves that no motor is registered for. -/
  | unregistered (slot : Nat)
deriving DecidableEq, Repr

/-- Why the engine does not take a request now. -/
inductive EngineFault where
  /-- The block before the next one is still waiting. -/
  | mailboxFull
  | busy
deriving DecidableEq, Repr

inductive Fault where
  | settings (fault : SettingsFault)
  | registry (fault : RegistryFault)
  | block (fault : BlockFault)
  | engine (fault : EngineFault)
deriving DecidableEq

def messageNumber (x : Float32) : String := Decimal.Style.plain.single x

def SettingsFault.message : SettingsFault → String
  | .unusable detail => "Parse error: " ++ detail
  | .unreadable detail => "I/O error: " ++ detail
  | .tickRate v =>
    "Invalid tick frequency: " ++ messageNumber v ++ " Hz. Must be > 0 and <= timer clock"
  | .pulseWidth v =>
    "Invalid unstep time: " ++ messageNumber v ++ " us. Must span at least one timer count"
  | .timerClock v => "Invalid timer clock: " ++ messageNumber v ++ " Hz. Must be > 0"
  | .tooManyMotors configured capacity =>
    toString configured ++ " motors configured, engine capacity is " ++ toString capacity

def RegistryFault.message : RegistryFault → String
  | .full capacity => "Motor registry full (capacity " ++ toString capacity ++ ")"
  | .duplicateName name => "Duplicate motor name: '" ++ name ++ "'"
  | .nameTooLong => "Motor name longer than 32 bytes"
  | .unknownName name => "Motor '" ++ name ++ "' not registered"

def BlockFault.message : BlockFault → String
  | .boundaries rampUpEnd rampDownStart duration =>
    "Phase boundaries out of order: accelerate_until " ++ toString rampUpEnd
      ++ " <= decelerate_after " ++ toString rampDownStart
      ++ " <= total_move_ticks " ++ toString duration ++ " does not hold"
  | .noReference => "Block moves with a zero steps_event_count"
  | .beyondReference slot steps reference =>
    "Motor " ++ toString slot ++ " commanded " ++ toString steps
      ++ " steps, more than steps_event_count " ++ toString reference
  | .unregistered slot => "Steps commanded for unregistered motor " ++ toString slot

def EngineFault.message : EngineFault → String
  | .mailboxFull => "Next-block slot is occupied"
  | .busy => "Engine is running a block"

/-- The text of the fault alone, without its domain. -/
def Fault.detail : Fault → String
  | .settings f => f.message
  | .registry f => f.message
  | .block f => f.message
  | .engine f => f.message

/-- The text that names the domain of a fault. -/
def Fault.domain : Fault → String
  | .settings _ => "Configuration error"
  | .registry _ => "Registry error"
  | .block _ => "Block error"
  | .engine _ => "Engine error"

def Fault.message (f : Fault) : String := f.domain ++ ": " ++ f.detail

end PulseTrain
