import PulseTrain.Polarity
import PulseTrain.Timing

/-!
# Settings

What a machine is configured with: the timing of the engine and the polarity of each named motor, in
the order in which the motors were named.
-/

namespace PulseTrain

def maxMotors : Nat := 32

structure Settings where
  timing : Timing := {}
  motors : List (String × Polarity) := []
deriving DecidableEq

namespace Settings

/-- The polarity of a named motor. -/
def motor? (s : Settings) (name : String) : Option Polarity := s.motors.lookup name

/-- Adds a motor at the end, or replaces the polarity of the motor of that name where it stands. -/
def insertMotor (s : Settings) (name : String) (polarity : Polarity) : Settings :=
  if (s.motor? name).isSome then
    { s with motors := s.motors.map fun m => if m.1 = name then (name, polarity) else m }
  else { s with motors := s.motors ++ [(name, polarity)] }

/-- The first thing wrong with the settings: the timing is looked at before the number of motors. -/
def check (s : Settings) : Except SettingsFault Unit := do
  s.timing.check
  if maxMotors < s.motors.length then .error (.tooManyMotors s.motors.length maxMotors)

end Settings

end PulseTrain
