import PulseTrain.Polarity

/-!
# Step and direction outputs

A motor driven through two output pins. A pin may fail to take a level; failures are remembered
until they are cleared. The direction is written only when it differs from the one last written
with success, so a failed write is tried again. `StepDir.call` is one call on such a motor, or one
change of which of its pins fail, and `StepDir.run` is any number of them.
-/

namespace PulseTrain

inductive Line where
  | step
  | direction
deriving DecidableEq, Repr

/-- One attempt to set a pin. -/
structure PinWrite where
  line : Line
  high : Bool
  /-- The pin took the level. -/
  taken : Bool
deriving DecidableEq, Repr

/-- The two pins of a motor: which of them fail at present. -/
structure Pins where
  stepFails : Bool := false
  directionFails : Bool := false
deriving DecidableEq, Repr

/-- A motor on two pins. -/
structure StepDir where
  pins : Pins := {}
  polarity : Polarity := {}
  /-- The direction last written with success. -/
  heading : Option Direction := none
  /-- A write has failed since the last clearing. -/
  fault : Bool := false
deriving DecidableEq, Repr

/-- A call on a motor on pins, or a change of which of its pins fail. -/
inductive PinCall where
  | step
  | unstep
  | setDirection (d : Direction)
  | clearFault
  | failStep (on : Bool)
  | failDirection (on : Bool)
deriving DecidableEq, Repr

namespace StepDir

def writeStep (m : StepDir) (high : Bool) : StepDir × List PinWrite :=
  let taken := !m.pins.stepFails
  ({ m with fault := m.fault || !taken }, [⟨.step, high, taken⟩])

def step (m : StepDir) : StepDir × List PinWrite := m.writeStep m.polarity.pulseLevel

def unstep (m : StepDir) : StepDir × List PinWrite := m.writeStep (!m.polarity.pulseLevel)

def setDirection (m : StepDir) (d : Direction) : StepDir × List PinWrite :=
  if m.heading = some d then (m, [])
  else
    let write (taken : Bool) : List PinWrite := [⟨.direction, m.polarity.directionLevel d, taken⟩]
    if m.pins.directionFails then ({ m with fault := true }, write false)
    else ({ m with heading := some d }, write true)

/-- Forgets past failures. -/
def clearFault (m : StepDir) : StepDir := { m with fault := false }

/-- Makes the step pin fail from now on, or work again. -/
def failStep (m : StepDir) (on : Bool) : StepDir := { m with pins.stepFails := on }

/-- Makes the direction pin fail from now on, or work again. -/
def failDirection (m : StepDir) (on : Bool) : StepDir := { m with pins.directionFails := on }

/-- A new motor on the same pins. -/
def rewire (m : StepDir) (polarity : Polarity) : StepDir := { pins := m.pins, polarity }

/-! ## Calls -/

def call (m : StepDir) : PinCall → StepDir × List PinWrite
  | .step => m.step
  | .unstep => m.unstep
  | .setDirection d => m.setDirection d
  | .clearFault => (m.clearFault, [])
  | .failStep on => (m.failStep on, [])
  | .failDirection on => (m.failDirection on, [])

/-- Calls in a row, with all that they write. -/
def run (m : StepDir) : List PinCall → StepDir × List PinWrite
  | [] => (m, [])
  | c :: rest =>
    let (next, writes) := m.call c
    let (last, more) := next.run rest
    (last, writes ++ more)

/-- What calls write is what the first writes and then what the others do. -/
theorem run_cons (m : StepDir) (c : PinCall) (rest : List PinCall) :
    m.run (c :: rest) =
      (((m.call c).1.run rest).1, (m.call c).2 ++ ((m.call c).1.run rest).2) := rfl

end StepDir

end PulseTrain
