/-!
# Output polarity

A motor is driven through a step output and a direction output. Either may be wired so that the low
level is the active one.
-/

namespace PulseTrain

inductive Direction where
  | forward
  | reverse
deriving DecidableEq, Repr, Inhabited

namespace Direction

/-- The direction that a bit of a motion block selects. -/
def ofBit (bit : Bool) : Direction := if bit then .reverse else .forward

/-- The bit that selects the direction. -/
def bit : Direction → Bool
  | .forward => false
  | .reverse => true

/-- A direction and its bit are the same thing. -/
@[simp] theorem bit_ofBit (b : Bool) : (ofBit b).bit = b := by cases b <;> rfl

@[simp] theorem ofBit_bit (d : Direction) : ofBit d.bit = d := by cases d <;> rfl

end Direction

/-- Which levels of the two outputs of a motor are active. -/
structure Polarity where
  /-- The direction output is high for travel forward. -/
  invertedDirection : Bool := false
  /-- A step pulse is a low level. -/
  invertedStep : Bool := false
deriving DecidableEq, Repr, Inhabited

namespace Polarity

def pulseLevel (p : Polarity) : Bool := !p.invertedStep

def directionLevel (p : Polarity) (d : Direction) : Bool := d.bit != p.invertedDirection

end Polarity

end PulseTrain
