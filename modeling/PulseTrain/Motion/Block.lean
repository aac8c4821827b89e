import PulseTrain.Fault
import PulseTrain.Polarity

/-!
# Motion blocks

One planned segment with a trapezoidal velocity profile, for every slot of a machine. Rates are
those of the reference axis; each slot moves at its share of them. `Block.fault?` is the test that
a block passes before the engine takes it; `Block.fault?_eq_none_iff` says what passing means.
-/

namespace PulseTrain

/-- The part of a block that all slots share while it executes. -/
structure Profile where
  /-- The tick at which the rate stops rising; zero if it never rises. -/
  rampUpEnd : UInt32 := 0
  /-- The tick at which the rate begins to fall; the duration if it never falls. -/
  rampDownStart : UInt32 := 0
  /-- The rate between the ramps, in steps per second. -/
  cruiseRate : Float32 := 0
  /-- How much the rate falls per tick, in steps per tick. -/
  rampDown : Float32 := 0
  /-- The planned number of ticks. -/
  duration : UInt32 := 0
deriving DecidableEq

/-- One planned segment for `n` slots. -/
structure Block (n : Nat) extends Profile where
  /-- The rate at the beginning, in steps per second. -/
  startRate : Float32 := 0
  /-- How much the rate rises per tick, in steps per tick. -/
  rampUp : Float32 := 0
  /-- The number of steps that the rates are planned for. -/
  referenceSteps : UInt32 := 0
  steps : Vector UInt32 n := Vector.replicate n 0
  /-- Which slots travel in reverse. -/
  reversed : Vector Bool n := Vector.replicate n false
deriving DecidableEq

namespace Block

variable {n : Nat}

def direction (b : Block n) (slot : Fin n) : Direction := .ofBit (b.reversed.get slot)

/-- No slot moves. -/
def isEmpty (b : Block n) : Bool := b.steps.all (· == 0)

/-- What is wrong with the steps of one slot, when the first `registered` slots have a motor. -/
def slotFault? (b : Block n) (registered : Nat) (slot : Fin n) : Option BlockFault :=
  let steps := b.steps.get slot
  if steps = 0 then none
  else if registered ≤ slot then some (.unregistered slot)
  else if b.referenceSteps = 0 then some .noReference
  else if b.referenceSteps < steps then some (.beyondReference slot steps b.referenceSteps)
  else none

/-- The first thing wrong with a block: the tick boundaries are looked at before the slots. -/
def fault? (b : Block n) (registered : Nat) : Option BlockFault :=
  if b.rampUpEnd ≤ b.rampDownStart ∧ b.rampDownStart ≤ b.duration then
    (List.finRange n).findSome? (b.slotFault? registered)
  else some (.boundaries b.rampUpEnd b.rampDownStart b.duration)

/-- A slot that does not move has no fault, whether or not it has a motor. -/
theorem slotFault?_eq_none_iff (b : Block n) (registered : Nat) (slot : Fin n) :
    b.slotFault? registered slot = none ↔
      (b.steps.get slot ≠ 0 → slot < registered ∧ b.steps.get slot ≤ b.referenceSteps) := by
  unfold slotFault?
  grind

/-- A block passes exactly when its boundaries are in order and every slot that moves has a motor
and moves no further than the reference axis. -/
theorem fault?_eq_none_iff (b : Block n) (registered : Nat) :
    b.fault? registered = none ↔
      (b.rampUpEnd ≤ b.rampDownStart ∧ b.rampDownStart ≤ b.duration) ∧
        ∀ slot : Fin n, b.steps.get slot ≠ 0 →
          slot < registered ∧ b.steps.get slot ≤ b.referenceSteps := by
  unfold fault?
  split
  · simp_all [List.findSome?_eq_none_iff, slotFault?_eq_none_iff]
  · rename_i h
    exact ⟨nofun, fun ordered => absurd ordered.1 h⟩

end Block

end PulseTrain
