import PulseTrain.Motion.Block

/-!
# One axis in motion

The tick-by-tick state of one slot while a block executes. On every tick the rate, in steps per
tick, is first changed by the slope of the current ramp, then the slope itself is switched if the
tick is a boundary of the profile, and then the rate is added to an accumulator that emits a step
each time it reaches one. What is left over is carried into the next tick.

Main definitions:

* `Axis.ofBlock`: the state of a slot at the beginning of a block.
* `Axis.tick`: one tick, made of `accelerate`, `switchPhase` and `emit`.
* `Axis.run`: a number of ticks of one axis alone, as long as it is active.
-/

namespace PulseTrain

inductive Phase where
  | inactive
  | accelerating
  | plateau
  | decelerating
deriving DecidableEq, Repr

/-- The state of one slot within a block. -/
structure Axis where
  /-- The number of steps of the block; zero once all of them are emitted. -/
  target : UInt32 := 0
  /-- The rate, in steps per tick. -/
  rate : Float32 := 0
  /-- The fraction of a step that is due. -/
  carry : Float32 := 0
  /-- The share of this slot in the rates of the reference axis. -/
  ratio : Float32 := 0
  /-- What the rate gains on every tick. -/
  slope : Float32 := 0
  /-- The tick at which the slope is looked at next. -/
  nextSwitch : UInt32 := 0
  emitted : UInt32 := 0
deriving DecidableEq

namespace Axis

/-- Steps of the block are still to be emitted. -/
def isActive (a : Axis) : Bool := a.target != 0

def phase (a : Axis) : Phase :=
  if ¬ a.isActive then .inactive
  else if 0 < a.slope then .accelerating
  else if a.slope < 0 then .decelerating
  else .plateau

/-- The slope of the reference axis at the beginning of a block, and the tick at which it is
looked at next. A block that never switches waits for the tick after its duration. After the
longest duration that number wraps to zero, which no planned tick has. -/
def firstRamp {n : Nat} (b : Block n) : Float32 × UInt32 :=
  if b.rampUpEnd ≠ 0 then (b.rampUp, b.rampUpEnd)
  else if b.rampDownStart = 0 then (-b.rampDown, b.duration + 1)
  else if b.rampDownStart ≠ b.duration then (0, b.rampDownStart)
  else (0, b.duration + 1)

/-- The state of a slot at the beginning of a block, at a tick rate in hertz. -/
def ofBlock {n : Nat} (b : Block n) (slot : Fin n) (tickRate : Float32) : Axis :=
  let steps := b.steps.get slot
  if steps = 0 then {}
  else
    let ratio := (1 / b.referenceSteps.toFloat32) * steps.toFloat32
    let (slope, nextSwitch) := firstRamp b
    { target := steps
      rate := (b.startRate * ratio) / tickRate
      ratio
      slope := slope * ratio
      nextSwitch }

/-- The rate after the change that one tick brings. -/
def accelerate (a : Axis) : Axis := { a with rate := a.rate + a.slope }

/-- The end of the rise: the slope becomes zero, and the rate the cruise rate. -/
def levelOff (a : Axis) (tick : UInt32) (p : Profile) (tickRate : Float32) : Axis :=
  let a := { a with slope := 0 }
  if p.rampDownStart < p.duration then
    let a := { a with nextSwitch := p.rampDownStart }
    -- to set the rate drops the error that the rise has gathered
    if tick = p.rampDownStart then a
    else { a with rate := (a.ratio * p.cruiseRate) / tickRate }
  else a

/-- The slope after a tick of the block, and the rate where the tick sets it. -/
def switchPhase (a : Axis) (tick : UInt32) (p : Profile) (tickRate : Float32) : Axis :=
  if tick ≠ a.nextSwitch then a
  else
    let a := if tick = p.rampUpEnd then a.levelOff tick p tickRate else a
    if tick = p.rampDownStart then { a with slope := (-p.rampDown) * a.ratio } else a

/-- A rate that is not above zero would never reach the target: from there the remaining steps are
emitted one per tick. -/
def keepMoving (a : Axis) : Axis := if a.rate ≤ 0 then { a with carry := 1, rate := 0 } else a

/-- Adds the rate to the accumulator; the answer tells whether a step is due. The axis is inactive
after its last step. -/
def emit (a : Axis) : Axis × Bool :=
  let a := a.keepMoving
  let carry := a.carry + a.rate
  if carry < 1 then ({ a with carry }, false)
  else
    let emitted := a.emitted + 1
    let target := if emitted = a.target then 0 else a.target
    ({ a with carry := carry - 1, emitted, target }, true)

/-- One tick of an axis; the answer tells whether a step is due. -/
def tick (a : Axis) (tick : UInt32) (p : Profile) (tickRate : Float32) : Axis × Bool :=
  (a.accelerate.switchPhase tick p tickRate).emit

/-- At most `count` ticks of one axis alone, from tick `first` on, as long as it is active; with the
final state comes, for each tick, whether a step was due. -/
def run (a : Axis) (first : UInt32) (p : Profile) (tickRate : Float32) : Nat → Axis × List Bool
  | 0 => (a, [])
  | count + 1 =>
    if a.isActive then
      let (next, due) := a.tick first p tickRate
      let (last, dues) := next.run (first + 1) p tickRate count
      (last, due :: dues)
    else (a, [])

end Axis

def Block.axes {n : Nat} (b : Block n) (tickRate : Float32) : Vector Axis n :=
  Vector.ofFn fun slot => Axis.ofBlock b slot tickRate

end PulseTrain
