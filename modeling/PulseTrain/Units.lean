/-!
# Units of time and rate

Rates in hertz, widths in microseconds and counts of a hardware timer. All arithmetic is single
precision with one rounding per operation. A count is what fits into the match register of a timer:
fractions are cut off, and a quotient too large for the register gives its largest value.
-/

namespace PulseTrain

structure Hertz where
  value : Float32
deriving DecidableEq

structure Microseconds where
  value : Float32
deriving DecidableEq

abbrev TimerCounts := UInt32

/-- The order of two single-precision numbers; nothing is in order with NaN. -/
def numericOrder? (a b : Float32) : Option Ordering :=
  if a < b then some .lt
  else if b < a then some .gt
  else if a == b then some .eq
  else none

namespace Hertz

/-- How many counts of a timer running at `clock` make one cycle of the rate. -/
def countsPerCycle (rate clock : Hertz) : TimerCounts := (clock.value / rate.value).toUInt32

/-- The length of one cycle. -/
def cycle (rate : Hertz) : Microseconds := ⟨1000000 / rate.value⟩

end Hertz

/-- How many counts of a timer running at `clock` cover the width. -/
def Microseconds.counts (width : Microseconds) (clock : Hertz) : TimerCounts :=
  (clock.value * (width.value / 1000000)).toUInt32

end PulseTrain
