import PulseTrain.Fault
import PulseTrain.Units

/-!
# Timing of the engine

The tick rate, the width of a step pulse and the clock that the hardware timers count. Timing that
passes `Timing.check` can be programmed: one tick and one pulse each span at least one timer count.
-/

namespace PulseTrain

structure Timing where
  tickRate : Hertz := ⟨100000⟩
  /-- The width of a step pulse: from the last step to the release of the step outputs. -/
  pulseWidth : Microseconds := ⟨1⟩
  /-- The rate at which the hardware timers count. -/
  timerClock : Hertz := ⟨25000000⟩
deriving DecidableEq

namespace Timing

/-- A step pulse ends before the next tick can begin another one. -/
def pulseFitsTick (t : Timing) : Bool := t.pulseWidth.value < t.tickRate.cycle.value

def tickCounts (t : Timing) : TimerCounts := t.tickRate.countsPerCycle t.timerClock

def pulseCounts (t : Timing) : TimerCounts := t.pulseWidth.counts t.timerClock

/-- The first thing that keeps the timing from being programmed: the clock is looked at first, then
the tick rate, then the pulse width. -/
def check (t : Timing) : Except SettingsFault Unit :=
  if ¬ 0 < t.timerClock.value then .error (.timerClock t.timerClock.value)
  else if ¬ 0 < t.tickRate.value ∨ t.tickCounts = 0 then .error (.tickRate t.tickRate.value)
  else if ¬ 0 < t.pulseWidth.value ∨ t.pulseCounts = 0 then .error (.pulseWidth t.pulseWidth.value)
  else .ok ()

/-- Timing passes exactly where a tick and a pulse each last, and span one count of the clock at
least. -/
theorem check_eq_ok_iff (t : Timing) :
    t.check = .ok () ↔
      0 < t.timerClock.value ∧ (0 < t.tickRate.value ∧ t.tickCounts ≠ 0) ∧
        (0 < t.pulseWidth.value ∧ t.pulseCounts ≠ 0) := by
  unfold check
  grind

end Timing

end PulseTrain
