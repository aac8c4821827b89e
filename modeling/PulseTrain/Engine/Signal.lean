import PulseTrain.Polarity
import PulseTrain.Units

/-!
# Signals of the engine

What the engine does to the outside world, in order: it programs two hardware timers, requests a
deferred report, drives the motors in the slots, and reports finished blocks to a listener.
-/

namespace PulseTrain

/-- The hardware timers that the engine programs. -/
inductive TimerName where
  /-- Runs periodically; each period is one tick. -/
  | tick
  /-- Runs once after each restart; its end releases the step outputs. -/
  | pulse
deriving DecidableEq, Repr

/-- Who is told about finished blocks. -/
abbrev Listener := String

/-- One action of the engine on the outside world. -/
inductive Signal where
  /-- Sets the match value of a timer. -/
  | limit (timer : TimerName) (counts : TimerCounts)
  /-- Sets the counter of a timer to zero and lets it run. -/
  | restart (timer : TimerName)
  | enable (timer : TimerName)
  /-- Requests a report at low priority. -/
  | pend
  /-- Begins a step pulse of the motor in a slot. -/
  | step (slot : Nat)
  /-- Ends the step pulse of the motor in a slot. -/
  | unstep (slot : Nat)
  | direction (slot : Nat) (direction : Direction)
  | report (listener : Listener)
deriving DecidableEq, Repr

/-- What a call leaves behind, what it answers and what it does to the outside world. -/
structure Outcome (σ α : Type) where
  state : σ
  answer : α
  signals : List Signal := []

end PulseTrain
