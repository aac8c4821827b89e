import PulseTrain.Backlog
import PulseTrain.Engine.Signal
import PulseTrain.Motion.Block
import PulseTrain.Registry
import PulseTrain.Settings
import PulseTrain.SlotSet

/-!
# The controller

Everything that outlives a session: the motors and their slots, the timing and the timers programmed
with it, and what the contexts of a session share. Between sessions the controller is set up by the
calls of this module. A call that fails changes nothing and sends no signals.
-/

namespace PulseTrain

/-- A hardware timer that is compared with a match value. -/
structure Timer where
  limit : TimerCounts := 0
  counter : TimerCounts := 0
deriving DecidableEq, Repr

def Timer.setLimit (t : Timer) (counts : TimerCounts) : Timer := { t with limit := counts }

def Timer.restart (t : Timer) : Timer := { t with counter := 0 }

/-- A motor on the bench, by its number. A motor may be wired to several slots. -/
abbrev MotorNumber := Nat

/-- What outlives a session of a machine with `n` slots. -/
structure Controller (n : Nat) where
  /-- The motor wired to each slot. -/
  motors : Registry MotorNumber n := {}
  /-- The block that waits for the executing one to finish. -/
  mailbox : Option (Block n) := none
  /-- The slots whose step output waits to be released. -/
  flagged : SlotSet := {}
  /-- The finished blocks that wait to be reported. -/
  backlog : Backlog := {}
  /-- Set when a block begins, cleared when the engine runs out of blocks. -/
  busy : Bool := false
  timing : Timing := {}
  tickTimer : Timer := {}
  pulseTimer : Timer := {}
  /-- Who is told about finished blocks. -/
  listener : Option Listener := none

namespace Controller

variable {n : Nat}

/-! ## Timers -/

/-- Programs the tick timer for a rate. -/
def programTick (c : Controller n) (rate : Hertz) :
    Except SettingsFault (Controller n × List Signal) :=
  let counts := rate.countsPerCycle c.timing.timerClock
  if ¬ 0 < rate.value ∨ counts = 0 then .error (.tickRate rate.value)
  else
    let timer := c.tickTimer.setLimit counts
    -- a counter already past the new match value would miss it, so it begins anew
    if counts < timer.counter then
      .ok ({ c with tickTimer := timer.restart }, [.limit .tick counts, .restart .tick])
    else .ok ({ c with tickTimer := timer }, [.limit .tick counts])

def programPulse (c : Controller n) (width : Microseconds) :
    Except SettingsFault (Controller n × List Signal) :=
  let counts := width.counts c.timing.timerClock
  if ¬ 0 < width.value ∨ counts = 0 then .error (.pulseWidth width.value)
  else .ok ({ c with pulseTimer := c.pulseTimer.setLimit counts }, [.limit .pulse counts])

/-! ## Creation -/

/-- A controller with both timers programmed, and the signals sent on the way to it. -/
def create (timing : Timing) (tickCounter pulseCounter : TimerCounts) :
    Except SettingsFault (Controller n) × List Signal :=
  let blank : Controller n :=
    { timing, tickTimer.counter := tickCounter, pulseTimer.counter := pulseCounter }
  match timing.check with
  | .error f => (.error f, [])
  | .ok () =>
    match blank.programTick timing.tickRate with
    | .error f => (.error f, [])
    | .ok (c, ticked) =>
      match c.programPulse timing.pulseWidth with
      | .error f => (.error f, ticked)
      | .ok (c, pulsed) => (.ok c, ticked ++ pulsed)

/-- A controller for settings, whose motors have to fit into its slots. They are registered later,
one by one. -/
def ofSettings (settings : Settings) (tickCounter pulseCounter : TimerCounts) :
    Except SettingsFault (Controller n) × List Signal :=
  match settings.check with
  | .error f => (.error f, [])
  | .ok () =>
    if n < settings.motors.length then
      (.error (.tooManyMotors settings.motors.length n), [])
    else create settings.timing tickCounter pulseCounter

/-! ## Calls between sessions -/

/-- Keeps the state of a failed attempt, and takes over that of a successful one. -/
def attempt {α : Type} (c : Controller n) (result : Except Fault (Controller n × List Signal))
    (answer : α) : Outcome (Controller n) (Except Fault α) :=
  match result with
  | .ok (next, signals) => ⟨next, .ok answer, signals⟩
  | .error f => ⟨c, .error f, []⟩

/-- Wires a motor to the next slot, and answers the slot. -/
def register (c : Controller n) (motor : MotorNumber) : Outcome (Controller n) (Except Fault Nat) :=
  let result := (c.motors.register motor).mapError Fault.registry
  c.attempt (result.map fun motors => ({ c with motors }, [])) c.motors.size

/-- Wires a motor to the next slot under a name, and answers the slot. -/
def registerNamed (c : Controller n) (name : String) (motor : MotorNumber) :
    Outcome (Controller n) (Except Fault Nat) :=
  let result := (c.motors.registerNamed name motor).mapError Fault.registry
  c.attempt (result.map fun motors => ({ c with motors }, [])) c.motors.size

def setTickRate (c : Controller n) (rate : Hertz) : Outcome (Controller n) (Except Fault Unit) :=
  let timing := { c.timing with tickRate := rate }
  let result : Except SettingsFault (Controller n × List Signal) := do
    timing.check
    let (c, signals) ← c.programTick rate
    return ({ c with timing }, signals)
  c.attempt (result.mapError Fault.settings) ()

def setPulseWidth (c : Controller n) (width : Microseconds) :
    Outcome (Controller n) (Except Fault Unit) :=
  let timing := { c.timing with pulseWidth := width }
  let result : Except SettingsFault (Controller n × List Signal) := do
    timing.check
    let (c, signals) ← c.programPulse width
    return ({ c with timing }, signals)
  c.attempt (result.mapError Fault.settings) ()

def listen (c : Controller n) (listener : Listener) : Controller n :=
  { c with listener := some listener }

/-- The counter of a timer as the hardware shows it from now on. -/
def setCounter (c : Controller n) (timer : TimerName) (counts : TimerCounts) : Controller n :=
  match timer with
  | .tick => { c with tickTimer.counter := counts }
  | .pulse => { c with pulseTimer.counter := counts }

end Controller

end PulseTrain
