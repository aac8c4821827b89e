import PulseTrain.Engine.Controller
import PulseTrain.StepDir

/-!
# The bench

The motors that a machine drives, and what reaches them. A signal for a slot goes to the motor
wired to that slot; a motor on pins turns it into writes of its pins.
-/

namespace PulseTrain

structure Motor where
  steps : Nat := 0
  unsteps : Nat := 0
  /-- The pins of a motor that has them; another one only counts. -/
  pins : Option StepDir := none
deriving DecidableEq, Repr

/-- What is seen on the bench. -/
inductive Trace where
  /-- A signal that is not for a motor. -/
  | signal (signal : Signal)
  /-- A signal for a motor without pins. -/
  | command (motor : MotorNumber) (signal : Signal)
  | write (motor : MotorNumber) (write : PinWrite)
deriving DecidableEq, Repr

/-- The writes of the pins of one motor, in order. -/
def Trace.writes (motor : MotorNumber) (log : List Trace) : List PinWrite :=
  log.filterMap fun
    | .write m w => if m = motor then some w else none
    | _ => none

/-- All motors, by their numbers, and how often each listener was told of a finished block, in
order. -/
structure Bench where
  motors : Array Motor := #[]
  reports : List Listener := []
deriving DecidableEq, Repr

namespace Motor

/-- What a motor does on a signal for it, and the writes of its pins. -/
def obey (m : Motor) (signal : Signal) : Motor × List PinWrite :=
  let drive (act : StepDir → StepDir × List PinWrite) : Option StepDir × List PinWrite :=
    match m.pins with
    | none => (none, [])
    | some pins =>
      let (pins, writes) := act pins
      (some pins, writes)
  match signal with
  | .step _ =>
    let (pins, writes) := drive StepDir.step
    ({ m with steps := m.steps + 1, pins }, writes)
  | .unstep _ =>
    let (pins, writes) := drive StepDir.unstep
    ({ m with unsteps := m.unsteps + 1, pins }, writes)
  | .direction _ d =>
    let (pins, writes) := drive (·.setDirection d)
    ({ m with pins }, writes)
  | _ => (m, [])

/-- Changes the pins of a motor that has them. -/
def changePins (m : Motor) (change : StepDir → StepDir) : Motor :=
  { m with pins := m.pins.map change }

end Motor

def Signal.slot? : Signal → Option Nat
  | .step slot => some slot
  | .unstep slot => some slot
  | .direction slot _ => some slot
  | _ => none

namespace Bench

/-- The motor with a number obeys a signal. -/
def deliver (b : Bench) (motor : MotorNumber) (signal : Signal) : Bench × List Trace :=
  match b.motors[motor]? with
  | none => (b, [])
  | some m =>
    let (m', writes) := m.obey signal
    ({ b with motors := b.motors.setIfInBounds motor m' },
      if m.pins.isSome then writes.map (.write motor) else [.command motor signal])

/-- One signal of a machine with these slots. -/
def receive {n : Nat} (slots : Registry MotorNumber n) (b : Bench) (signal : Signal) :
    Bench × List Trace :=
  match signal, signal.slot?.bind slots.motor? with
  | .report listener, _ => ({ b with reports := b.reports ++ [listener] }, [])
  | _, some motor => b.deliver motor signal
  | _, none => if signal.slot?.isSome then (b, []) else (b, [.signal signal])

def receiveAll {n : Nat} (slots : Registry MotorNumber n) (b : Bench) :
    List Signal → Bench × List Trace
  | [] => (b, [])
  | signal :: rest =>
    let (b, first) := b.receive slots signal
    let (b, others) := b.receiveAll slots rest
    (b, first ++ others)

def changePins (b : Bench) (motor : MotorNumber) (change : StepDir → StepDir) : Bench :=
  { b with motors := b.motors.modify motor (·.changePins change) }

end Bench

end PulseTrain
