import PulseTrain.Engine.Controller
import PulseTrain.Motion.Axis

/-!
# A session of the engine

While a session runs, four contexts share the controller: the planner submits blocks and changes
the tick rate between them, the tick context moves the axes, the pulse context releases the step
outputs, and the report context tells the listener. The waiting block begins on the tick on which
the executing one finishes, so consecutive blocks run without a gap.

The tick context begins every session afresh. What it shares through the controller is as the last
session left it.
-/

namespace PulseTrain

/-- A running machine with `n` slots. -/
structure Session (n : Nat) extends Controller n where
  executing : Option (Block n) := none
  /-- The shared part of the block that began last. -/
  profile : Profile := {}
  /-- The state of each slot in the block that began last. -/
  axes : Vector Axis n := Vector.replicate n {}
  /-- The ticks of the executing block so far; zero between blocks. -/
  elapsed : UInt32 := 0
  /-- The tick rate at which the block that began last runs. -/
  rate : Float32

namespace Session

variable {n : Nat}

/-- Begins a session: both timers may interrupt from now on. -/
def start (c : Controller n) : Outcome (Session n) Unit :=
  ⟨{ c with rate := c.timing.tickRate.value }, (), [.enable .tick, .enable .pulse]⟩

/-- Ends a session. A block that executes is cut short, and is the answer. -/
def stop (s : Session n) : Outcome (Controller n) (Option (Block n)) :=
  ⟨s.toController, s.executing, []⟩

/-- The slots that have a motor. -/
def slots (s : Session n) : List (Fin n) := (List.finRange n).filter (·.val < s.motors.size)

def isActive (s : Session n) : Bool := s.executing.isSome

/-! ## The planner -/

/-- The next block can be submitted. -/
def isReady (s : Session n) : Bool := s.mailbox.isNone

/-- The planner sees no block executing and none waiting. -/
def isIdle (s : Session n) : Bool := s.isReady && !s.busy

/-- Submits the next block. A block that is refused is handed back. -/
def submit (s : Session n) (b : Block n) : Outcome (Session n) (Except (Block n × Fault) Unit) :=
  -- what is wrong with the block itself is looked at first, whether or not the mailbox is full
  match b.fault? s.motors.size with
  | some f => ⟨s, .error (b, .block f), []⟩
  | none =>
    match s.mailbox with
    | some _ => ⟨s, .error (b, .engine .mailboxFull), []⟩
    | none => ⟨{ s with mailbox := some b }, .ok (), []⟩

/-- Changes the tick rate. Blocks are planned in ticks, so the rate changes only between blocks. -/
def setTickRate (s : Session n) (rate : Hertz) : Outcome (Session n) (Except Fault Unit) :=
  if ¬ s.isIdle then ⟨s, .error (.engine .busy), []⟩
  else
    match s.programTick rate with
    | .error f => ⟨s, .error (.settings f), []⟩
    | .ok (c, signals) =>
      ⟨{ s with toController := { c with timing.tickRate := rate } }, .ok (), signals⟩

/-! ## The tick -/

/-- Begins a block: the rate in force is the rate that the block runs at, and the direction of every
motor that moves is selected. -/
def begin (s : Session n) (b : Block n) : Session n × List Signal :=
  let rate := s.timing.tickRate.value
  let axes := b.axes rate
  let moving := s.slots.filter fun slot => (axes.get slot).isActive
  ({ s with executing := some b, busy := true, profile := b.toProfile, axes, rate },
    moving.map fun slot : Fin n => Signal.direction slot (b.direction slot))

/-- The next tick of every slot, with whether a step is due. A slot without a motor and one that
has no steps left stay as they are. -/
def tickedAxes (s : Session n) : Vector (Axis × Bool) n :=
  Vector.ofFn fun slot =>
    let axis := s.axes.get slot
    if slot.val < s.motors.size ∧ axis.isActive then axis.tick (s.elapsed + 1) s.profile s.rate
    else (axis, false)

/-- Moves every slot by one tick. -/
def advance (s : Session n) : Session n × List Signal :=
  let ticked := s.tickedAxes
  let stepping := s.slots.filter fun slot => (ticked.get slot).2
  let flagged := stepping.foldl (fun set (slot : Fin n) => set.insert slot) s.flagged
  let moved := { s with elapsed := s.elapsed + 1, axes := ticked.map (·.1), flagged }
  if stepping.isEmpty then (moved, [])
  else
    -- one countdown of the pulse timer covers all steps of the tick
    ({ moved with pulseTimer := s.pulseTimer.restart },
      stepping.map (fun slot : Fin n => Signal.step slot) ++ [.restart .pulse])

/-- Steps of the block are still to be emitted. -/
def isMoving (s : Session n) : Bool := s.slots.any fun slot => (s.axes.get slot).isActive

/-- Takes the waiting block out of the mailbox and begins it, if there is one. -/
def beginNext (s : Session n) : Session n × List Signal :=
  match s.mailbox with
  | some next => { s with mailbox := none }.begin next
  | none => ({ s with executing := none, busy := false }, [])

/-- Finishes the executing block: the waiting one begins, and the finished one waits to be
reported. -/
def finish (s : Session n) : Session n × List Signal :=
  let (next, begun) := { s with elapsed := 0 }.beginNext
  ({ next with backlog := next.backlog.add }, begun ++ [.pend])

/-- One tick of the executing block, and its end if no slot moves any more. The answer is the
block that the tick finishes. -/
def executeTick (s : Session n) : Outcome (Session n) (Option (Block n)) :=
  let (moved, stepped) := s.advance
  if moved.isMoving then ⟨moved, none, stepped⟩
  else
    let (next, finished) := moved.finish
    ⟨next, s.executing, stepped ++ finished⟩

/-- The tick of the tick timer. Without a block there is nothing to do; a waiting block begins and
has its first tick. The answer is the block that the tick finishes. -/
def tick (s : Session n) : Outcome (Session n) (Option (Block n)) :=
  if s.isActive then s.executeTick
  else if s.isReady then ⟨s, none, []⟩
  else
    let (begun, directions) := s.beginNext
    let o := begun.executeTick
    { o with signals := directions ++ o.signals }

/-! ## The pulse timer and the report -/

/-- The end of the countdown: all step outputs that wait for it are released, in slot order. -/
def expire (s : Session n) : Outcome (Session n) Unit :=
  let released := s.flagged.drain.filter (· < s.motors.size)
  ⟨{ s with flagged := .empty }, (), released.map .unstep⟩

/-- Tells the listener of every finished block once, and answers how many there were. -/
def report (s : Session n) : Outcome (Session n) Nat :=
  let (count, backlog) := s.backlog.drain
  ⟨{ s with backlog }, count,
    match s.listener with
    | some listener => List.replicate count (.report listener)
    | none => []⟩

end Session

end PulseTrain
