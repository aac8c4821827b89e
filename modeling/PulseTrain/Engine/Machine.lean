import PulseTrain.Engine.Session

/-!
# The machine

A machine is set up, runs a session, and is set up again. `Machine.call` answers one call in the
phase that the machine is in; a call of the other phase does nothing.
-/

namespace PulseTrain

/-- A machine with `n` slots, in one of its two phases. -/
inductive Machine (n : Nat) where
  | setup (controller : Controller n)
  | running (session : Session n)

/-- Everything that can be asked of a machine, and what its timers show. -/
inductive Call (n : Nat) where
  | register (motor : MotorNumber)
  | registerNamed (name : String) (motor : MotorNumber)
  | setPulseWidth (width : Microseconds)
  | listen (listener : Listener)
  | start
  | setTickRate (rate : Hertz)
  | setCounter (timer : TimerName) (counts : TimerCounts)
  | submit (block : Block n)
  | tick
  | expire
  | report
  | stop

inductive Answer (n : Nat) where
  | done
  /-- The block that a tick has finished, if it has finished one. -/
  | ticked (finished : Option (Block n))
  /-- The block that the end of a session has cut short, if one was executing. -/
  | stopped (unfinished : Option (Block n))
  | slot (slot : Nat)
  | reported (count : Nat)
  /-- The block that is handed back, and why. -/
  | refused (block : Block n) (fault : Fault)
  | failed (fault : Fault)
  /-- The call belongs to the other phase. -/
  | notNow

namespace Answer

variable {n : Nat}

def ofUnit : Except Fault Unit → Answer n
  | .ok () => .done
  | .error f => .failed f

def ofSlot : Except Fault Nat → Answer n
  | .ok taken => .slot taken
  | .error f => .failed f

def ofSubmission : Except (Block n × Fault) Unit → Answer n
  | .ok () => .done
  | .error (b, f) => .refused b f

end Answer

namespace Machine

variable {n : Nat}

/-- What outlives the session, in either phase. -/
def controller : Machine n → Controller n
  | .setup c => c
  | .running s => s.toController

def ofSetup {α : Type} (answer : α → Answer n) (o : Outcome (Controller n) α) :
    Outcome (Machine n) (Answer n) :=
  ⟨.setup o.state, answer o.answer, o.signals⟩

def ofSession {α : Type} (answer : α → Answer n) (o : Outcome (Session n) α) :
    Outcome (Machine n) (Answer n) :=
  ⟨.running o.state, answer o.answer, o.signals⟩

/-- One call. A call of the other phase does nothing. -/
def call : Machine n → Call n → Outcome (Machine n) (Answer n)
  | .setup c, .register motor => ofSetup .ofSlot (c.register motor)
  | .setup c, .registerNamed name motor => ofSetup .ofSlot (c.registerNamed name motor)
  | .setup c, .setTickRate rate => ofSetup .ofUnit (c.setTickRate rate)
  | .setup c, .setPulseWidth width => ofSetup .ofUnit (c.setPulseWidth width)
  | .setup c, .listen listener => ⟨.setup (c.listen listener), .done, []⟩
  | .setup c, .setCounter timer counts => ⟨.setup (c.setCounter timer counts), .done, []⟩
  | .setup c, .start => ofSession (fun () => .done) (Session.start c)
  | .running s, .submit b => ofSession .ofSubmission (s.submit b)
  | .running s, .setTickRate rate => ofSession .ofUnit (s.setTickRate rate)
  | .running s, .tick => ofSession .ticked s.tick
  | .running s, .expire => ofSession (fun () => .done) s.expire
  | .running s, .report => ofSession .reported s.report
  | .running s, .setCounter timer counts =>
    ⟨.running { s with toController := s.toController.setCounter timer counts }, .done, []⟩
  | .running s, .stop => ofSetup .stopped s.stop
  | m, _ => ⟨m, .notNow, []⟩

end Machine

end PulseTrain
