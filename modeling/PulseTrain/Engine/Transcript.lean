import PulseTrain.Engine.Machine

/-!
# Transcripts

What comes of calls in a row, one exchange a call. From a transcript can be read which signals
were sent, how often a slot was stepped and released, and which blocks were taken, finished and
cut short.

Main definitions:

* `Machine.run`: the machine after some calls, and the transcript of them; `Machine.run_append` says
  that a run may be interrupted and resumed anywhere.
* `Machine.Reachable`: the machines that calls lead to from a creation on.
-/

namespace PulseTrain

variable {n : Nat}

/-- A call with its answer and what it did to the outside world. -/
structure Exchange (n : Nat) where
  call : Call n
  answer : Answer n
  signals : List Signal

namespace Exchange

/-- The block that the engine has taken. -/
def accepted? : Exchange n → Option (Block n)
  | ⟨.submit b, .done, _⟩ => some b
  | _ => none

/-- The block that has come to its end. -/
def finished? : Exchange n → Option (Block n)
  | ⟨_, .ticked b, _⟩ => b
  | _ => none

/-- The block that executes no more: it has come to its end or was cut short. -/
def ended? : Exchange n → Option (Block n)
  | ⟨_, .ticked b, _⟩ => b
  | ⟨_, .stopped b, _⟩ => b
  | _ => none

end Exchange

/-- What came of calls in a row. -/
abbrev Transcript (n : Nat) := List (Exchange n)

namespace Transcript

def signals (t : Transcript n) : List Signal := t.flatMap (·.signals)

/-- How often the motor in a slot was stepped. -/
def steps (t : Transcript n) (slot : Nat) : Nat := t.signals.count (.step slot)

def unsteps (t : Transcript n) (slot : Nat) : Nat := t.signals.count (.unstep slot)

def accepted (t : Transcript n) : List (Block n) := t.filterMap Exchange.accepted?

def finished (t : Transcript n) : List (Block n) := t.filterMap Exchange.finished?

def ended (t : Transcript n) : List (Block n) := t.filterMap Exchange.ended?

/-- Whatever is read from a transcript splits along an append. -/
@[simp] theorem signals_append (t u : Transcript n) :
    signals (t ++ u) = t.signals ++ u.signals := by
  simp [signals]

@[simp] theorem steps_append (t u : Transcript n) (slot : Nat) :
    steps (t ++ u) slot = t.steps slot + u.steps slot := by
  simp [steps]

@[simp] theorem unsteps_append (t u : Transcript n) (slot : Nat) :
    unsteps (t ++ u) slot = t.unsteps slot + u.unsteps slot := by
  simp [unsteps]

@[simp] theorem accepted_append (t u : Transcript n) :
    accepted (t ++ u) = t.accepted ++ u.accepted := by
  simp [accepted]

@[simp] theorem finished_append (t u : Transcript n) :
    finished (t ++ u) = t.finished ++ u.finished := by
  simp [finished]

@[simp] theorem ended_append (t u : Transcript n) : ended (t ++ u) = t.ended ++ u.ended := by
  simp [ended]

end Transcript

namespace Machine

/-- The machine after calls in a row, and what came of them. -/
def run (m : Machine n) : List (Call n) → Machine n × Transcript n
  | [] => (m, [])
  | c :: rest =>
    let o := m.call c
    let (last, exchanges) := o.state.run rest
    (last, ⟨c, o.answer, o.signals⟩ :: exchanges)

@[simp] theorem run_nil (m : Machine n) : m.run [] = (m, []) := rfl

/-- The first call is answered, and the others go on from the machine that it leaves. -/
theorem run_cons (m : Machine n) (c : Call n) (rest : List (Call n)) :
    m.run (c :: rest) =
      (((m.call c).state.run rest).1,
        ⟨c, (m.call c).answer, (m.call c).signals⟩ :: ((m.call c).state.run rest).2) := rfl

/-- A run may be interrupted anywhere and resumed. -/
theorem run_append (m : Machine n) (calls more : List (Call n)) :
    m.run (calls ++ more) =
      (((m.run calls).1.run more).1, (m.run calls).2 ++ ((m.run calls).1.run more).2) := by
  induction calls generalizing m with
  | nil => rfl
  | cons c rest ih => simp [run_cons, ih]

/-- The machine can be brought about by calls from a creation on. -/
inductive Reachable : Machine n → Prop where
  | created {timing : Timing} {tickCounter pulseCounter : TimerCounts} {c : Controller n}
      (created : (Controller.create timing tickCounter pulseCounter).1 = .ok c) :
      Reachable (.setup c)
  | called {m : Machine n} (reachable : Reachable m) (c : Call n) : Reachable (m.call c).state

/-- Calls in a row do not leave the machines that can be reached. -/
theorem Reachable.run {m : Machine n} (h : Reachable m) (calls : List (Call n)) :
    Reachable (m.run calls).1 := by
  -- on the calls: the machine changes with each of them
  induction calls generalizing m with
  | nil => exact h
  | cons c rest ih => exact ih (h.called c)

end Machine

end PulseTrain
