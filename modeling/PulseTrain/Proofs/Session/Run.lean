import Mathlib.Data.List.Induction
import PulseTrain.Proofs.Session.Calls
import PulseTrain.Proofs.Session.Turn

/-!
# Runs of a session

A session is what follows a start, as long as no stop is among the calls. However many calls are
made in it, it goes on (**`run_running`**) and has the motors that it was started with. What a
single call keeps is carried over runs of any kind by **`run_induction`**, and over the calls of a
session by **`session_induction`**.
-/

namespace PulseTrain

variable {n : Nat}

/-! ## Transcripts by their first exchange -/

namespace Transcript

/-- What is read from a transcript, by its first exchange. -/
@[simp] theorem steps_cons (e : Exchange n) (t : Transcript n) (slot : Nat) :
    steps (e :: t) slot = e.signals.count (.step slot) + t.steps slot := by
  simp [steps, signals]

theorem accepted_cons (e : Exchange n) (t : Transcript n) :
    accepted (e :: t) = e.accepted?.toList ++ t.accepted := by
  rw [accepted, List.filterMap_cons]
  cases e.accepted? <;> rfl

theorem finished_cons (e : Exchange n) (t : Transcript n) :
    finished (e :: t) = e.finished?.toList ++ t.finished := by
  rw [finished, List.filterMap_cons]
  cases e.finished? <;> rfl

theorem ended_cons (e : Exchange n) (t : Transcript n) :
    ended (e :: t) = e.ended?.toList ++ t.ended := by
  rw [ended, List.filterMap_cons]
  cases e.ended? <;> rfl

/-! ## Transcripts by their last exchange -/

/-- The same by its last exchange, which is how runs are prolonged. -/
theorem signals_concat (t : Transcript n) (e : Exchange n) :
    signals (t ++ [e]) = t.signals ++ e.signals := by
  rw [signals_append]
  simp [signals]

theorem steps_concat (t : Transcript n) (e : Exchange n) (slot : Nat) :
    steps (t ++ [e]) slot = t.steps slot + e.signals.count (.step slot) := by
  rw [steps, signals_concat, List.count_append]
  rfl

theorem unsteps_concat (t : Transcript n) (e : Exchange n) (slot : Nat) :
    unsteps (t ++ [e]) slot = t.unsteps slot + e.signals.count (.unstep slot) := by
  rw [unsteps, signals_concat, List.count_append]
  rfl

theorem finished_concat (t : Transcript n) (e : Exchange n) :
    finished (t ++ [e]) = t.finished ++ e.finished?.toList := by
  rw [finished_append, finished_cons]
  exact congrArg (t.finished ++ ·) (List.append_nil _)

theorem ended_concat (t : Transcript n) (e : Exchange n) :
    ended (t ++ [e]) = t.ended ++ e.ended?.toList := by
  rw [ended_append, ended_cons]
  exact congrArg (t.ended ++ ·) (List.append_nil _)

end Transcript

namespace Machine

/-- A run begins with the exchange of its first call. -/
theorem run_cons_exchange (m : Machine n) (ask : Call n) (rest : List (Call n)) :
    m.run (ask :: rest) =
      (((m.call ask).state.run rest).1, m.exchange ask :: ((m.call ask).state.run rest).2) := rfl

/-- **A run is prolonged** by a call of the machine that it has come to. -/
theorem run_concat (m : Machine n) (calls : List (Call n)) (ask : Call n) :
    m.run (calls ++ [ask]) =
      (((m.run calls).1.call ask).state, (m.run calls).2 ++ [(m.run calls).1.exchange ask]) := by
  rw [run_append]
  rfl

/-- **What every call keeps holds after every run.** The induction is on the calls from the last
one, so that the transcript grows at its end. -/
theorem run_induction {motive : Machine n → Transcript n → Prop} {m : Machine n}
    (hstart : motive m [])
    (hcall : ∀ m' t ask, motive m' t → motive (m'.call ask).state (t ++ [m'.exchange ask]))
    (calls : List (Call n)) : motive (m.run calls).1 (m.run calls).2 := by
  induction calls using List.reverseRecOn with
  | nil => exact hstart
  | append_singleton calls ask ih =>
    rw [run_concat]
    exact hcall _ _ ask ih

/-- What can be said of every exchange can be said of those of a run. -/
theorem forall_mem_run {P : Exchange n → Prop} (h : ∀ m ask, P (exchange m ask))
    (m : Machine n) (calls : List (Call n)) : ∀ e ∈ (m.run calls).2, P e := by
  refine run_induction (motive := fun _ t => ∀ e ∈ t, P e) (List.forall_mem_nil _) ?_ calls
  intro m' t ask ht e hmem
  rcases List.mem_append.mp hmem with hmem | hmem
  · exact ht e hmem
  · rw [List.mem_singleton.mp hmem]
    exact h m' ask

/-- The block that executes; between sessions there is none. -/
def executing : Machine n → Option (Block n)
  | .setup _ => none
  | .running s => s.executing

/-! ## Staying in a session -/

/-- A call other than a stop does not leave the session, and registers no motor. -/
theorem call_running (s : Session n) {ask : Call n} (hask : ask ≠ .stop) :
    ∃ s', ((Machine.running s).call ask).state = .running s' ∧ s'.motors = s.motors := by
  cases session_cases s ask with
  | taken b _ _ _ hcall => exact ⟨{ s with mailbox := some b }, by rw [hcall], rfl⟩
  | ticked _ hcall => exact ⟨_, by rw [hcall], s.motors_tick⟩
  | stopped hstop _ => exact absurd hstop hask
  | aside s' _ _ hstate haside _ => exact ⟨s', hstate, haside.motors⟩

/-- **What every call in a session keeps holds throughout the session.** The induction is on the
calls from the last one, as for runs of any kind. -/
theorem session_induction {motive : Session n → Transcript n → Prop} {s : Session n}
    (hstart : motive s [])
    (hcall : ∀ s₁ t ask s₂, motive s₁ t → ((Machine.running s₁).call ask).state = .running s₂ →
      s₂.motors = s₁.motors → motive s₂ (t ++ [(Machine.running s₁).exchange ask]))
    {calls : List (Call n)} (hcalls : .stop ∉ calls) :
    ∃ s' t, (Machine.running s).run calls = (.running s', t) ∧ motive s' t := by
  -- from the end, since what is kept is kept by the last call
  induction calls using List.reverseRecOn with
  | nil => exact ⟨s, [], rfl, hstart⟩
  | append_singleton calls ask ih =>
    rw [List.mem_append, not_or] at hcalls
    obtain ⟨s₁, t, hrun, hkept⟩ := ih hcalls.1
    have hask : ask ≠ .stop := fun heq => hcalls.2 (List.mem_singleton.mpr heq.symm)
    obtain ⟨s₂, hstate, hmotors⟩ := call_running s₁ hask
    refine ⟨s₂, t ++ [(Machine.running s₁).exchange ask], ?_,
      hcall s₁ t ask s₂ hkept hstate hmotors⟩
    rw [run_concat, hrun, hstate]

/-- **Calls other than a stop do not leave the session.** -/
theorem run_running (s : Session n) {calls : List (Call n)} (hcalls : .stop ∉ calls) :
    ∃ s' t, (Machine.running s).run calls = (.running s', t) ∧ s'.motors = s.motors :=
  session_induction (motive := fun s' _ => s'.motors = s.motors) rfl
    (fun _ _ _ _ hkept _ hmotors => hmotors.trans hkept) hcalls

/-- What follows a start is a session with the motors of the controller it was started on. -/
theorem run_start (c : Controller n) {calls : List (Call n)} (hcalls : .stop ∉ calls) :
    ∃ s t, (Machine.setup c).run (.start :: calls) = (.running s, t) ∧ s.motors = c.motors := by
  obtain ⟨s, t, hrun, hmotors⟩ := run_running (Session.start c).state hcalls
  refine ⟨s, (Machine.setup c).exchange .start :: t, ?_, hmotors⟩
  have hstart : ((Machine.setup c).call .start).state = .running (Session.start c).state := rfl
  rw [run_cons_exchange, hstart, hrun]

/-! ## A small machine -/

/-- A machine with two slots and a motor in the first of them. -/
def oneMotor : Controller 2 :=
  { motors := ⟨#[0], #[none]⟩, tickTimer := ⟨250, 0⟩, pulseTimer := ⟨25, 0⟩ }

/-- The same machine before its motor is registered. -/
def noMotor : Controller 2 := { oneMotor with motors := {} }

theorem create_noMotor : (Controller.create {} 0 0).1 = .ok noMotor := rfl

/-- The machine with one motor comes of a registration. -/
theorem reachable_oneMotor : Reachable (.setup oneMotor) :=
  (Reachable.created create_noMotor).called (.register 0)

/-- Two steps in reverse, one on every other tick. -/
def twoSteps : Block 2 :=
  { rampDownStart := 4, duration := 4, startRate := 50000, cruiseRate := 50000
    referenceSteps := 2, steps := #v[2, 0], reversed := #v[true, false] }

/-- Calls after which one of the two steps is made and the other one is due. -/
def halfway : List (Call 2) := [.submit twoSteps, .tick, .expire, .tick, .tick]

end Machine

end PulseTrain
