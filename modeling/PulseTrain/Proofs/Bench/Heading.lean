import PulseTrain.Proofs.Bench.Wiring
import PulseTrain.Proofs.Session.Directions
import PulseTrain.Waveform

/-!
# Every pulse goes the commanded way

A motor on pins writes its direction only when it differs from the one written last. While no pin
fails, the direction pin is nevertheless at the level of the direction selected last, so at every
pulse it is at the level that the executing block asks for.

* **`Line.headings`**: the level of the direction pin at each pulse.
* **`StepDir.Steady`**: the pin shows what the motor remembers; **`Steady.obey`**: every signal
  keeps that.
* **`Polarity.commanded`**: the levels at the pulses if every direction were written;
  **`Steady.headings_obeyAll`**: these are the levels that are there.
* **`pulses_go_commanded_way`**: the same for every run on a bench, block by block.
-/

namespace PulseTrain

variable {n : Nat}

/-- The level of the direction pin at each of the writes that begin a pulse, among writes of the
pins of a motor whose pulses are at a level. -/
def Line.headings (pulse start : Bool) : List PinWrite → List Bool
  | [] => []
  | w :: rest =>
    (if w.line = .step ∧ w.taken ∧ w.high = pulse then [start] else []) ++
      Line.headings pulse (Line.direction.levelAfter start w) rest

/-- Further writes find the direction pin where the first ones have left it. -/
theorem Line.headings_append (pulse start : Bool) (writes more : List PinWrite) :
    Line.headings pulse start (writes ++ more) = Line.headings pulse start writes ++
      Line.headings pulse (Line.direction.level start writes) more := by
  induction writes generalizing start with
  | nil => rfl
  | cons w rest ih =>
    rw [List.cons_append, headings, headings, ih, List.append_assoc]
    rfl

namespace Polarity

/-- The level of the direction output after a signal, had every direction been written. -/
def levelAfter (p : Polarity) (level : Bool) : Signal → Bool
  | .direction _ d => p.directionLevel d
  | _ => level

/-- The levels of the direction output at the steps, had every direction been written. -/
def commanded (p : Polarity) (level : Bool) : List Signal → List Bool
  | [] => []
  | signal :: rest =>
    (if signal.isStep then [level] else []) ++ p.commanded (p.levelAfter level signal) rest

/-- Further signals find the level that the first ones command. -/
theorem commanded_append (p : Polarity) (level : Bool) (signals more : List Signal) :
    p.commanded level (signals ++ more) =
      p.commanded level signals ++ p.commanded (signals.foldl p.levelAfter level) more := by
  induction signals generalizing level with
  | nil => rfl
  | cons signal rest ih =>
    rw [List.cons_append, commanded, commanded, ih, List.append_assoc]
    rfl

/-- Only steps and directions matter for what is commanded. -/
theorem commanded_filter_drives (p : Polarity) (level : Bool) (signals : List Signal) :
    p.commanded level (signals.filter Signal.drives) = p.commanded level signals := by
  -- induction on the signals; what does not drive keeps the level and is no step
  induction signals generalizing level with
  | nil => rfl
  | cons signal rest ih =>
    cases signal with
    | step _ | direction _ _ =>
      rw [List.filter_cons_of_pos rfl, commanded, commanded, ih]
    | limit _ _ | restart _ | enable _ | pend | unstep _ | report _ =>
      rw [List.filter_cons_of_neg Bool.false_ne_true, ih]
      rfl

/-- Steps without a direction between them are at the same level. -/
theorem commanded_steps (p : Polarity) (level : Bool) (slot count : Nat) :
    p.commanded level (List.replicate count (.step slot)) = List.replicate count level := by
  induction count with
  | zero => rfl
  | succ count ih =>
    rw [List.replicate_succ, List.replicate_succ, commanded]
    exact congrArg (level :: ·) ih

/-- At the pulses of a leg in a slot, the level is that of the direction of its block. -/
theorem commanded_leg (p : Polarity) (level : Bool) (leg : Leg n) (slot : Fin n) :
    p.commanded level (leg.signals.filter (Signal.isFor slot)) =
      List.replicate (leg.pulses.count slot)
        (leg.block.reversed.get slot != p.invertedDirection) := by
  rw [leg.filter_slot]
  split
  · rename_i hnone
    rw [leg.count_pulses_eq_zero hnone]
    rfl
  · -- whatever the level was, the direction selected first decides it
    rw [commanded]
    have hlevel : p.levelAfter level (.direction slot (leg.block.direction slot)) =
        (leg.block.reversed.get slot != p.invertedDirection) := by
      rw [levelAfter, directionLevel, Block.direction, Direction.bit_ofBit]
    rw [hlevel, commanded_steps]
    rfl

/-- Leg after leg, the pulses of a slot are at the level of the direction of their block. -/
theorem commanded_legs (p : Polarity) (level : Bool) (legs : List (Leg n)) (slot : Fin n) :
    p.commanded level ((legs.flatMap Leg.signals).filter (Signal.isFor slot)) =
      legs.flatMap fun leg => List.replicate (leg.pulses.count slot)
        (leg.block.reversed.get slot != p.invertedDirection) := by
  induction legs generalizing level with
  | nil => rfl
  | cons leg rest ih =>
    rw [List.flatMap_cons, List.filter_append, commanded_append, commanded_leg, ih,
      List.flatMap_cons]

end Polarity

namespace StepDir

/-- No pin fails, and if a direction was written, the direction pin shows it. -/
structure Steady (m : StepDir) (p : Polarity) (level : Bool) : Prop where
  polarity : m.polarity = p
  works : m.pins = {}
  shows : ∀ d, m.heading = some d → level = p.directionLevel d

/-- To select a direction puts the pin at its level and makes no pulse. -/
theorem Steady.setDirection {m : StepDir} {p : Polarity} {level : Bool} (h : m.Steady p level)
    (d : Direction) :
    (m.setDirection d).1.Steady p (p.directionLevel d) ∧
      Line.direction.level level (m.setDirection d).2 = p.directionLevel d ∧
      Line.headings p.pulseLevel level (m.setDirection d).2 = [] := by
  by_cases hsame : m.heading = some d
  · -- nothing is written, but the pin shows this direction already
    have hskip : m.setDirection d = (m, []) := if_pos hsame
    rw [hskip, ← h.shows d hsame]
    exact ⟨h, rfl, rfl⟩
  · have hwrite : m.setDirection d =
        ({ m with heading := some d }, [⟨.direction, p.directionLevel d, true⟩]) := by
      rw [StepDir.setDirection, if_neg hsame, h.works, h.polarity]
      rfl
    rw [hwrite]
    refine ⟨⟨h.polarity, h.works, ?_⟩, rfl, rfl⟩
    intro d' hheading
    cases hheading
    rfl

/-- A write of the step pin leaves the direction, and is a pulse if it is at the active level. -/
theorem Steady.writeStep {m : StepDir} {p : Polarity} {level : Bool} (h : m.Steady p level)
    (high : Bool) :
    (m.writeStep high).1.Steady p level ∧ Line.direction.level level (m.writeStep high).2 = level ∧
      Line.headings p.pulseLevel level (m.writeStep high).2 =
        if high = p.pulseLevel then [level] else [] := by
  have hwrite : (m.writeStep high).2 = [⟨.step, high, true⟩] := by
    rw [StepDir.writeStep, h.works]
    rfl
  rw [hwrite]
  refine ⟨⟨h.polarity, h.works, h.shows⟩, rfl, ?_⟩
  simp [Line.headings]

/-- **Every signal keeps a motor steady**, whether or not it writes the direction. -/
theorem Steady.obey {m : StepDir} {p : Polarity} {level : Bool} (h : m.Steady p level)
    (signal : Signal) :
    (m.obey signal).1.Steady p (p.levelAfter level signal) ∧
      Line.direction.level level (m.obey signal).2 = p.levelAfter level signal ∧
      Line.headings p.pulseLevel level (m.obey signal).2 =
        if signal.isStep then [level] else [] := by
  cases signal with
  | step _ =>
    obtain ⟨hsteady, hlevel, hheadings⟩ := h.writeStep p.pulseLevel
    rw [if_pos rfl] at hheadings
    rw [StepDir.obey, StepDir.step, h.polarity]
    exact ⟨hsteady, hlevel, hheadings⟩
  | unstep _ =>
    -- to release the output is not to begin a pulse
    obtain ⟨hsteady, hlevel, hheadings⟩ := h.writeStep (!p.pulseLevel)
    rw [if_neg (Bool.not_ne_self _)] at hheadings
    rw [StepDir.obey, StepDir.unstep, h.polarity]
    exact ⟨hsteady, hlevel, hheadings⟩
  | direction _ d => exact h.setDirection d
  | limit _ _ | restart _ | enable _ | pend | report _ => exact ⟨h, rfl, rfl⟩

/-- **The direction pin is where the directions command**, at every pulse. -/
theorem Steady.headings_obeyAll {m : StepDir} {p : Polarity} {level : Bool} (h : m.Steady p level)
    (signals : List Signal) :
    Line.headings p.pulseLevel level (m.obeyAll signals).2 = p.commanded level signals := by
  induction signals generalizing m level with
  | nil => rfl
  | cons signal rest ih =>
    obtain ⟨hsteady, hlevel, hheadings⟩ := h.obey signal
    rw [obeyAll_cons, Line.headings_append, hheadings, hlevel, ih hsteady, Polarity.commanded]

end StepDir

namespace Machine

/-- **Every pulse goes the commanded way.** After any calls from a creation on, stops and new starts
among them, what was stepped and which directions were selected is one leg after the other, one for
each block that has ended and one for the executing one: first the directions, and then the steps.
In a leg, a slot that the block moves gets its direction there once and then its steps, and another
slot gets nothing. So if a motor on pins that do not fail is wired to one slot, then its direction
pin is at every pulse at the level that the block of the leg asks for, whatever the motor has
written for the blocks before. -/
theorem pulses_go_commanded_way {timing : Timing} {tickCounter pulseCounter : TimerCounts}
    {c₀ : Controller n} (hc₀ : (Controller.create timing tickCounter pulseCounter).1 = .ok c₀)
    {calls : List (Call n)} {m : Machine n} {t : Transcript n}
    (hrun : (Machine.setup c₀).run calls = (m, t)) :
    ∃ legs : List (Leg n),
      legs.map Leg.block = t.ended ++ m.executing.toList ∧
      t.signals.filter Signal.drives = legs.flatMap Leg.signals ∧
      (∀ leg ∈ legs, ∀ slot : Fin n, leg.signals.filter (Signal.isFor slot) =
        if leg.block.steps.get slot = 0 then []
        else .direction slot (leg.block.direction slot) ::
          List.replicate (leg.pulses.count slot) (.step slot)) ∧
      ∀ (slot : Fin n) motor (bench : Bench) (pins : StepDir),
        m.controller.motors.WiredTo slot motor → bench.pins? motor = some pins →
        pins.heading = none → pins.pins = {} → ∀ start,
          Line.headings (!pins.polarity.invertedStep) start
              (Trace.writes motor ((Machine.setup c₀).runOn bench calls).2) =
            legs.flatMap fun leg => List.replicate (leg.pulses.count slot)
              (leg.block.reversed.get slot != pins.polarity.invertedDirection) := by
  obtain ⟨legs, hblocks, hdriven⟩ := (Reachable.created hc₀).sound.legs_run rfl calls
  rw [hrun] at hblocks hdriven
  refine ⟨legs, hblocks, hdriven, fun leg _ slot => leg.filter_slot slot, ?_⟩
  intro slot motor bench pins hwired hpins hfresh hworks start
  -- a motor that has not written any direction is steady whatever its pin is at
  have hsteady : pins.Steady pins.polarity start :=
    ⟨rfl, hworks, fun d hheading => by rw [hfresh] at hheading; cases hheading⟩
  have hwired' : ((Machine.setup c₀).run calls).1.controller.motors.WiredTo slot motor := by
    rw [hrun]
    exact hwired
  -- the signals that drive the slot, whichever way they are picked out
  have hcomm : (t.signals.filter (Signal.isFor slot)).filter Signal.drives =
      (t.signals.filter Signal.drives).filter (Signal.isFor slot) := by
    rw [List.filter_filter, List.filter_filter]
    exact List.filter_congr fun _ _ => Bool.and_comm _ _
  rw [writes_runOn hwired' hpins, hrun]
  refine (hsteady.headings_obeyAll _).trans ?_
  rw [← Polarity.commanded_filter_drives, hcomm, hdriven, Polarity.commanded_legs]

/-- A bench with one motor, which is on pins. -/
def onePinned : Bench := { motors := #[{ pins := some {} }] }

/-- A step in reverse, a stop, another step in reverse, and one forward. -/
def turning : List (Call 2) :=
  [.register 0, .start, .submit twoSteps, .tick, .tick, .stop, .start, .submit twoSteps, .tick,
    .tick, .stop, .start, .submit { twoSteps with reversed := #v[false, false] }, .tick, .tick]

/-- The direction is written twice for the three blocks, and is right at each of their pulses. -/
theorem pulses_go_commanded_way_turning :
    (Controller.create {} 0 0).1 = .ok noMotor ∧
      ∃ m t, (Machine.setup noMotor).run turning = (m, t) ∧
        m.controller.motors.WiredTo 0 0 ∧ onePinned.pins? 0 = some {} ∧
        ∃ legs : List (Leg 2),
          legs.map Leg.block =
            [twoSteps, twoSteps, { twoSteps with reversed := #v[false, false] }] ∧
          (legs.flatMap fun leg => List.replicate (leg.pulses.count 0)
            (leg.block.reversed.get 0 != false)) = [true, true, false] ∧
          (Trace.writes 0 ((Machine.setup noMotor).runOn onePinned turning).2).filter
            (·.line = .direction) = [⟨.direction, true, true⟩, ⟨.direction, false, true⟩] := by
  obtain ⟨m, t, hrun⟩ : ∃ m t, (Machine.setup noMotor).run turning = (m, t) := ⟨_, _, rfl⟩
  have hblocks : ((Machine.setup noMotor).run turning).2.ended ++
      ((Machine.setup noMotor).run turning).1.executing.toList =
        [twoSteps, twoSteps, { twoSteps with reversed := #v[false, false] }] := by decide +kernel
  have hmotors : ((Machine.setup noMotor).run turning).1.controller.motors.motorTable =
      #[0] := by decide +kernel
  -- two blocks in reverse, of which the second needs no write, and one forward
  have hlevels : Line.headings true false
      (Trace.writes 0 ((Machine.setup noMotor).runOn onePinned turning).2) =
        [true, true, false] := by
    decide +kernel
  rw [hrun] at hblocks hmotors
  have hwired : m.controller.motors.WiredTo 0 0 := by
    have hmotor (i : Nat) : m.controller.motors.motor? i = (#[0] : Array MotorNumber)[i]? := by
      rw [Registry.motor?, hmotors]
    refine ⟨hmotor 0, fun other hother => ?_⟩
    rw [hmotor] at hother
    cases other with
    | zero => rfl
    | succ _ => cases hother
  obtain ⟨legs, hlegs, -, -, hpins⟩ := pulses_go_commanded_way create_noMotor hrun
  refine ⟨create_noMotor, m, t, hrun, hwired, rfl, legs, hlegs.trans hblocks, ?_, by decide +kernel⟩
  exact (hpins 0 0 onePinned {} hwired rfl rfl rfl false).symm.trans hlevels

end Machine

end PulseTrain
