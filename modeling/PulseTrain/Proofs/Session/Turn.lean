import Mathlib.Data.List.Count
import Mathlib.Data.List.FinRange
import Mathlib.Data.List.Nodup
import PulseTrain.Engine.Session

/-!
# What a tick can do

The one inversion of `Session.tick` that everything about ticks is derived from. A tick either
finds nothing to do, or moves the axes of the executing block, which it may have taken out of the
mailbox just before; and if nothing moves any more after that, it ends the block and hands over to
the waiting one.

* **`awake`**: the session in which a tick moves the axes, and **`WakeCase`**: how it comes about.
* **`TickCase`**: the three courses of a tick, with its outcome in each of them.
* **`HandoverCase`**: the two ways in which a block ends.
* **`WakeCase.steps_tick`**: which slots a tick steps.
-/

namespace PulseTrain

variable {n : Nat}

/-- The signal begins a step pulse. -/
def Signal.isStep : Signal → Bool
  | .step _ => true
  | _ => false

namespace Session

/-! ## Slots -/

/-- The slots of a session are those with a motor. -/
@[simp] theorem mem_slots {s : Session n} {slot : Fin n} :
    slot ∈ s.slots ↔ slot.val < s.motors.size := by
  simp [slots]

theorem nodup_slots (s : Session n) : s.slots.Nodup :=
  (List.nodup_finRange n).filter _

/-! ## Waking -/

/-- Takes a block that waits out of the mailbox and begins it. -/
def pickUp (s : Session n) (b : Block n) : Session n × List Signal :=
  { s with mailbox := none }.begin b

/-- The session in which a tick moves the axes: a block that waits has begun if none executed. -/
def awake (s : Session n) : Session n × List Signal :=
  if s.isActive then (s, []) else s.beginNext

/-- The session after the moves of a tick, before it looks whether the block is at its end. -/
def moved (s : Session n) : Session n := s.awake.1.advance.1

/-- How a block comes to execute on a tick. -/
inductive WakeCase (s : Session n) (b : Block n) : Prop where
  | already (hexec : s.executing = some b) (hawake : s.awake = (s, []))
  | pickedUp (hexec : s.executing = none) (hbox : s.mailbox = some b)
      (hawake : s.awake = s.pickUp b)

/-- The block that waits is picked up. -/
theorem beginNext_of_waiting {s : Session n} {b : Block n} (hbox : s.mailbox = some b) :
    s.beginNext = s.pickUp b := by
  rw [beginNext, hbox, pickUp]

theorem beginNext_of_empty {s : Session n} (hbox : s.mailbox = none) :
    s.beginNext = ({ s with executing := none, busy := false }, []) := by
  rw [beginNext, hbox]

/-- A session is active as long as a block executes. -/
theorem isActive_of_executing {s : Session n} {b : Block n} (hexec : s.executing = some b) :
    s.isActive = true := by
  rw [isActive, hexec, Option.isSome_some]

theorem isActive_of_none {s : Session n} (hexec : s.executing = none) : s.isActive = false := by
  rw [isActive, hexec, Option.isSome_none]

/-- A session that executes a block is awake already. -/
theorem awake_of_executing {s : Session n} {b : Block n} (hexec : s.executing = some b) :
    s.awake = (s, []) := by
  rw [awake, isActive_of_executing hexec, if_pos rfl]

theorem awake_of_waiting {s : Session n} {b : Block n} (hexec : s.executing = none)
    (hbox : s.mailbox = some b) : s.awake = s.pickUp b := by
  rw [awake, isActive_of_none hexec, if_neg (by decide), beginNext_of_waiting hbox]

/-- Either way it is this block that executes. -/
theorem WakeCase.executing_awake {s : Session n} {b : Block n} (h : WakeCase s b) :
    s.awake.1.executing = some b := by
  cases h with
  | already hexec hawake => rw [hawake]; exact hexec
  | pickedUp _ _ hawake => rw [hawake]; rfl

/-! ## The end of a block -/

/-- The two ways in which a block ends: nothing waits and the engine becomes idle, or the waiting
block begins. -/
inductive HandoverCase (s : Session n) : Prop where
  | rests (hbox : s.mailbox = none)
      (hfinish : s.finish = ({ s with
        elapsed := 0, executing := none, busy := false, backlog := s.backlog.add }, [.pend]))
  | handsOver (b : Block n) (hbox : s.mailbox = some b)
      (hfinish : s.finish = ({ ({ s with elapsed := 0 }.pickUp b).1 with
        backlog := s.backlog.add }, ({ s with elapsed := 0 }.pickUp b).2 ++ [.pend]))

/-- **A block ends in one of two ways**: at rest, or with the next block begun on the same tick. -/
theorem handover_cases (s : Session n) : HandoverCase s := by
  -- the mailbox is looked at once the block has ended
  cases hbox : s.mailbox with
  | none =>
    refine .rests hbox ?_
    rw [finish, beginNext_of_empty (s := { s with elapsed := 0 }) hbox]
    rfl
  | some b =>
    refine .handsOver b hbox ?_
    rw [finish, beginNext_of_waiting (s := { s with elapsed := 0 }) hbox]
    rfl

/-! ## The courses of a tick -/

/-- The three courses of a tick: there is nothing to do, the block runs on, or it ends. -/
inductive TickCase (s : Session n) : Prop where
  | idle (hexec : s.executing = none) (hbox : s.mailbox = none) (htick : s.tick = ⟨s, none, []⟩)
  | runs (b : Block n) (hwake : WakeCase s b) (hmoving : s.moved.isMoving = true)
      (htick : s.tick = ⟨s.moved, none, s.awake.2 ++ s.awake.1.advance.2⟩)
  | ends (b : Block n) (hwake : WakeCase s b) (hstill : s.moved.isMoving = false)
      (htick : s.tick = ⟨s.moved.finish.1, some b,
        s.awake.2 ++ (s.awake.1.advance.2 ++ s.moved.finish.2)⟩)

/-- A tick that has a block wakes, and then executes one tick of it. -/
theorem tick_of_wakeCase {s : Session n} {b : Block n} (h : WakeCase s b) :
    s.tick = ⟨s.awake.1.executeTick.state, s.awake.1.executeTick.answer,
      s.awake.2 ++ s.awake.1.executeTick.signals⟩ := by
  cases h with
  -- a block that executes already is not picked up again
  | already hexec hawake =>
    rw [tick, isActive_of_executing hexec, if_pos rfl, hawake]
    rfl
  | pickedUp hexec hbox hawake =>
    -- neither of the two early exits is taken: a block waits, and none executes
    have hready : s.isReady = false := by rw [isReady, hbox]; rfl
    rw [tick, isActive_of_none hexec, hready, if_neg (by decide), if_neg (by decide),
      beginNext_of_waiting hbox, hawake]

/-- As long as a slot moves, the block goes on. -/
theorem executeTick_of_moving {s : Session n} (h : s.advance.1.isMoving = true) :
    s.executeTick = ⟨s.advance.1, none, s.advance.2⟩ := by
  rw [executeTick]
  exact if_pos h

/-- When none does, it is finished on the same tick. -/
theorem executeTick_of_still {s : Session n} (h : s.advance.1.isMoving = false) :
    s.executeTick = ⟨s.advance.1.finish.1, s.executing, s.advance.2 ++ s.advance.1.finish.2⟩ := by
  have hstill : ¬ s.advance.1.isMoving = true := by rw [h]; decide
  rw [executeTick]
  exact if_neg hstill

/-- The course of a tick on which the block goes on. -/
theorem WakeCase.tick_of_moving {s : Session n} {b : Block n} (h : WakeCase s b)
    (hmoving : s.moved.isMoving = true) :
    s.tick = ⟨s.moved, none, s.awake.2 ++ s.awake.1.advance.2⟩ := by
  rw [tick_of_wakeCase h, executeTick_of_moving hmoving]
  rfl

/-- The course of a tick on which the block ends. -/
theorem WakeCase.tick_of_still {s : Session n} {b : Block n} (h : WakeCase s b)
    (hstill : s.moved.isMoving = false) :
    s.tick = ⟨s.moved.finish.1, some b,
      s.awake.2 ++ (s.awake.1.advance.2 ++ s.moved.finish.2)⟩ := by
  rw [tick_of_wakeCase h, executeTick_of_still hstill, h.executing_awake]
  rfl

/-- A tick that has a block takes the second or the third course. -/
theorem tick_cases_of_wakeCase {s : Session n} {b : Block n} (h : WakeCase s b) : TickCase s := by
  cases hmoving : s.moved.isMoving with
  | true => exact .runs b h hmoving (h.tick_of_moving hmoving)
  | false => exact .ends b h hmoving (h.tick_of_still hmoving)

/-- **Every tick takes one of the three courses.** -/
theorem tick_cases (s : Session n) : TickCase s := by
  -- what executes comes before what waits
  cases hexec : s.executing with
  | some b => exact tick_cases_of_wakeCase (.already hexec (awake_of_executing hexec))
  | none =>
    cases hbox : s.mailbox with
    | some b => exact tick_cases_of_wakeCase (.pickedUp hexec hbox (awake_of_waiting hexec hbox))
    | none =>
      refine .idle hexec hbox ?_
      rw [tick, isActive_of_none hexec, if_neg (by decide), isReady, hbox, Option.isNone_none,
        if_pos rfl]

/-- Only the third course ends a block. -/
theorem ends_of_answer {s : Session n} {b : Block n} (h : s.tick.answer = some b) :
    WakeCase s b ∧ s.moved.isMoving = false := by
  cases tick_cases s with
  | idle _ _ htick => rw [htick] at h; cases h
  | runs _ _ _ htick => rw [htick] at h; cases h
  | ends b' hwake hstill htick =>
    rw [htick] at h
    cases h
    exact ⟨hwake, hstill⟩

/-! ## The axes -/

/-- A slot makes its tick if it has a motor and is active, and is left alone otherwise. -/
theorem tickedAxes_get (s : Session n) (slot : Fin n) :
    s.tickedAxes.get slot =
      if slot.val < s.motors.size ∧ (s.axes.get slot).isActive = true then
        (s.axes.get slot).tick (s.elapsed + 1) s.profile s.rate
      else (s.axes.get slot, false) := by
  show (Vector.ofFn _)[slot.val] = _
  rw [Vector.getElem_ofFn]

/-- The slots that are stepped when all of them move by one tick. -/
def stepping (s : Session n) : List (Fin n) := s.slots.filter fun slot => (s.tickedAxes.get slot).2

/-- Moving the axes changes their states, the number of the tick, the set of slots that wait for
release and the pulse timer, and nothing else. -/
theorem advance_fst (s : Session n) :
    s.advance.1 = { s with
      elapsed := s.elapsed + 1
      axes := s.tickedAxes.map (·.1)
      flagged := s.stepping.foldl (fun set (slot : Fin n) => set.insert slot) s.flagged
      pulseTimer := if s.stepping.isEmpty then s.pulseTimer else s.pulseTimer.restart } := by
  unfold advance stepping
  dsimp only
  split <;> rfl

/-- The steps in the order of the slots, and one restart of the pulse timer behind them if there are
any. -/
theorem advance_snd (s : Session n) :
    s.advance.2 = s.stepping.map (fun slot : Fin n => Signal.step slot) ++
      if s.stepping.isEmpty then [] else [.restart .pulse] := by
  unfold advance stepping
  dsimp only
  split
  · rename_i hnone
    rw [List.isEmpty_iff.mp hnone]
    rfl
  · rfl

/-- The axes after a tick, slot by slot. -/
theorem advance_axes_get (s : Session n) (slot : Fin n) :
    s.advance.1.axes.get slot = (s.tickedAxes.get slot).1 := by
  rw [advance_fst]
  show (s.tickedAxes.map _)[slot.val] = _
  rw [Vector.getElem_map]
  rfl

/-- Moving the axes does not end the block. -/
theorem WakeCase.executing_moved {s : Session n} {b : Block n} (h : WakeCase s b) :
    s.moved.executing = some b := by
  rw [moved, advance_fst]
  exact h.executing_awake

/-- A slot without a motor is not stepped, and neither is one that is through. -/
theorem ticked_due_iff (s : Session n) (slot : Fin n) :
    (s.tickedAxes.get slot).2 = true ↔
      slot.val < s.motors.size ∧ (s.axes.get slot).isActive = true ∧
        ((s.axes.get slot).tick (s.elapsed + 1) s.profile s.rate).2 = true := by
  rw [tickedAxes_get]
  split
  · rename_i h
    simp [h]
  · rename_i h
    simp only [Bool.false_eq_true, false_iff]
    exact fun hall => h ⟨hall.1, hall.2.1⟩

/-- The slots that step are those whose step is due. They have a motor, as no other slot is due. -/
theorem mem_stepping {s : Session n} {slot : Fin n} :
    slot ∈ s.stepping ↔ (s.tickedAxes.get slot).2 = true := by
  rw [stepping, List.mem_filter, mem_slots, and_iff_right_iff_imp]
  exact fun hdue => ((ticked_due_iff s slot).mp hdue).1

/-! ## The steps -/

/-- To pick up a block selects directions and steps nothing. -/
theorem filter_isStep_pickUp (s : Session n) (b : Block n) :
    (s.pickUp b).2.filter Signal.isStep = [] := by
  -- a block that begins only selects directions
  apply List.filter_eq_nil_iff.mpr
  intro signal hmem
  obtain ⟨_, _, rfl⟩ := List.mem_map.mp hmem
  exact Bool.false_ne_true

/-- So nothing is stepped by waking. -/
theorem filter_isStep_awake (s : Session n) : s.awake.2.filter Signal.isStep = [] := by
  unfold awake
  split
  · rfl
  · cases hbox : s.mailbox with
    | none => rw [beginNext_of_empty hbox]; rfl
    | some b => rw [beginNext_of_waiting hbox]; exact filter_isStep_pickUp s b

/-- Nothing is stepped when a block ends, though the next one may begin. -/
theorem filter_isStep_finish (s : Session n) : s.finish.2.filter Signal.isStep = [] := by
  cases handover_cases s with
  | rests _ hfinish => rw [hfinish]; rfl
  | handsOver b _ hfinish =>
    rw [hfinish, List.filter_append, filter_isStep_pickUp]
    rfl

/-- Of what is sent when the axes move, the steps are left when the restart of the timer goes. -/
theorem filter_advance {p : Signal → Bool} (hstep : ∀ slot, p (.step slot) = true)
    (htimer : p (.restart .pulse) = false) (s : Session n) :
    s.advance.2.filter p = s.stepping.map fun slot : Fin n => Signal.step slot := by
  have hsteps : (s.stepping.map fun slot : Fin n => Signal.step slot).filter p =
      s.stepping.map fun slot : Fin n => Signal.step slot := by
    apply List.filter_eq_self.mpr
    intro signal hmem
    obtain ⟨slot, _, rfl⟩ := List.mem_map.mp hmem
    exact hstep slot
  have hrestart : (if s.stepping.isEmpty then [] else [Signal.restart .pulse]).filter p = [] := by
    -- the timer is restarted only if there is a step
    split
    · rfl
    · rw [List.filter_singleton, htimer]
      rfl
  rw [advance_snd, List.filter_append, hsteps, hrestart, List.append_nil]

/-- The steps of a tick are those of its advance. -/
theorem filter_isStep_advance (s : Session n) :
    s.advance.2.filter Signal.isStep = s.stepping.map fun slot : Fin n => Signal.step slot :=
  filter_advance (fun _ => rfl) rfl s

/-- **A tick steps what its axes step**, in the order of the slots. -/
theorem WakeCase.filter_isStep_tick {s : Session n} {b : Block n} (h : WakeCase s b) :
    s.tick.signals.filter Signal.isStep =
      s.awake.1.stepping.map fun slot : Fin n => Signal.step slot := by
  cases hmoving : s.moved.isMoving with
  | true =>
    rw [h.tick_of_moving hmoving, List.filter_append, filter_isStep_awake, filter_isStep_advance,
      List.nil_append]
  | false =>
    rw [h.tick_of_still hmoving, List.filter_append, List.filter_append, filter_isStep_awake,
      filter_isStep_advance, filter_isStep_finish, List.append_nil, List.nil_append]

/-- **A tick steps a slot once if its step is due, and otherwise not at all.** -/
theorem WakeCase.steps_tick {s : Session n} {b : Block n} (h : WakeCase s b) (slot : Fin n) :
    s.tick.signals.count (.step slot) = (s.awake.1.tickedAxes.get slot).2.toNat := by
  -- no slot is listed twice, so a slot is stepped once or not at all
  have hinj : Function.Injective fun slot : Fin n => Signal.step slot :=
    fun i j h => Fin.ext (Signal.step.inj h)
  have hnodup : s.awake.1.stepping.Nodup := s.awake.1.nodup_slots.filter _
  rw [← List.count_filter (p := Signal.isStep) rfl, h.filter_isStep_tick,
    List.count_map_of_injective _ _ hinj slot, hnodup.count]
  by_cases hdue : (s.awake.1.tickedAxes.get slot).2 = true
  · rw [if_pos (mem_stepping.mpr hdue), hdue]
    rfl
  · rw [if_neg fun hmem => hdue (mem_stepping.mp hmem), Bool.eq_false_iff.mpr hdue]
    rfl

/-! ## The motors -/

/-- Waking registers nothing. -/
theorem WakeCase.motors_awake {s : Session n} {b : Block n} (h : WakeCase s b) :
    s.awake.1.motors = s.motors := by
  cases h with
  | already _ hawake => rw [hawake]
  | pickedUp _ _ hawake => rw [hawake]; rfl

theorem WakeCase.motors_moved {s : Session n} {b : Block n} (h : WakeCase s b) :
    s.moved.motors = s.motors := by
  rw [moved, advance_fst]
  exact h.motors_awake

theorem motors_finish (s : Session n) : s.finish.1.motors = s.motors := by
  cases handover_cases s with
  | rests _ hfinish => rw [hfinish]
  | handsOver b _ hfinish => rw [hfinish]; rfl

/-- No tick registers a motor. -/
theorem motors_tick (s : Session n) : s.tick.state.motors = s.motors := by
  cases tick_cases s with
  | idle _ _ htick => rw [htick]
  | runs b hwake _ htick => rw [htick, hwake.motors_moved]
  | ends b hwake _ htick => rw [htick, motors_finish, hwake.motors_moved]

end Session

end PulseTrain
