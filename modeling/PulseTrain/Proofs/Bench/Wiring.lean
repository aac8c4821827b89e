import PulseTrain.Proofs.Session.Effects
import PulseTrain.Proofs.Session.Run

/-!
# What reaches a motor

The signals of a run go to the bench, each to the motor that is wired to its slot at the time.
Motors are only ever added, and a machine addresses only slots that have one, so a motor that is
wired to a single slot at the end of a run has got exactly the signals for that slot, in order.

* **`Machine.runOn`**: the run of a machine on a bench.
* **`StepDir.obeyAll`**: what a motor on pins makes of signals in a row.
* **`Registry.WiredTo`**: the motor is wired to this slot alone.
* **`slot_lt_call`**, **`motors_run`**: who is addressed, and that slots keep their motors.
* **`writes_runOn`**: the writes of the pins of such a motor.
-/

namespace PulseTrain

variable {n : Nat}

namespace StepDir

/-- What a motor on pins does on a signal for it, and the writes of its pins. -/
def obey (m : StepDir) : Signal → StepDir × List PinWrite
  | .step _ => m.step
  | .unstep _ => m.unstep
  | .direction _ d => m.setDirection d
  | _ => (m, [])

def obeyAll (m : StepDir) : List Signal → StepDir × List PinWrite
  | [] => (m, [])
  | signal :: rest =>
    let (next, first) := m.obey signal
    let (last, others) := next.obeyAll rest
    (last, first ++ others)

theorem obeyAll_cons (m : StepDir) (signal : Signal) (rest : List Signal) :
    m.obeyAll (signal :: rest) = (((m.obey signal).1.obeyAll rest).1,
      (m.obey signal).2 ++ ((m.obey signal).1.obeyAll rest).2) := rfl

/-- Further signals are obeyed in the state that the first ones leave. -/
theorem obeyAll_append (m : StepDir) (signals more : List Signal) :
    m.obeyAll (signals ++ more) = (((m.obeyAll signals).1.obeyAll more).1,
      (m.obeyAll signals).2 ++ ((m.obeyAll signals).1.obeyAll more).2) := by
  induction signals generalizing m with
  | nil => rfl
  | cons signal rest ih =>
    rw [List.cons_append, obeyAll_cons, ih, obeyAll_cons, List.append_assoc]

end StepDir

/-- A motor on pins obeys a signal as its pins do. -/
theorem Motor.obey_of_pins {m : Motor} {pins : StepDir} (h : m.pins = some pins)
    (signal : Signal) :
    (m.obey signal).1.pins = some (pins.obey signal).1 ∧
      (m.obey signal).2 = (pins.obey signal).2 := by
  unfold Motor.obey
  rw [h]
  cases signal with
  | step _ | unstep _ | direction _ _ => exact ⟨rfl, rfl⟩
  | limit _ _ | restart _ | enable _ | pend | report _ => exact ⟨h, rfl⟩

theorem Trace.writes_append (motor : MotorNumber) (log more : List Trace) :
    Trace.writes motor (log ++ more) = Trace.writes motor log ++ Trace.writes motor more :=
  List.filterMap_append

namespace Bench

/-- The pins of the motor with a number, if there is such a motor and it has pins. -/
def pins? (b : Bench) (motor : MotorNumber) : Option StepDir := b.motors[motor]?.bind Motor.pins

/-! ## One signal -/

/-- A signal that is delivered to a motor on pins is obeyed by them, and traced. -/
theorem deliver_of_pins {b : Bench} {motor : MotorNumber} {pins : StepDir}
    (h : b.pins? motor = some pins) (signal : Signal) :
    (b.deliver motor signal).1.pins? motor = some (pins.obey signal).1 ∧
      Trace.writes motor (b.deliver motor signal).2 = (pins.obey signal).2 := by
  obtain ⟨m, hmotor, hpins⟩ := Option.bind_eq_some_iff.mp h
  obtain ⟨hobeyed, hwrites⟩ := Motor.obey_of_pins hpins signal
  have hlt : motor < b.motors.size := (Array.getElem?_eq_some_iff.mp hmotor).1
  have hdeliver : b.deliver motor signal =
      ({ b with motors := b.motors.setIfInBounds motor (m.obey signal).1 },
        (pins.obey signal).2.map (.write motor)) := by
    unfold deliver
    rw [hmotor, ← hwrites]
    dsimp only
    rw [hpins, Option.isSome_some, if_pos rfl]
  rw [hdeliver]
  refine ⟨?_, ?_⟩
  · rw [pins?, Array.getElem?_setIfInBounds_self_of_lt hlt, Option.bind_some, hobeyed]
  · -- every write is traced under the number of this motor
    rw [Trace.writes, List.filterMap_map]
    refine (List.filterMap_congr ?_).trans List.filterMap_some
    intro w _
    exact if_pos rfl

/-- A signal for another motor does not reach this one. -/
theorem deliver_other {b : Bench} {motor other : MotorNumber} (h : other ≠ motor)
    (signal : Signal) :
    (b.deliver other signal).1.pins? motor = b.pins? motor ∧
      Trace.writes motor (b.deliver other signal).2 = [] := by
  unfold deliver
  split
  · exact ⟨rfl, rfl⟩
  · refine ⟨?_, ?_⟩
    · rw [pins?, Array.getElem?_setIfInBounds_ne h]
      rfl
    · dsimp only
      split
      · rw [Trace.writes, List.filterMap_map, List.filterMap_eq_nil_iff]
        intro w _
        exact if_neg h
      · rfl

/-- A signal for a slot goes to the motor of that slot. -/
theorem receive_addressed {slots : Registry MotorNumber n} {motor : MotorNumber} {signal : Signal}
    (h : signal.slot?.bind slots.motor? = some motor) (b : Bench) :
    b.receive slots signal = b.deliver motor signal := by
  unfold receive
  rw [h]
  cases signal with
  | step _ | unstep _ | direction _ _ => rfl
  | limit _ _ | restart _ | enable _ | pend | report _ => cases h

/-- Any other signal does not reach the motor. -/
theorem receive_unaddressed {slots : Registry MotorNumber n} {motor : MotorNumber}
    {signal : Signal} (h : signal.slot?.bind slots.motor? ≠ some motor) (b : Bench) :
    (b.receive slots signal).1.pins? motor = b.pins? motor ∧
      Trace.writes motor (b.receive slots signal).2 = [] := by
  cases haddressed : signal.slot?.bind slots.motor? with
  | some other =>
    rw [receive_addressed haddressed]
    refine deliver_other ?_ signal
    rintro rfl
    exact h haddressed
  | none =>
    unfold receive
    rw [haddressed]
    cases signal with
    | step _ | unstep _ | direction _ _ => exact ⟨rfl, rfl⟩
    | limit _ _ | restart _ | enable _ | pend | report _ => exact ⟨rfl, rfl⟩

/-! ## Signals in a row -/

/-- **A motor obeys the signals for its slot**, as far as these are the ones that reach it. -/
theorem receiveAll_of_pins {slots : Registry MotorNumber n} {motor : MotorNumber} {slot : Nat}
    {signals : List Signal}
    (h : ∀ signal ∈ signals, signal.slot?.bind slots.motor? = some motor ↔ signal.slot? = some slot)
    {b : Bench} {pins : StepDir} (hpins : b.pins? motor = some pins) :
    (b.receiveAll slots signals).1.pins? motor =
        some (pins.obeyAll (signals.filter (Signal.isFor slot))).1 ∧
      Trace.writes motor (b.receiveAll slots signals).2 =
        (pins.obeyAll (signals.filter (Signal.isFor slot))).2 := by
  -- induction on the signals, with the state of the pins after those before
  induction signals generalizing b pins with
  | nil => exact ⟨hpins, rfl⟩
  | cons signal rest ih =>
    have hrest := List.forall_mem_cons.mp h
    have hreceive : b.receiveAll slots (signal :: rest) =
        (((b.receive slots signal).1.receiveAll slots rest).1,
          (b.receive slots signal).2 ++ ((b.receive slots signal).1.receiveAll slots rest).2) := rfl
    rw [hreceive, Trace.writes_append]
    -- for this slot the motor obeys, and for any other one it is not reached
    by_cases hslot : signal.slot? = some slot
    · have hdeliver := receive_addressed (hrest.1.mpr hslot) b
      obtain ⟨hpins', hwrites⟩ := deliver_of_pins hpins signal
      rw [← hdeliver] at hpins' hwrites
      obtain ⟨hlast, hothers⟩ := ih hrest.2 hpins'
      rw [List.filter_cons_of_pos (Signal.isFor_iff.mpr hslot), StepDir.obeyAll_cons, hwrites,
        hothers]
      exact ⟨hlast, rfl⟩
    · obtain ⟨hpins', hwrites⟩ := receive_unaddressed (fun hto => hslot (hrest.1.mp hto)) b
      rw [hpins] at hpins'
      obtain ⟨hlast, hothers⟩ := ih hrest.2 hpins'
      rw [List.filter_cons_of_neg (mt Signal.isFor_iff.mp hslot), hwrites, hothers]
      exact ⟨hlast, rfl⟩

end Bench

/-! ## Slots and their motors -/

namespace Registry

/-- The motor with a number is wired to this slot and to no other. -/
structure WiredTo (slots : Registry MotorNumber n) (slot : Nat) (motor : MotorNumber) : Prop where
  here : slots.motor? slot = some motor
  only : ∀ other, slots.motor? other = some motor → other = slot

/-- Slots that have a motor keep it while more are being added. -/
theorem motor?_of_prefix {slots more : Registry MotorNumber n}
    (h : slots.motors <+: more.motors) {slot : Nat} (hslot : slot < slots.size) :
    more.motor? slot = slots.motor? slot := by
  have hlt : slot < slots.motors.length := by rwa [motors, Array.length_toList]
  have hsame := List.prefix_iff_getElem?.mp h slot hlt
  rw [motor?, motor?, ← Array.getElem?_toList, ← Array.getElem?_toList]
  show more.motors[slot]? = slots.motors[slot]?
  rw [hsame, List.getElem?_eq_getElem hlt]

/-- While motors are being added, what reaches a motor that is wired to one slot in the end is what
is for that slot. -/
theorem WiredTo.addressed {slots more : Registry MotorNumber n} {slot : Nat} {motor : MotorNumber}
    (h : more.WiredTo slot motor) (hgrown : slots.motors <+: more.motors)
    {signal : Signal} (hwithin : ∀ i, signal.slot? = some i → i < slots.size) :
    signal.slot?.bind slots.motor? = some motor ↔ signal.slot? = some slot := by
  cases hsignal : signal.slot? with
  | none => exact iff_of_false nofun nofun
  | some i =>
    rw [Option.bind_some, ← motor?_of_prefix hgrown (hwithin i hsignal), Option.some.injEq]
    constructor
    · exact h.only i
    · rintro rfl
      exact h.here

end Registry

namespace Session

/-! ## Only slots with a motor are addressed -/

/-- A block that begins addresses registered slots only. -/
theorem slot_lt_pickUp {s : Session n} {b : Block n} {signal : Signal}
    (h : signal ∈ (s.pickUp b).2) {i : Nat} (hslot : signal.slot? = some i) :
    i < s.motors.size := by
  obtain ⟨slot, hmem, rfl⟩ := List.mem_map.mp h
  cases hslot
  exact mem_slots.mp (List.mem_filter.mp hmem).1

/-- Waking up addresses registered slots only, whether or not a block is picked up. -/
theorem WakeCase.slot_lt_awake {s : Session n} {b : Block n} (h : WakeCase s b) {signal : Signal}
    (hmem : signal ∈ s.awake.2) {i : Nat} (hslot : signal.slot? = some i) : i < s.motors.size := by
  cases h with
  | already _ hawake => rw [hawake] at hmem; cases hmem
  | pickedUp _ _ hawake => rw [hawake] at hmem; exact slot_lt_pickUp hmem hslot

/-- The moves of a tick address registered slots only. -/
theorem slot_lt_advance {s : Session n} {signal : Signal} (h : signal ∈ s.advance.2) {i : Nat}
    (hslot : signal.slot? = some i) : i < s.motors.size := by
  rw [advance_snd, List.mem_append] at h
  rcases h with hstep | hrestart
  · obtain ⟨slot, hmem, rfl⟩ := List.mem_map.mp hstep
    cases hslot
    exact ((ticked_due_iff s slot).mp (mem_stepping.mp hmem)).1
  · split at hrestart
    · cases hrestart
    · rw [List.mem_singleton.mp hrestart] at hslot
      cases hslot

/-- The end of a block, and the begin of the one behind it, address registered slots only. -/
theorem slot_lt_finish {s : Session n} {signal : Signal} (h : signal ∈ s.finish.2) {i : Nat}
    (hslot : signal.slot? = some i) : i < s.motors.size := by
  have hpend (hmem : signal ∈ [Signal.pend]) : i < s.motors.size := by
    rw [List.mem_singleton.mp hmem] at hslot
    cases hslot
  cases handover_cases s with
  | rests _ hfinish => rw [hfinish] at h; exact hpend h
  | handsOver b _ hfinish =>
    rw [hfinish, List.mem_append] at h
    exact h.elim (fun hmem => slot_lt_pickUp hmem hslot) hpend

/-- A tick addresses registered slots only. -/
theorem slot_lt_tick {s : Session n} {signal : Signal} (h : signal ∈ s.tick.signals) {i : Nat}
    (hslot : signal.slot? = some i) : i < s.motors.size := by
  obtain ⟨b, hwake, hawake | hadvance | hfinish⟩ := mem_tick h
  · exact hwake.slot_lt_awake hawake hslot
  · rw [← hwake.motors_awake]
    exact slot_lt_advance hadvance hslot
  · rw [← hwake.motors_moved]
    exact slot_lt_finish hfinish hslot

end Session

namespace Machine

/-- **A machine addresses only slots that have a motor.** -/
theorem slot_lt_call {m : Machine n} {ask : Call n} {signal : Signal}
    (h : signal ∈ (m.call ask).signals) {i : Nat} (hslot : signal.slot? = some i) :
    i < (m.call ask).state.controller.motors.size := by
  cases effect_cases m ask with
  | ticked s hm hask =>
    subst hm hask
    show i < s.tick.state.motors.size
    rw [s.motors_tick]
    exact Session.slot_lt_tick h hslot
  -- slots without a motor are filtered out before they are released
  | expired s hm hask =>
    subst hm hask
    obtain ⟨slot, hmem, rfl⟩ := List.mem_map.mp h
    cases hslot
    exact of_decide_eq_true (List.mem_filter.mp hmem).2
  | reported s hm hask =>
    subst hm hask
    obtain ⟨_, rfl⟩ := Session.eq_report_of_report h
    cases hslot
  | other _ _ _ htiming _ _ _ =>
    rw [Signal.slot?_of_isTiming (htiming signal h)] at hslot
    cases hslot

/-- **Slots keep their motors**, and more of them get one. -/
theorem motors_call (m : Machine n) (ask : Call n) :
    m.controller.motors.motors <+: (m.call ask).state.controller.motors.motors := by
  cases m with
  | setup c =>
    cases setup_cases c ask with
    | started _ hstate _ => rw [hstate]; exact List.prefix_refl _
    | kept c' hstate hupkeep _ => rw [hstate]; exact hupkeep.motors
  | running s =>
    have hsame {s' : Session n} (hmotors : s'.motors = s.motors) :
        s.motors.motors <+: s'.motors.motors :=
      hmotors ▸ List.prefix_refl _
    cases session_cases s ask with
    | taken b _ _ _ hcall => rw [hcall]; exact List.prefix_refl _
    | ticked _ hcall => rw [hcall]; exact hsame s.motors_tick
    | stopped _ hcall => rw [hcall]; exact List.prefix_refl _
    | aside s' _ _ hstate haside _ => rw [hstate]; exact hsame haside.motors

/-- Slots keep their motors throughout a run. -/
theorem motors_run (m : Machine n) (calls : List (Call n)) :
    m.controller.motors.motors <+: (m.run calls).1.controller.motors.motors := by
  induction calls generalizing m with
  | nil => exact List.prefix_refl _
  | cons ask rest ih => exact (m.motors_call ask).trans (ih _)

/-! ## A run on a bench -/

/-- The bench after calls in a row, and what was seen on it: the signals of every call go to the
motors that are wired when it is through. -/
def runOn (m : Machine n) (b : Bench) : List (Call n) → Bench × List Trace
  | [] => (b, [])
  | ask :: rest =>
    let o := m.call ask
    let (next, first) := b.receiveAll o.state.controller.motors o.signals
    let (last, others) := o.state.runOn next rest
    (last, first ++ others)

/-- **What a run writes to the pins of a motor** that is wired to one slot in the end: what the
motor makes of the signals for that slot. -/
theorem writes_runOn {m : Machine n} {calls : List (Call n)} {slot : Nat} {motor : MotorNumber}
    (h : (m.run calls).1.controller.motors.WiredTo slot motor) {b : Bench} {pins : StepDir}
    (hpins : b.pins? motor = some pins) :
    Trace.writes motor (m.runOn b calls).2 =
      (pins.obeyAll ((m.run calls).2.signals.filter (Signal.isFor slot))).2 := by
  -- induction on the calls; the motors at the end of the run have room for those of any moment
  -- before
  induction calls generalizing m b pins with
  | nil => rfl
  | cons ask rest ih =>
    -- a signal finds the motors of now, and these keep their slots until the end
    have hgrown := motors_run (m.call ask).state rest
    have haddressed (signal : Signal) (hmem : signal ∈ (m.call ask).signals) :
        signal.slot?.bind (m.call ask).state.controller.motors.motor? = some motor ↔
          signal.slot? = some slot :=
      Registry.WiredTo.addressed h hgrown fun _ hslot => slot_lt_call hmem hslot
    obtain ⟨hpins', hwrites⟩ := Bench.receiveAll_of_pins haddressed hpins
    have hsignals : (m.run (ask :: rest)).2.signals =
        (m.call ask).signals ++ ((m.call ask).state.run rest).2.signals := rfl
    rw [hsignals, List.filter_append, StepDir.obeyAll_append, ← ih h hpins', ← hwrites]
    exact Trace.writes_append _ _ _

end Machine

end PulseTrain
