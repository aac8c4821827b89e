import PulseTrain.Proofs.Session.Effects
import PulseTrain.Proofs.Session.Run

/-!
# The timers follow the timing

The timing is set up at the creation and changed by three calls: the tick rate and the pulse width
between sessions, and the tick rate by the planner. Each of them programs the timer that it
concerns, or fails and changes nothing. The planner tests less than the setup does, but what it
leaves out has been tested before; so the timing passes its check at all times, and the timers have
the match values that it asks for.

* **`programTick_of_passes`**, **`programPulse_of_passes`**: rates and widths of timing that passes
  can be programmed; **`setTickRate_eq_error_iff`**, **`create_eq_error_iff`**: so nothing fails
  but the check.
* **`TimingCase`**, **`timing_cases`**: what a call does to the timing.
* **`Follows`**: the invariant; **`Follows.of_timingCase`**: every call keeps it.
* **`timers_follow_timing`**: the same for every run, from either kind of creation on.
-/

namespace PulseTrain

variable {n : Nat}

/-! ## Match values -/

/-- The match value that a signal gives a timer. -/
def Signal.limit? (timer : TimerName) : Signal → Option TimerCounts
  | .limit other counts => if other = timer then some counts else none
  | _ => none

/-- The match values that signals give a timer, in order. -/
def limits (timer : TimerName) (signals : List Signal) : List TimerCounts :=
  signals.filterMap (Signal.limit? timer)

/-- The match value that was written last. -/
def lastLimit (timer : TimerName) (signals : List Signal) : Option TimerCounts :=
  (limits timer signals).getLast?

theorem limits_append (timer : TimerName) (signals more : List Signal) :
    limits timer (signals ++ more) = limits timer signals ++ limits timer more :=
  List.filterMap_append

/-- What does not program a timer leaves its last match value as it was. -/
theorem lastLimit_append_of_nil {timer : TimerName} {more : List Signal}
    (h : limits timer more = []) (signals : List Signal) :
    lastLimit timer (signals ++ more) = lastLimit timer signals := by
  rw [lastLimit, limits_append, h, List.append_nil, lastLimit]

/-- What programs it once has the last word. -/
theorem lastLimit_append_of_singleton {timer : TimerName} {more : List Signal}
    {counts : TimerCounts} (h : limits timer more = [counts]) (signals : List Signal) :
    lastLimit timer (signals ++ more) = some counts := by
  rw [lastLimit, limits_append, h, List.getLast?_concat]

theorem limits_eq_nil {timer : TimerName} {signals : List Signal}
    (h : ∀ signal ∈ signals, signal.limit? timer = none) : limits timer signals = [] :=
  List.filterMap_eq_nil_iff.mpr h

theorem mem_limits {timer : TimerName} {signals : List Signal} {counts : TimerCounts}
    (h : .limit timer counts ∈ signals) : counts ∈ limits timer signals :=
  List.mem_filterMap.mpr ⟨_, h, if_pos rfl⟩

namespace Controller

/-! ## Programming -/

/-- A rate of at least one count is programmed. The counter is not past the match value then. -/
theorem programTick_of_passes (c : Controller n) {rate : Hertz} (hpos : 0 < rate.value)
    (hcounts : rate.countsPerCycle c.timing.timerClock ≠ 0) :
    ∃ timer signals, c.programTick rate = .ok ({ c with tickTimer := timer }, signals) ∧
      timer.limit = rate.countsPerCycle c.timing.timerClock ∧ timer.counter ≤ timer.limit ∧
      limits .tick signals = [rate.countsPerCycle c.timing.timerClock] ∧
      limits .pulse signals = [] := by
  have htest : ¬ (¬ 0 < rate.value ∨ rate.countsPerCycle c.timing.timerClock = 0) := by
    rw [not_or, not_not]
    exact ⟨hpos, hcounts⟩
  rw [programTick, if_neg htest]
  dsimp only
  -- a counter that is past the match value is set back to zero, so both cases leave it at that or
  -- below
  split
  · exact ⟨_, _, rfl, rfl, UInt32.zero_le, rfl, rfl⟩
  · rename_i hpast
    exact ⟨_, _, rfl, rfl, UInt32.not_lt.mp hpast, rfl, rfl⟩

/-- A rate that is not above zero, or spans no count, is not programmed. -/
theorem programTick_of_fails (c : Controller n) {rate : Hertz}
    (h : ¬ 0 < rate.value ∨ rate.countsPerCycle c.timing.timerClock = 0) :
    c.programTick rate = .error (.tickRate rate.value) := by
  rw [programTick, if_pos h]

/-- A width of at least one count is programmed. The pulse timer counts on. -/
theorem programPulse_of_passes (c : Controller n) {width : Microseconds} (hpos : 0 < width.value)
    (hcounts : width.counts c.timing.timerClock ≠ 0) :
    ∃ signals, c.programPulse width = .ok ({ c with
        pulseTimer.limit := width.counts c.timing.timerClock }, signals) ∧
      limits .tick signals = [] ∧ limits .pulse signals = [width.counts c.timing.timerClock] := by
  have htest : ¬ (¬ 0 < width.value ∨ width.counts c.timing.timerClock = 0) := by
    rw [not_or, not_not]
    exact ⟨hpos, hcounts⟩
  rw [programPulse, if_neg htest]
  exact ⟨_, rfl, rfl, rfl⟩

/-- What an attempt that fails leaves behind. -/
theorem attempt_of_error {α : Type} {c : Controller n}
    {result : Except Fault (Controller n × List Signal)} {answer : α} {f : Fault}
    (h : (c.attempt result answer).answer = .error f) :
    c.attempt result answer = ⟨c, .error f, []⟩ := by
  cases result with
  | error g =>
    cases h
    rfl
  | ok made => cases h

/-! ## Changing the timing -/

/-- Timing that does not pass its check is not taken. -/
theorem setTickRate_of_fails {c : Controller n} {rate : Hertz} {f : SettingsFault}
    (h : { c.timing with tickRate := rate }.check = .error f) :
    c.setTickRate rate = ⟨c, .error (.settings f), []⟩ := by
  unfold setTickRate
  dsimp only
  rw [h]
  rfl

/-- **A rate that passes is taken and programmed**, and nothing else changes. -/
theorem setTickRate_of_passes {c : Controller n} {rate : Hertz}
    (h : { c.timing with tickRate := rate }.check = .ok ()) :
    ∃ timer signals, c.setTickRate rate =
        ⟨{ c with timing.tickRate := rate, tickTimer := timer }, .ok (), signals⟩ ∧
      timer.limit = rate.countsPerCycle c.timing.timerClock ∧ timer.counter ≤ timer.limit ∧
      limits .tick signals = [rate.countsPerCycle c.timing.timerClock] ∧
      limits .pulse signals = [] := by
  obtain ⟨-, ⟨hpos, hcounts⟩, -⟩ := (Timing.check_eq_ok_iff _).mp h
  obtain ⟨timer, signals, hprogram, hall⟩ := c.programTick_of_passes hpos hcounts
  refine ⟨timer, signals, ?_, hall⟩
  unfold setTickRate
  dsimp only
  rw [h, hprogram]
  rfl

/-- A width that does not pass is not taken either. -/
theorem setPulseWidth_of_fails {c : Controller n} {width : Microseconds} {f : SettingsFault}
    (h : { c.timing with pulseWidth := width }.check = .error f) :
    c.setPulseWidth width = ⟨c, .error (.settings f), []⟩ := by
  unfold setPulseWidth
  dsimp only
  rw [h]
  rfl

/-- **A width that passes is taken and programmed**, and the tick timer is left alone. -/
theorem setPulseWidth_of_passes {c : Controller n} {width : Microseconds}
    (h : { c.timing with pulseWidth := width }.check = .ok ()) :
    ∃ signals, c.setPulseWidth width =
        ⟨{ c with timing.pulseWidth := width,
                  pulseTimer.limit := width.counts c.timing.timerClock }, .ok (), signals⟩ ∧
      limits .tick signals = [] ∧ limits .pulse signals = [width.counts c.timing.timerClock] := by
  obtain ⟨-, -, hpos, hcounts⟩ := (Timing.check_eq_ok_iff _).mp h
  obtain ⟨signals, hprogram, hall⟩ := c.programPulse_of_passes hpos hcounts
  refine ⟨signals, ?_, hall⟩
  unfold setPulseWidth
  dsimp only
  rw [h, hprogram]
  rfl

/-- To set the rate keeps the motors, whether or not it passes. -/
theorem motors_setTickRate (c : Controller n) (rate : Hertz) :
    (c.setTickRate rate).state.motors = c.motors := by
  cases hcheck : { c.timing with tickRate := rate }.check with
  | error f => rw [setTickRate_of_fails hcheck]
  | ok _ =>
    obtain ⟨_, _, hset, -⟩ := setTickRate_of_passes hcheck
    rw [hset]

theorem motors_setPulseWidth (c : Controller n) (width : Microseconds) :
    (c.setPulseWidth width).state.motors = c.motors := by
  cases hcheck : { c.timing with pulseWidth := width }.check with
  | error f => rw [setPulseWidth_of_fails hcheck]
  | ok _ =>
    obtain ⟨_, hset, -⟩ := setPulseWidth_of_passes hcheck
    rw [hset]

/-- A rate is refused exactly where the check refuses it, with the fault of the check: to program
what has passed cannot fail. -/
theorem setTickRate_eq_error_iff (c : Controller n) (rate : Hertz) (f : Fault) :
    (c.setTickRate rate).answer = .error f ↔
      ∃ g, f = .settings g ∧ { c.timing with tickRate := rate }.check = .error g := by
  cases hcheck : { c.timing with tickRate := rate }.check with
  | error g =>
    rw [setTickRate_of_fails hcheck]
    constructor
    · rintro ⟨⟩
      exact ⟨g, rfl, rfl⟩
    · rintro ⟨_, rfl, ⟨⟩⟩
      rfl
  -- what passes the check has a count to be programmed
  | ok _ =>
    obtain ⟨timer, signals, hset, -⟩ := setTickRate_of_passes hcheck
    rw [hset]
    exact ⟨nofun, nofun⟩

/-- A width is refused by the check of the timing that has it, too. -/
theorem setPulseWidth_eq_error_iff (c : Controller n) (width : Microseconds) (f : Fault) :
    (c.setPulseWidth width).answer = .error f ↔
      ∃ g, f = .settings g ∧ { c.timing with pulseWidth := width }.check = .error g := by
  cases hcheck : { c.timing with pulseWidth := width }.check with
  | error g =>
    rw [setPulseWidth_of_fails hcheck]
    constructor
    · rintro ⟨⟩
      exact ⟨g, rfl, rfl⟩
    · rintro ⟨_, rfl, ⟨⟩⟩
      rfl
  | ok _ =>
    obtain ⟨signals, hset, -⟩ := setPulseWidth_of_passes hcheck
    rw [hset]
    exact ⟨nofun, nofun⟩

/-! ## Creation -/

/-- The timing passes its check, and the timers have the match values that it asks for. They were
written last, among all signals so far, and are at least one. -/
structure Follows (c : Controller n) (signals : List Signal) : Prop where
  passes : c.timing.check = .ok ()
  tick_limit : c.tickTimer.limit = c.timing.tickCounts
  tick_written : lastLimit .tick signals = some c.timing.tickCounts
  pulse_limit : c.pulseTimer.limit = c.timing.pulseCounts
  pulse_written : lastLimit .pulse signals = some c.timing.pulseCounts

/-- Timers that follow their timing count up to one at least. -/
theorem Follows.one_le {c : Controller n} {signals : List Signal} (h : c.Follows signals) :
    1 ≤ c.tickTimer.limit ∧ 1 ≤ c.pulseTimer.limit := by
  obtain ⟨-, ⟨-, htick⟩, -, hpulse⟩ := (Timing.check_eq_ok_iff _).mp h.passes
  have hone {x : UInt32} (hx : x ≠ 0) : 1 ≤ x := by
    have hpos : x.toNat ≠ 0 := fun h0 => hx (UInt32.toNat_inj.mp h0)
    exact UInt32.le_iff_toNat_le.mpr (Nat.one_le_iff_ne_zero.mpr hpos)
  rw [h.tick_limit, h.pulse_limit]
  exact ⟨hone htick, hone hpulse⟩

/-- Nothing is programmed before the check has passed. -/
theorem create_of_fails {timing : Timing} {f : SettingsFault} (h : timing.check = .error f)
    (tickCounter pulseCounter : TimerCounts) :
    create (n := n) timing tickCounter pulseCounter = (.error f, []) := by
  unfold create
  dsimp only
  rw [h]

/-- **Timing that passes its check can be programmed**, whatever the counters show. -/
theorem create_of_passes {timing : Timing} (h : timing.check = .ok ())
    (tickCounter pulseCounter : TimerCounts) :
    ∃ (c : Controller n) (signals : List Signal),
      create timing tickCounter pulseCounter = (.ok c, signals) ∧ c.Follows signals ∧
        c.tickTimer.counter ≤ c.tickTimer.limit := by
  obtain ⟨-, ⟨hrate, hticks⟩, hwidth, hpulses⟩ := (Timing.check_eq_ok_iff _).mp h
  -- first the tick timer and then the pulse timer, each with the timing that has passed
  let blank : Controller n :=
    { timing, tickTimer.counter := tickCounter, pulseTimer.counter := pulseCounter }
  obtain ⟨timer, ticked, hprogram, hlimit, hcounter, htick, hnone⟩ :=
    blank.programTick_of_passes hrate hticks
  let half : Controller n := { blank with tickTimer := timer }
  obtain ⟨pulsed, hprogram', hnone', hpulse⟩ := half.programPulse_of_passes hwidth hpulses
  refine ⟨{ half with pulseTimer.limit := timing.pulseCounts }, ticked ++ pulsed, ?_, ?_, hcounter⟩
  · unfold create
    dsimp only
    rw [h]
    dsimp only
    rw [hprogram]
    dsimp only
    rw [hprogram']
    rfl
  · constructor
    case passes => exact h
    case tick_limit => exact hlimit
    -- the match value of the tick timer is written before that of the pulse timer
    case tick_written =>
      rw [lastLimit_append_of_nil hnone']
      exact lastLimit_append_of_singleton htick []
    case pulse_limit => rfl
    case pulse_written => exact lastLimit_append_of_singleton hpulse ticked

/-- A creation fails exactly when the check does, and then it has programmed nothing. -/
theorem create_eq_error_iff (timing : Timing) (tickCounter pulseCounter : TimerCounts)
    (f : SettingsFault) (signals : List Signal) :
    create (n := n) timing tickCounter pulseCounter = (.error f, signals) ↔
      timing.check = .error f ∧ signals = [] := by
  cases hcheck : timing.check with
  | error g =>
    rw [create_of_fails hcheck]
    constructor
    · rintro ⟨⟩
      exact ⟨rfl, rfl⟩
    · rintro ⟨⟨⟩, rfl⟩
      rfl
  | ok _ =>
    obtain ⟨c, made, hcreate, -⟩ := create_of_passes (n := n) hcheck tickCounter pulseCounter
    rw [hcreate]
    exact ⟨nofun, nofun⟩

/-- Settings that pass have timing that passes. -/
theorem passes_of_settings {settings : Settings} (h : settings.check = .ok ()) :
    settings.timing.check = .ok () := by
  unfold Settings.check at h
  cases htiming : settings.timing.check with
  | error f =>
    rw [htiming] at h
    cases h
  | ok _ => rfl

/-- Settings that do not pass program nothing. -/
theorem ofSettings_of_fails {settings : Settings} {f : SettingsFault}
    (h : settings.check = .error f) (tickCounter pulseCounter : TimerCounts) :
    ofSettings (n := n) settings tickCounter pulseCounter = (.error f, []) := by
  unfold ofSettings
  rw [h]

/-- Settings with more motors than there are slots program nothing. They are counted after the
check. -/
theorem ofSettings_of_crowded {settings : Settings} (h : settings.check = .ok ())
    (hmotors : n < settings.motors.length) (tickCounter pulseCounter : TimerCounts) :
    ofSettings (n := n) settings tickCounter pulseCounter =
      (.error (.tooManyMotors settings.motors.length n), []) := by
  unfold ofSettings
  rw [h]
  exact if_pos hmotors

/-- Otherwise the controller is that of the timing. -/
theorem ofSettings_of_fits {settings : Settings} (h : settings.check = .ok ())
    (hmotors : settings.motors.length ≤ n) (tickCounter pulseCounter : TimerCounts) :
    ofSettings (n := n) settings tickCounter pulseCounter =
      create settings.timing tickCounter pulseCounter := by
  unfold ofSettings
  rw [h]
  exact if_neg (Nat.not_lt.mpr hmotors)

/-- A creation from settings fails where their check does, or where they have too many motors. -/
theorem ofSettings_eq_error_iff (settings : Settings) (tickCounter pulseCounter : TimerCounts)
    (f : SettingsFault) (signals : List Signal) :
    ofSettings (n := n) settings tickCounter pulseCounter = (.error f, signals) ↔
      (settings.check = .error f ∨ settings.check = .ok () ∧ n < settings.motors.length ∧
        f = .tooManyMotors settings.motors.length n) ∧ signals = [] := by
  cases hcheck : settings.check with
  | error g =>
    rw [ofSettings_of_fails hcheck]
    constructor
    · rintro ⟨⟩
      exact ⟨.inl rfl, rfl⟩
    · rintro ⟨⟨⟨⟩⟩ | ⟨⟨⟩, -⟩, rfl⟩
      rfl
  | ok _ =>
    -- the settings pass, so what is left is whether their motors fit
    by_cases hmotors : settings.motors.length ≤ n
    · rw [ofSettings_of_fits hcheck hmotors, create_eq_error_iff, passes_of_settings hcheck]
      constructor
      · rintro ⟨⟨⟩, -⟩
      · rintro ⟨⟨⟨⟩⟩ | ⟨-, hcrowded, -⟩, -⟩
        exact absurd hmotors (Nat.not_le_of_lt hcrowded)
    · have hcrowded := Nat.lt_of_not_le hmotors
      rw [ofSettings_of_crowded hcheck hcrowded]
      constructor
      · rintro ⟨⟩
        exact ⟨.inr ⟨rfl, hcrowded, rfl⟩, rfl⟩
      · rintro ⟨⟨⟨⟩⟩ | ⟨-, -, rfl⟩, rfl⟩
        rfl

/-- How a controller comes about, with what was signalled on the way to it. -/
inductive Created : Controller n → List Signal → Prop where
  | fromTiming {timing : Timing} {tickCounter pulseCounter : TimerCounts} {c : Controller n}
      {signals : List Signal} (h : create timing tickCounter pulseCounter = (.ok c, signals)) :
      Created c signals
  | fromSettings {settings : Settings} {tickCounter pulseCounter : TimerCounts}
      {c : Controller n} {signals : List Signal}
      (h : ofSettings settings tickCounter pulseCounter = (.ok c, signals)) : Created c signals

/-- A controller that is created follows its timing from the first. -/
theorem follows_of_create {timing : Timing} {tickCounter pulseCounter : TimerCounts}
    {c : Controller n} {signals : List Signal}
    (h : create timing tickCounter pulseCounter = (.ok c, signals)) :
    c.Follows signals ∧ c.tickTimer.counter ≤ c.tickTimer.limit := by
  cases hcheck : timing.check with
  | error f =>
    rw [create_of_fails hcheck] at h
    cases h
  | ok _ =>
    obtain ⟨c', signals', hcreate, hall⟩ :=
      create_of_passes (n := n) hcheck tickCounter pulseCounter
    rw [hcreate] at h
    cases h
    exact hall

/-- In either way in which it may have been created. -/
theorem Created.follows {c : Controller n} {signals : List Signal} (h : Created c signals) :
    c.Follows signals ∧ c.tickTimer.counter ≤ c.tickTimer.limit := by
  cases h with
  | fromTiming h => exact follows_of_create h
  | @fromSettings settings tickCounter pulseCounter _ _ h =>
    cases hcheck : settings.check with
    | error f =>
      rw [ofSettings_of_fails hcheck] at h
      cases h
    | ok _ =>
      by_cases hmotors : settings.motors.length ≤ n
      · rw [ofSettings_of_fits hcheck hmotors] at h
        exact follows_of_create h
      · rw [ofSettings_of_crowded hcheck (Nat.lt_of_not_le hmotors)] at h
        cases h

end Controller

/-! ## What a call does to the timing -/

/-- What a tick sends programs no timer. -/
theorem Signal.limit?_of_byTick {signal : Signal} (h : signal.byTick = true) (timer : TimerName) :
    signal.limit? timer = none := by
  cases signal with
  | limit _ _ => cases h
  | restart _ | enable _ | pend | step _ | unstep _ | direction _ _ | report _ => rfl

namespace Session

/-- What a tick leaves alone of the timing and the timers. -/
structure SameLimits (s s' : Session n) : Prop where
  timing : s'.timing = s.timing
  tick : s'.tickTimer = s.tickTimer
  pulse : s'.pulseTimer.limit = s.pulseTimer.limit

/-- To pick up a block and to move its axes leaves timing and match values alone: the pulse timer is
restarted, not programmed. -/
theorem WakeCase.sameLimits_moved {s : Session n} {b : Block n} (h : WakeCase s b) :
    s.SameLimits s.moved := by
  -- the axes are moved after the block is picked up, and neither writes the timing
  have hadvance (s : Session n) : s.SameLimits s.advance.1 := by
    rw [advance_fst]
    refine ⟨rfl, rfl, ?_⟩
    dsimp only
    split <;> rfl
  obtain ⟨htiming, htick, hpulse⟩ := hadvance s.awake.1
  cases h with
  | already _ hawake =>
    rw [hawake] at htiming htick hpulse
    exact ⟨by rw [moved, hawake]; exact htiming, by rw [moved, hawake]; exact htick,
      by rw [moved, hawake]; exact hpulse⟩
  | pickedUp _ _ hawake =>
    rw [hawake] at htiming htick hpulse
    exact ⟨by rw [moved, hawake]; exact htiming, by rw [moved, hawake]; exact htick,
      by rw [moved, hawake]; exact hpulse⟩

theorem sameLimits_finish (s : Session n) : s.SameLimits s.finish.1 := by
  cases handover_cases s with
  | rests _ hfinish => rw [hfinish]; exact ⟨rfl, rfl, rfl⟩
  | handsOver b _ hfinish => rw [hfinish]; exact ⟨rfl, rfl, rfl⟩

/-- **A tick does not touch the timing.** -/
theorem sameLimits_tick (s : Session n) : s.SameLimits s.tick.state := by
  cases tick_cases s with
  | idle _ _ htick => rw [htick]; exact ⟨rfl, rfl, rfl⟩
  | runs b hwake _ htick => rw [htick]; exact hwake.sameLimits_moved
  | ends b hwake _ htick =>
    have hmoved := hwake.sameLimits_moved
    have hfinish := s.moved.sameLimits_finish
    rw [htick]
    exact ⟨hfinish.timing.trans hmoved.timing, hfinish.tick.trans hmoved.tick,
      hfinish.pulse.trans hmoved.pulse⟩

/-- A rate that the planner refuses leaves the session as it was. -/
theorem setTickRate_of_error {s : Session n} {rate : Hertz} {f : Fault}
    (h : (s.setTickRate rate).answer = .error f) : s.setTickRate rate = ⟨s, .error f, []⟩ := by
  unfold setTickRate at h ⊢
  split
  · rename_i hbusy
    rw [if_pos hbusy] at h
    cases h
    rfl
  · rename_i hidle
    rw [if_neg hidle] at h
    split at h
    · cases h
      rfl
    · cases h

end Session

namespace Machine

/-- What a call does to the timing: it changes the tick rate or the pulse width and programs the
timer for it, or it leaves the timing and the match values alone. -/
inductive TimingCase (c c' : Controller n) (signals : List Signal) : Prop where
  | rated (rate : Hertz) (htiming : c'.timing = { c.timing with tickRate := rate })
      (hpos : 0 < rate.value) (hcounts : rate.countsPerCycle c.timing.timerClock ≠ 0)
      (hlimit : c'.tickTimer.limit = rate.countsPerCycle c.timing.timerClock)
      (hcounter : c'.tickTimer.counter ≤ c'.tickTimer.limit)
      (hpulse : c'.pulseTimer.limit = c.pulseTimer.limit)
      (htick : limits .tick signals = [rate.countsPerCycle c.timing.timerClock])
      (hnone : limits .pulse signals = [])
  | widened (width : Microseconds) (htiming : c'.timing = { c.timing with pulseWidth := width })
      (hpos : 0 < width.value) (hcounts : width.counts c.timing.timerClock ≠ 0)
      (htick : c'.tickTimer.limit = c.tickTimer.limit)
      (hlimit : c'.pulseTimer.limit = width.counts c.timing.timerClock)
      (hnone : limits .tick signals = [])
      (hpulse : limits .pulse signals = [width.counts c.timing.timerClock])
  | kept (htiming : c'.timing = c.timing) (htick : c'.tickTimer.limit = c.tickTimer.limit)
      (hpulse : c'.pulseTimer.limit = c.pulseTimer.limit)
      (hnone : ∀ timer, limits timer signals = [])

theorem TimingCase.refl (c : Controller n) : TimingCase c c [] :=
  .kept rfl rfl rfl fun _ => rfl

/-- A registration has nothing to do with the timing. -/
theorem timingCase_enroll (c : Controller n) (made : Except RegistryFault (Registry MotorNumber n))
    (taken : Nat) :
    let result := (made.mapError Fault.registry).map fun motors =>
      ({ c with motors }, ([] : List Signal))
    TimingCase c (c.attempt result taken).state (c.attempt result taken).signals := by
  cases made with
  | error f => exact .refl c
  | ok motors => exact .kept rfl rfl rfl fun _ => rfl

/-- Before a session, a rate that passes is set. -/
theorem timingCase_setTickRate (c : Controller n) (rate : Hertz) :
    TimingCase c (c.setTickRate rate).state (c.setTickRate rate).signals := by
  cases hcheck : { c.timing with tickRate := rate }.check with
  | error f =>
    rw [Controller.setTickRate_of_fails hcheck]
    exact .refl c
  | ok _ =>
    obtain ⟨-, ⟨hpos, hcounts⟩, -⟩ := (Timing.check_eq_ok_iff _).mp hcheck
    obtain ⟨timer, signals, hset, hlimit, hcounter, htick, hnone⟩ :=
      Controller.setTickRate_of_passes hcheck
    rw [hset]
    exact .rated rate rfl hpos hcounts hlimit hcounter rfl htick hnone

/-- Before a session, a width that passes is set. -/
theorem timingCase_setPulseWidth (c : Controller n) (width : Microseconds) :
    TimingCase c (c.setPulseWidth width).state (c.setPulseWidth width).signals := by
  cases hcheck : { c.timing with pulseWidth := width }.check with
  | error f =>
    rw [Controller.setPulseWidth_of_fails hcheck]
    exact .refl c
  | ok _ =>
    obtain ⟨-, -, hpos, hcounts⟩ := (Timing.check_eq_ok_iff _).mp hcheck
    obtain ⟨signals, hset, hnone, hpulse⟩ := Controller.setPulseWidth_of_passes hcheck
    rw [hset]
    exact .widened width rfl hpos hcounts rfl rfl hnone hpulse

theorem timingCase_setCounter (c : Controller n) (timer : TimerName) (counts : TimerCounts) :
    TimingCase c (c.setCounter timer counts) [] := by
  cases timer <;> exact .kept rfl rfl rfl fun _ => rfl

/-- The planner programs a rate without a look at the clock and the width. -/
theorem timingCase_planner (s : Session n) (rate : Hertz) :
    TimingCase s.toController (s.setTickRate rate).state.toController
      (s.setTickRate rate).signals := by
  unfold Session.setTickRate
  split
  · exact .refl _
  · -- the planner asks for no more than what can be programmed
    by_cases hfails : ¬ 0 < rate.value ∨ rate.countsPerCycle s.timing.timerClock = 0
    · rw [Controller.programTick_of_fails _ hfails]
      exact .refl _
    · rw [not_or, not_not] at hfails
      obtain ⟨hpos, hcounts⟩ := hfails
      obtain ⟨timer, signals, hprogram, hlimit, hcounter, htick, hnone⟩ :=
        s.toController.programTick_of_passes hpos hcounts
      rw [hprogram]
      exact .rated rate rfl hpos hcounts hlimit hcounter rfl htick hnone

/-- A tick keeps the timing and programs nothing. -/
theorem timingCase_tick (s : Session n) :
    TimingCase s.toController s.tick.state.toController s.tick.signals := by
  obtain ⟨htiming, htick, hpulse⟩ := s.sameLimits_tick
  exact .kept htiming (congrArg Timer.limit htick) hpulse fun timer =>
    limits_eq_nil fun _ hmem => Signal.limit?_of_byTick (Session.byTick_tick hmem) timer

/-- A submission keeps the timing and programs nothing, taken or not. -/
theorem timingCase_submit (s : Session n) (b : Block n) :
    TimingCase s.toController (s.submit b).state.toController (s.submit b).signals := by
  unfold Session.submit
  split
  · exact .refl _
  · split
    · exact .refl _
    · exact .kept rfl rfl rfl fun _ => rfl

/-- **Every call on a session** is of one of the three kinds. -/
theorem timingCase_session (s : Session n) (ask : Call n) :
    TimingCase s.toController ((Machine.running s).call ask).state.controller
      ((Machine.running s).call ask).signals := by
  cases ask with
  | setTickRate rate => exact timingCase_planner s rate
  | setCounter timer counts => exact timingCase_setCounter s.toController timer counts
  | tick => exact timingCase_tick s
  | submit b => exact timingCase_submit s b
  | expire =>
    refine .kept rfl rfl rfl fun timer => limits_eq_nil fun _ hmem => ?_
    obtain ⟨_, rfl⟩ := Session.eq_unstep_of_expire hmem
    rfl
  | report =>
    refine .kept rfl rfl rfl fun timer => limits_eq_nil fun _ hmem => ?_
    obtain ⟨_, rfl⟩ := Session.eq_report_of_report hmem
    rfl
  | stop | register _ | registerNamed _ _ | setPulseWidth _ | listen _ | start => exact .refl _

/-- **Every call is of one of the three kinds.** -/
theorem timing_cases (m : Machine n) (ask : Call n) :
    TimingCase m.controller (m.call ask).state.controller (m.call ask).signals := by
  -- a call that its machine does not know keeps everything, like one that programs nothing
  cases m with
  | setup c =>
    cases ask with
    | register motor => exact timingCase_enroll c _ _
    | registerNamed name motor => exact timingCase_enroll c _ _
    | setTickRate rate => exact timingCase_setTickRate c rate
    | setPulseWidth width => exact timingCase_setPulseWidth c width
    | listen _ => exact .kept rfl rfl rfl fun _ => rfl
    | setCounter timer counts => exact timingCase_setCounter c timer counts
    | start =>
      refine .kept rfl rfl rfl fun timer => limits_eq_nil fun signal hmem => ?_
      rcases List.mem_pair.mp hmem with rfl | rfl <;> rfl
    | submit _ | tick | expire | report | stop => exact .refl c
  | running s => exact timingCase_session s ask

/-! ## The invariant -/

/-- **One call keeps the timers at the timing.** What it programs is what it sets, and the last
match value of the other timer still stands. -/
theorem Follows.of_timingCase {c c' : Controller n} {sent signals : List Signal}
    (h : c.Follows sent) (hcase : TimingCase c c' signals) : c'.Follows (sent ++ signals) := by
  obtain ⟨hclock, hrate, hwidth⟩ := (Timing.check_eq_ok_iff _).mp h.passes
  cases hcase with
  -- the clock and the width have passed before, and the rate has a count
  | rated rate htiming hpos hcounts hlimit _ hpulse htick hnone =>
    constructor
    case passes =>
      rw [htiming]
      exact (Timing.check_eq_ok_iff _).mpr ⟨hclock, ⟨hpos, hcounts⟩, hwidth⟩
    case tick_limit => rw [hlimit, htiming]; rfl
    case tick_written => rw [lastLimit_append_of_singleton htick, htiming]; rfl
    case pulse_limit => rw [hpulse, htiming]; exact h.pulse_limit
    case pulse_written =>
      rw [lastLimit_append_of_nil hnone, htiming]
      exact h.pulse_written
  | widened width htiming hpos hcounts htick hlimit hnone hpulse =>
    constructor
    case passes =>
      rw [htiming]
      exact (Timing.check_eq_ok_iff _).mpr ⟨hclock, hrate, hpos, hcounts⟩
    case tick_limit => rw [htick, htiming]; exact h.tick_limit
    case tick_written =>
      rw [lastLimit_append_of_nil hnone, htiming]
      exact h.tick_written
    case pulse_limit => rw [hlimit, htiming]; rfl
    case pulse_written => rw [lastLimit_append_of_singleton hpulse, htiming]; rfl
  | kept htiming htick hpulse hnone =>
    constructor
    case passes => rw [htiming]; exact h.passes
    case tick_limit => rw [htick, htiming]; exact h.tick_limit
    case tick_written =>
      rw [lastLimit_append_of_nil (hnone .tick), htiming]
      exact h.tick_written
    case pulse_limit => rw [hpulse, htiming]; exact h.pulse_limit
    case pulse_written =>
      rw [lastLimit_append_of_nil (hnone .pulse), htiming]
      exact h.pulse_written

/-- **Any calls keep them there.** -/
theorem Follows.run {m : Machine n} {sent : List Signal} (h : m.controller.Follows sent)
    (calls : List (Call n)) :
    (m.run calls).1.controller.Follows (sent ++ (m.run calls).2.signals) := by
  -- on the calls, with the signals of those before in front
  refine run_induction (m := m)
    (motive := fun m' t => m'.controller.Follows (sent ++ t.signals)) ?_ ?_ calls
  · rw [Transcript.signals, List.flatMap_nil, List.append_nil]
    exact h
  · intro m' t ask hfollows
    rw [Transcript.signals_concat, ← List.append_assoc]
    exact Follows.of_timingCase hfollows (timing_cases m' ask)

/-! ## Calls that program the tick timer, and calls that fail -/

/-- Only a rate programs the tick timer, and it leaves the counter at the match value or below. -/
theorem counter_le_of_limit {m : Machine n} {ask : Call n} {counts : TimerCounts}
    (h : .limit .tick counts ∈ (m.call ask).signals) :
    (m.call ask).state.controller.tickTimer.counter ≤
      (m.call ask).state.controller.tickTimer.limit := by
  have hmem := mem_limits h
  cases timing_cases m ask with
  | rated rate _ _ _ _ hcounter _ _ _ => exact hcounter
  | widened width _ _ _ _ _ hnone _ =>
    rw [hnone] at hmem
    cases hmem
  | kept _ _ _ hnone =>
    rw [hnone] at hmem
    cases hmem

theorem eq_error_of_ofUnit {x : Except Fault Unit} {f : Fault}
    (h : Answer.ofUnit (n := n) x = .failed f) : x = .error f := by
  cases x <;> cases h
  rfl

theorem eq_error_of_ofSlot {x : Except Fault Nat} {f : Fault}
    (h : Answer.ofSlot (n := n) x = .failed f) : x = .error f := by
  cases x <;> cases h
  rfl

/-- **A call that fails changes nothing**, and no timer hears of it. -/
theorem call_of_failed {m : Machine n} {ask : Call n} {f : Fault}
    (h : (m.call ask).answer = .failed f) : m.call ask = ⟨m, .failed f, []⟩ := by
  cases m with
  | setup c =>
    cases ask with
    | register motor =>
      have ho := Controller.attempt_of_error (eq_error_of_ofSlot h)
      show ofSetup .ofSlot (c.register motor) = _
      rw [Controller.register, ho]
      rfl
    | registerNamed name motor =>
      have ho := Controller.attempt_of_error (eq_error_of_ofSlot h)
      show ofSetup .ofSlot (c.registerNamed name motor) = _
      rw [Controller.registerNamed, ho]
      rfl
    | setTickRate rate =>
      have ho := Controller.attempt_of_error (eq_error_of_ofUnit h)
      show ofSetup .ofUnit (c.setTickRate rate) = _
      rw [Controller.setTickRate, ho]
      rfl
    | setPulseWidth width =>
      have ho := Controller.attempt_of_error (eq_error_of_ofUnit h)
      show ofSetup .ofUnit (c.setPulseWidth width) = _
      rw [Controller.setPulseWidth, ho]
      rfl
    | listen _ | setCounter _ _ | start | submit _ | tick | expire | report | stop => cases h
  | running s =>
    cases ask with
    | setTickRate rate =>
      show ofSession .ofUnit (s.setTickRate rate) = _
      rw [Session.setTickRate_of_error (eq_error_of_ofUnit h)]
      rfl
    -- a block that is refused comes back, which is another answer
    | submit b =>
      have hrefused : ∀ x : Except (Block n × Fault) Unit, Answer.ofSubmission x ≠ .failed f := by
        intro x hx
        cases x <;> cases hx
      exact absurd h (hrefused _)
    | tick | expire | report | stop | setCounter _ _ | register _ | registerNamed _ _
    | setPulseWidth _ | listen _ | start => cases h

/-- **The timers follow the timing.** At the end of any run from a creation on, the timing passes
its check, and each timer has the match value that it asks for, at least one, which was the last one
written. A call that programs the tick timer leaves its counter at most at the match value, and so
does the creation. A call that fails changes nothing and sends nothing. And nothing fails but the
checks: a creation does exactly when they do, and so do the two calls that change the timing between
sessions. -/
theorem timers_follow_timing {c : Controller n} {sent : List Signal} (hc : c.Created sent)
    {calls : List (Call n)} {m : Machine n} {t : Transcript n}
    (hrun : (Machine.setup c).run calls = (m, t)) :
    m.controller.Follows (sent ++ t.signals) ∧
      (1 ≤ m.controller.tickTimer.limit ∧ 1 ≤ m.controller.pulseTimer.limit) ∧
      c.tickTimer.counter ≤ c.tickTimer.limit ∧
      (∀ ask counts, .limit .tick counts ∈ (m.call ask).signals →
        (m.call ask).state.controller.tickTimer.counter ≤
          (m.call ask).state.controller.tickTimer.limit) ∧
      (∀ ask f, (m.call ask).answer = .failed f → m.call ask = ⟨m, .failed f, []⟩) ∧
      (∀ timing tickCounter pulseCounter f signals,
        Controller.create (n := n) timing tickCounter pulseCounter = (.error f, signals) ↔
          timing.check = .error f ∧ signals = []) ∧
      (∀ settings tickCounter pulseCounter f signals,
        Controller.ofSettings (n := n) settings tickCounter pulseCounter = (.error f, signals) ↔
          (settings.check = .error f ∨ settings.check = .ok () ∧ n < settings.motors.length ∧
            f = .tooManyMotors settings.motors.length n) ∧ signals = []) ∧
      (∀ (c : Controller n) rate f, (c.setTickRate rate).answer = .error f ↔
        ∃ g, f = .settings g ∧ { c.timing with tickRate := rate }.check = .error g) ∧
      (∀ (c : Controller n) width f, (c.setPulseWidth width).answer = .error f ↔
        ∃ g, f = .settings g ∧ { c.timing with pulseWidth := width }.check = .error g) := by
  -- the first part is the invariant of all calls, and the others are about single calls
  obtain ⟨hfollows, hcounter⟩ := hc.follows
  have hend := Follows.run (m := .setup c) hfollows calls
  rw [hrun] at hend
  exact ⟨hend, hend.one_le, hcounter, fun _ _ => counter_le_of_limit, fun _ _ => call_of_failed,
    Controller.create_eq_error_iff, Controller.ofSettings_eq_error_iff,
    Controller.setTickRate_eq_error_iff, Controller.setPulseWidth_eq_error_iff⟩

/-- A controller made while the counter of the tick timer was past its match value. -/
def lateCounter : Controller 1 := { tickTimer := ⟨250, 0⟩, pulseTimer := ⟨25, 7⟩ }

/-- The tick counter shows more than the match value, and is set back. -/
theorem created_lateCounter :
    lateCounter.Created [.limit .tick 250, .restart .tick, .limit .pulse 25]  :=
  .fromTiming (show Controller.create {} 4000 7 = (.ok lateCounter, _) from rfl)

/-- Changes of the timing before a session, in it and after it, one of each refused. -/
def retimed : List (Call 1) :=
  [.setPulseWidth ⟨2⟩, .setTickRate ⟨0⟩, .start, .setCounter .tick 900, .setTickRate ⟨50000⟩,
    .setTickRate ⟨0 / 0⟩, .stop, .setPulseWidth ⟨1 / 0⟩, .setPulseWidth ⟨0⟩]

set_option maxRecDepth 4000 in
/-- The width that is set after the session is carried over to the rate that was set in it. -/
theorem timers_follow_timing_retimed :
    lateCounter.Created [.limit .tick 250, .restart .tick, .limit .pulse 25] ∧
      ∃ m t, (Machine.setup lateCounter).run retimed = (m, t) ∧
        t.signals = [.limit .pulse 50, .enable .tick, .enable .pulse, .limit .tick 500,
          .restart .tick, .limit .pulse 4294967295] ∧
        m.controller.timing.tickCounts = 500 ∧ m.controller.tickTimer.limit = 500 ∧
        m.controller.timing.pulseCounts = 4294967295 ∧
        m.call (.setTickRate ⟨-1⟩) = ⟨m, .failed (.settings (.tickRate (-1))), []⟩ := by
  have hrun : (Machine.setup lateCounter).run retimed =
      (((Machine.setup lateCounter).run retimed).1, ((Machine.setup lateCounter).run retimed).2) :=
    rfl
  obtain ⟨hfollows, -, -, -, hfailed, -⟩ := timers_follow_timing created_lateCounter hrun
  have hcounts : ((Machine.setup lateCounter).run retimed).1.controller.timing.tickCounts = 500 ∧
      ((Machine.setup lateCounter).run retimed).1.controller.timing.pulseCounts = 4294967295 := by
    decide +kernel
  have hsignals : ((Machine.setup lateCounter).run retimed).2.signals =
      [.limit .pulse 50, .enable .tick, .enable .pulse, .limit .tick 500, .restart .tick,
        .limit .pulse 4294967295] := by
    decide +kernel
  exact ⟨created_lateCounter, _, _, hrun, hsignals, hcounts.1, hfollows.tick_limit.trans hcounts.1,
    hcounts.2, hfailed _ _ rfl⟩

end Machine

end PulseTrain
