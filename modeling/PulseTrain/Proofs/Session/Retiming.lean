import PulseTrain.Proofs.Session.Programming

/-!
# Two ways to change the tick rate

The setup looks at the whole timing again before it programs a rate; the planner looks at the rate
alone. In a session the clock and the pulse width have passed the check before, and nothing changes
them since, so that nothing is left for the setup to find but the rate. Both ways then end alike: in
the answer, in what the tick timer is told, and in the timing that they leave.

* **`Timing.check_rerated`**: the check of timing whose rate is changed is a test of the rate.
* **`Controller.TicksAlike`**: two controllers have the same timing, and their tick timers show the
  same count; **`TicksAlike.programTick`**: both program a rate alike.
* **`Machine.planner_retimes_as_setup`**: the two ways end alike in every session that is idle.
-/

namespace PulseTrain

variable {n m : Nat}

/-- **The rate is all there is to find** in timing that has passed with another rate. -/
theorem Timing.check_rerated {t : Timing} (h : t.check = .ok ()) (rate : Hertz) :
    { t with tickRate := rate }.check =
      if ¬ 0 < rate.value ∨ rate.countsPerCycle t.timerClock = 0 then .error (.tickRate rate.value)
      else .ok () := by
  obtain ⟨hclock, -, hwidth, hpulse⟩ := (Timing.check_eq_ok_iff t).mp h
  -- the width of the pulse does not depend on the rate, and has passed already
  have hpulse' : ¬ (¬ 0 < t.pulseWidth.value ∨ { t with tickRate := rate }.pulseCounts = 0) := by
    rw [not_or, not_not]
    exact ⟨hwidth, hpulse⟩
  rw [check, if_neg (not_not.mpr hclock)]
  apply if_congr Iff.rfl rfl
  exact if_neg hpulse'

namespace Controller

/-- The controllers have the same timing, and their tick timers show the same count. -/
structure TicksAlike (c : Controller n) (c' : Controller m) : Prop where
  timing : c.timing = c'.timing
  counter : c.tickTimer.counter = c'.tickTimer.counter

variable {c : Controller n} {c' : Controller m}

/-- **What is programmed depends on nothing else.** -/
theorem TicksAlike.programTick (h : c.TicksAlike c') {rate : Hertz}
    (hrate : ¬ (¬ 0 < rate.value ∨ rate.countsPerCycle c.timing.timerClock = 0)) :
    ∃ timer signals, c.programTick rate = .ok ({ c with tickTimer := timer }, signals) ∧
      c'.programTick rate = .ok ({ c' with tickTimer := timer }, signals) := by
  -- whether the timer is restarted depends on its counter alone
  have htimer (counts : TimerCounts) :
      c.tickTimer.setLimit counts = c'.tickTimer.setLimit counts := by
    rw [Timer.setLimit, Timer.setLimit, h.counter]
  unfold Controller.programTick
  rw [← h.timing, if_neg hrate, if_neg hrate]
  dsimp only
  rw [htimer]
  split <;> exact ⟨_, _, rfl, rfl⟩

end Controller

/-- The session while its tick timer shows a count. -/
def Session.atCount (s : Session n) (counter : TimerCounts) : Session n :=
  { s with toController := s.toController.setCounter .tick counter }

/-- Two changes of the tick rate that end alike: in their answers, in what the timers are told, and
in the timing that they leave. -/
structure EndAlike (planner : Outcome (Session n) (Except Fault Unit))
    (setup : Outcome (Controller m) (Except Fault Unit)) : Prop where
  answer : planner.answer = setup.answer
  signals : planner.signals = setup.signals
  state : planner.state.TicksAlike setup.state

/-- **An idle session changes the rate as its setup does**, if its timing has passed the check. -/
theorem Session.setTickRate_endAlike {s : Session n} {c : Controller m} (hidle : s.isIdle = true)
    (hpasses : s.timing.check = .ok ()) (halike : s.TicksAlike c) (rate : Hertz) :
    EndAlike (s.setTickRate rate) (c.setTickRate rate) := by
  have hcheck := Timing.check_rerated hpasses rate
  rw [setTickRate, hidle, if_neg (by decide)]
  -- the planner looks at the rate alone, the setup at the whole timing with it
  by_cases hrate : ¬ 0 < rate.value ∨ rate.countsPerCycle s.timing.timerClock = 0
  · rw [if_pos hrate, halike.timing] at hcheck
    rw [Controller.programTick_of_fails _ hrate, Controller.setTickRate_of_fails hcheck]
    exact ⟨rfl, rfl, halike⟩
  · rw [if_neg hrate] at hcheck
    obtain ⟨timer, signals, hplanner, hsetup⟩ := halike.programTick hrate
    have hset : c.setTickRate rate =
        ⟨{ c with timing.tickRate := rate, tickTimer := timer }, .ok (), signals⟩ := by
      rw [Controller.setTickRate, ← halike.timing, hcheck, hsetup]
      rfl
    rw [hplanner, hset]
    refine ⟨rfl, rfl, ?_, rfl⟩
    show { s.timing with tickRate := rate } = { c.timing with tickRate := rate }
    rw [halike.timing]

/-- The planner takes exactly the rates that pass the check, and what it finds is the rate. -/
theorem Session.setTickRate_answer {s : Session n} (hidle : s.isIdle = true)
    (hpasses : s.timing.check = .ok ()) (rate : Hertz) :
    ((s.setTickRate rate).answer = .ok () ↔ { s.timing with tickRate := rate }.check = .ok ()) ∧
      ∀ f, (s.setTickRate rate).answer = .error f → f = .settings (.tickRate rate.value) := by
  -- the setup to compare with is the one that the session itself runs on
  have halike : s.TicksAlike s.toController := ⟨rfl, rfl⟩
  rw [(setTickRate_endAlike hidle hpasses halike rate).answer]
  have hcheck := Timing.check_rerated hpasses rate
  cases hfound : { s.timing with tickRate := rate }.check with
  | error g =>
    rw [Controller.setTickRate_of_fails hfound]
    refine ⟨iff_of_false nofun nofun, ?_⟩
    rintro f ⟨⟩
    rw [hfound] at hcheck
    split at hcheck <;> cases hcheck
    rfl
  | ok _ =>
    obtain ⟨timer, signals, hset, -⟩ := Controller.setTickRate_of_passes hfound
    rw [hset]
    exact ⟨iff_of_true rfl rfl, nofun⟩

namespace Machine

/-- **The planner changes the rate as the setup does.** Take any session of a machine that has been
created, and let the planner see it idle. Whatever count the tick timer shows and whatever rate is
asked for, the planner answers as a setup with the same timing and the same count does, tells the
tick timer the same in the same order, and leaves the same timing. So it takes exactly the rates
with which the whole timing passes the check, and it refuses the others for the rate. -/
theorem planner_retimes_as_setup {c₀ : Controller n} {sent : List Signal} (hc : c₀.Created sent)
    {calls : List (Call n)} {s : Session n} {t : Transcript n}
    (hrun : (Machine.setup c₀).run calls = (.running s, t)) (hidle : s.isIdle = true)
    {c : Controller m} (htiming : c.timing = s.timing) (counter : TimerCounts) (rate : Hertz) :
    EndAlike ((s.atCount counter).setTickRate rate)
        ((c.setCounter .tick counter).setTickRate rate) ∧
      (((s.atCount counter).setTickRate rate).answer = .ok () ↔
        { s.timing with tickRate := rate }.check = .ok ()) ∧
      ∀ f, ((s.atCount counter).setTickRate rate).answer = .error f →
        f = .settings (.tickRate rate.value) := by
  -- the timing of a session has passed the check, since every change of it is checked
  have hpasses : s.timing.check = .ok () := by
    have hend := Follows.run (m := .setup c₀) hc.follows.1 calls
    rw [hrun] at hend
    exact hend.passes
  have halike : (s.atCount counter).TicksAlike (c.setCounter .tick counter) := ⟨htiming.symm, rfl⟩
  have hidle' : (s.atCount counter).isIdle = true := hidle
  exact ⟨Session.setTickRate_endAlike hidle' hpasses halike rate,
    Session.setTickRate_answer hidle' hpasses rate⟩

/-- A rate that the counter is past, and one that is no number. -/
theorem planner_retimes_as_setup_lateCounter :
    lateCounter.Created [.limit .tick 250, .restart .tick, .limit .pulse 25] ∧
      ∃ s t, (Machine.setup lateCounter).run [.start] = (.running s, t) ∧ s.isIdle = true ∧
        lateCounter.timing = s.timing ∧
        ((s.atCount 900).setTickRate ⟨50000⟩).signals = [.limit .tick 500, .restart .tick] ∧
        ((lateCounter.setCounter .tick 900).setTickRate ⟨0 / 0⟩).answer =
          .error (.settings (.tickRate (0 / 0))) := by
  have hrun : (Machine.setup lateCounter).run [.start] =
      (.running (Session.start lateCounter).state, _) := rfl
  have halike (rate : Hertz) := planner_retimes_as_setup created_lateCounter hrun rfl
    (c := lateCounter) rfl 900 rate
  refine ⟨created_lateCounter, _, _, hrun, rfl, rfl, ?_, ?_⟩
  · rw [(halike ⟨50000⟩).1.signals]
    decide +kernel
  · rw [← (halike ⟨0 / 0⟩).1.answer]
    decide +kernel

end Machine

end PulseTrain
