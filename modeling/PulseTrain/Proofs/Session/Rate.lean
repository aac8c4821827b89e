import PulseTrain.Proofs.Session.Course
import PulseTrain.Proofs.Session.Delivery
import PulseTrain.Proofs.Session.Effects
import PulseTrain.Proofs.Session.Idle

/-!
# A block runs at the rate it was submitted under

The rate of a block is fixed when it is taken, though it is latched only when the block begins, on a
tick that may lie far behind. In between the engine looks busy to the planner at every moment: at
first because a block waits, and then because one executes. So the rate stays as it is.

* **`Place`**: where a block is that was taken and has not ended; **`Place.tick`**: a tick moves it
  on.
* **`Pledge`**: it is there with the tick rate that it was taken under; **`pledge_call`**: every
  call in a session keeps that, as long as the block has not ended.
* **`runs_at_submitted_rate`**: the same from its submission on, in every session.
-/

namespace PulseTrain

variable {n : Nat}

namespace Session

/-! ## Places -/

/-- Where a block is that was taken at a tick rate and has not ended, with the number of blocks that
end before it. -/
inductive Place (s : Session n) (b : Block n) (rate : Float32) : Nat → Prop where
  | behind (first : Block n) (hexec : s.executing = some first) (hbox : s.mailbox = some b) :
      Place s b rate 1
  | next (hexec : s.executing = none) (helapsed : s.elapsed = 0) (hbox : s.mailbox = some b) :
      Place s b rate 0
  | begun (ticks : Nat) (hstep : s.InStep ⟨b, rate, ticks⟩) (hbusy : s.busy = true) :
      Place s b rate 0

variable {s : Session n} {b : Block n} {rate : Float32} {ahead : Nat}

/-- Wherever the block is, the engine does not look idle. -/
theorem Place.isIdle (h : s.Place b rate ahead) : s.isIdle = false := by
  cases h with
  | behind _ _ hbox | next _ _ hbox => rw [Session.isIdle, isReady, hbox]; rfl
  | begun _ _ hbusy => rw [Session.isIdle, hbusy, Bool.not_true, Bool.and_false]

/-- What happens aside of the motion leaves the block where it is. -/
theorem Place.of_aside {s' : Session n} (h : s.Place b rate ahead) (haside : s.Aside s') :
    s'.Place b rate ahead := by
  cases h with
  | behind first hexec hbox =>
    exact .behind first (haside.executing.trans hexec) (haside.mailbox.trans hbox)
  | next hexec helapsed hbox =>
    exact .next (haside.executing.trans hexec) (haside.elapsed.trans helapsed)
      (haside.mailbox.trans hbox)
  | begun ticks hstep hbusy =>
    exact .begun ticks (hstep.of_aside haside) (haside.busy.trans hbusy)

/-- Another block is taken only if this one has begun. -/
theorem Place.taken (h : s.Place b rate ahead) (hbox : s.mailbox = none) (other : Block n) :
    Place { s with mailbox := some other } b rate ahead := by
  cases h with
  | behind _ _ hbox' | next _ _ hbox' => rw [hbox] at hbox'; cases hbox'
  | begun ticks hstep hbusy =>
    exact .begun ticks ⟨hstep.executing, hstep.rate, hstep.elapsed, hstep.profile, hstep.axes⟩ hbusy

/-- A block that is at the front is moved by the next tick, at its rate. -/
theorem Place.awake (h : s.Place b rate 0) (hrate : s.timing.tickRate.value = rate) :
    WakeCase s b ∧ ∃ ticks, s.awake.1.InStep ⟨b, rate, ticks⟩ := by
  subst hrate
  cases h with
  | next hexec helapsed hbox =>
    -- the rate in force is latched on this tick
    have hawake := awake_of_waiting hexec hbox
    refine ⟨.pickedUp hexec hbox hawake, 0, ?_⟩
    rw [hawake]
    exact inStep_pickUp helapsed b
  | begun ticks hstep _ =>
    have hawake := awake_of_executing hstep.executing
    refine ⟨.already hstep.executing hawake, ticks, ?_⟩
    rw [hawake]
    exact hstep

/-- The block at the front is marked as busy once it has moved. -/
theorem Place.busy_moved (h : s.Place b rate 0) (hwake : WakeCase s b) : s.moved.busy = true := by
  -- the mark is set already if the block has begun, and is set now if it begins
  have hbusy : s.busy = (s.isActive || s.busy) := by
    cases h with
    | next hexec _ _ => rw [isActive_of_none hexec, Bool.false_or]
    | begun _ _ hbusy => rw [hbusy, Bool.or_true]
  exact hwake.busy_moved hbusy

/-- The block that waits behind one that ends begins at the tick rate in force. -/
theorem place_finish (hrate : s.timing.tickRate.value = rate) (hbox : s.mailbox = some b) :
    s.finish.1.Place b rate 0 := by
  subst hrate
  cases handover_cases s with
  | rests hbox' _ => rw [hbox] at hbox'; cases hbox'
  | handsOver next hbox' hfinish =>
    obtain rfl : b = next := Option.some.inj (hbox.symm.trans hbox')
    have hbegun := inStep_pickUp (s := { s with elapsed := 0 }) rfl b
    rw [hfinish]
    exact .begun 0
      ⟨hbegun.executing, hbegun.rate, hbegun.elapsed, hbegun.profile, hbegun.axes⟩ rfl

/-- A tick that ends no block leaves the front one executing. -/
theorem Place.tick_front (h : s.Place b rate 0) (hs : s.Sound)
    (hrate : s.timing.tickRate.value = rate) (hanswer : s.tick.answer = none) :
    s.tick.state.Place b rate 0 := by
  obtain ⟨hwake, ticks, hstep⟩ := h.awake hrate
  cases hmoving : s.moved.isMoving with
  | true =>
    rw [hwake.tick_of_moving hmoving]
    exact .begun (ticks + 1) (hstep.advance (hs.awake hwake)) (h.busy_moved hwake)
  | false =>
    rw [hwake.tick_of_still hmoving] at hanswer
    cases hanswer

/-- A tick that ends the first of two blocks begins the one behind it. -/
theorem Place.tick_behind {first : Block n} (hexec : s.executing = some first)
    (hbox : s.mailbox = some b) (hrate : s.timing.tickRate.value = rate) :
    s.tick.answer = none ∧ s.tick.state.Place b rate 1 ∨
      s.tick.answer = some first ∧ s.tick.state.Place b rate 0 := by
  have hawake := awake_of_executing hexec
  have hwake : WakeCase s first := .already hexec hawake
  have hbox' : s.moved.mailbox = some b := by
    rw [moved, advance_fst, hawake]
    exact hbox
  cases hmoving : s.moved.isMoving with
  | true =>
    rw [hwake.tick_of_moving hmoving]
    exact .inl ⟨rfl, .behind first hwake.executing_moved hbox'⟩
  | false =>
    rw [hwake.tick_of_still hmoving]
    refine .inr ⟨rfl, place_finish ?_ hbox'⟩
    rw [hwake.sameSetup_moved.timing]
    exact hrate

/-- **A tick moves a block on**, unless it is the one that the tick ends. -/
theorem Place.tick (h : s.Place b rate ahead) (hs : s.Sound)
    (hrate : s.timing.tickRate.value = rate) (hahead : s.tick.answer.toList.length ≤ ahead) :
    s.tick.state.Place b rate (ahead - s.tick.answer.toList.length) := by
  -- at the front, the block that a tick ends could only be this one
  have hfront (hfirst : s.Place b rate 0) (hnone : s.tick.answer.toList.length ≤ 0) :
      s.tick.state.Place b rate (0 - s.tick.answer.toList.length) := by
    rw [Nat.zero_sub]
    refine hfirst.tick_front hs hrate ?_
    cases hanswer : s.tick.answer with
    | none => rfl
    | some _ => rw [hanswer] at hnone; cases hnone
  cases h with
  | behind first hexec hbox =>
    obtain ⟨hanswer, hplace⟩ | ⟨hanswer, hplace⟩ := Place.tick_behind hexec hbox hrate
    · rw [hanswer]
      exact hplace
    · rw [hanswer]
      exact hplace
  | next hexec helapsed hbox => exact hfront (.next hexec helapsed hbox) hahead
  | begun ticks hstep hbusy => exact hfront (.begun ticks hstep hbusy) hahead

/-- A block that was taken under a tick rate has its place, and the rate is still in force. -/
structure Pledge (s : Session n) (b : Block n) (rate : Hertz) (ahead : Nat) : Prop where
  tickRate : s.timing.tickRate = rate
  place : s.Place b rate.value ahead

end Session

namespace Machine

/-! ## Calls in a session -/

/-- Unless the engine looks idle, no call in a session changes the timing. -/
theorem timing_call {s : Session n} (hidle : s.isIdle = false) (ask : Call n) :
    ((Machine.running s).call ask).state.controller.timing = s.timing := by
  cases ask with
  | tick => exact s.sameSetup_tick.timing
  | setTickRate rate =>
    show (s.setTickRate rate).state.timing = s.timing
    rw [Session.setTickRate_of_not_idle hidle]
  | submit b =>
    show (s.submit b).state.timing = s.timing
    unfold Session.submit
    split
    · rfl
    · split <;> rfl
  | setCounter timer counts => cases timer <;> rfl
  | expire | report | stop | register _ | registerNamed _ _ | setPulseWidth _ | listen _ | start =>
    rfl

/-- **Every call in a session keeps the pledge**, unless it ends the block. -/
theorem pledge_call {s s' : Session n} {b : Block n} {rate : Hertz} {ahead : Nat}
    (h : s.Pledge b rate ahead) (hs : s.Sound) {ask : Call n}
    (hstate : ((Machine.running s).call ask).state = .running s')
    (hahead : ((Machine.running s).exchange ask).finished?.toList.length ≤ ahead) :
    s'.Pledge b rate (ahead - ((Machine.running s).exchange ask).finished?.toList.length) := by
  have hrate : s'.timing.tickRate = rate := by
    -- wherever the block is, the engine does not look idle
    have htiming := timing_call h.place.isIdle ask
    rw [hstate] at htiming
    rw [show s'.timing = s.timing from htiming, h.tickRate]
  refine ⟨hrate, ?_⟩
  cases session_cases s ask with
  | taken other hask _ hbox hcall =>
    rw [exchange, hcall, hask]
    rw [hcall] at hstate
    cases hstate
    exact h.place.taken hbox other
  | ticked hask hcall =>
    rw [exchange, hcall] at hahead ⊢
    rw [hcall] at hstate
    cases hstate
    exact h.place.tick hs (congrArg Hertz.value h.tickRate) hahead
  | stopped _ hcall =>
    rw [hcall] at hstate
    cases hstate
  | aside s₁ _ _ hstate₁ haside hquiet =>
    rw [hstate₁] at hstate
    cases hstate
    rw [hquiet.finished]
    exact h.place.of_aside haside

/-- **A pledge is kept throughout a session**, until the block ends. -/
theorem pledge_run {s : Session n} {b : Block n} {rate : Hertz} {ahead : Nat}
    (h : s.Pledge b rate ahead) (hs : s.Sound) {calls : List (Call n)} (hcalls : .stop ∉ calls) :
    ∃ s' u, (Machine.running s).run calls = (.running s', u) ∧
      (u.finished.length ≤ ahead → s'.Pledge b rate (ahead - u.finished.length)) := by
  -- once the block has ended nothing is claimed, so the bound is part of the invariant
  have hkept : ∃ s' u, (Machine.running s).run calls = (.running s', u) ∧ s'.Sound ∧
      (u.finished.length ≤ ahead → s'.Pledge b rate (ahead - u.finished.length)) := by
    refine session_induction ⟨hs, fun _ => h⟩ ?_ hcalls
    intro s₁ u ask s₂ ⟨hsound, hpledge⟩ hstate _
    refine ⟨?_, ?_⟩
    · have hnext : ((Machine.running s₁).call ask).state.Sound :=
        Sound.call (m := .running s₁) hsound ask
      rwa [hstate] at hnext
    · rw [Transcript.finished_concat, List.length_append]
      intro hlength
      have hnext := pledge_call (hpledge (by omega)) hsound hstate (by omega)
      rwa [Nat.sub_sub] at hnext
  obtain ⟨s', u, hrun, -, hpledge⟩ := hkept
  exact ⟨s', u, hrun, hpledge⟩

/-- A block that has just been taken has its place behind the executing one. -/
theorem pledge_submit {s : Session n} {k : Option (Course n)} (h : s.Tracks k) (b : Block n) :
    Session.Pledge { s with mailbox := some b } b s.timing.tickRate
      s.executing.toList.length := by
  refine ⟨rfl, ?_⟩
  -- the block goes behind the executing one, or to the front if none executes
  cases h with
  | idle hexec helapsed =>
    have hlength : s.executing.toList.length = 0 := by rw [hexec]; rfl
    rw [hlength]
    exact .next hexec helapsed rfl
  | busy j hstep _ =>
    have hlength : s.executing.toList.length = 1 := by rw [hstep.executing]; rfl
    rw [hlength]
    exact .behind j.block hstep.executing rfl

/-- **A block runs at the tick rate it was submitted under.** Let a session be started on any
machine that can be reached, any calls but a stop be made in it, and then a block be taken. After
any more calls, as long as the block has not ended, the tick rate is what it was: asked for another
rate, the session answers that it is busy, and neither changes nor signals anything. Once the blocks
ahead have ended, the next tick moves this block, at that rate, and every slot is where it comes to
in that many ticks from its beginning at that rate. -/
theorem runs_at_submitted_rate {c : Controller n} (hc : Reachable (.setup c))
    {before : List (Call n)} (hbefore : .stop ∉ before) :
    ∃ s t, (Machine.setup c).run (.start :: before) = (.running s, t) ∧
      ∀ b, (s.submit b).answer = .ok () → ∀ between, .stop ∉ between →
        ∃ s' u, (Machine.running s).run (.submit b :: between) = (.running s', u) ∧
          (u.finished.length ≤ s.executing.toList.length →
            s'.timing.tickRate = s.timing.tickRate ∧
            (∀ rate, s'.setTickRate rate = ⟨s', .error (.engine .busy), []⟩) ∧
            (u.finished.length = s.executing.toList.length →
              ∃ ticks, s'.awake.1.InStep ⟨b, s.timing.tickRate.value, ticks⟩)) := by
  obtain ⟨s, t, hrun, -⟩ := run_start c hbefore
  have hsound : s.Sound := hc.sound_session hrun
  have htracks : s.Tracks ((Machine.setup c).course none (.start :: before)) := by
    have hlast := Tracks.run (m := .setup c) rfl hc.sound (.start :: before)
    rwa [hrun] at hlast
  refine ⟨s, t, hrun, ?_⟩
  intro b htaken between hbetween
  -- the block has been taken, and so it waits in the mailbox
  have hsubmit := (s.submit_spec b).taken htaken
  have hcall : (Machine.running s).call (.submit b) =
      ⟨.running { s with mailbox := some b }, .done, []⟩ := by
    show ofSession .ofSubmission (s.submit b) = _
    rw [hsubmit]
    rfl
  have hsound' : ((Machine.running s).call (.submit b)).state.Sound :=
    Sound.call (m := .running s) hsound (.submit b)
  rw [hcall] at hsound'
  obtain ⟨s', u, hrun', hpledge⟩ := pledge_run (pledge_submit htracks b) hsound' hbetween
  refine ⟨s', (Machine.running s).exchange (.submit b) :: u, ?_, ?_⟩
  · rw [run_cons_exchange, hcall, hrun']
  · have hfinished : Transcript.finished ((Machine.running s).exchange (.submit b) :: u) =
        u.finished := by
      rw [Transcript.finished_cons, exchange, hcall]
      rfl
    rw [hfinished]
    intro hlength
    have hkept := hpledge hlength
    refine ⟨hkept.tickRate, fun rate => Session.setTickRate_of_not_idle hkept.place.isIdle rate, ?_⟩
    -- once everything ahead has ended, the block is at the front
    intro hfront
    have hplace := hkept.place
    rw [hfront, Nat.sub_self] at hplace
    exact (hplace.awake (congrArg Hertz.value hkept.tickRate)).2

/-- Ticks from one block into the next, with another rate asked for on both sides. -/
def asking : List (Call 2) := [.setTickRate ⟨20000⟩, .tick, .setTickRate ⟨20000⟩, .tick]

/-- A block that is taken while another one executes, and that has begun. -/
theorem runs_at_submitted_rate_behind :
    Reachable (.setup oneMotor) ∧ .stop ∉ halfway ∧ .stop ∉ asking ∧
      ∃ s t s' u, (Machine.setup oneMotor).run (.start :: halfway) = (.running s, t) ∧
        (s.submit twoSteps).answer = .ok () ∧
        (Machine.running s).run (.submit twoSteps :: asking) = (.running s', u) ∧
        u.finished.length = s.executing.toList.length ∧
        (s'.setTickRate ⟨20000⟩).answer = .error (.engine .busy) ∧
        s'.awake.1.executing = some twoSteps ∧ s'.awake.1.rate = 100000 := by
  have hbefore : .stop ∉ halfway := by simp [halfway]
  have hbetween : .stop ∉ asking := by simp [asking]
  obtain ⟨s, t, hrun, hrates⟩ := runs_at_submitted_rate reachable_oneMotor hbefore
  have hwaiting : ((Machine.setup oneMotor).run (.start :: halfway)).1.executing = some twoSteps ∧
      ((Machine.setup oneMotor).run (.start :: halfway)).1.controller.mailbox = none ∧
      ((Machine.setup oneMotor).run (.start :: halfway)).1.controller.motors.size = 1 ∧
      ((Machine.setup oneMotor).run (.start :: halfway)).1.controller.timing.tickRate.value =
        100000 := by
    decide +kernel
  have hended : (((Machine.setup oneMotor).run (.start :: halfway)).1.run
      (.submit twoSteps :: asking)).2.finished.length = 1 := by decide +kernel
  rw [hrun] at hwaiting hended
  obtain ⟨hexec, hbox, hsize, hrate⟩ := hwaiting
  have hfits : twoSteps.Fits s.motors.size := by
    rw [show s.motors.size = 1 from hsize]
    exact (twoSteps.fault?_eq_none_iff 1).mp (by decide)
  have htaken : (s.submit twoSteps).answer = .ok () :=
    (s.submit_spec twoSteps).taken_iff.mpr ⟨hfits, hbox⟩
  obtain ⟨s', u, hrun', hkept⟩ := hrates twoSteps htaken asking hbetween
  rw [hrun'] at hended
  -- what has been finished in between is the block ahead, so this one is at the front
  have hlength : u.finished.length = s.executing.toList.length := by
    rw [show s.executing = some twoSteps from hexec]
    exact hended
  obtain ⟨-, hbusy, hfront⟩ := hkept (Nat.le_of_eq hlength)
  obtain ⟨ticks, hstep⟩ := hfront hlength
  refine ⟨reachable_oneMotor, hbefore, hbetween, s, t, s', u, hrun, htaken, hrun', hlength, ?_,
    hstep.executing, hstep.rate.trans hrate⟩
  rw [hbusy]

end Machine

end PulseTrain
