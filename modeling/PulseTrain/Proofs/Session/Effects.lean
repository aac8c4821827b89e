import PulseTrain.Bench
import PulseTrain.Proofs.Session.Calls
import PulseTrain.Proofs.Session.Turn

/-!
# What a call does to the outputs and the reports

A second inversion of `Machine.call`, for both phases at once. Only a tick, an expiry and a report
do something about the outputs that wait for release and the blocks that wait to be reported; all
other calls leave these alone and signal to timers.

* **`EffectCase`**, **`effect_cases`**: the four kinds of calls.
* **`byTick_tick`**, **`ask_eq_tick`**, **`isExpiry_of_unstep`**, **`ask_eq_report`**: which call
  sends which signals.
-/

namespace PulseTrain

variable {n : Nat}

/-- The signal is one of those that a tick sends. -/
def Signal.byTick : Signal → Bool
  | .step _ | .direction _ _ | .pend | .restart .pulse => true
  | _ => false

/-- The signal is for the motor in a slot. -/
def Signal.isFor (slot : Nat) (signal : Signal) : Bool := signal.slot? = some slot

@[simp] theorem Signal.isFor_iff {slot : Nat} {signal : Signal} :
    signal.isFor slot = true ↔ signal.slot? = some slot := decide_eq_true_iff

/-- Signals to timers are for no slot. -/
theorem Signal.slot?_of_isTiming {signal : Signal} (h : signal.isTiming = true) :
    signal.slot? = none := by
  unfold isTiming at h
  split at h
  · rfl
  · rfl
  · rfl
  · cases h

/-- What programs timers is sent by no tick. -/
theorem Signal.byTick_of_isTiming {signal : Signal} (h : signal.isTiming = true) :
    signal.byTick = false := by
  unfold isTiming at h
  split at h
  · rfl
  · rfl
  · rfl
  · cases h

namespace Exchange

/-- How many blocks the exchange has reported, if it is a report. -/
def reported? : Exchange n → Option Nat
  | ⟨.report, .reported count, _⟩ => some count
  | _ => none

/-- The exchange is the end of a countdown. -/
def isExpiry : Exchange n → Bool
  | ⟨.expire, .done, _⟩ => true
  | _ => false

end Exchange

/-! ## What is left alone -/

namespace Session

/-- What the calls of the planner leave alone: the motors, the outputs that wait for release, the
blocks that wait to be reported, and who is told of them. -/
structure Spares (s s' : Session n) : Prop where
  motors : s'.motors = s.motors
  flagged : s'.flagged = s.flagged
  backlog : s'.backlog = s.backlog
  listener : s'.listener = s.listener

theorem Spares.size_le {s s' : Session n} (h : s.Spares s') : s.motors.size ≤ s'.motors.size := by
  rw [h.motors]

/-- A submission reaches the mailbox and nothing else. -/
theorem spares_submit (s : Session n) (b : Block n) : s.Spares (s.submit b).state := by
  unfold submit
  split
  · exact ⟨rfl, rfl, rfl, rfl⟩
  · split <;> exact ⟨rfl, rfl, rfl, rfl⟩

/-- The planner sets the timing and the tick timer. -/
theorem spares_setTickRate (s : Session n) (rate : Hertz) :
    s.Spares (s.setTickRate rate).state := by
  unfold setTickRate
  split
  · exact ⟨rfl, rfl, rfl, rfl⟩
  · split
    · exact ⟨rfl, rfl, rfl, rfl⟩
    · rename_i hprogram
      -- only the timing and the tick timer are written
      rw [(Controller.programTick_eq_ok hprogram).1]
      exact ⟨rfl, rfl, rfl, rfl⟩

/-- To pick up a block empties the mailbox and leaves the rest alone. -/
theorem spares_pickUp (s : Session n) (b : Block n) : s.Spares (s.pickUp b).1 :=
  ⟨rfl, rfl, rfl, rfl⟩

/-- Waking empties the mailbox at most, and leaves the rest alone. -/
theorem WakeCase.spares_awake {s : Session n} {b : Block n} (h : WakeCase s b) :
    s.Spares s.awake.1 := by
  cases h with
  | already _ hawake => rw [hawake]; exact ⟨rfl, rfl, rfl, rfl⟩
  | pickedUp _ _ hawake => rw [hawake]; exact s.spares_pickUp b

/-- What no tick changes of the setup: the timing, and who is told. -/
structure SameSetup (s s' : Session n) : Prop where
  timing : s'.timing = s.timing
  listener : s'.listener = s.listener

/-- Waking and moving the axes leave the timing and the listener as they were. -/
theorem WakeCase.sameSetup_moved {s : Session n} {b : Block n} (h : WakeCase s b) :
    s.SameSetup s.moved := by
  cases h with
  | already _ hawake => rw [moved, advance_fst, hawake]; exact ⟨rfl, rfl⟩
  | pickedUp _ _ hawake => rw [moved, advance_fst, hawake]; exact ⟨rfl, rfl⟩

theorem sameSetup_finish (s : Session n) : s.SameSetup s.finish.1 := by
  cases handover_cases s with
  | rests _ hfinish => rw [hfinish]; exact ⟨rfl, rfl⟩
  | handsOver b _ hfinish => rw [hfinish]; exact ⟨rfl, rfl⟩

/-- **A tick keeps what the session was set up with.** -/
theorem sameSetup_tick (s : Session n) : s.SameSetup s.tick.state := by
  cases tick_cases s with
  | idle _ _ htick => rw [htick]; exact ⟨rfl, rfl⟩
  | runs b hwake _ htick => rw [htick]; exact hwake.sameSetup_moved
  | ends b hwake _ htick =>
    have hmoved := hwake.sameSetup_moved
    have hfinish := s.moved.sameSetup_finish
    rw [htick]
    exact ⟨hfinish.timing.trans hmoved.timing, hfinish.listener.trans hmoved.listener⟩

theorem signals_submit (s : Session n) (b : Block n) : (s.submit b).signals = [] := by
  unfold submit
  split
  · rfl
  · split <;> rfl

end Session

namespace Machine

/-! ## The four kinds of calls -/

/-- A call as the step outputs and the reports see it. -/
inductive EffectCase (m : Machine n) (ask : Call n) : Prop where
  | ticked (s : Session n) (hm : m = .running s) (hask : ask = .tick)
  | expired (s : Session n) (hm : m = .running s) (hask : ask = .expire)
  | reported (s : Session n) (hm : m = .running s) (hask : ask = .report)
  | other (hflagged : (m.call ask).state.controller.flagged = m.controller.flagged)
      (hbacklog : (m.call ask).state.controller.backlog = m.controller.backlog)
      (hsize : m.controller.motors.size ≤ (m.call ask).state.controller.motors.size)
      (htiming : ∀ signal ∈ (m.call ask).signals, signal.isTiming = true)
      (hexpiry : (m.exchange ask).isExpiry = false)
      (hreported : (m.exchange ask).reported? = none)
      (hfinished : (m.exchange ask).finished? = none)

/-- Between sessions nothing is sent to a motor or a listener. -/
theorem setup_timing (c : Controller n) (ask : Call n) :
    ∀ signal ∈ ((Machine.setup c).call ask).signals, signal.isTiming = true := by
  cases ask with
  | register motor => exact (c.upkeep_register motor).2
  | registerNamed name motor => exact (c.upkeep_registerNamed name motor).2
  | setTickRate rate => exact (c.upkeep_setTickRate rate).2
  | setPulseWidth width => exact (c.upkeep_setPulseWidth width).2
  | start => simp [call, ofSession, Session.start, Signal.isTiming]
  | listen _ | setCounter _ _ | submit _ | tick | expire | report | stop =>
    exact List.forall_mem_nil _

/-- Between sessions every call is of the fourth kind. -/
theorem effect_cases_setup (c : Controller n) (ask : Call n) : EffectCase (.setup c) ask := by
  have hexpiry : ((Machine.setup c).exchange ask).isExpiry = false := by cases ask <;> rfl
  have hreported : ((Machine.setup c).exchange ask).reported? = none := by cases ask <;> rfl
  -- neither a start nor upkeep touches what waits from the session before
  cases setup_cases c ask with
  | started _ hstate hquiet =>
    exact .other (by rw [hstate]; rfl) (by rw [hstate]; rfl) (by rw [hstate]; exact Nat.le_refl _)
      (setup_timing c ask) hexpiry hreported hquiet.finished
  | kept c' hstate hupkeep hquiet =>
    exact .other (by rw [hstate]; exact hupkeep.flagged) (by rw [hstate]; exact hupkeep.backlog)
      (by rw [hstate]; exact hupkeep.size_le) (setup_timing c ask) hexpiry hreported hquiet.finished

/-- The answers to other calls carry no finished block. -/
theorem finished?_ofSubmission (ask : Call n) (x : Except (Block n × Fault) Unit)
    (signals : List Signal) : Exchange.finished? ⟨ask, .ofSubmission x, signals⟩ = none := by
  rcases x with ⟨_, _⟩ | _ <;> rfl

theorem finished?_ofUnit (ask : Call n) (x : Except Fault Unit) (signals : List Signal) :
    Exchange.finished? ⟨ask, .ofUnit x, signals⟩ = none := by
  cases x <;> rfl

/-- In a session a tick, an expiry and a report are a kind of their own. -/
theorem effect_cases_session (s : Session n) (ask : Call n) : EffectCase (.running s) ask := by
  cases ask with
  | tick => exact .ticked s rfl rfl
  | expire => exact .expired s rfl rfl
  | report => exact .reported s rfl rfl
  -- a submission sends nothing, so what holds of its signals holds of none
  | submit b =>
    have hspares := s.spares_submit b
    have hsignals : ∀ signal ∈ (s.submit b).signals, signal.isTiming = true := by
      rw [s.signals_submit b]
      exact List.forall_mem_nil _
    exact .other hspares.flagged hspares.backlog hspares.size_le hsignals rfl rfl
      (finished?_ofSubmission _ _ _)
  | setTickRate rate =>
    have hspares := s.spares_setTickRate rate
    exact .other hspares.flagged hspares.backlog hspares.size_le
      (s.aside_setTickRate rate).2 rfl rfl (finished?_ofUnit _ _ _)
  | setCounter timer counts =>
    cases timer <;> exact .other rfl rfl (Nat.le_refl _) (List.forall_mem_nil _) rfl rfl rfl
  | register _ | registerNamed _ _ | setPulseWidth _ | listen _ | start | stop =>
    exact .other rfl rfl (Nat.le_refl _) (List.forall_mem_nil _) rfl rfl rfl

/-- **Every call is of one of the four kinds.** -/
theorem effect_cases (m : Machine n) (ask : Call n) : EffectCase m ask := by
  cases m with
  | setup c => exact effect_cases_setup c ask
  | running s => exact effect_cases_session s ask

end Machine

/-! ## Who sends which signals -/

namespace Session

/-- A block begins with directions. -/
theorem eq_direction_of_pickUp {s : Session n} {b : Block n} {signal : Signal}
    (h : signal ∈ (s.pickUp b).2) : ∃ slot d, signal = .direction slot d := by
  obtain ⟨slot, _, rfl⟩ := List.mem_map.mp h
  exact ⟨slot, b.direction slot, rfl⟩

/-- Waking may begin a block. -/
theorem eq_direction_of_awake {s : Session n} {signal : Signal} (h : signal ∈ s.awake.2) :
    ∃ slot d, signal = .direction slot d := by
  unfold awake at h
  split at h
  · cases h
  · cases hbox : s.mailbox with
    | none => rw [beginNext_of_empty hbox] at h; cases h
    | some b => rw [beginNext_of_waiting hbox] at h; exact eq_direction_of_pickUp h

/-- The axes send steps, and restart the pulse timer. -/
theorem eq_step_of_advance {s : Session n} {signal : Signal} (h : signal ∈ s.advance.2) :
    (∃ slot, signal = .step slot) ∨ signal = .restart .pulse := by
  rw [advance_snd, List.mem_append] at h
  rcases h with hstep | hrestart
  · obtain ⟨slot, _, rfl⟩ := List.mem_map.mp hstep
    exact .inl ⟨slot, rfl⟩
  · -- no restart without a step
    split at hrestart
    · cases hrestart
    · exact .inr (List.mem_singleton.mp hrestart)

/-- The end of a block pends the report, and may begin another block. -/
theorem eq_direction_of_finish {s : Session n} {signal : Signal} (h : signal ∈ s.finish.2) :
    (∃ slot d, signal = .direction slot d) ∨ signal = .pend := by
  -- at rest the report is all that is pended; otherwise the next block has begun as well
  cases handover_cases s with
  | rests _ hfinish =>
    rw [hfinish] at h
    exact .inr (List.mem_singleton.mp h)
  | handsOver b _ hfinish =>
    rw [hfinish, List.mem_append] at h
    rcases h with hdirection | hpend
    · exact .inl (eq_direction_of_pickUp hdirection)
    · exact .inr (List.mem_singleton.mp hpend)

/-- A signal of a tick is sent when a block begins on it, when the axes move, or at the end of the
block. -/
theorem mem_tick {s : Session n} {signal : Signal} (h : signal ∈ s.tick.signals) :
    ∃ b, WakeCase s b ∧
      (signal ∈ s.awake.2 ∨ signal ∈ s.awake.1.advance.2 ∨ signal ∈ s.moved.finish.2) := by
  cases tick_cases s with
  | idle _ _ htick => rw [htick] at h; cases h
  | runs b hwake _ htick =>
    rw [htick, List.mem_append] at h
    exact ⟨b, hwake, h.imp_right .inl⟩
  | ends b hwake _ htick =>
    rw [htick, List.mem_append, List.mem_append] at h
    exact ⟨b, hwake, h⟩

/-- **Whatever a tick sends is of its own kind.** -/
theorem byTick_tick {s : Session n} {signal : Signal} (h : signal ∈ s.tick.signals) :
    signal.byTick = true := by
  obtain ⟨b, -, hawake | hadvance | hfinish⟩ := mem_tick h
  · obtain ⟨_, _, rfl⟩ := eq_direction_of_awake hawake
    rfl
  · obtain ⟨_, rfl⟩ | rfl := eq_step_of_advance hadvance <;> rfl
  · obtain ⟨_, _, rfl⟩ | rfl := eq_direction_of_finish hfinish <;> rfl

/-- An expiry releases and does nothing else. -/
theorem eq_unstep_of_expire {s : Session n} {signal : Signal} (h : signal ∈ s.expire.signals) :
    ∃ slot, signal = .unstep slot := by
  obtain ⟨slot, _, rfl⟩ := List.mem_map.mp h
  exact ⟨slot, rfl⟩

/-- A report tells the listener and does nothing else. -/
theorem eq_report_of_report {s : Session n} {signal : Signal} (h : signal ∈ s.report.signals) :
    ∃ listener, signal = .report listener := by
  unfold report at h
  dsimp only at h
  split at h
  · exact ⟨_, List.eq_of_mem_replicate h⟩
  · cases h

end Session

namespace Machine

variable {m : Machine n} {ask : Call n}

/-- Only a tick sends its signals. -/
theorem ask_eq_tick {signal : Signal} (hmem : signal ∈ (m.call ask).signals)
    (hby : signal.byTick = true) : ask = .tick := by
  -- each kind of call has signals of its own
  cases effect_cases m ask with
  | ticked _ _ hask => exact hask
  | expired s hm hask =>
    rw [hm, hask] at hmem
    obtain ⟨_, rfl⟩ := Session.eq_unstep_of_expire hmem
    cases hby
  | reported s hm hask =>
    rw [hm, hask] at hmem
    obtain ⟨_, rfl⟩ := Session.eq_report_of_report hmem
    cases hby
  | other _ _ _ htiming _ _ _ =>
    rw [Signal.byTick_of_isTiming (htiming signal hmem)] at hby
    cases hby

/-- Only an expiry releases an output. -/
theorem isExpiry_of_unstep {slot : Nat} (hmem : .unstep slot ∈ (m.call ask).signals) :
    (m.exchange ask).isExpiry = true := by
  cases effect_cases m ask with
  | ticked s hm hask =>
    rw [hm, hask] at hmem
    cases Session.byTick_tick hmem
  | expired s hm hask => rw [hm, hask]; rfl
  | reported s hm hask =>
    rw [hm, hask] at hmem
    obtain ⟨_, heq⟩ := Session.eq_report_of_report hmem
    cases heq
  | other _ _ _ htiming _ _ _ => cases htiming _ hmem

/-- Only a report tells a listener. -/
theorem ask_eq_report {listener : Listener} (hmem : .report listener ∈ (m.call ask).signals) :
    ask = .report := by
  cases effect_cases m ask with
  | ticked s hm hask =>
    rw [hm, hask] at hmem
    cases Session.byTick_tick hmem
  | expired s hm hask =>
    rw [hm, hask] at hmem
    obtain ⟨_, heq⟩ := Session.eq_unstep_of_expire hmem
    cases heq
  | reported _ _ hask => exact hask
  | other _ _ _ htiming _ _ _ => cases htiming _ hmem

end Machine

end PulseTrain
