import PulseTrain.Engine.Transcript

/-!
# What a call can do

The inversions of `Machine.call`, one for each phase. Most calls leave blocks alone: between
sessions all of them but the start do (**`SetupCase`**), within a session all but a submission, a
tick and a stop (**`SessionCase`**). Facts about blocks are carried over calls by these two and by
`Session.tick_cases`; no later proof opens a call again.
-/

namespace PulseTrain

variable {n : Nat}

/-- The signal programs a timer, lets it interrupt, or begins the count of ticks anew. -/
def Signal.isTiming : Signal → Bool
  | .limit _ _ | .enable _ | .restart .tick => true
  | _ => false

/-- Signals to timers step no slot. -/
theorem count_step_of_isTiming {signals : List Signal}
    (h : ∀ signal ∈ signals, signal.isTiming = true) (slot : Nat) :
    signals.count (.step slot) = 0 :=
  List.count_eq_zero.mpr fun hmem => Bool.false_ne_true (h _ hmem)

namespace Exchange

/-- Nothing about blocks and slots can be read off the exchange. -/
structure Quiet (e : Exchange n) : Prop where
  accepted : e.accepted? = none
  finished : e.finished? = none
  ended : e.ended? = none
  steps : ∀ slot, e.signals.count (.step slot) = 0

/-- Only a submission is ever taken. -/
theorem accepted?_of_ne_submit {ask : Call n} {answer : Answer n} {signals : List Signal}
    (hask : ∀ b, ask ≠ .submit b) :
    Exchange.accepted? ⟨ask, answer, signals⟩ = none := by
  unfold accepted?
  split
  · rename_i b _ heq
    cases heq
    exact absurd rfl (hask b)
  · rfl

/-- A call that its machine does not know does nothing. -/
theorem Quiet.notNow (ask : Call n) : Quiet ⟨ask, .notNow, []⟩ := by
  cases ask <;> exact ⟨rfl, rfl, rfl, fun _ => rfl⟩

/-- A block that is refused is not taken. -/
theorem Quiet.refused (b back : Block n) (f : Fault) : Quiet ⟨.submit b, .refused back f, []⟩ :=
  ⟨rfl, rfl, rfl, fun _ => rfl⟩

/-- A call that only programs timers is quiet, whether or not it fails. -/
theorem Quiet.ofUnit {ask : Call n} {x : Except Fault Unit} {signals : List Signal}
    (hask : ∀ b, ask ≠ .submit b) (htiming : ∀ signal ∈ signals, signal.isTiming = true) :
    Quiet ⟨ask, .ofUnit x, signals⟩ := by
  have hsteps := count_step_of_isTiming htiming
  cases x with
  | ok _ => exact ⟨accepted?_of_ne_submit hask, rfl, rfl, hsteps⟩
  | error f => exact ⟨accepted?_of_ne_submit hask, rfl, rfl, hsteps⟩

/-- A call that is answered by a slot is quiet, whether or not it fails. -/
theorem Quiet.ofSlot {ask : Call n} {x : Except Fault Nat} {signals : List Signal}
    (hask : ∀ b, ask ≠ .submit b) (htiming : ∀ signal ∈ signals, signal.isTiming = true) :
    Quiet ⟨ask, .ofSlot x, signals⟩ := by
  have hsteps := count_step_of_isTiming htiming
  cases x with
  | ok _ => exact ⟨accepted?_of_ne_submit hask, rfl, rfl, hsteps⟩
  | error f => exact ⟨accepted?_of_ne_submit hask, rfl, rfl, hsteps⟩

end Exchange

/-! ## Between sessions -/

namespace Controller

/-- What the calls between sessions leave alone: a waiting block, the marks of the last session, and
every motor registered so far. -/
structure Upkeep (c c' : Controller n) : Prop where
  mailbox : c'.mailbox = c.mailbox
  flagged : c'.flagged = c.flagged
  backlog : c'.backlog = c.backlog
  busy : c'.busy = c.busy
  motors : c.motors.motors <+: c'.motors.motors

theorem Upkeep.refl (c : Controller n) : c.Upkeep c :=
  ⟨rfl, rfl, rfl, rfl, List.prefix_refl _⟩

/-- Motors are added and never removed. -/
theorem Upkeep.size_le {c c' : Controller n} (h : c.Upkeep c') :
    c.motors.size ≤ c'.motors.size := by
  have hlength := h.motors.length_le
  rwa [Array.length_toList, Array.length_toList] at hlength

/-- Programming the tick timer writes to that timer and to nothing else. -/
theorem programTick_eq_ok {c c' : Controller n} {rate : Hertz} {signals : List Signal}
    (h : c.programTick rate = .ok (c', signals)) :
    c' = { c with tickTimer := c'.tickTimer } ∧ ∀ signal ∈ signals, signal.isTiming = true := by
  unfold programTick at h
  dsimp only at h
  split at h
  · cases h
  · split at h <;> cases h <;> exact ⟨rfl, by simp [Signal.isTiming]⟩

/-- Programming the pulse timer changes that timer and nothing else. -/
theorem programPulse_eq_ok {c c' : Controller n} {width : Microseconds} {signals : List Signal}
    (h : c.programPulse width = .ok (c', signals)) :
    c' = { c with pulseTimer := c'.pulseTimer } ∧ ∀ signal ∈ signals, signal.isTiming = true := by
  unfold programPulse at h
  dsimp only at h
  split at h
  · cases h
  · cases h
    exact ⟨rfl, by simp [Signal.isTiming]⟩

/-- A creation that succeeds only programs the timers. -/
theorem create_eq_ok {timing : Timing} {tickCounter pulseCounter : TimerCounts} {c : Controller n}
    (h : (create timing tickCounter pulseCounter).1 = .ok c) :
    c = { timing, tickTimer := c.tickTimer, pulseTimer := c.pulseTimer } := by
  unfold create at h
  dsimp only at h
  split at h
  · cases h
  · split at h
    · cases h
    · -- the check has passed, and the tick timer is programmed; the pulse timer may still fail
      rename_i hticked
      split at h
      · cases h
      · rename_i hpulsed
        cases h
        rw [(programPulse_eq_ok hpulsed).1, (programTick_eq_ok hticked).1]

/-- An attempt leaves alone what its successful result leaves alone. -/
theorem upkeep_attempt {α : Type} {c : Controller n}
    {result : Except Fault (Controller n × List Signal)} (answer : α)
    (h : ∀ c' signals, result = .ok (c', signals) →
      c.Upkeep c' ∧ ∀ signal ∈ signals, signal.isTiming = true) :
    c.Upkeep (c.attempt result answer).state ∧
      ∀ signal ∈ (c.attempt result answer).signals, signal.isTiming = true := by
  unfold attempt
  cases result with
  | error f => exact ⟨Upkeep.refl c, List.forall_mem_nil _⟩
  | ok made => exact h made.1 made.2 rfl

/-- A motor that is added comes behind the others. -/
theorem upkeep_of_append {c : Controller n} {name : Option String} {motor : MotorNumber}
    {r : Registry MotorNumber n} (h : c.motors.append name motor = .ok r) :
    c.Upkeep { c with motors := r } := by
  refine ⟨rfl, rfl, rfl, rfl, ?_⟩
  show c.motors.motorTable.toList <+: r.motorTable.toList
  rw [(Registry.append_eq_ok h).2.1, Array.toList_push]
  exact List.prefix_append _ _

/-- A registration that fails leaves the controller alone, and one that succeeds adds a motor. -/
theorem upkeep_enroll (c : Controller n) (taken : Nat)
    {made : Except RegistryFault (Registry MotorNumber n)}
    (hmade : ∀ r, made = .ok r → c.Upkeep { c with motors := r }) :
    let result := (made.mapError Fault.registry).map fun motors =>
      ({ c with motors }, ([] : List Signal))
    c.Upkeep (c.attempt result taken).state ∧
      ∀ signal ∈ (c.attempt result taken).signals, signal.isTiming = true := by
  apply upkeep_attempt
  intro c' signals h
  rcases made with f | r
  · cases h
  · cases h
    exact ⟨hmade r rfl, List.forall_mem_nil _⟩

/-- A registration is upkeep. -/
theorem upkeep_register (c : Controller n) (motor : MotorNumber) :
    c.Upkeep (c.register motor).state ∧
      ∀ signal ∈ (c.register motor).signals, signal.isTiming = true := by
  apply upkeep_enroll
  intro r hr
  exact upkeep_of_append hr

/-- A registration under a name is upkeep. -/
theorem upkeep_registerNamed (c : Controller n) (name : String) (motor : MotorNumber) :
    c.Upkeep (c.registerNamed name motor).state ∧
      ∀ signal ∈ (c.registerNamed name motor).signals, signal.isTiming = true := by
  apply upkeep_enroll
  intro r hr
  exact upkeep_of_append (Registry.append_of_registerNamed hr)

/-- Timing that passes its check is taken over with the timer that was programmed for it. -/
theorem upkeep_reprogram (c : Controller n) (timing : Timing)
    {program : Except SettingsFault (Controller n × List Signal)}
    (hprogram : ∀ c' signals, program = .ok (c', signals) →
      c.Upkeep c' ∧ ∀ signal ∈ signals, signal.isTiming = true) :
    let result : Except SettingsFault (Controller n × List Signal) := do
      timing.check
      let (c', signals) ← program
      return ({ c' with timing }, signals)
    c.Upkeep (c.attempt (result.mapError Fault.settings) ()).state ∧
      ∀ signal ∈ (c.attempt (result.mapError Fault.settings) ()).signals,
        signal.isTiming = true := by
  apply upkeep_attempt
  intro c' signals h
  -- the program is asked for only when the check has passed
  cases hcheck : timing.check with
  | error f => rw [hcheck] at h; cases h
  | ok _ =>
    rw [hcheck] at h
    rcases program with f | ⟨made, sent⟩
    · cases h
    · cases h
      obtain ⟨hupkeep, htiming⟩ := hprogram made signals rfl
      exact ⟨⟨hupkeep.mailbox, hupkeep.flagged, hupkeep.backlog, hupkeep.busy, hupkeep.motors⟩,
        htiming⟩

/-- To set the rate is upkeep. -/
theorem upkeep_setTickRate (c : Controller n) (rate : Hertz) :
    c.Upkeep (c.setTickRate rate).state ∧
      ∀ signal ∈ (c.setTickRate rate).signals, signal.isTiming = true := by
  apply upkeep_reprogram
  intro c' signals h
  obtain ⟨hframe, htiming⟩ := programTick_eq_ok h
  rw [hframe]
  exact ⟨⟨rfl, rfl, rfl, rfl, List.prefix_refl _⟩, htiming⟩

/-- To set the width is upkeep. -/
theorem upkeep_setPulseWidth (c : Controller n) (width : Microseconds) :
    c.Upkeep (c.setPulseWidth width).state ∧
      ∀ signal ∈ (c.setPulseWidth width).signals, signal.isTiming = true := by
  apply upkeep_reprogram
  intro c' signals h
  obtain ⟨hframe, htiming⟩ := programPulse_eq_ok h
  rw [hframe]
  exact ⟨⟨rfl, rfl, rfl, rfl, List.prefix_refl _⟩, htiming⟩

theorem upkeep_setCounter (c : Controller n) (timer : TimerName) (counts : TimerCounts) :
    c.Upkeep (c.setCounter timer counts) := by
  cases timer <;> exact ⟨rfl, rfl, rfl, rfl, List.prefix_refl _⟩

end Controller

namespace Machine

/-- What a call comes to, as it stands in a transcript. -/
def exchange (m : Machine n) (ask : Call n) : Exchange n :=
  ⟨ask, (m.call ask).answer, (m.call ask).signals⟩

/-- A call between sessions begins a session or leaves blocks alone. -/
inductive SetupCase (c : Controller n) (ask : Call n) : Prop where
  | started (hask : ask = .start)
      (hstate : ((Machine.setup c).call ask).state = .running (Session.start c).state)
      (hquiet : ((Machine.setup c).exchange ask).Quiet)
  | kept (c' : Controller n) (hstate : ((Machine.setup c).call ask).state = .setup c')
      (hupkeep : c.Upkeep c') (hquiet : ((Machine.setup c).exchange ask).Quiet)

/-- **Between sessions every call is a start or upkeep.** -/
theorem setup_cases (c : Controller n) (ask : Call n) : SetupCase c ask := by
  cases ask with
  | register motor =>
    obtain ⟨hupkeep, htiming⟩ := c.upkeep_register motor
    exact .kept _ rfl hupkeep (.ofSlot nofun htiming)
  | registerNamed name motor =>
    obtain ⟨hupkeep, htiming⟩ := c.upkeep_registerNamed name motor
    exact .kept _ rfl hupkeep (.ofSlot nofun htiming)
  | setTickRate rate =>
    obtain ⟨hupkeep, htiming⟩ := c.upkeep_setTickRate rate
    exact .kept _ rfl hupkeep (.ofUnit nofun htiming)
  | setPulseWidth width =>
    obtain ⟨hupkeep, htiming⟩ := c.upkeep_setPulseWidth width
    exact .kept _ rfl hupkeep (.ofUnit nofun htiming)
  | listen listener =>
    exact .kept _ rfl ⟨rfl, rfl, rfl, rfl, List.prefix_refl _⟩ ⟨rfl, rfl, rfl, fun _ => rfl⟩
  | setCounter timer counts =>
    exact .kept _ rfl (c.upkeep_setCounter timer counts) ⟨rfl, rfl, rfl, fun _ => rfl⟩
  | start => exact .started rfl rfl ⟨rfl, rfl, rfl, fun _ => rfl⟩
  -- calls of a session are answered at once and leave everything alone
  | submit b | tick | expire | report | stop => exact .kept c rfl (.refl c) (.notNow _)

end Machine

/-! ## Within a session -/

namespace Session

/-- What every call within a session but a submission, a tick and a stop leaves alone: all that the
motion of the axes hangs on. -/
structure Aside (s s' : Session n) : Prop where
  motors : s'.motors = s.motors
  mailbox : s'.mailbox = s.mailbox
  busy : s'.busy = s.busy
  executing : s'.executing = s.executing
  profile : s'.profile = s.profile
  axes : s'.axes = s.axes
  elapsed : s'.elapsed = s.elapsed
  rate : s'.rate = s.rate

theorem Aside.refl (s : Session n) : s.Aside s := ⟨rfl, rfl, rfl, rfl, rfl, rfl, rfl, rfl⟩

/-- A block with a fault is refused with that fault, also when another one waits. -/
theorem submit_of_fault {s : Session n} {b : Block n} {f : BlockFault}
    (h : b.fault? s.motors.size = some f) : s.submit b = ⟨s, .error (b, .block f), []⟩ := by
  rw [submit, h]

/-- A second block is refused as long as the first one waits. -/
theorem submit_of_full {s : Session n} {b next : Block n}
    (h : b.fault? s.motors.size = none) (hbox : s.mailbox = some next) :
    s.submit b = ⟨s, .error (b, .engine .mailboxFull), []⟩ := by
  rw [submit, h, hbox]

/-- A block without a fault waits if none does. -/
theorem submit_of_free {s : Session n} {b : Block n} (h : b.fault? s.motors.size = none)
    (hbox : s.mailbox = none) :
    s.submit b = ⟨{ s with mailbox := some b }, .ok (), []⟩ := by
  rw [submit, h, hbox]

/-- To set the rate in a session is aside from the blocks, whether or not it is taken. -/
theorem aside_setTickRate (s : Session n) (rate : Hertz) :
    s.Aside (s.setTickRate rate).state ∧
      ∀ signal ∈ (s.setTickRate rate).signals, signal.isTiming = true := by
  unfold setTickRate
  split
  · exact ⟨.refl s, List.forall_mem_nil _⟩
  · split
    · exact ⟨.refl s, List.forall_mem_nil _⟩
    · rename_i hprogram
      obtain ⟨hframe, htiming⟩ := Controller.programTick_eq_ok hprogram
      rw [hframe]
      exact ⟨⟨rfl, rfl, rfl, rfl, rfl, rfl, rfl, rfl⟩, htiming⟩

theorem aside_setCounter (s : Session n) (timer : TimerName) (counts : TimerCounts) :
    s.Aside { s with toController := s.toController.setCounter timer counts } := by
  cases timer <;> exact ⟨rfl, rfl, rfl, rfl, rfl, rfl, rfl, rfl⟩

/-- An expiry releases outputs and steps nothing. -/
theorem steps_expire (s : Session n) (slot : Nat) : s.expire.signals.count (.step slot) = 0 := by
  -- every signal sent here is a release
  apply List.count_eq_zero.mpr
  intro hmem
  obtain ⟨_, _, heq⟩ := List.mem_map.mp hmem
  cases heq

/-- A report steps nothing either. -/
theorem steps_report (s : Session n) (slot : Nat) : s.report.signals.count (.step slot) = 0 := by
  unfold report
  dsimp only
  split
  · exact List.count_eq_zero.mpr fun hmem => Signal.noConfusion (List.eq_of_mem_replicate hmem)
  · rfl

end Session

namespace Machine

/-- A call within a session submits a block, lets a tick pass, ends the session, or leaves blocks
alone. -/
inductive SessionCase (s : Session n) (ask : Call n) : Prop where
  | taken (b : Block n) (hask : ask = .submit b) (hfits : b.fault? s.motors.size = none)
      (hbox : s.mailbox = none)
      (hcall : (Machine.running s).call ask = ⟨.running { s with mailbox := some b }, .done, []⟩)
  | ticked (hask : ask = .tick)
      (hcall : (Machine.running s).call ask =
        ⟨.running s.tick.state, .ticked s.tick.answer, s.tick.signals⟩)
  | stopped (hask : ask = .stop)
      (hcall : (Machine.running s).call ask = ⟨.setup s.toController, .stopped s.executing, []⟩)
  | aside (s' : Session n) (htick : ask ≠ .tick) (hstop : ask ≠ .stop)
      (hstate : ((Machine.running s).call ask).state = .running s')
      (haside : s.Aside s') (hquiet : ((Machine.running s).exchange ask).Quiet)

/-- A submission is taken, or leaves everything as it is. -/
theorem submit_cases (s : Session n) (b : Block n) : SessionCase s (.submit b) := by
  -- the fault is looked at before the mailbox
  cases hfault : b.fault? s.motors.size with
  | some f =>
    have hcall : (Machine.running s).call (.submit b) =
        ⟨.running s, .refused b (.block f), []⟩ := by
      rw [call, Session.submit_of_fault hfault]
      rfl
    refine .aside s nofun nofun (by rw [hcall]) (.refl s) ?_
    rw [exchange, hcall]
    exact .refused b b _
  | none =>
    cases hbox : s.mailbox with
    | some next =>
      have hcall : (Machine.running s).call (.submit b) =
          ⟨.running s, .refused b (.engine .mailboxFull), []⟩ := by
        rw [call, Session.submit_of_full hfault hbox]
        rfl
      refine .aside s nofun nofun (by rw [hcall]) (.refl s) ?_
      rw [exchange, hcall]
      exact .refused b b _
    | none =>
      refine .taken b rfl hfault hbox ?_
      rw [call, Session.submit_of_free hfault hbox]
      rfl

/-- **In a session every call takes a block, is a tick or a stop, or is aside from the blocks.** -/
theorem session_cases (s : Session n) (ask : Call n) : SessionCase s ask := by
  cases ask with
  | submit b => exact submit_cases s b
  | tick => exact .ticked rfl rfl
  | stop => exact .stopped rfl rfl
  | setTickRate rate =>
    obtain ⟨haside, htiming⟩ := s.aside_setTickRate rate
    exact .aside _ nofun nofun rfl haside (.ofUnit nofun htiming)
  | setCounter timer counts =>
    exact .aside _ nofun nofun rfl (s.aside_setCounter timer counts) ⟨rfl, rfl, rfl, fun _ => rfl⟩
  -- expiries and reports empty the set and the backlog, which no block depends on
  | expire =>
    exact .aside _ nofun nofun rfl ⟨rfl, rfl, rfl, rfl, rfl, rfl, rfl, rfl⟩
      ⟨rfl, rfl, rfl, s.steps_expire⟩
  | report =>
    exact .aside _ nofun nofun rfl ⟨rfl, rfl, rfl, rfl, rfl, rfl, rfl, rfl⟩
      ⟨rfl, rfl, rfl, s.steps_report⟩
  | register motor | registerNamed name motor | setPulseWidth width | listen listener | start =>
    exact .aside s nofun nofun rfl (.refl s) (.notNow _)

end Machine

end PulseTrain
