import Mathlib.Algebra.GroupWithZero.Nat
import PulseTrain.Proofs.Session.Delivery
import PulseTrain.Proofs.Session.Effects

/-!
# Every finished block is reported once

A tick that finishes a block requests a report, and adds the block to a backlog that outlives the
session. A report empties the backlog and tells the listener once for each block in it. The backlog
is a 32-bit counter, so the account of finished and reported blocks balances up to its wraps, and
exactly as long as fewer than `2 ^ 32` blocks wait.

* **`count_pend_call`**, **`pending_call`**: the accounts of one call; **`pending_run`**: of a run.
* **`report_eq`**: everything that a report does.
* **`Sound.tick_of_isEmpty`**: a block without steps is finished by its first tick.
* **`finished_reported_once`**: all of it, for every run from a creation on.
-/

namespace PulseTrain

variable {n : Nat}

/-- A counter of 32 bits that is counted up once has one more, or has wrapped. -/
theorem Backlog.toNat_add (b : Backlog) :
    ∃ wraps, b.pending.toNat + 1 = b.add.pending.toNat + wraps * 2 ^ 32 := by
  have hadd : b.add.pending.toNat = (b.pending.toNat + 1) % 2 ^ 32 := UInt32.toNat_add b.pending 1
  refine ⟨(b.pending.toNat + 1) / 2 ^ 32, ?_⟩
  rw [hadd]
  omega

/-- How many blocks were reported. -/
def Transcript.reported (t : Transcript n) : Nat := (t.filterMap Exchange.reported?).sum

theorem Transcript.reported_concat (t : Transcript n) (e : Exchange n) :
    reported (t ++ [e]) = t.reported + e.reported?.getD 0 := by
  rw [reported, List.filterMap_append, List.sum_append]
  cases hreported : e.reported? <;> simp [reported, hreported]

namespace Session

/-! ## A tick -/

theorem WakeCase.backlog_moved {s : Session n} {b : Block n} (h : WakeCase s b) :
    s.moved.backlog = s.backlog := by
  rw [moved, advance_fst]
  exact h.spares_awake.backlog

theorem backlog_finish (s : Session n) : s.finish.1.backlog = s.backlog.add := by
  cases handover_cases s with
  | rests _ hfinish => rw [hfinish]
  | handsOver b _ hfinish => rw [hfinish]

/-- A tick adds to the backlog exactly if it finishes a block. -/
theorem backlog_tick (s : Session n) :
    s.tick.state.backlog = if s.tick.answer.isSome then s.backlog.add else s.backlog := by
  cases tick_cases s with
  | idle _ _ htick => rw [htick]; rfl
  | runs b hwake _ htick => rw [htick, hwake.backlog_moved]; rfl
  | ends b hwake _ htick => rw [htick, backlog_finish, hwake.backlog_moved]; rfl

theorem count_pend_awake (s : Session n) : s.awake.2.count .pend = 0 := by
  refine List.count_eq_zero.mpr fun hmem => ?_
  obtain ⟨_, _, heq⟩ := eq_direction_of_awake hmem
  cases heq

theorem count_pend_advance (s : Session n) : s.advance.2.count .pend = 0 := by
  refine List.count_eq_zero.mpr fun hmem => ?_
  obtain ⟨_, heq⟩ | heq := eq_step_of_advance hmem <;> cases heq

/-- The end of a block requests one report, whether or not another block begins. -/
theorem count_pend_finish (s : Session n) : s.finish.2.count .pend = 1 := by
  cases handover_cases s with
  | rests _ hfinish => rw [hfinish]; rfl
  | handsOver b _ hfinish =>
    -- what the next block sends as it begins are directions
    have hnone : ((Session.pickUp { s with elapsed := 0 } b).2).count .pend = 0 := by
      refine List.count_eq_zero.mpr fun hmem => ?_
      obtain ⟨_, _, heq⟩ := eq_direction_of_pickUp hmem
      cases heq
    rw [hfinish, List.count_append, hnone]
    rfl

/-- **A tick requests a report once if it finishes a block**, and otherwise not at all. -/
theorem count_pend_tick (s : Session n) :
    s.tick.signals.count .pend = s.tick.answer.toList.length := by
  cases tick_cases s with
  | idle _ _ htick => rw [htick]; rfl
  | runs b _ _ htick =>
    rw [htick, List.count_append, count_pend_awake, count_pend_advance]
    rfl
  | ends b _ _ htick =>
    rw [htick, List.count_append, List.count_append, count_pend_awake, count_pend_advance,
      count_pend_finish]
    rfl

/-! ## A report -/

/-- **A report empties the backlog** and tells the listener, if there is one, once for each block
that was in it. -/
theorem report_eq (s : Session n) :
    s.report = ⟨{ s with backlog := {} }, s.backlog.pending.toNat,
      s.listener.elim [] fun listener =>
        List.replicate s.backlog.pending.toNat (.report listener)⟩ := by
  rw [report, Backlog.drain_eq]
  cases s.listener <;> rfl

/-! ## Blocks without steps -/

/-- The block at the front of the queue is moved by the next tick. -/
theorem wakeCase_of_inFlight {s : Session n} {b : Block n} {next : List (Block n)}
    (h : s.inFlight = b :: next) : WakeCase s b := by
  -- the first block in flight is the executing one, or the one that waits if none executes
  unfold inFlight at h
  cases hexec : s.executing with
  | some b' =>
    rw [hexec] at h
    obtain rfl : b' = b := (List.cons.inj h).1
    exact .already hexec (awake_of_executing hexec)
  | none =>
    cases hbox : s.mailbox with
    | none => rw [hexec, hbox] at h; cases h
    | some b' =>
      rw [hexec, hbox] at h
      obtain rfl : b' = b := (List.cons.inj h).1
      exact .pickedUp hexec hbox (awake_of_waiting hexec hbox)

/-- **A block without steps is finished by its next tick**, which is its first one. -/
theorem Sound.tick_of_isEmpty {s : Session n} (h : s.Sound) {b : Block n} (hwake : WakeCase s b)
    (hempty : b.isEmpty = true) : s.tick.answer = some b := by
  have hstill : s.moved.isMoving = false := by
    rw [Bool.eq_false_iff]
    intro hmoving
    -- a slot that goes on moving after the tick has steps in its block
    obtain ⟨slot, hactive⟩ := ((h.moved hwake).isMoving_iff hwake.executing_moved).mp hmoving
    have hnone : b.steps.get slot = 0 :=
      eq_of_beq (Vector.all_eq_true.mp hempty slot.val slot.isLt)
    exact ((h.moved hwake).tallies b hwake.executing_moved slot).steps_ne_zero hactive hnone
  rw [hwake.tick_of_still hstill]

end Session

namespace Machine

/-! ## The account of one call -/

/-- A call whose signals are no tick's requests no report. -/
theorem count_pend_of_not_byTick {m : Machine n} {ask : Call n}
    (h : ∀ signal ∈ (m.call ask).signals, signal.byTick = false) :
    (m.exchange ask).signals.count .pend = 0 :=
  List.count_eq_zero.mpr fun hmem => Bool.false_ne_true (h _ hmem).symm

/-- **A call requests as many reports as it finishes blocks.** -/
theorem count_pend_call (m : Machine n) (ask : Call n) :
    (m.exchange ask).signals.count .pend = (m.exchange ask).finished?.toList.length := by
  -- only a tick requests reports; every other call sends signals of other kinds
  cases effect_cases m ask with
  | ticked s hm hask =>
    subst hm hask
    exact s.count_pend_tick
  | expired s hm hask =>
    subst hm hask
    refine count_pend_of_not_byTick fun signal hmem => ?_
    obtain ⟨_, rfl⟩ := Session.eq_unstep_of_expire hmem
    rfl
  | reported s hm hask =>
    subst hm hask
    refine count_pend_of_not_byTick fun signal hmem => ?_
    obtain ⟨_, rfl⟩ := Session.eq_report_of_report hmem
    rfl
  | other _ _ _ htiming _ _ hfinished =>
    rw [hfinished]
    exact count_pend_of_not_byTick fun signal hmem =>
      Signal.byTick_of_isTiming (htiming signal hmem)

/-- How many finished blocks wait to be reported, as far as 32 bits can tell. -/
def pending (m : Machine n) : Nat := m.controller.backlog.pending.toNat

/-- **Every call balances.** What it finishes is waiting after it or has been reported by it, up to
wraps of the counter. -/
theorem pending_call (m : Machine n) (ask : Call n) :
    ∃ wraps, m.pending + (m.exchange ask).finished?.toList.length =
      (m.exchange ask).reported?.getD 0 + (m.call ask).state.pending + wraps * 2 ^ 32 := by
  have hexact (hequal : m.pending + (m.exchange ask).finished?.toList.length =
      (m.exchange ask).reported?.getD 0 + (m.call ask).state.pending) :
      ∃ wraps, m.pending + (m.exchange ask).finished?.toList.length =
        (m.exchange ask).reported?.getD 0 + (m.call ask).state.pending + wraps * 2 ^ 32 := by
    refine ⟨0, ?_⟩
    rw [hequal, Nat.zero_mul, Nat.add_zero]
  -- the counter can wrap only on a tick that finishes a block
  cases effect_cases m ask with
  | ticked s hm hask =>
    subst hm hask
    show ∃ wraps, s.backlog.pending.toNat + s.tick.answer.toList.length =
      0 + s.tick.state.backlog.pending.toNat + wraps * 2 ^ 32
    rw [s.backlog_tick, Nat.zero_add]
    cases s.tick.answer with
    | none =>
      refine ⟨0, ?_⟩
      rw [Nat.zero_mul]
      rfl
    | some b => exact s.backlog.toNat_add
  | expired s hm hask =>
    subst hm hask
    exact hexact (Nat.zero_add _).symm
  | reported s hm hask =>
    subst hm hask
    apply hexact
    show s.backlog.pending.toNat = s.report.answer + s.report.state.backlog.pending.toNat
    rw [s.report_eq]
    rfl
  | other _ hbacklog _ _ _ hreported hfinished =>
    apply hexact
    rw [hreported, hfinished, pending, pending, hbacklog]
    exact (Nat.zero_add _).symm

/-! ## The account of a run -/

/-- **Every run balances**, whatever phases it goes through. -/
theorem pending_run (m : Machine n) (calls : List (Call n)) :
    ∃ wraps, m.pending + (m.run calls).2.finished.length =
      (m.run calls).2.reported + (m.run calls).1.pending + wraps * 2 ^ 32 := by
  -- the wraps of the calls add up; without one the account is exact
  refine run_induction (motive := fun m' t => ∃ wraps, m.pending + t.finished.length =
    t.reported + m'.pending + wraps * 2 ^ 32) ⟨0, ?_⟩ ?_ calls
  · rw [Nat.zero_mul, Nat.add_zero]
    exact Nat.add_comm _ _
  · rintro m' t ask ⟨wraps, hrun⟩
    obtain ⟨wraps', hcall⟩ := m'.pending_call ask
    refine ⟨wraps + wraps', ?_⟩
    rw [Transcript.finished_concat, Transcript.reported_concat, List.length_append]
    omega

/-- A run requests as many reports as it finishes blocks. -/
theorem count_pend_run (m : Machine n) (calls : List (Call n)) :
    (m.run calls).2.signals.count .pend = (m.run calls).2.finished.length := by
  refine run_induction (motive := fun _ t => t.signals.count .pend = t.finished.length) rfl ?_ calls
  intro m' t ask hrun
  rw [Transcript.signals_concat, Transcript.finished_concat, List.count_append, List.length_append,
    hrun, count_pend_call]

/-! ## The listener of a session -/

/-- No call in a session changes the listener. -/
theorem listener_call (s : Session n) (ask : Call n) :
    ((Machine.running s).call ask).state.controller.listener = s.listener := by
  cases ask with
  | tick => exact s.sameSetup_tick.listener
  | submit b => exact (s.spares_submit b).listener
  | setTickRate rate => exact (s.spares_setTickRate rate).listener
  | setCounter timer counts => cases timer <;> rfl
  | expire | report | stop | register _ | registerNamed _ _ | setPulseWidth _ | listen _ | start =>
    rfl

/-- A session keeps the listener that was set before its start. -/
theorem listener_start (c : Controller n) {calls : List (Call n)} (hcalls : .stop ∉ calls) :
    ∃ s t, (Machine.setup c).run (.start :: calls) = (.running s, t) ∧ s.listener = c.listener := by
  have hkept (s₁ : Session n) (t : Transcript n) (ask : Call n) (s₂ : Session n)
      (hlistener : s₁.listener = c.listener)
      (hstate : ((Machine.running s₁).call ask).state = .running s₂)
      (_ : s₂.motors = s₁.motors) : s₂.listener = c.listener := by
    have hcall := listener_call s₁ ask
    rw [hstate] at hcall
    exact hcall.trans hlistener
  obtain ⟨s, t, hrun, hlistener⟩ := session_induction (s := (Session.start c).state)
    (motive := fun s' _ => s'.listener = c.listener) rfl hkept hcalls
  refine ⟨s, (Machine.setup c).exchange .start :: t, ?_, hlistener⟩
  have hstart : ((Machine.setup c).call .start).state = .running (Session.start c).state := rfl
  rw [run_cons_exchange, hstart, hrun]

/-- **Every finished block is reported once.** After any calls from a creation on, stops and new
starts among them, as many reports were requested as blocks have finished; as long as fewer than
`2 ^ 32` of them are unreported, those that are not reported yet are the ones that wait. In every
session, a report answers how many wait, leaves none, and tells the listener registered at the start
of the session, if there is one, that many times; no other call tells anyone. And the next block in
flight is finished by the next tick if it has no steps. -/
theorem finished_reported_once {timing : Timing} {tickCounter pulseCounter : TimerCounts}
    {c₀ : Controller n} (hc₀ : (Controller.create timing tickCounter pulseCounter).1 = .ok c₀) :
    (∀ calls m t, (Machine.setup c₀).run calls = (m, t) →
      t.signals.count .pend = t.finished.length ∧
      (t.finished.length < t.reported + 2 ^ 32 → t.finished.length = t.reported + m.pending) ∧
      ∀ e ∈ t, ∀ listener, .report listener ∈ e.signals → e.call = .report) ∧
    ∀ before c calls, ((Machine.setup c₀).run before).1 = .setup c → .stop ∉ calls →
      ∃ s t, (Machine.setup c₀).run (before ++ .start :: calls) = (.running s, t) ∧
        s.report = ⟨{ s with backlog := {} }, s.backlog.pending.toNat,
          c.listener.elim [] fun listener =>
            List.replicate s.backlog.pending.toNat (.report listener)⟩ ∧
        ∀ b next, s.inFlight = b :: next → b.isEmpty = true → s.tick.answer = some b := by
  refine ⟨?_, ?_⟩
  · intro calls m t hrun
    have hpend := count_pend_run (.setup c₀) calls
    have hcaller := forall_mem_run (P := fun e : Exchange n =>
      ∀ listener, .report listener ∈ e.signals → e.call = .report)
      (fun m ask _ hmem => ask_eq_report (m := m) hmem) (.setup c₀) calls
    obtain ⟨wraps, hbalance⟩ := pending_run (.setup c₀) calls
    -- a controller that has just been created has nothing to report
    have hnothing : (Machine.setup c₀).pending = 0 := by
      show c₀.backlog.pending.toNat = 0
      rw [Controller.create_eq_ok hc₀]
      rfl
    rw [hrun] at hpend hcaller hbalance
    rw [hnothing, Nat.zero_add] at hbalance
    change t.finished.length = t.reported + m.pending + wraps * 2 ^ 32 at hbalance
    refine ⟨hpend, fun hfew => ?_, hcaller⟩
    -- a wrap would leave a whole round of the counter unreported
    omega
  · intro before c calls hbefore hcalls
    obtain ⟨s, t, hrun, hlistener⟩ := listener_start c hcalls
    have hall : (Machine.setup c₀).run (before ++ .start :: calls) =
        (.running s, ((Machine.setup c₀).run before).2 ++ t) := by
      rw [run_append, hbefore, hrun]
    have hsound : s.Sound := (Reachable.created hc₀).sound_session hall
    refine ⟨s, _, hall, ?_, ?_⟩
    · rw [← hlistener]
      exact s.report_eq
    · intro b next hnext hempty
      exact hsound.tick_of_isEmpty (Session.wakeCase_of_inFlight hnext) hempty

/-- Three blocks without steps, of which two are reported before a stop. -/
def emptyBlocks : List (Call 2) :=
  [.listen "console", .start, .submit {}, .tick, .submit {}, .tick, .report, .submit {}, .tick,
    .stop]

/-- The third one is told of in the next session. -/
theorem finished_reported_once_across_stop :
    (Controller.create {} 0 0).1 = .ok noMotor ∧
      (∃ m t, (Machine.setup noMotor).run emptyBlocks = (m, t) ∧
        t.finished.length < t.reported + 2 ^ 32 ∧ t.reported = 2 ∧ m.pending = 1) ∧
      ∃ c s t, ((Machine.setup noMotor).run emptyBlocks).1 = .setup c ∧
        .stop ∉ [Call.submit ({} : Block 2)] ∧
        (Machine.setup noMotor).run (emptyBlocks ++ .start :: [.submit {}]) = (.running s, t) ∧
        s.report.signals = [.report "console"] ∧ s.inFlight = [{}] ∧ s.tick.answer = some {} := by
  obtain ⟨hall, hsession⟩ := finished_reported_once create_noMotor
  obtain ⟨m, t, hrun⟩ : ∃ m t, (Machine.setup noMotor).run emptyBlocks = (m, t) := ⟨_, _, rfl⟩
  obtain ⟨c, hstopped⟩ : ∃ c, ((Machine.setup noMotor).run emptyBlocks).1 = .setup c := ⟨_, rfl⟩
  have hcalls : .stop ∉ [Call.submit ({} : Block 2)] := by simp
  obtain ⟨s, t', hrun', hreport, hempty⟩ := hsession emptyBlocks c _ hstopped hcalls
  have hcounts : ((Machine.setup noMotor).run emptyBlocks).2.reported = 2 ∧
      ((Machine.setup noMotor).run emptyBlocks).2.finished.length = 3 := by decide +kernel
  have hlistener : ((Machine.setup noMotor).run emptyBlocks).1.controller.listener =
      some "console" := by decide +kernel
  have hnext : ((Machine.setup noMotor).run (emptyBlocks ++ .start :: [.submit {}])).1.inFlight =
      [{}] := by decide +kernel
  have hwaiting : ((Machine.setup noMotor).run
      (emptyBlocks ++ .start :: [.submit {}])).1.pending = 1 := by decide +kernel
  rw [hrun'] at hnext hwaiting
  rw [hstopped] at hlistener
  rw [hrun] at hcounts
  change t.reported = 2 ∧ t.finished.length = 3 at hcounts
  have hfew : t.finished.length < t.reported + 2 ^ 32 := by omega
  -- three blocks are finished and two of them reported before the stop
  have hbalance := (hall emptyBlocks m t hrun).2.1 hfew
  refine ⟨create_noMotor, ⟨m, t, hrun, hfew, hcounts.1, by omega⟩, c, s, t', hstopped, hcalls,
    hrun', ?_, hnext, hempty {} [] hnext (by decide +kernel)⟩
  change c.listener = _ at hlistener
  change s.backlog.pending.toNat = 1 at hwaiting
  rw [hreport, hlistener, hwaiting]
  rfl

end Machine

end PulseTrain
