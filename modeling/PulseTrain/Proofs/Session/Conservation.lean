import Mathlib.Algebra.GroupWithZero.Nat
import PulseTrain.Proofs.Session.Run
import PulseTrain.Proofs.Session.Sound

/-!
# Step conservation

The steps that are made and the steps that are asked for balance, over every tick and therefore
over every session. The account has two sides: what was stepped and what the executing block has
come to so far; and what the finished blocks asked for.

* **`progress`**: how far the executing block has come in a slot.
* **`balance_tick`**: a tick keeps the account balanced, also one that hands over to the next block.
* **`balance_run`**: so does every run of calls that stays within a session.
* **`steps_conserved`**: the account of a session, from its start on.
-/

namespace PulseTrain

variable {n : Nat}

/-- How many steps of a slot some blocks ask for. -/
def totalSteps (blocks : List (Block n)) (slot : Fin n) : Nat :=
  (blocks.map fun b => (b.steps.get slot).toNat).sum

@[simp] theorem totalSteps_append (blocks more : List (Block n)) (slot : Fin n) :
    totalSteps (blocks ++ more) slot = totalSteps blocks slot + totalSteps more slot := by
  simp [totalSteps]

namespace Session

/-- How many steps of a slot the executing block has come to; none between blocks. -/
def progress (s : Session n) (slot : Fin n) : Nat :=
  if s.isActive then (s.axes.get slot).emitted.toNat else 0

theorem progress_of_executing {s : Session n} {b : Block n} (hexec : s.executing = some b)
    (slot : Fin n) : s.progress slot = (s.axes.get slot).emitted.toNat := by
  rw [progress, isActive_of_executing hexec, if_pos rfl]

/-- Without a block there is no progress, whatever the axes of the last block still hold. -/
theorem progress_of_none {s : Session n} (hexec : s.executing = none) (slot : Fin n) :
    s.progress slot = 0 := by
  rw [progress, isActive_of_none hexec]
  rfl

theorem Aside.progress {s s' : Session n} (h : s.Aside s') (slot : Fin n) :
    s'.progress slot = s.progress slot := by
  unfold Session.progress isActive
  rw [h.executing, h.axes]

/-! ## The parts of a tick -/

theorem progress_pickUp (s : Session n) (b : Block n) (slot : Fin n) :
    (s.pickUp b).1.progress slot = 0 := by
  rw [progress_of_executing (b := b) rfl, axes_pickUp_get, Axis.ofBlock_emitted]
  rfl

/-- Picking a block up makes no progress: none has been made before, and none after. -/
theorem WakeCase.progress_awake {s : Session n} {b : Block n} (h : WakeCase s b) (slot : Fin n) :
    s.awake.1.progress slot = s.progress slot := by
  cases h with
  | already _ hawake => rw [hawake]
  | pickedUp hexec _ hawake => rw [hawake, progress_pickUp, progress_of_none hexec]

/-- The moves of a tick make a step of progress in a slot whose step is due. -/
theorem Sound.progress_moved {s : Session n} (h : s.Sound) {b : Block n} (hwake : WakeCase s b)
    (slot : Fin n) :
    s.moved.progress slot = s.progress slot + (s.awake.1.tickedAxes.get slot).2.toNat := by
  have htally := (h.awake hwake).tallies b hwake.executing_awake slot
  rw [← hwake.progress_awake, progress_of_executing hwake.executing_moved,
    progress_of_executing hwake.executing_awake, Session.moved, advance_axes_get, tickedAxes_get]
  split
  · rename_i hmoves
    exact htally.emitted_tick hmoves.2 _ _ _
  · rfl

/-- After a block has ended there is no progress, in whatever block comes next. -/
theorem progress_finish (s : Session n) (slot : Fin n) : s.finish.1.progress slot = 0 := by
  cases handover_cases s with
  | rests _ hfinish =>
    rw [hfinish]
    exact progress_of_none rfl slot
  | handsOver b _ hfinish =>
    rw [hfinish]
    exact progress_pickUp { s with elapsed := 0 } b slot

/-! ## A tick -/

/-- **A tick balances.** What is stepped adds to the progress of the block, and a block that ends
takes all of its steps out. -/
theorem Sound.balance_tick {s : Session n} (h : s.Sound) (slot : Fin n) :
    s.progress slot + s.tick.signals.count (.step slot) =
      totalSteps s.tick.answer.toList slot + s.tick.state.progress slot := by
  cases tick_cases s with
  | idle _ _ htick => rw [htick]; exact Nat.add_comm _ _
  | runs b hwake _ htick =>
    rw [hwake.steps_tick, htick, ← h.progress_moved hwake]
    exact (Nat.zero_add _).symm
  -- the block is full in every slot, and the progress starts again from zero
  | ends b hwake hstill htick =>
    have hfull : s.moved.progress slot = (b.steps.get slot).toNat := by
      rw [progress_of_executing hwake.executing_moved,
        (h.moved hwake).emitted_of_still hwake.executing_moved hstill]
    rw [hwake.steps_tick, ← h.progress_moved hwake, hfull, htick, progress_finish]
    rfl

end Session

/-! ## A run -/

namespace Machine

/-- How far the executing block has come in a slot; between sessions nothing executes. -/
def progress (m : Machine n) (slot : Fin n) : Nat :=
  match m with
  | .setup _ => 0
  | .running s => s.progress slot

/-- **Every call but a stop balances.** -/
theorem Sound.balance_call {m : Machine n} (h : m.Sound) {ask : Call n} (hask : ask ≠ .stop)
    (slot : Fin n) :
    m.progress slot + (m.exchange ask).signals.count (.step slot) =
      totalSteps (m.exchange ask).finished?.toList slot + (m.call ask).state.progress slot := by
  cases m with
  | setup c =>
    cases setup_cases c ask with
    | started _ hstate hquiet =>
      rw [hquiet.steps, hquiet.finished, hstate]
      show 0 = 0 + (Session.start c).state.progress slot
      rw [Session.progress_of_none rfl]
    | kept c' hstate _ hquiet =>
      rw [hquiet.steps, hquiet.finished, hstate]
      rfl
  | running s =>
    have hs : s.Sound := h
    cases session_cases s ask with
    -- a block that only waits has made no progress
    | taken b hsubmit _ _ hcall =>
      rw [exchange, hcall]
      exact Nat.add_comm _ _
    | ticked _ hcall =>
      rw [exchange, hcall]
      exact hs.balance_tick slot
    | stopped hstop _ => exact absurd hstop hask
    | aside s' _ _ hstate haside hquiet =>
      rw [hquiet.steps, hquiet.finished, hstate]
      show s.progress slot + 0 = 0 + s'.progress slot
      rw [haside.progress, Nat.add_comm]

/-- **Every run that stays within a session balances.** -/
theorem Sound.balance_run {m : Machine n} (h : m.Sound) {calls : List (Call n)}
    (hcalls : .stop ∉ calls) (slot : Fin n) :
    m.progress slot + (m.run calls).2.steps slot =
      totalSteps (m.run calls).2.finished slot + (m.run calls).1.progress slot := by
  -- induction on the calls: the balance of the first call and of the rest add up
  induction calls generalizing m with
  | nil => exact Nat.add_comm _ _
  | cons ask rest ih =>
    have hask : ask ≠ .stop := (List.ne_of_not_mem_cons hcalls).symm
    have hcall := h.balance_call hask slot
    have hrest := ih (h.call ask) (List.not_mem_of_not_mem_cons hcalls)
    rw [run_cons_exchange, Transcript.steps_cons, Transcript.finished_cons, totalSteps_append]
    show _ = _ + ((m.call ask).state.run rest).1.progress slot
    omega

/-! ## A session -/

/-- **Step conservation.** Let a session be started on any machine that can be reached, and any
calls but a stop be made in it. Then every slot was stepped as often as the finished blocks asked
for, and as the executing block has come to. While a block executes, no slot is past its steps,
and exactly the slots that have reached them are inactive. The next tick finishes a block only if
its moves leave every slot with exactly the steps of that block, which are none for a slot without
a motor; and the steps made are then exactly those of the finished blocks. -/
theorem steps_conserved {c : Controller n} (hc : Reachable (.setup c)) {calls : List (Call n)}
    (hcalls : .stop ∉ calls) :
    ∃ s t, (Machine.setup c).run (.start :: calls) = (.running s, t) ∧
      (∀ slot : Fin n, t.steps slot = totalSteps t.finished slot + s.progress slot) ∧
      (∀ b, s.executing = some b → ∀ slot,
        (s.axes.get slot).emitted ≤ b.steps.get slot ∧
          ((s.axes.get slot).emitted = b.steps.get slot ↔ (s.axes.get slot).isActive = false)) ∧
      (∀ b, s.tick.answer = some b → ∀ slot : Fin n,
        (s.moved.axes.get slot).emitted = b.steps.get slot ∧
          (c.motors.size ≤ slot → b.steps.get slot = 0) ∧
          t.steps slot + s.tick.signals.count (.step slot) =
            totalSteps (t.finished ++ [b]) slot) := by
  obtain ⟨s, t, hrun, hmotors⟩ := run_start c hcalls
  have hsound : s.Sound := hc.sound_session hrun
  have hcalls' : .stop ∉ .start :: calls := List.not_mem_cons_of_ne_of_not_mem nofun hcalls
  have hbalance (slot : Fin n) : t.steps slot = totalSteps t.finished slot + s.progress slot := by
    -- a machine that is set up has made no progress
    have hall := hc.sound.balance_run hcalls' slot
    rw [hrun] at hall
    exact (Nat.zero_add _).symm.trans hall
  refine ⟨s, t, hrun, hbalance, ?_, ?_⟩
  · intro b hexec slot
    -- a registered axis is inactive exactly when it has emitted what it owes
    have htally := hsound.tallies b hexec slot
    refine ⟨htally.emitted_le, ?_⟩
    rw [Bool.eq_false_iff, ne_eq, htally.isActive_iff, not_not]
  · intro b hanswer slot
    obtain ⟨hwake, hstill⟩ := Session.ends_of_answer hanswer
    have hmoved := hsound.moved hwake
    have hfits := hmoved.executing_fits b hwake.executing_moved
    rw [hwake.motors_moved, hmotors] at hfits
    refine ⟨hmoved.emitted_of_still hwake.executing_moved hstill slot,
      Block.steps_of_unregistered hfits, ?_⟩
    -- the account of the tick, at whose end the next block has not come to anything
    have htick := hsound.balance_tick slot
    have hcleared : s.tick.state.progress slot = 0 := by
      rw [hwake.tick_of_still hstill]
      exact Session.progress_finish _ slot
    rw [hanswer, hcleared] at htick
    rw [hbalance, totalSteps_append, Nat.add_assoc, htick]
    rfl

/-- The tick that makes the second of two steps. -/
theorem steps_conserved_halfway :
    Reachable (.setup oneMotor) ∧ .stop ∉ halfway ∧
      ∃ s t, (Machine.setup oneMotor).run (.start :: halfway) = (.running s, t) ∧
        s.executing = some twoSteps ∧ s.tick.answer = some twoSteps ∧ s.progress 0 = 1 ∧
        t.steps 0 = totalSteps t.finished 0 + s.progress 0 ∧
        (s.moved.axes.get 0).emitted = 2 ∧ (s.moved.axes.get 1).emitted = 0 := by
  -- the state after one of the two steps, and then the tick that makes the second
  have hcalls : .stop ∉ halfway := by simp [halfway]
  obtain ⟨s, t, hrun, hbalance, -, hlast⟩ := steps_conserved reachable_oneMotor hcalls
  have hexec : ((Machine.setup oneMotor).run (.start :: halfway)).1.executing = some twoSteps := by
    decide +kernel
  have hprogress : ((Machine.setup oneMotor).run (.start :: halfway)).1.progress 0 = 1 := by
    decide +kernel
  have hanswer : (((Machine.setup oneMotor).run (.start :: halfway)).1.exchange .tick).finished? =
      some twoSteps := by decide +kernel
  rw [hrun] at hexec hprogress hanswer
  exact ⟨reachable_oneMotor, hcalls, s, t, hrun, hexec, hanswer, hprogress, hbalance 0,
    (hlast twoSteps hanswer 0).1, (hlast twoSteps hanswer 1).1⟩

end Machine

end PulseTrain
