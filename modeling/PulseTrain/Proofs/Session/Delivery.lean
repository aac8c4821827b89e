import PulseTrain.Proofs.Session.Run
import PulseTrain.Proofs.Session.Sound

/-!
# Every block is delivered once

A block that is taken stays in flight until it ends: it waits, then it executes, and then it comes
to its end or is cut short. The blocks in flight are a queue of at most two places. A submission
that is taken appends to it, the end of a block takes from its front, and everything else leaves it
alone, starts and stops included.

* **`inFlight`**: the queue of a machine.
* **`delivery_call`**, **`delivery_run`**: what is appended and what is taken balance, in order.
* **`SubmitSpec`**: everything a submission can come to.
* **`blocks_delivered`**: both together, for every run from a creation on.
-/

namespace PulseTrain

variable {n : Nat}

/-- The block is in order, and can be executed with the first `registered` slots having a motor. -/
def Block.Fits (b : Block n) (registered : Nat) : Prop :=
  (b.rampUpEnd ≤ b.rampDownStart ∧ b.rampDownStart ≤ b.duration) ∧
    ∀ slot : Fin n, b.steps.get slot ≠ 0 →
      slot < registered ∧ b.steps.get slot ≤ b.referenceSteps

namespace Session

/-! ## The queue -/

/-- The blocks that were taken and have not ended, in order. -/
def inFlight (s : Session n) : List (Block n) := s.executing.toList ++ s.mailbox.toList

/-- The moves of a tick leave the queue as it is. -/
theorem WakeCase.inFlight_moved {s : Session n} {b : Block n} (h : WakeCase s b) :
    s.moved.inFlight = s.inFlight := by
  cases h with
  | already hexec hawake => rw [moved, advance_fst, hawake]; rfl
  | pickedUp hexec hbox hawake =>
    -- the block only changes its place: it was the one that waited, and executes now
    rw [moved, advance_fst, hawake]
    unfold inFlight
    rw [hexec, hbox]
    rfl

/-- The end of a block takes it from the front of the queue. -/
theorem inFlight_finish {s : Session n} {b : Block n} (hexec : s.executing = some b) :
    s.inFlight = b :: s.finish.1.inFlight := by
  unfold inFlight
  cases handover_cases s with
  | rests hbox hfinish => rw [hfinish, hexec, hbox]; rfl
  | handsOver next hbox hfinish => rw [hfinish, hexec, hbox]; rfl

/-- A tick takes the block that it ends from the front of the queue, and nothing else. -/
theorem inFlight_tick (s : Session n) :
    s.inFlight = s.tick.answer.toList ++ s.tick.state.inFlight := by
  cases tick_cases s with
  | idle _ _ htick => rw [htick]; rfl
  | runs b hwake _ htick => rw [htick, ← hwake.inFlight_moved]; rfl
  | ends b hwake _ htick =>
    rw [htick, ← hwake.inFlight_moved, inFlight_finish hwake.executing_moved]
    rfl

/-! ## A submission -/

/-- Everything that the submission of a block can come to. -/
structure SubmitSpec (s : Session n) (registered : Nat) (b : Block n) : Prop where
  taken_iff : (s.submit b).answer = .ok () ↔ b.Fits registered ∧ s.mailbox = none
  /-- A block that does not fit is refused for that, whether or not the mailbox is full. -/
  misfit : ¬ b.Fits registered → ∃ f, (s.submit b).answer = .error (b, .block f)
  /-- A block that fits is refused only because another one waits. -/
  full_iff : b.Fits registered →
    ((s.submit b).answer = .error (b, .engine .mailboxFull) ↔ s.isReady = false)
  /-- A block that is taken waits, and nothing else has changed. -/
  taken : (s.submit b).answer = .ok () → s.submit b = ⟨{ s with mailbox := some b }, .ok (), []⟩
  /-- A block that is refused is handed back, and nothing has changed. -/
  refused : ∀ back, (s.submit b).answer = .error back →
    back.1 = b ∧ s.submit b = ⟨s, .error back, []⟩

/-- **A submission** is answered as `SubmitSpec` says, in every session. -/
theorem submit_spec (s : Session n) (b : Block n) : s.SubmitSpec s.motors.size b := by
  have hfits : b.fault? s.motors.size = none ↔ b.Fits s.motors.size :=
    b.fault?_eq_none_iff s.motors.size
  -- the block is checked first, and only one that fits comes to the mailbox
  cases hfault : b.fault? s.motors.size with
  | some f =>
    have hmisfit : ¬ b.Fits s.motors.size := by rw [← hfits, hfault]; exact Option.some_ne_none f
    have hsubmit := submit_of_fault hfault
    exact {
      taken_iff := by
        rw [hsubmit]
        exact iff_of_false (fun h => by cases h) fun h => hmisfit h.1
      misfit := fun _ => ⟨f, by rw [hsubmit]⟩
      full_iff := fun h => absurd h hmisfit
      taken := fun h => by rw [hsubmit] at h; cases h
      refused := fun back h => by rw [hsubmit] at h ⊢; cases h; exact ⟨rfl, rfl⟩ }
  | none =>
    have hfit : b.Fits s.motors.size := hfits.mp hfault
    cases hbox : s.mailbox with
    | some next =>
      have hsubmit := submit_of_full hfault hbox
      exact {
        taken_iff := by
          rw [hsubmit, hbox]
          exact iff_of_false (fun h => by cases h) fun h => Option.some_ne_none next h.2
        misfit := fun h => absurd hfit h
        full_iff := fun _ => by rw [hsubmit, isReady, hbox]; exact iff_of_true rfl rfl
        taken := fun h => by rw [hsubmit] at h; cases h
        refused := fun back h => by rw [hsubmit] at h ⊢; cases h; exact ⟨rfl, rfl⟩ }
    | none =>
      have hsubmit := submit_of_free hfault hbox
      exact {
        taken_iff := by rw [hsubmit]; exact iff_of_true rfl ⟨hfit, hbox⟩
        misfit := fun h => absurd hfit h
        full_iff := fun _ => by
          rw [hsubmit, isReady, hbox]
          exact iff_of_false (fun h => by cases h) Bool.noConfusion
        taken := fun _ => hsubmit
        refused := fun back h => by rw [hsubmit] at h; cases h }

end Session

namespace Machine

/-! ## A run -/

/-- The blocks that were taken and have not ended, in order; between sessions one may wait. -/
def inFlight (m : Machine n) : List (Block n) :=
  m.executing.toList ++ m.controller.mailbox.toList

/-- **Every call balances.** What it takes is appended to the queue, and what it ends was at the
front. -/
theorem delivery_call (m : Machine n) (ask : Call n) :
    m.inFlight ++ (m.exchange ask).accepted?.toList =
      (m.exchange ask).ended?.toList ++ (m.call ask).state.inFlight := by
  cases m with
  | setup c =>
    cases setup_cases c ask with
    | started _ hstate hquiet =>
      rw [hquiet.accepted, hquiet.ended, hstate]
      exact List.append_nil _
    | kept c' hstate hupkeep hquiet =>
      rw [hquiet.accepted, hquiet.ended, hstate]
      show c.mailbox.toList ++ [] = c'.mailbox.toList
      rw [hupkeep.mailbox, List.append_nil]
  | running s =>
    cases session_cases s ask with
    | taken b hask _ hbox hcall =>
      rw [exchange, hcall, hask]
      show (s.executing.toList ++ s.mailbox.toList) ++ [b] = s.executing.toList ++ [b]
      rw [hbox, Option.toList_none, List.append_nil]
    | ticked hask hcall =>
      rw [exchange, hcall, hask]
      exact (List.append_nil _).trans s.inFlight_tick
    -- a stop keeps the waiting block, and ends the executing one where it is
    | stopped hask hcall =>
      rw [exchange, hcall, hask]
      exact List.append_nil _
    | aside s' _ _ hstate haside hquiet =>
      rw [hquiet.accepted, hquiet.ended, hstate]
      show (s.executing.toList ++ s.mailbox.toList) ++ [] =
        s'.executing.toList ++ s'.mailbox.toList
      rw [haside.executing, haside.mailbox, List.append_nil]

/-- **Every run balances**, whatever phases it goes through. -/
theorem delivery_run (m : Machine n) (calls : List (Call n)) :
    m.inFlight ++ (m.run calls).2.accepted = (m.run calls).2.ended ++ (m.run calls).1.inFlight := by
  -- induction on the calls: the queue between two calls cancels out
  induction calls generalizing m with
  | nil => exact List.append_nil _
  | cons ask rest ih =>
    rw [run_cons_exchange, Transcript.accepted_cons, Transcript.ended_cons]
    let after := (m.call ask).state.run rest
    calc m.inFlight ++ ((m.exchange ask).accepted?.toList ++ after.2.accepted)
        = (m.exchange ask).ended?.toList ++ ((m.call ask).state.inFlight ++ after.2.accepted) := by
          rw [← List.append_assoc, delivery_call, List.append_assoc]
      _ = (m.exchange ask).ended?.toList ++ (after.2.ended ++ after.1.inFlight) := by rw [ih]
      _ = _ := (List.append_assoc _ _ _).symm

/-- **Blocks are delivered once and in order.** After any calls from a creation on, stops and new
starts among them, the blocks that were taken are those that ended, then the one that executes, and
then the one that waits. In every session, a submission is taken exactly if the block fits the
motors registered at the start and the mailbox is empty; whatever is refused is handed back and
leaves no trace. -/
theorem blocks_delivered {timing : Timing} {tickCounter pulseCounter : TimerCounts}
    {c₀ : Controller n} (hc₀ : (Controller.create timing tickCounter pulseCounter).1 = .ok c₀) :
    (∀ calls, ((Machine.setup c₀).run calls).2.accepted =
      ((Machine.setup c₀).run calls).2.ended ++
        ((Machine.setup c₀).run calls).1.executing.toList ++
        ((Machine.setup c₀).run calls).1.controller.mailbox.toList) ∧
    ∀ before c calls, ((Machine.setup c₀).run before).1 = .setup c → .stop ∉ calls →
      ∃ s t, (Machine.setup c₀).run (before ++ .start :: calls) = (.running s, t) ∧
        ∀ b, s.SubmitSpec c.motors.size b := by
  refine ⟨?_, ?_⟩
  · intro calls
    have hrun := delivery_run (.setup c₀) calls
    -- a machine that has just been created has nothing in flight
    have hnothing : inFlight (.setup c₀) = [] := by
      show c₀.mailbox.toList = []
      rw [(mailbox_of_create hc₀).1]
      rfl
    rw [hnothing, List.nil_append] at hrun
    rw [hrun, List.append_assoc]
    rfl
  · intro before c calls hbefore hcalls
    obtain ⟨s, t, hrun, hmotors⟩ := run_start c hcalls
    refine ⟨s, ((Machine.setup c₀).run before).2 ++ t, ?_, ?_⟩
    · rw [run_append, hbefore, hrun]
    · intro b
      rw [← hmotors]
      exact s.submit_spec b

/-- A block that is cut short, and one that waits through the stop and executes in the next session;
and a session that takes one more block. -/
theorem blocks_delivered_restarted :
    (Controller.create {} 0 0).1 = .ok noMotor ∧
      ((Machine.setup noMotor).run [.register 0]).1 = .setup oneMotor ∧ .stop ∉ halfway ∧
      ((Machine.setup noMotor).run (.register 0 :: .start :: halfway ++
        [.submit twoSteps, .submit twoSteps, .stop, .start, .tick])).2.accepted =
          [twoSteps] ++ [twoSteps] ++ [] ∧
      ∃ s t, (Machine.setup noMotor).run ([.register 0] ++ .start :: halfway) = (.running s, t) ∧
        (s.submit twoSteps).answer = .ok () := by
  obtain ⟨hall, hsession⟩ := blocks_delivered create_noMotor
  have hcalls : .stop ∉ halfway := by simp [halfway]
  obtain ⟨s, t, hrun, hspec⟩ := hsession [.register 0] oneMotor halfway rfl hcalls
  have hfits : twoSteps.Fits oneMotor.motors.size :=
    (twoSteps.fault?_eq_none_iff oneMotor.motors.size).mp (by decide)
  have hbox : ((Machine.setup noMotor).run
      ([.register 0] ++ .start :: halfway)).1.controller.mailbox = none := by
    decide +kernel
  rw [hrun] at hbox
  refine ⟨create_noMotor, rfl, hcalls, ?_, s, t, hrun, (hspec twoSteps).taken_iff.mpr ⟨hfits, hbox⟩⟩
  rw [hall]
  decide +kernel

end Machine

end PulseTrain
