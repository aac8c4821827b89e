import PulseTrain.Proofs.Session.Effects
import PulseTrain.Proofs.Session.Run
import PulseTrain.Proofs.Session.Sound

/-!
# Directions are selected where a block begins

The steps and the selected directions that a machine sends, whatever else lies between them, are
those of one block after the other. Each block has its part of them: when it begins, the direction
of every slot that it moves is selected once, and after that only these slots are stepped until the
next block begins.

* **`Leg`**: the part of one block; **`Leg.filter_slot`**: what it sends to one slot.
* **`Sound.legs_tick`**, **`Sound.legs_call`**: what a tick and what a call add to the legs, and
  which of them they close.
* **`Driven.call`**, **`Sound.legs_run`**: the legs of a run, whatever phases it goes through.
-/

namespace PulseTrain

variable {n : Nat}

/-- The signal steps a motor or selects its direction. -/
def Signal.drives : Signal → Bool
  | .step _ | .direction _ _ => true
  | _ => false

/-- What drives a motor is sent by ticks only. -/
theorem Signal.byTick_of_drives {signal : Signal} (h : signal.drives = true) :
    signal.byTick = true := by
  unfold drives at h
  split at h
  · rfl
  · rfl
  · cases h

/-- The directions of the slots that a block moves, in the order of the slots. -/
def Block.selection (b : Block n) : List Signal :=
  ((List.finRange n).filter fun slot => b.steps.get slot ≠ 0).map fun slot : Fin n =>
    .direction slot (b.direction slot)

/-! ## Legs -/

/-- The part that one block has in what a machine drives: the slots that were stepped for it, one
after the other. They are among the slots that it moves. -/
structure Leg (n : Nat) where
  block : Block n
  pulses : List (Fin n)
  moving : ∀ slot ∈ pulses, block.steps.get slot ≠ 0

namespace Leg

/-- First all directions are selected, and then the slots are stepped. -/
def signals (leg : Leg n) : List Signal :=
  leg.block.selection ++ leg.pulses.map fun slot : Fin n => .step slot

/-- The leg of a block that has just begun. -/
def begun (b : Block n) : Leg n := ⟨b, [], List.forall_mem_nil _⟩

/-- The leg after some more steps. -/
def onward (leg : Leg n) (more : List (Fin n))
    (h : ∀ slot ∈ more, leg.block.steps.get slot ≠ 0) : Leg n :=
  ⟨leg.block, leg.pulses ++ more, List.forall_mem_append.mpr ⟨leg.moving, h⟩⟩

/-- What was sent for the leg of the executing block, if there is one. -/
def sent (now : Option (Leg n)) : List Signal := now.elim [] signals

theorem flatMap_toList (now : Option (Leg n)) : now.toList.flatMap signals = sent now := by
  cases now with
  | none => rfl
  | some leg => exact List.append_nil _

theorem signals_begun (b : Block n) : (begun b).signals = b.selection := List.append_nil _

theorem signals_onward (leg : Leg n) (more : List (Fin n))
    (h : ∀ slot ∈ more, leg.block.steps.get slot ≠ 0) :
    (leg.onward more h).signals = leg.signals ++ more.map fun slot : Fin n => .step slot := by
  unfold signals onward
  rw [List.map_append, List.append_assoc]

/-- Among signals to slots, each of the slot is of the same form, and there are as many as the slot
occurs. -/
theorem filter_slot_map (f : Fin n → Signal) (hslot : ∀ i : Fin n, (f i).slot? = some i.val)
    (slots : List (Fin n)) (slot : Fin n) :
    (slots.map f).filter (Signal.isFor slot) =
      List.replicate (slots.count slot) (f slot) := by
  have hsame (i : Fin n) : (f i).isFor slot = (i == slot) := by
    rw [Bool.eq_iff_iff, Signal.isFor_iff, hslot, Option.some.injEq, beq_iff_eq, Fin.ext_iff]
  have hfilter : slots.filter (Signal.isFor slot ∘ f) = slots.filter (· == slot) :=
    List.filter_congr fun i _ => hsame i
  rw [List.filter_map, hfilter, List.filter_beq, List.map_replicate]

/-- The directions of a block are selected once for every slot with steps. -/
theorem count_moving (b : Block n) (slot : Fin n) :
    ((List.finRange n).filter fun slot => b.steps.get slot ≠ 0).count slot =
      if b.steps.get slot = 0 then 0 else 1 := by
  split
  · rename_i hnone
    refine List.count_eq_zero.mpr fun hmem => ?_
    have hsome := (List.mem_filter.mp hmem).2
    rw [decide_eq_true_eq] at hsome
    exact hsome hnone
  · rename_i hsome
    exact List.count_eq_one_of_mem ((List.nodup_finRange n).filter _)
      (List.mem_filter.mpr ⟨List.mem_finRange slot, decide_eq_true hsome⟩)

/-- A slot without steps is not stepped in the leg. -/
theorem count_pulses_eq_zero (leg : Leg n) {slot : Fin n} (h : leg.block.steps.get slot = 0) :
    leg.pulses.count slot = 0 :=
  List.count_eq_zero.mpr fun hmem => leg.moving slot hmem h

/-- **What a leg sends to one slot.** A slot without steps gets nothing, and every other one its
direction once and then steps. -/
theorem filter_slot (leg : Leg n) (slot : Fin n) :
    leg.signals.filter (Signal.isFor slot) =
      if leg.block.steps.get slot = 0 then []
      else .direction slot (leg.block.direction slot) ::
        List.replicate (leg.pulses.count slot) (.step slot) := by
  rw [signals, List.filter_append, Block.selection,
    filter_slot_map (fun slot : Fin n => .direction slot (leg.block.direction slot)) (fun _ => rfl),
    filter_slot_map (fun slot : Fin n => .step slot) (fun _ => rfl), count_moving]
  split
  · rename_i hnone
    rw [leg.count_pulses_eq_zero hnone]
    rfl
  · rfl

end Leg

namespace Session

/-! ## What the parts of a tick drive -/

theorem filter_drives_selection (b : Block n) : b.selection.filter Signal.drives = b.selection := by
  refine List.filter_eq_self.mpr fun signal hmem => ?_
  obtain ⟨_, _, rfl⟩ := List.mem_map.mp hmem
  rfl

/-- A block that fits the motors selects the direction of every slot that it moves. -/
theorem pickUp_snd {s : Session n} {b : Block n} (hfits : b.fault? s.motors.size = none) :
    (s.pickUp b).2 = b.selection := by
  -- the axes that are active are those with steps, and a block that fits has motors for them
  have hmoving (slot : Fin n) : (((b.axes s.timing.tickRate.value).get slot).isActive &&
      decide (slot.val < s.motors.size)) = decide (b.steps.get slot ≠ 0) := by
    have haxis : (b.axes s.timing.tickRate.value).get slot =
        Axis.ofBlock b slot s.timing.tickRate.value := axes_pickUp_get s b slot
    rw [haxis, Axis.isActive, Axis.ofBlock_target, Bool.eq_iff_iff, Bool.and_eq_true, bne_iff_ne,
      decide_eq_true_eq, decide_eq_true_eq, and_iff_left_iff_imp]
    intro hsteps
    exact (((Block.fault?_eq_none_iff b s.motors.size).mp hfits).2 slot hsteps).1
  -- both filters at once, which comes to the slots with steps
  show (((List.finRange n).filter _).filter _).map _ = _
  rw [List.filter_filter, Block.selection]
  exact congrArg (List.map _) (List.filter_congr fun slot _ => hmoving slot)

theorem filter_drives_advance (s : Session n) :
    s.advance.2.filter Signal.drives = s.stepping.map fun slot : Fin n => Signal.step slot :=
  filter_advance (fun _ => rfl) rfl s

/-- A tick steps no slot without steps in the executing block. -/
theorem Sound.steps_of_stepping {s : Session n} (h : s.Sound) {b : Block n}
    (hexec : s.executing = some b) {slot : Fin n} (hmem : slot ∈ s.stepping) :
    b.steps.get slot ≠ 0 := by
  obtain ⟨-, hactive, -⟩ := (ticked_due_iff s slot).mp (mem_stepping.mp hmem)
  exact (h.tallies b hexec slot).steps_ne_zero hactive

/-! ## What a tick adds to the legs -/

/-- The leg that a tick goes on with: that of the executing block, or a new one. -/
theorem Sound.leg_awake {s : Session n} (h : s.Sound) {b : Block n} (hwake : WakeCase s b)
    {now : Option (Leg n)} (hnow : now.map Leg.block = s.executing) :
    ∃ leg : Leg n, leg.block = b ∧
      Leg.sent now ++ s.awake.2.filter Signal.drives = leg.signals := by
  cases hwake with
  | already hexec hawake =>
    rw [hexec] at hnow
    obtain ⟨leg, rfl, hblock⟩ := Option.map_eq_some_iff.mp hnow
    refine ⟨leg, hblock, ?_⟩
    rw [hawake]
    exact List.append_nil _
  | pickedUp hexec hbox hawake =>
    -- nothing executed, so no leg is open that the directions could belong to
    rw [hexec, Option.map_eq_none_iff] at hnow
    refine ⟨.begun b, rfl, ?_⟩
    rw [hawake, pickUp_snd (h.waiting_fits b hbox), filter_drives_selection, Leg.signals_begun,
      hnow]
    rfl

/-- The same leg after the moves of the tick. -/
theorem Sound.leg_moved {s : Session n} (h : s.Sound) {b : Block n} (hwake : WakeCase s b)
    {now : Option (Leg n)} (hnow : now.map Leg.block = s.executing) :
    ∃ leg : Leg n, leg.block = b ∧
      Leg.sent now ++ (s.awake.2 ++ s.awake.1.advance.2).filter Signal.drives = leg.signals := by
  obtain ⟨leg, rfl, hsignals⟩ := h.leg_awake hwake hnow
  have hmoving (slot : Fin n) (hmem : slot ∈ s.awake.1.stepping) : leg.block.steps.get slot ≠ 0 :=
    (h.awake hwake).steps_of_stepping hwake.executing_awake hmem
  refine ⟨leg.onward s.awake.1.stepping hmoving, rfl, ?_⟩
  rw [List.filter_append, ← List.append_assoc, hsignals, filter_drives_advance, Leg.signals_onward]

/-- The leg that the end of a block begins, if another block waits. -/
theorem Sound.leg_finish {s : Session n} (h : s.Sound) :
    ∃ next : Option (Leg n), next.map Leg.block = s.finish.1.executing ∧
      s.finish.2.filter Signal.drives = Leg.sent next := by
  cases handover_cases s with
  | rests _ hfinish =>
    rw [hfinish]
    exact ⟨none, rfl, rfl⟩
  | handsOver b hbox hfinish =>
    have hselect : (Session.pickUp { s with elapsed := 0 } b).2 = b.selection :=
      pickUp_snd (h.waiting_fits b hbox)
    refine ⟨some (.begun b), by rw [hfinish]; rfl, ?_⟩
    rw [hfinish, List.filter_append, hselect, filter_drives_selection, Leg.sent, Option.elim_some,
      Leg.signals_begun]
    exact List.append_nil _

/-- **A tick goes on with the leg of the executing block.** The leg is closed if the tick ends the
block, and then that of the next block has begun. -/
theorem Sound.legs_tick {s : Session n} (h : s.Sound) {now : Option (Leg n)}
    (hnow : now.map Leg.block = s.executing) :
    ∃ (closed : List (Leg n)) (now' : Option (Leg n)),
      closed.map Leg.block = s.tick.answer.toList ∧
      now'.map Leg.block = s.tick.state.executing ∧
      Leg.sent now ++ s.tick.signals.filter Signal.drives =
        closed.flatMap Leg.signals ++ Leg.sent now' := by
  cases tick_cases s with
  | idle _ _ htick =>
    rw [htick]
    exact ⟨[], now, rfl, hnow, List.append_nil _⟩
  -- no block ends, so the leg stays open
  | runs b hwake _ htick =>
    obtain ⟨leg, hblock, hleg⟩ := h.leg_moved hwake hnow
    rw [htick]
    refine ⟨[], some leg, rfl, ?_, hleg⟩
    rw [Option.map_some, hblock]
    exact hwake.executing_moved.symm
  | ends b hwake _ htick =>
    obtain ⟨leg, hblock, hleg⟩ := h.leg_moved hwake hnow
    obtain ⟨next, hnext, hbegun⟩ := (h.moved hwake).leg_finish
    rw [htick]
    refine ⟨[leg], next, by rw [List.map_singleton, hblock]; rfl, hnext, ?_⟩
    -- the steps of the tick belong to the block that it ends, the directions to the next one
    rw [← List.append_assoc s.awake.2, List.filter_append, ← List.append_assoc (Leg.sent now), hleg,
      hbegun, List.flatMap_singleton]

end Session

namespace Machine

/-! ## The legs of a run -/

/-- Only ticks drive motors. -/
theorem filter_drives_call {m : Machine n} {ask : Call n} (hask : ask ≠ .tick) :
    (m.exchange ask).signals.filter Signal.drives = [] :=
  List.filter_eq_nil_iff.mpr fun _ hmem hdrives =>
    hask (ask_eq_tick (m := m) hmem (Signal.byTick_of_drives hdrives))

/-- What a call other than a tick ends is what executed before it. -/
theorem legs_of_ne_tick {m : Machine n} {ask : Call n} (hask : ask ≠ .tick) {now : Option (Leg n)}
    (hnow : now.map Leg.block = m.executing) :
    ∃ (closed : List (Leg n)) (now' : Option (Leg n)),
      closed.map Leg.block = (m.exchange ask).ended?.toList ∧
      now'.map Leg.block = (m.call ask).state.executing ∧
      Leg.sent now = closed.flatMap Leg.signals ++ Leg.sent now' := by
  cases m with
  | setup c =>
    cases setup_cases c ask with
    | started _ hstate hquiet =>
      refine ⟨[], now, by rw [hquiet.ended]; rfl, ?_, rfl⟩
      rw [hstate]
      exact hnow
    | kept c' hstate _ hquiet =>
      refine ⟨[], now, by rw [hquiet.ended]; rfl, ?_, rfl⟩
      rw [hstate]
      exact hnow
  | running s =>
    cases session_cases s ask with
    | taken b hsubmit _ _ hcall =>
      rw [exchange, hcall, hsubmit]
      exact ⟨[], now, rfl, hnow, rfl⟩
    | ticked htick _ => exact absurd htick hask
    | stopped _ hcall =>
      -- the stop cuts the executing block short, and its leg is closed as it is
      rw [exchange, hcall]
      refine ⟨now.toList, none, ?_, rfl, ?_⟩
      · rw [← Option.toList_map, hnow]
        rfl
      · rw [Leg.flatMap_toList]
        exact (List.append_nil _).symm
    | aside s' _ _ hstate haside hquiet =>
      refine ⟨[], now, by rw [hquiet.ended]; rfl, ?_, rfl⟩
      rw [hstate]
      exact hnow.trans haside.executing.symm

/-- **Every call goes on with the leg of the executing block.** -/
theorem Sound.legs_call {m : Machine n} (h : m.Sound) (ask : Call n) {now : Option (Leg n)}
    (hnow : now.map Leg.block = m.executing) :
    ∃ (closed : List (Leg n)) (now' : Option (Leg n)),
      closed.map Leg.block = (m.exchange ask).ended?.toList ∧
      now'.map Leg.block = (m.call ask).state.executing ∧
      Leg.sent now ++ (m.exchange ask).signals.filter Signal.drives =
        closed.flatMap Leg.signals ++ Leg.sent now' := by
  -- ticks drive, and all other calls only close legs
  by_cases hask : ask = .tick
  · subst hask
    cases m with
    | setup c => exact ⟨[], now, rfl, hnow, List.append_nil _⟩
    | running s =>
      have hs : s.Sound := h
      exact hs.legs_tick hnow
  · rw [filter_drives_call hask, List.append_nil]
    exact legs_of_ne_tick hask hnow

/-- The legs of the blocks that have ended and that of the executing one make up what was driven. -/
structure Driven (m : Machine n) (t : Transcript n) (past : List (Leg n)) (now : Option (Leg n)) :
    Prop where
  past_blocks : past.map Leg.block = t.ended
  now_block : now.map Leg.block = m.executing
  signals : t.signals.filter Signal.drives = past.flatMap Leg.signals ++ Leg.sent now

/-- Every call closes as many legs as it ends blocks, and goes on with the last one. -/
theorem Driven.call {m : Machine n} {t : Transcript n} {past : List (Leg n)} {now : Option (Leg n)}
    (h : m.Driven t past now) (hm : m.Sound) (ask : Call n) :
    ∃ past' now', (m.call ask).state.Driven (t ++ [m.exchange ask]) past' now' := by
  obtain ⟨closed, now', hclosed, hnow', hcall⟩ := hm.legs_call ask h.now_block
  refine ⟨past ++ closed, now', ?_, hnow', ?_⟩
  · rw [List.map_append, h.past_blocks, hclosed, Transcript.ended_concat]
  · rw [Transcript.signals_concat, List.filter_append, h.signals, List.append_assoc, hcall,
      List.flatMap_append, List.append_assoc]

/-- **What a run drives is one leg after the other**, one for each block that has ended and one for
the executing one, whatever phases the run goes through. -/
theorem Sound.legs_run {m : Machine n} (h : m.Sound) (hexec : m.executing = none)
    (calls : List (Call n)) :
    ∃ legs : List (Leg n),
      legs.map Leg.block = (m.run calls).2.ended ++ (m.run calls).1.executing.toList ∧
      (m.run calls).2.signals.filter Signal.drives = legs.flatMap Leg.signals := by
  -- soundness goes along: what waits must fit the motors when it is picked up
  obtain ⟨-, past, now, hdriven⟩ := run_induction (m := m)
    (motive := fun m' t => m'.Sound ∧ ∃ past now, m'.Driven t past now)
    ⟨h, [], none, rfl, hexec.symm, rfl⟩
    (fun m' t ask ⟨hsound, past, now, hdriven⟩ => ⟨hsound.call ask, hdriven.call hsound ask⟩) calls
  refine ⟨past ++ now.toList, ?_, ?_⟩
  · rw [List.map_append, hdriven.past_blocks, ← hdriven.now_block, Option.toList_map]
  · rw [hdriven.signals, List.flatMap_append, Leg.flatMap_toList]

end Machine

end PulseTrain
