import Mathlib.Data.Finset.Lattice.Fold
import Mathlib.Data.Fintype.Basic
import Mathlib.Order.Lattice.Nat
import PulseTrain.Proofs.Axis.Solo
import PulseTrain.Proofs.Session.Run
import PulseTrain.Proofs.Session.Sound

/-!
# Blocks run as their slots would alone

A session interleaves the slots of a block with each other, with the calls of the planner and with
the blocks before and after. None of that shows in the steps: tick `t` of a block steps exactly the
slots whose own string of bits (`Block.solo`) has a one there, and the block ends with the longest
of these strings.

The number of a tick is not read off `Session.elapsed`, which wraps. It is counted along the calls:

* **`Course`**: a block, the tick rate when it began, and the number of its ticks.
* **`Machine.course`**: the course of the executing block after calls in a row.
* **`Session.Tracks`**: the invariant that ties the session to the course, slot by slot; it is kept
  by a tick (`Tracks.tick`) and by every call (`Machine.Tracks.call`).
* **`Session.TickFollows`**: what the next tick does where the invariant holds.
* **`ticks_follow_solo`**: the same for every session.
-/

namespace PulseTrain

variable {n : Nat}

/-- How far a block has come. -/
structure Course (n : Nat) where
  block : Block n
  /-- The tick rate in force when the block began. -/
  rate : Float32
  /-- The ticks of the block so far; unlike `Session.elapsed`, the number does not wrap. -/
  ticks : Nat
deriving DecidableEq

namespace Course

/-- The course after one more tick. -/
def next (j : Course n) : Course n := { j with ticks := j.ticks + 1 }

/-- The axis of a slot after the ticks so far, had it been alone. -/
def axis (j : Course n) (slot : Fin n) : Axis := j.block.axisAlone j.rate slot j.ticks

/-- A slot alone would be stepped on the next tick. -/
def due (j : Course n) (slot : Fin n) : Bool :=
  j.block.solo j.rate slot (j.ticks + 1) == some true

end Course

namespace Session

/-- The course that the next tick continues: that of the executing block, or else a new one of the
block that waits, at the tick rate in force. -/
def upcoming (s : Session n) : Option (Course n) → Option (Course n)
  | some j => some j
  | none => s.mailbox.map fun b => ⟨b, s.timing.tickRate.value, 0⟩

/-- The course after a tick. A block that was executing hands over to the one that waits, which is
then at the beginning of its course. -/
def courseAfterTick (s : Session n) (k : Option (Course n)) : Option (Course n) :=
  match s.tick.answer with
  | none => (s.upcoming k).map Course.next
  | some _ => k.bind fun _ => s.upcoming none

end Session

namespace Machine

/-- The course after one call. -/
def courseAfter : Machine n → Option (Course n) → Call n → Option (Course n)
  | .running s, k, .tick => s.courseAfterTick k
  | .running _, _, .stop => none
  | _, k, _ => k

/-- The course of the executing block after calls in a row. -/
def course (m : Machine n) (k : Option (Course n)) : List (Call n) → Option (Course n)
  | [] => k
  | ask :: rest => (m.call ask).state.course (m.courseAfter k ask) rest

end Machine

namespace Session

/-! ## In step with a course -/

/-- The session is at the point of a course: every axis is where it would be alone. -/
structure InStep (s : Session n) (j : Course n) : Prop where
  executing : s.executing = some j.block
  rate : s.rate = j.rate
  elapsed : s.elapsed = UInt32.ofNat j.ticks
  profile : s.profile = j.block.toProfile
  axes : ∀ slot, s.axes.get slot = j.axis slot

/-- A block that is picked up is at the beginning of its course, at the rate of the moment. -/
theorem inStep_pickUp {s : Session n} (helapsed : s.elapsed = 0) (b : Block n) :
    (s.pickUp b).1.InStep ⟨b, s.timing.tickRate.value, 0⟩ where
  executing := rfl
  rate := rfl
  elapsed := helapsed
  profile := rfl
  axes slot := axes_pickUp_get s b slot

theorem InStep.of_aside {s s' : Session n} {j : Course n} (h : s.InStep j) (haside : s.Aside s') :
    s'.InStep j where
  executing := haside.executing.trans h.executing
  rate := haside.rate.trans h.rate
  elapsed := haside.elapsed.trans h.elapsed
  profile := haside.profile.trans h.profile
  axes slot := by rw [haside.axes]; exact h.axes slot

/-- A session in step ticks each slot as the slot would be ticked alone. -/
theorem InStep.tickedAxes {s : Session n} {j : Course n} (h : s.InStep j) (hs : s.Sound)
    (slot : Fin n) :
    s.tickedAxes.get slot =
      if (j.axis slot).isActive = true then j.block.tickAlone j.rate slot j.ticks
      else (j.axis slot, false) := by
  -- the field is counted up before the slots are moved, so the tick is one ahead of the course
  have htick : s.elapsed + 1 = 1 + UInt32.ofNat j.ticks := by rw [h.elapsed, UInt32.add_comm]
  rw [tickedAxes_get, h.axes]
  by_cases hactive : (j.axis slot).isActive = true
  · -- only slots with a motor are ticked, and an active one has a motor
    have hslot : slot.val < s.motors.size := by
      rw [← h.axes] at hactive
      exact hs.lt_of_isActive h.executing hactive
    rw [if_pos ⟨hslot, hactive⟩, if_pos hactive, htick, h.profile, h.rate]
    rfl
  · rw [if_neg fun hmoves => hactive hmoves.2, if_neg hactive]

/-- Moving all slots by a tick is the next tick of the course. -/
theorem InStep.advance {s : Session n} {j : Course n} (h : s.InStep j) (hs : s.Sound) :
    s.advance.1.InStep j.next where
  executing := by rw [advance_fst]; exact h.executing
  rate := by rw [advance_fst]; exact h.rate
  elapsed := by
    rw [advance_fst]
    show s.elapsed + 1 = UInt32.ofNat (j.ticks + 1)
    -- the field wraps where the number of the course does not
    rw [h.elapsed, UInt32.ofNat_add]
    rfl
  profile := by rw [advance_fst]; exact h.profile
  axes slot := by
    rw [advance_axes_get, h.tickedAxes hs]
    show _ = j.block.axisAlone j.rate slot (j.ticks + 1)
    rw [Block.axisAlone_succ]
    show _ = if (j.axis slot).isActive = true then _ else j.axis slot
    split <;> rfl

/-- The slots that a tick steps are the registered ones that would be stepped alone. -/
theorem InStep.stepping {s : Session n} {j : Course n} (h : s.InStep j) (hs : s.Sound) :
    s.stepping = (List.finRange n).filter fun slot =>
      decide (slot.val < s.motors.size) && j.due slot := by
  have hdue (slot : Fin n) : (s.tickedAxes.get slot).2 = j.due slot := by
    rw [h.tickedAxes hs, Course.due, Block.solo_succ]
    show _ = ((if (j.axis slot).isActive = true then _ else none) == some true)
    split
    · simp
    · rfl
  unfold Session.stepping slots
  rw [List.filter_filter]
  refine List.filter_congr fun slot _ => ?_
  rw [hdue, Bool.and_comm]

/-! ## Where the session is -/

/-- The session is where a course says. A block that has had a tick still moves: otherwise the tick
would have ended it. -/
inductive Tracks (s : Session n) : Option (Course n) → Prop where
  | idle (hexec : s.executing = none) (helapsed : s.elapsed = 0) : Tracks s none
  | busy (j : Course n) (hstep : s.InStep j)
      (hmoves : j.ticks ≠ 0 → ∃ slot, (j.axis slot).isActive = true) : Tracks s (some j)

/-- The block of the course is the executing one. -/
theorem Tracks.executing {s : Session n} {k : Option (Course n)} (h : s.Tracks k) :
    s.executing = k.map Course.block := by
  cases h with
  | idle hexec _ => exact hexec
  | busy j hstep _ => exact hstep.executing

theorem Tracks.of_aside {s s' : Session n} {k : Option (Course n)} (h : s.Tracks k)
    (haside : s.Aside s') : s'.Tracks k := by
  cases h with
  | idle hexec helapsed =>
    exact .idle (haside.executing.trans hexec) (haside.elapsed.trans helapsed)
  | busy j hstep hmoves => exact .busy j (hstep.of_aside haside) hmoves

/-- A session that has a block to move is in step with its course once it is awake. -/
theorem Tracks.awake {s : Session n} {k : Option (Course n)} (h : s.Tracks k) {j : Course n}
    (hup : s.upcoming k = some j) :
    WakeCase s j.block ∧ s.awake.1.InStep j ∧
      (j.ticks ≠ 0 → ∃ slot, (j.axis slot).isActive = true) := by
  cases h with
  | idle hexec helapsed =>
    cases hbox : s.mailbox with
    | none => rw [upcoming, hbox] at hup; cases hup
    | some b =>
      rw [upcoming, hbox] at hup
      cases hup
      have hawake := awake_of_waiting hexec hbox
      -- the block is picked up on this tick, and its course begins with it
      refine ⟨.pickedUp hexec hbox hawake, ?_, fun hticks => absurd rfl hticks⟩
      rw [hawake]
      exact inStep_pickUp helapsed b
  | busy j' hstep hmoves =>
    cases hup
    have hawake := awake_of_executing hstep.executing
    refine ⟨.already hstep.executing hawake, ?_, hmoves⟩
    rw [hawake]
    exact hstep

/-- Where there is a block to move, there is a course to follow. -/
theorem Tracks.upcoming_of_wakeCase {s : Session n} {k : Option (Course n)} (h : s.Tracks k)
    {b : Block n} (hwake : WakeCase s b) : ∃ j, s.upcoming k = some j := by
  cases h with
  | idle hexec _ =>
    cases hwake with
    | already hexec' _ => rw [hexec] at hexec'; cases hexec'
    | pickedUp _ hbox _ => exact ⟨_, by rw [upcoming, hbox]; rfl⟩
  | busy j hstep _ => exact ⟨j, rfl⟩

/-- After the moves of a tick, some slot moves exactly if some slot would move alone. -/
theorem Tracks.isMoving_moved {s : Session n} {k : Option (Course n)} (h : s.Tracks k)
    (hs : s.Sound) {j : Course n} (hup : s.upcoming k = some j) :
    s.moved.isMoving = true ↔ ∃ slot, (j.next.axis slot).isActive = true := by
  obtain ⟨hwake, hstep, -⟩ := h.awake hup
  have hmoved := hstep.advance (hs.awake hwake)
  rw [(hs.moved hwake).isMoving_iff hwake.executing_moved]
  exact exists_congr fun slot => by rw [Session.moved, hmoved.axes]

/-- A session whose block has ended is idle, or at the beginning of the block that waited. -/
theorem tracks_finish (s : Session n) : s.finish.1.Tracks (s.upcoming none) := by
  cases handover_cases s with
  | rests hbox hfinish =>
    rw [hfinish, upcoming, hbox]
    exact .idle rfl rfl
  | handsOver next hbox hfinish =>
    rw [hfinish, upcoming, hbox]
    -- the block that waited is picked up on the axes of the one that has ended
    have hbegun := inStep_pickUp (s := { s with elapsed := 0 }) rfl next
    have hstep : Session.InStep { ({ s with elapsed := 0 }.pickUp next).1 with
        backlog := s.backlog.add } ⟨next, s.timing.tickRate.value, 0⟩ :=
      ⟨hbegun.executing, hbegun.rate, hbegun.elapsed, hbegun.profile, hbegun.axes⟩
    exact .busy _ hstep fun hticks => absurd rfl hticks

theorem courseAfterTick_of_none {s : Session n} (h : s.tick.answer = none)
    (k : Option (Course n)) : s.courseAfterTick k = (s.upcoming k).map Course.next := by
  rw [courseAfterTick, h]

theorem courseAfterTick_of_some {s : Session n} {b : Block n} (h : s.tick.answer = some b)
    (k : Option (Course n)) : s.courseAfterTick k = k.bind fun _ => s.upcoming none := by
  rw [courseAfterTick, h]

/-- What waits behind a block is unchanged by its moves; behind one that has just been picked up
nothing waits. -/
theorem Tracks.upcoming_moved {s : Session n} {k : Option (Course n)} (h : s.Tracks k)
    {b : Block n} (hwake : WakeCase s b) :
    s.moved.upcoming none = k.bind fun _ => s.upcoming none := by
  cases h with
  | idle hexec _ =>
    cases hwake with
    | already hexec' _ => rw [hexec] at hexec'; cases hexec'
    | pickedUp _ _ hawake =>
      -- the block has just been taken out of the mailbox, so nothing waits behind it
      rw [moved, advance_fst, hawake]
      rfl
  | busy j hstep _ =>
    rw [moved, advance_fst, awake_of_executing hstep.executing]
    rfl

/-- **A tick keeps the session where the course says.** -/
theorem Tracks.tick {s : Session n} {k : Option (Course n)} (h : s.Tracks k) (hs : s.Sound) :
    s.tick.state.Tracks (s.courseAfterTick k) := by
  cases tick_cases s with
  | idle hexec hbox htick =>
    rw [courseAfterTick_of_none (by rw [htick]), htick]
    cases h with
    | idle _ helapsed =>
      rw [upcoming, hbox]
      exact .idle hexec helapsed
    | busy j hstep _ => rw [hstep.executing] at hexec; cases hexec
  | runs b hwake hmoving htick =>
    -- the block moves on, so that some slot would also move on alone
    obtain ⟨j, hup⟩ := h.upcoming_of_wakeCase hwake
    obtain ⟨-, hstep, -⟩ := h.awake hup
    rw [courseAfterTick_of_none (by rw [htick]), htick, hup]
    exact .busy j.next (hstep.advance (hs.awake hwake))
      fun _ => (h.isMoving_moved hs hup).mp hmoving
  | ends b hwake _ htick =>
    rw [courseAfterTick_of_some (by rw [htick]), htick, ← h.upcoming_moved hwake]
    exact tracks_finish s.moved

/-! ## What the next tick does -/

/-- **A block ends on the tick after which no slot would move alone.** -/
theorem Tracks.ends_iff {s : Session n} {k : Option (Course n)} (h : s.Tracks k) (hs : s.Sound)
    {j : Course n} (hup : s.upcoming k = some j) :
    s.tick.answer = some j.block ↔ ∀ slot, (j.next.axis slot).isActive = false := by
  obtain ⟨hwake, -, -⟩ := h.awake hup
  have hmoving := h.isMoving_moved hs hup
  -- the tick ends the block exactly when no slot is left moving
  cases hcase : s.moved.isMoving with
  | true =>
    obtain ⟨slot, hactive⟩ := hmoving.mp hcase
    rw [hwake.tick_of_moving hcase]
    -- the slot that would move on contradicts that none does
    refine iff_of_false nofun ?_
    intro hall
    rw [hall slot] at hactive
    cases hactive
  | false =>
    rw [hwake.tick_of_still hcase]
    refine iff_of_true rfl ?_
    intro slot
    rw [Bool.eq_false_iff]
    intro hactive
    rw [hmoving.mpr ⟨slot, hactive⟩] at hcase
    cases hcase

/-- Where the strings of all slots end, the block ends with the longest of them, and has its first
tick in any case. -/
theorem Tracks.ends_with_longest {s : Session n} {k : Option (Course n)} (h : s.Tracks k)
    (hs : s.Sound) {j : Course n} (hup : s.upcoming k = some j) {lengths : Fin n → Nat}
    (hlengths : ∀ slot, j.block.SoloEnds j.rate slot (lengths slot)) :
    j.ticks + 1 ≤ max 1 (Finset.univ.sup lengths) ∧
      (s.tick.answer = some j.block ↔ j.ticks + 1 = max 1 (Finset.univ.sup lengths)) := by
  -- a block that has had a tick still moves, so the longest string goes past that tick
  have hreached : j.ticks + 1 ≤ max 1 (Finset.univ.sup lengths) := by
    by_cases hticks : j.ticks = 0
    · omega
    · obtain ⟨-, -, hmoves⟩ := h.awake hup
      obtain ⟨slot, hactive⟩ := hmoves hticks
      have hlt : j.ticks < lengths slot := ((hlengths slot).isActive_iff j.ticks).mp hactive
      have hle : lengths slot ≤ Finset.univ.sup lengths := Finset.le_sup (Finset.mem_univ slot)
      omega
  -- no slot moves any more exactly when every string is through
  have hthrough : (∀ slot, (j.next.axis slot).isActive = false) ↔
      Finset.univ.sup lengths ≤ j.ticks + 1 := by
    rw [Finset.sup_le_iff]
    refine forall_congr' fun slot => ?_
    have hactive : (j.next.axis slot).isActive = true ↔ j.ticks + 1 < lengths slot :=
      (hlengths slot).isActive_iff (j.ticks + 1)
    rw [Bool.eq_false_iff, ne_eq, hactive, Nat.not_lt]
    exact ⟨fun hle _ => hle, fun hle => hle (Finset.mem_univ slot)⟩
  refine ⟨hreached, ?_⟩
  rw [h.ends_iff hs hup, hthrough]
  omega

/-- What the next tick does in a session where a course says, `j` being the course that the tick
continues or begins. -/
structure TickFollows (s : Session n) (k : Option (Course n)) (j : Course n) : Prop where
  /-- The slots stepped are the registered ones that have a one in their strings. -/
  steps : s.tick.signals.filter Signal.isStep =
    ((List.finRange n).filter fun slot => decide (slot.val < s.motors.size) && j.due slot).map
      fun slot : Fin n => Signal.step slot
  /-- The tick ends this block, or none and the block goes on. -/
  answer : s.tick.answer = some j.block ∨
    s.tick.answer = none ∧ s.tick.state.executing = some j.block ∧
      s.courseAfterTick k = some j.next
  /-- It ends the block if no string goes on. -/
  ends_iff : s.tick.answer = some j.block ↔
    ∀ slot, j.block.solo j.rate slot (j.ticks + 2) = none
  /-- That is the tick of the longest string. -/
  ends_with_longest : ∀ lengths : Fin n → Nat,
    (∀ slot, j.block.SoloEnds j.rate slot (lengths slot)) →
      j.ticks + 1 ≤ max 1 (Finset.univ.sup lengths) ∧
        (s.tick.answer = some j.block ↔ j.ticks + 1 = max 1 (Finset.univ.sup lengths))
  /-- The block that waits behind an executing one begins on the tick that ends it. -/
  hands_over : ∀ next, s.executing ≠ none → s.mailbox = some next →
    s.tick.answer = some j.block →
      s.tick.state.executing = some next ∧ s.tick.state.mailbox = none ∧
        s.courseAfterTick k = some ⟨next, s.timing.tickRate.value, 0⟩

/-- After a block has ended nothing waits: the next block is taken at once. -/
theorem mailbox_finish (s : Session n) : s.finish.1.mailbox = none := by
  cases handover_cases s with
  | rests hbox hfinish => rw [hfinish]; exact hbox
  | handsOver next _ hfinish => rw [hfinish]; rfl

/-- **The next tick follows the course.** -/
theorem Tracks.follows {s : Session n} {k : Option (Course n)} (h : s.Tracks k) (hs : s.Sound)
    {j : Course n} (hup : s.upcoming k = some j) : s.TickFollows k j := by
  obtain ⟨hwake, hstep, -⟩ := h.awake hup
  refine ⟨?_, ?_, ?_, fun lengths hlengths => h.ends_with_longest hs hup hlengths, ?_⟩
  · rw [hwake.filter_isStep_tick, hstep.stepping (hs.awake hwake), hwake.motors_awake]
  · cases hcase : s.moved.isMoving with
    | true =>
      have htick := hwake.tick_of_moving hcase
      refine .inr ⟨by rw [htick], by rw [htick]; exact hwake.executing_moved, ?_⟩
      rw [courseAfterTick_of_none (by rw [htick]), hup]
      rfl
    | false => exact .inl (by rw [hwake.tick_of_still hcase])
  · rw [h.ends_iff hs hup]
    exact forall_congr' fun slot => (j.block.solo_eq_none_iff j.rate slot (j.ticks + 1)).symm
  · intro next hexec hbox hanswer
    have hcourse : s.courseAfterTick k = some ⟨next, s.timing.tickRate.value, 0⟩ := by
      rw [courseAfterTick_of_some hanswer]
      cases h with
      | idle hnone _ => exact absurd hnone hexec
      | busy _ _ _ => rw [Option.bind_some, upcoming, hbox]; rfl
    -- the session is where the course of the block that waited begins
    have hafter := (h.tick hs).executing
    rw [hcourse] at hafter
    refine ⟨hafter, ?_, hcourse⟩
    obtain ⟨-, hstill⟩ := ends_of_answer hanswer
    rw [hwake.tick_of_still hstill]
    exact mailbox_finish s.moved

end Session

namespace Machine

/-! ## A session -/

/-- The machine is where a course says: in a session the session is, and between sessions no block
executes. -/
def Tracks : Machine n → Option (Course n) → Prop
  | .setup _, k => k = none
  | .running s, k => s.Tracks k

/-- Only ticks and stops change the course. -/
theorem courseAfter_of_ne {m : Machine n} {k : Option (Course n)} {ask : Call n}
    (htick : ask ≠ .tick) (hstop : ask ≠ .stop) : m.courseAfter k ask = k := by
  unfold courseAfter
  split
  · exact absurd rfl htick
  · exact absurd rfl hstop
  · rfl

/-- **Every call keeps the machine where the course says.** -/
theorem Tracks.call {m : Machine n} {k : Option (Course n)} (h : m.Tracks k) (hm : m.Sound)
    (ask : Call n) : (m.call ask).state.Tracks (m.courseAfter k ask) := by
  cases m with
  | setup c =>
    cases h
    cases setup_cases c ask with
    | started _ hstate _ => rw [hstate]; exact .idle rfl rfl
    | kept c' hstate _ _ => rw [hstate]; rfl
  | running s =>
    have hs : s.Sound := hm
    have htracks : s.Tracks k := h
    cases session_cases s ask with
    -- a block that only waits is no part of the course
    | taken b hask _ _ hcall =>
      rw [hcall, hask]
      cases htracks with
      | idle hexec helapsed => exact .idle hexec helapsed
      | busy j hstep hmoves =>
        have hstep' : Session.InStep { s with mailbox := some b } j :=
          ⟨hstep.executing, hstep.rate, hstep.elapsed, hstep.profile, hstep.axes⟩
        exact .busy j hstep' hmoves
    | ticked hask hcall => rw [hcall, hask]; exact htracks.tick hs
    | stopped hask hcall => rw [hcall, hask]; rfl
    | aside s' htick hstop hstate haside _ =>
      rw [hstate, courseAfter_of_ne htick hstop]
      exact htracks.of_aside haside

/-- Every run keeps the machine where the course says. -/
theorem Tracks.run {m : Machine n} {k : Option (Course n)} (h : m.Tracks k) (hm : m.Sound)
    (calls : List (Call n)) : (m.run calls).1.Tracks (m.course k calls) := by
  -- induction on the calls, with the invariant carried by `Tracks.call`
  induction calls generalizing m k with
  | nil => exact h
  | cons ask rest ih => exact ih (h.call hm ask) (hm.call ask)

/-- **Slots run as if they were alone, and blocks without a gap.** Let a session be started on any
machine that can be reached, and any calls but a stop be made in it. Then the course that is counted
along these calls is that of the executing block. The next tick does nothing if no block executes or
waits. Otherwise it is the next tick of the executing block, or the first one of the block that
waits: it steps exactly the slots with a one at that place of their strings, ends the block with the
longest string, and begins the block that waits behind it. -/
theorem ticks_follow_solo {c : Controller n} (hc : Reachable (.setup c)) {calls : List (Call n)}
    (hcalls : .stop ∉ calls) :
    ∃ s t k, (Machine.setup c).run (.start :: calls) = (.running s, t) ∧
      (Machine.setup c).course none (.start :: calls) = k ∧
      s.motors = c.motors ∧ s.executing = k.map Course.block ∧
      (∀ j, k = some j → s.rate = j.rate ∧ s.elapsed = UInt32.ofNat j.ticks) ∧
      (s.upcoming k = none → s.tick = ⟨s, none, []⟩) ∧
      ∀ j, s.upcoming k = some j → s.TickFollows k j := by
  obtain ⟨s, t, hrun, hmotors⟩ := run_start c hcalls
  obtain ⟨k, hk⟩ : ∃ k, (Machine.setup c).course none (.start :: calls) = k := ⟨_, rfl⟩
  have hs : s.Sound := hc.sound_session hrun
  have htracks : s.Tracks k := by
    have hlast := Tracks.run (m := .setup c) rfl hc.sound (.start :: calls)
    rwa [hrun, hk] at hlast
  refine ⟨s, t, k, hrun, hk, hmotors, htracks.executing, ?_, ?_,
    fun j hup => htracks.follows hs hup⟩
  · intro j hj
    rw [hj] at htracks
    cases htracks with
    | busy _ hstep _ => exact ⟨hstep.rate, hstep.elapsed⟩
  · intro hup
    -- a tick that has a block to move has an upcoming course
    have hnone (b : Block n) : ¬ Session.WakeCase s b := by
      intro hwake
      obtain ⟨j, hup'⟩ := htracks.upcoming_of_wakeCase hwake
      rw [hup] at hup'
      cases hup'
    cases Session.tick_cases s with
    | idle _ _ htick => exact htick
    | runs b hwake _ _ => exact absurd hwake (hnone b)
    | ends b hwake _ _ => exact absurd hwake (hnone b)

/-- The tick that makes the second of two steps, with the same block waiting behind. -/
theorem ticks_follow_solo_halfway :
    Reachable (.setup oneMotor) ∧ .stop ∉ halfway ++ [.submit twoSteps] ∧
      ∃ s t, (Machine.setup oneMotor).run (.start :: (halfway ++ [.submit twoSteps])) =
          (.running s, t) ∧
        s.tick.signals.filter Signal.isStep = [.step 0] ∧ s.tick.answer = some twoSteps ∧
        s.tick.state.executing = some twoSteps ∧
        s.courseAfterTick (some ⟨twoSteps, 100000, 3⟩) = some ⟨twoSteps, 100000, 0⟩ := by
  have hcalls : .stop ∉ halfway ++ [.submit twoSteps] := by simp [halfway]
  obtain ⟨s, t, k, hrun, hk, hmotors, hexec, -, -, hfollows⟩ :=
    ticks_follow_solo reachable_oneMotor hcalls
  have hcourse : (Machine.setup oneMotor).course none (.start :: (halfway ++ [.submit twoSteps])) =
      some ⟨twoSteps, 100000, 3⟩ := by decide +kernel
  have hwaiting : ((Machine.setup oneMotor).run
      (.start :: (halfway ++ [.submit twoSteps]))).1.controller.mailbox = some twoSteps := by
    decide +kernel
  have hrate : ((Machine.setup oneMotor).run
      (.start :: (halfway ++ [.submit twoSteps]))).1.controller.timing.tickRate.value = 100000 := by
    decide +kernel
  rw [hrun] at hwaiting hrate
  rw [hk] at hcourse
  subst hcourse
  -- three ticks of the block are over, so the next one is that of its second step
  have hnext := hfollows _ rfl
  have hsteps := hnext.steps
  have hends : s.tick.answer = some twoSteps := hnext.ends_iff.mpr (by decide +kernel)
  obtain ⟨hbegun, -, hcourse⟩ := hnext.hands_over twoSteps (by rw [hexec]; nofun) hwaiting hends
  rw [hmotors] at hsteps
  refine ⟨reachable_oneMotor, hcalls, s, t, hrun, ?_, hends, hbegun, ?_⟩
  · rw [hsteps]
    decide +kernel
  · rw [hcourse, show s.timing.tickRate.value = 100000 from hrate]

end Machine

end PulseTrain
