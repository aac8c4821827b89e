import PulseTrain.Proofs.Axis.Tally
import PulseTrain.Proofs.Session.Calls
import PulseTrain.Proofs.Session.Turn

/-!
# Sound machines

The invariant of everything that can be reached. Every block that waits or executes passes the test
for the motors that are registered *now*, also one that has waited through a stop while motors were
added; and the step counts of the slots belong to the block that executes.

* **`Session.Sound`**, **`Machine.Sound`**: the invariant.
* **`Session.Sound.tick`**, **`Machine.Sound.call`**: it is kept by a tick, and by every call.
* **`Machine.Reachable.sound`**: whatever can be reached is sound.
* **`Session.Sound.emitted_of_still`**: when nothing moves any more, every slot is through.
-/

namespace PulseTrain

variable {n : Nat}

/-- A block that passes for some motors passes when there are more of them. -/
theorem Block.fault?_eq_none_of_le {b : Block n} {registered more : Nat}
    (h : b.fault? registered = none) (hle : registered ≤ more) : b.fault? more = none := by
  rw [Block.fault?_eq_none_iff] at h ⊢
  refine ⟨h.1, ?_⟩
  intro slot hsteps
  obtain ⟨hslot, hreference⟩ := h.2 slot hsteps
  exact ⟨Nat.lt_of_lt_of_le hslot hle, hreference⟩

/-- A slot past the motors does not move in a block that passes. -/
theorem Block.steps_of_unregistered {b : Block n} {registered : Nat} {slot : Fin n}
    (h : b.fault? registered = none) (hslot : registered ≤ slot) : b.steps.get slot = 0 := by
  by_contra hsteps
  have hlt := ((Block.fault?_eq_none_iff b registered).mp h).2 slot hsteps
  omega

namespace Session

/-- Every block in the session fits its motors, and the step counts are those of the executing
block. -/
structure Sound (s : Session n) : Prop where
  waiting_fits : ∀ b, s.mailbox = some b → b.fault? s.motors.size = none
  executing_fits : ∀ b, s.executing = some b → b.fault? s.motors.size = none
  tallies : ∀ b, s.executing = some b → ∀ slot, (s.axes.get slot).Tallies (b.steps.get slot)

/-- What is aside from the blocks is aside from all that is said of them. -/
theorem Sound.of_aside {s s' : Session n} (h : s.Sound) (haside : s.Aside s') : s'.Sound where
  waiting_fits b hbox := by
    rw [haside.motors]
    exact h.waiting_fits b (haside.mailbox ▸ hbox)
  executing_fits b hexec := by
    rw [haside.motors]
    exact h.executing_fits b (haside.executing ▸ hexec)
  tallies b hexec slot := by
    rw [haside.axes]
    exact h.tallies b (haside.executing ▸ hexec) slot

/-- A block that is picked up gives each slot a new axis. -/
theorem axes_pickUp_get (s : Session n) (b : Block n) (slot : Fin n) :
    (s.pickUp b).1.axes.get slot = Axis.ofBlock b slot s.timing.tickRate.value := by
  show (Vector.ofFn _)[slot.val] = _
  rw [Vector.getElem_ofFn]

/-- The block that waits has passed its test, and it begins with nothing emitted. -/
theorem Sound.pickUp {s : Session n} {b : Block n} (h : s.Sound) (hbox : s.mailbox = some b) :
    (s.pickUp b).1.Sound where
  waiting_fits b' hbox' := by cases hbox'
  executing_fits b' hexec := by
    cases hexec
    exact h.waiting_fits b hbox
  tallies b' hexec slot := by
    cases hexec
    rw [axes_pickUp_get]
    exact Axis.tallies_ofBlock b slot _

/-- Waking keeps a session sound. -/
theorem Sound.awake {s : Session n} {b : Block n} (h : s.Sound) (hwake : WakeCase s b) :
    s.awake.1.Sound := by
  cases hwake with
  | already _ hawake => rw [hawake]; exact h
  | pickedUp _ hbox hawake => rw [hawake]; exact h.pickUp hbox

/-- Moving the axes keeps a session sound, as each keeps its bookkeeping. -/
theorem Sound.advance {s : Session n} (h : s.Sound) : s.advance.1.Sound where
  waiting_fits b hbox := by
    rw [advance_fst] at hbox ⊢
    exact h.waiting_fits b hbox
  executing_fits b hexec := by
    rw [advance_fst] at hexec ⊢
    exact h.executing_fits b hexec
  tallies b hexec slot := by
    rw [advance_fst] at hexec
    have htally := h.tallies b hexec slot
    rw [advance_axes_get, tickedAxes_get]
    -- only an active axis makes a tick, and that keeps the bookkeeping
    split
    · rename_i hmoves
      exact htally.tick hmoves.2 _ _ _
    · exact htally

theorem Sound.moved {s : Session n} {b : Block n} (h : s.Sound) (hwake : WakeCase s b) :
    s.moved.Sound :=
  (h.awake hwake).advance

/-- The end of a block keeps a session sound, be there another one or none. -/
theorem Sound.finish {s : Session n} (h : s.Sound) : s.finish.1.Sound := by
  cases handover_cases s with
  -- no block executes any more, so there is nothing to be said of axes
  | rests hbox hfinish =>
    rw [hfinish]
    exact ⟨h.waiting_fits, nofun, nofun⟩
  | handsOver b hbox hfinish =>
    have hended : Sound { s with elapsed := 0 } := ⟨h.waiting_fits, h.executing_fits, h.tallies⟩
    have hbegun := hended.pickUp hbox
    rw [hfinish]
    exact ⟨hbegun.waiting_fits, hbegun.executing_fits, hbegun.tallies⟩

/-- **A tick keeps a session sound.** -/
theorem Sound.tick {s : Session n} (h : s.Sound) : s.tick.state.Sound := by
  cases tick_cases s with
  | idle _ _ htick => rw [htick]; exact h
  | runs b hwake _ htick => rw [htick]; exact h.moved hwake
  | ends b hwake _ htick => rw [htick]; exact (h.moved hwake).finish

/-- Only slots with a motor are active. -/
theorem Sound.lt_of_isActive {s : Session n} (h : s.Sound) {b : Block n}
    (hexec : s.executing = some b) {slot : Fin n} (hactive : (s.axes.get slot).isActive = true) :
    slot.val < s.motors.size := by
  by_contra hslot
  -- its block has no steps there
  exact (h.tallies b hexec slot).steps_ne_zero hactive
    (Block.steps_of_unregistered (h.executing_fits b hexec) (Nat.le_of_not_lt hslot))

/-- A block moves as long as any axis is active: one without a motor never is. -/
theorem Sound.isMoving_iff {s : Session n} (h : s.Sound) {b : Block n}
    (hexec : s.executing = some b) :
    s.isMoving = true ↔ ∃ slot, (s.axes.get slot).isActive = true := by
  unfold isMoving
  rw [List.any_eq_true]
  constructor
  · rintro ⟨slot, -, hactive⟩
    exact ⟨slot, hactive⟩
  · rintro ⟨slot, hactive⟩
    exact ⟨slot, mem_slots.mpr (h.lt_of_isActive hexec hactive), hactive⟩

/-- **When nothing moves any more, every slot has emitted exactly its steps.** -/
theorem Sound.emitted_of_still {s : Session n} (h : s.Sound) {b : Block n}
    (hexec : s.executing = some b) (hstill : s.isMoving = false) (slot : Fin n) :
    (s.axes.get slot).emitted = b.steps.get slot := by
  by_contra hne
  have hactive := (h.tallies b hexec slot).isActive_iff.mpr hne
  exact Bool.eq_false_iff.mp hstill ((h.isMoving_iff hexec).mpr ⟨slot, hactive⟩)

end Session

namespace Machine

/-- In a session it is the session that is sound; between sessions the block that waits, if any,
fits the motors. -/
def Sound : Machine n → Prop
  | .setup c => ∀ b, c.mailbox = some b → b.fault? c.motors.size = none
  | .running s => s.Sound

/-- **Every call keeps a machine sound.** -/
theorem Sound.call {m : Machine n} (h : m.Sound) (ask : Call n) : (m.call ask).state.Sound := by
  cases m with
  | setup c =>
    cases setup_cases c ask with
    | started _ hstate _ =>
      rw [hstate]
      exact ⟨h, nofun, nofun⟩
    | kept c' hstate hupkeep _ =>
      rw [hstate]
      intro b hbox
      -- the motors may have become more, but not fewer
      exact Block.fault?_eq_none_of_le (h b (hupkeep.mailbox ▸ hbox)) hupkeep.size_le
  | running s =>
    have hs : s.Sound := h
    cases session_cases s ask with
    -- a block is taken only after its test, by the motors of the session
    | taken b _ hfits hbox hcall =>
      rw [hcall]
      refine ⟨?_, hs.executing_fits, hs.tallies⟩
      intro b' hbox'
      cases hbox'
      exact hfits
    | ticked _ hcall => rw [hcall]; exact hs.tick
    | stopped _ hcall => rw [hcall]; exact hs.waiting_fits
    | aside s' _ _ hstate haside _ => rw [hstate]; exact hs.of_aside haside

/-- Any calls keep a machine sound. -/
theorem Sound.run {m : Machine n} (h : m.Sound) (calls : List (Call n)) :
    (m.run calls).1.Sound := by
  -- on the calls: each keeps the machine sound for the next one
  induction calls generalizing m with
  | nil => exact h
  | cons ask rest ih => exact ih (h.call ask)

/-- A machine that has just been created holds no block. -/
theorem mailbox_of_create {timing : Timing} {tickCounter pulseCounter : TimerCounts}
    {c : Controller n}
    (h : (Controller.create timing tickCounter pulseCounter).1 = .ok c) :
    c.mailbox = none ∧ c.busy = false := by
  rw [Controller.create_eq_ok h]
  exact ⟨rfl, rfl⟩

/-- **Whatever can be reached is sound.** -/
theorem Reachable.sound {m : Machine n} (h : Reachable m) : m.Sound := by
  induction h with
  | created hcreated =>
    intro b hbox
    rw [(mailbox_of_create hcreated).1] at hbox
    cases hbox
  | called _ ask ih => exact ih.call ask

/-- A session that a run from such a machine has come to is sound. -/
theorem Reachable.sound_session {m : Machine n} (h : Reachable m) {calls : List (Call n)}
    {s : Session n} {t : Transcript n} (hrun : m.run calls = (.running s, t)) : s.Sound := by
  have hlast := h.sound.run calls
  rwa [hrun] at hlast

end Machine

end PulseTrain
