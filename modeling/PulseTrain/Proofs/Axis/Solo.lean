import Mathlib.Data.List.Basic
import PulseTrain.Motion.Axis

/-!
# One slot alone

What a block makes of one slot when nothing else is there: a string of bits, one for each tick,
that tell whether a step is due. The string ends with the tick of the last step, and does not end
if the last step never comes.

* **`Block.solo`**: the bit of a tick; **`Block.axisAlone`**: the axis after so many ticks.
* **`axisAlone_succ`**, **`solo_succ`**: both by one more tick.
* **`run_ofBlock_eq_solo`**: `Axis.run` gives the bits of `Block.solo` one by one.
* **`Block.SoloEnds`**: the length of the string, where it has one.
-/

namespace PulseTrain

/-! ## Runs by their last tick -/

namespace Axis

/-- An axis that is through stays as it is, however many ticks it is given. -/
theorem run_of_inactive {a : Axis} (h : a.isActive = false) (first : UInt32) (p : Profile)
    (f : Float32) (count : Nat) : a.run first p f count = (a, []) := by
  cases count with
  | zero => rfl
  | succ count => rw [run, h, if_neg (by decide)]

/-- An active axis makes one tick and then the others, which are counted from one later. -/
theorem run_of_active {a : Axis} (h : a.isActive = true) (first : UInt32) (p : Profile)
    (f : Float32) (count : Nat) :
    a.run first p f (count + 1) =
      (((a.tick first p f).1.run (first + 1) p f count).1,
        (a.tick first p f).2 :: ((a.tick first p f).1.run (first + 1) p f count).2) := by
  rw [run, h, if_pos rfl]

/-- A run is prolonged at its end: by a tick of the axis it has come to, if that is active. -/
theorem run_succ (a : Axis) (first : UInt32) (p : Profile) (f : Float32) (count : Nat) :
    a.run first p f (count + 1) =
      if (a.run first p f count).1.isActive = true then
        (((a.run first p f count).1.tick (first + UInt32.ofNat count) p f).1,
          (a.run first p f count).2 ++
            [((a.run first p f count).1.tick (first + UInt32.ofNat count) p f).2])
      else a.run first p f count := by
  -- on the ticks, though a run recurses at its front: the axis and the first tick must be free
  induction count generalizing a first with
  | zero =>
    cases hactive : a.isActive with
    | false =>
      have hstop : ¬ a.isActive = true := by rw [hactive]; decide
      rw [run_of_inactive hactive, run_of_inactive hactive, if_neg hstop]
    | true =>
      have htick : first + UInt32.ofNat 0 = first := UInt32.add_zero first
      rw [run_of_active hactive]
      show _ = if a.isActive = true then _ else _
      rw [if_pos hactive, htick]
      rfl
  | succ count ih =>
    cases hactive : a.isActive with
    | false =>
      have hstop : ¬ a.isActive = true := by rw [hactive]; decide
      rw [run_of_inactive hactive, run_of_inactive hactive, if_neg hstop]
    | true =>
      -- the run is unrolled at its front, where the ticks are counted from one later
      have htick : first + UInt32.ofNat (count + 1) = first + 1 + UInt32.ofNat count := by
        rw [UInt32.ofNat_add, UInt32.add_assoc, UInt32.add_comm (UInt32.ofNat count)]
        rfl
      rw [run_of_active hactive first p f (count + 1), ih, run_of_active hactive first p f count,
        htick]
      split <;> rfl

/-- There is no bit for a tick that is not made. -/
theorem length_run_le (a : Axis) (first : UInt32) (p : Profile) (f : Float32) (count : Nat) :
    (a.run first p f count).2.length ≤ count := by
  induction count with
  | zero => exact Nat.le_refl 0
  | succ count ih =>
    rw [run_succ]
    split
    · rw [List.length_append]
      exact Nat.succ_le_succ ih
    · exact Nat.le_succ_of_le ih

/-- An axis that is still active has had a bit for every tick. -/
theorem length_run_of_active {a : Axis} {first : UInt32} {p : Profile} {f : Float32} {count : Nat}
    (h : (a.run first p f count).1.isActive = true) :
    (a.run first p f count).2.length = count := by
  induction count with
  | zero => rfl
  | succ count ih =>
    rw [run_succ] at h ⊢
    split at h
    · rename_i hactive
      rw [if_pos hactive, List.length_append, ih hactive]
      rfl
    · -- an axis that was through before the last tick is not active now
      rename_i hinactive
      exact absurd h hinactive

end Axis

/-! ## A block in one slot -/

namespace Block

variable {n : Nat} (b : Block n) (f : Float32) (slot : Fin n)

/-- The axis of a slot after so many ticks of the block, at a tick rate, with no other slot. -/
def axisAlone (t : Nat) : Axis := ((Axis.ofBlock b slot f).run 1 b.toProfile f t).1

/-- Whether a step is due on a tick of the block, counted from one, with no other slot; nothing if
the slot is through before that tick. -/
def solo (t : Nat) : Option Bool := ((Axis.ofBlock b slot f).run 1 b.toProfile f t).2[t - 1]?

/-- What the axis of a slot does on the tick after `t` of them. -/
def tickAlone (t : Nat) : Axis × Bool :=
  (b.axisAlone f slot t).tick (1 + UInt32.ofNat t) b.toProfile f

/-- One more tick, if the axis is active before it. -/
theorem axisAlone_succ (t : Nat) :
    b.axisAlone f slot (t + 1) =
      if (b.axisAlone f slot t).isActive = true then (b.tickAlone f slot t).1
      else b.axisAlone f slot t := by
  unfold tickAlone axisAlone
  rw [Axis.run_succ]
  split <;> rfl

/-- **The bits one by one.** The slot has a bit as long as it is active before the tick. -/
theorem solo_succ (t : Nat) :
    b.solo f slot (t + 1) =
      if (b.axisAlone f slot t).isActive = true then some (b.tickAlone f slot t).2 else none := by
  unfold solo tickAlone axisAlone
  rw [Axis.run_succ, Nat.add_sub_cancel]
  split
  · rename_i hactive
    have hlength := Axis.length_run_of_active hactive
    -- every tick before this one has a bit, so the bit of this tick is the last
    rw [List.getElem?_append_right (Nat.le_of_eq hlength), hlength, Nat.sub_self]
    rfl
  · exact List.getElem?_eq_none (Axis.length_run_le _ _ _ _ _)

/-- There is no bit for a tick exactly where the slot is through before it. -/
theorem solo_eq_none_iff (t : Nat) :
    b.solo f slot (t + 1) = none ↔ (b.axisAlone f slot t).isActive = false := by
  rw [solo_succ]
  split
  · rename_i hactive
    simp [hactive]
  · rename_i hinactive
    simp [Bool.eq_false_iff.mpr hinactive]

/-- **A run of one axis alone gives the bits**, however many ticks it is given. -/
theorem run_ofBlock_eq_solo (count : Nat) :
    ((Axis.ofBlock b slot f).run 1 b.toProfile f count).2 =
      (List.range count).filterMap fun t => b.solo f slot (t + 1) := by
  -- one tick more is one bit more, or none for a slot that is through
  induction count with
  | zero => rfl
  | succ count ih =>
    have hlast := b.solo_succ f slot count
    rw [List.range_succ, List.filterMap_append, ← ih, Axis.run_succ]
    split
    · rename_i hactive
      rw [if_pos (show (b.axisAlone f slot count).isActive = true from hactive)] at hlast
      rw [List.filterMap_cons, hlast]
      rfl
    · rename_i hinactive
      rw [if_neg (show ¬ (b.axisAlone f slot count).isActive = true from hinactive)] at hlast
      rw [List.filterMap_cons, hlast, List.filterMap_nil, List.append_nil]

/-! ## The length of the string -/

/-- The bits of a slot end after `length` ticks. -/
def SoloEnds (length : Nat) : Prop := ∀ t, (b.solo f slot (t + 1)).isSome = true ↔ t < length

variable {b f slot}

/-- The slot is active just as long as it has bits. -/
theorem SoloEnds.isActive_iff {length : Nat} (h : b.SoloEnds f slot length) (t : Nat) :
    (b.axisAlone f slot t).isActive = true ↔ t < length := by
  rw [← h t, solo_succ]
  split
  · rename_i hactive
    exact iff_of_true hactive rfl
  · rename_i hinactive
    exact iff_of_false hinactive Bool.false_ne_true

end Block

end PulseTrain
