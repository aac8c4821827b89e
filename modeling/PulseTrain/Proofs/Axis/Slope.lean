import Mathlib.Logic.Basic
import PulseTrain.Proofs.Axis.Solo
import PulseTrain.Proofs.Axis.Tally
import PulseTrain.Proofs.Single.Sign
import PulseTrain.Timing

/-!
# The slope of one axis

The slope and the tick at which it is looked at next do not depend on the rate: a tick changes them
by its number alone. What they are after so many ticks is therefore settled by the boundaries of the
block.

* **`switchPhase_eq`**, **`tick_slope`**, **`tick_nextSwitch`**: what one tick makes of them.
* **`axisAlone_induction`**: what every tick of an active slot keeps holds as long as it is active.
* **`decelerating_iff_of_level`**: a block without a fall decelerates nevertheless if its rise lasts
  to its planned end, in the slots that still move then.
-/

namespace PulseTrain

namespace Axis

/-! ## What `emit` leaves alone -/

/-- What a tick emits has no part in when the slope is switched. -/
@[simp] theorem emit_slope (a : Axis) : a.emit.1.slope = a.slope := by
  unfold emit keepMoving
  dsimp only
  split <;> split <;> rfl

@[simp] theorem emit_nextSwitch (a : Axis) : a.emit.1.nextSwitch = a.nextSwitch := by
  unfold emit keepMoving
  dsimp only
  split <;> split <;> rfl

@[simp] theorem emit_ratio (a : Axis) : a.emit.1.ratio = a.ratio := by
  unfold emit keepMoving
  dsimp only
  split <;> split <;> rfl

/-! ## What a tick switches -/

/-- The end of the rise, field by field: the slope is none, and a fall that is still to come is
looked at next. -/
theorem levelOff_eq (a : Axis) (t : UInt32) (p : Profile) (f : Float32) :
    a.levelOff t p f = { a with
      slope := 0
      nextSwitch := if p.rampDownStart < p.duration then p.rampDownStart else a.nextSwitch
      rate :=
        if p.rampDownStart < p.duration ∧ t ≠ p.rampDownStart then (a.ratio * p.cruiseRate) / f
        else a.rate } := by
  -- the two tests, one inside the other, become one condition on the rate
  unfold levelOff
  dsimp only
  split
  · rename_i hfalls
    split
    · rename_i hsame
      rw [if_neg fun h => h.2 hsame]
    · rename_i hlater
      rw [if_pos ⟨hfalls, hlater⟩]
  · rename_i hlevel
    rw [if_neg fun h => hlevel h.1]

/-- **What a tick switches**, field by field. -/
theorem switchPhase_eq (a : Axis) (t : UInt32) (p : Profile) (f : Float32) :
    a.switchPhase t p f = { a with
      slope :=
        if t ≠ a.nextSwitch then a.slope
        else if t = p.rampDownStart then (-p.rampDown) * a.ratio
        else if t = p.rampUpEnd then 0
        else a.slope
      nextSwitch :=
        if t = a.nextSwitch ∧ t = p.rampUpEnd ∧ p.rampDownStart < p.duration then p.rampDownStart
        else a.nextSwitch
      rate :=
        if t = a.nextSwitch ∧ t = p.rampUpEnd ∧ p.rampDownStart < p.duration ∧
            t ≠ p.rampDownStart then (a.ratio * p.cruiseRate) / f
        else a.rate } := by
  unfold switchPhase
  -- a tick that is not looked at switches nothing
  by_cases hswitch : t = a.nextSwitch
  · rw [if_neg (not_not.mpr hswitch)]
    dsimp only
    by_cases hup : t = p.rampUpEnd
    · rw [if_pos hup, levelOff_eq]
      split <;> simp_all
    · rw [if_neg hup]
      split <;> simp_all
  · rw [if_pos hswitch]
    simp [hswitch]

@[simp] theorem tick_ratio (a : Axis) (t : UInt32) (p : Profile) (f : Float32) :
    (a.tick t p f).1.ratio = a.ratio := by
  rw [tick, emit_ratio, switchPhase_eq]
  rfl

/-- The slope after a tick. A tick at which it is not looked at leaves it alone. -/
theorem tick_slope (a : Axis) (t : UInt32) (p : Profile) (f : Float32) :
    (a.tick t p f).1.slope =
      if t ≠ a.nextSwitch then a.slope
      else if t = p.rampDownStart then (-p.rampDown) * a.ratio
      else if t = p.rampUpEnd then 0
      else a.slope := by
  rw [tick, emit_slope, switchPhase_eq]
  rfl

/-- The tick that is looked at next changes at the end of the rise only. -/
theorem tick_nextSwitch (a : Axis) (t : UInt32) (p : Profile) (f : Float32) :
    (a.tick t p f).1.nextSwitch =
      if t = a.nextSwitch ∧ t = p.rampUpEnd ∧ p.rampDownStart < p.duration then p.rampDownStart
      else a.nextSwitch := by
  rw [tick, emit_nextSwitch, switchPhase_eq]
  rfl

/-! ## The phase -/

/-- An axis decelerates where it is active and its slope is below zero. -/
theorem phase_eq_decelerating_iff (a : Axis) :
    a.phase = .decelerating ↔ a.isActive = true ∧ a.slope < 0 := by
  unfold phase
  constructor
  · intro h
    split at h
    · cases h
    · rename_i hactive
      split at h
      · cases h
      · split at h
        · rename_i hslope
          exact ⟨not_not.mp hactive, hslope⟩
        · cases h
  · rintro ⟨hactive, hslope⟩
    -- a slope below zero is not above zero, so the earlier case is left out
    rw [if_neg (not_not.mpr hactive), if_neg (Single.not_zero_lt hslope), if_pos hslope]

end Axis

namespace Block

variable {n : Nat} {b : Block n} {f : Float32} {slot : Fin n}

/-- Up to the longest duration, the number of a tick has not wrapped. -/
theorem toNat_tickNumber {t : Nat} (h : t + 1 < UInt32.size) :
    (1 + UInt32.ofNat t).toNat = t + 1 := by
  have hsize : UInt32.size = 4294967296 := rfl
  rw [UInt32.toNat_add, UInt32.toNat_ofNat', UInt32.toNat_one]
  omega

/-- **What every tick of an active slot keeps** holds as long as the slot is active, if it holds at
the beginning of a slot that has steps. -/
theorem axisAlone_induction (b : Block n) (f : Float32) (slot : Fin n)
    {motive : Nat → Axis → Prop}
    (hstart : b.steps.get slot ≠ 0 → motive 0 (Axis.ofBlock b slot f))
    (htick : ∀ t a, motive t a → motive (t + 1) (a.tick (1 + UInt32.ofNat t) b.toProfile f).1)
    {t : Nat} (hactive : (b.axisAlone f slot t).isActive = true) :
    motive t (b.axisAlone f slot t) := by
  -- on the ticks: a slot that is active after one more tick was active before it
  induction t with
  | zero =>
    refine hstart fun hzero => ?_
    have htally := Axis.tallies_ofBlock b slot f
    exact htally.steps_ne_zero hactive hzero
  | succ t ih =>
    rw [axisAlone_succ] at hactive ⊢
    split
    · rename_i hbefore
      exact htick t _ (ih hbefore)
    · -- a slot that was through before the tick is not active after it
      rename_i hthrough
      rw [if_neg hthrough] at hactive
      exact absurd hactive hthrough

/-! ## Blocks without a fall -/

/-- The share of a slot in the rates of its block. -/
def share (b : Block n) (slot : Fin n) : Float32 :=
  1 / b.referenceSteps.toFloat32 * (b.steps.get slot).toFloat32

/-- What a slot with steps begins with. -/
theorem ofBlock_share (hsteps : b.steps.get slot ≠ 0) :
    Axis.ofBlock b slot f =
      { target := b.steps.get slot, rate := (b.startRate * b.share slot) / f, ratio := b.share slot
        slope := (Axis.firstRamp b).1 * b.share slot, nextSwitch := (Axis.firstRamp b).2 } := by
  unfold Axis.ofBlock
  dsimp only
  rw [if_neg hsteps]
  rfl

/-- A slot without steps begins with nothing at all. -/
theorem ofBlock_of_none (hsteps : b.steps.get slot = 0) : Axis.ofBlock b slot f = {} := by
  simp [Axis.ofBlock, hsteps]

theorem not_zero_lt_zero : ¬ (0 : Float32) < 0 := by decide

/-- In a block without a fall, the next switch never moves. -/
theorem nextSwitch_tick_of_level (hlevel : b.rampDownStart = b.duration) (a : Axis) (t : UInt32) :
    (a.tick t b.toProfile f).1.nextSwitch = a.nextSwitch := by
  have hdown : ¬ b.rampDownStart < b.duration := by
    rw [hlevel]
    exact UInt32.lt_irrefl _
  rw [Axis.tick_nextSwitch, if_neg fun h => hdown h.2.2]

/-- In a block without a fall whose rise ends earlier, no slope is ever below zero. -/
theorem not_slope_lt_zero (hduration : b.duration ≠ 0) (hlevel : b.rampDownStart = b.duration)
    (hup : ¬ b.rampUp < 0) (hrise : b.rampUpEnd ≠ b.duration) {t : Nat}
    (hactive : (b.axisAlone f slot t).isActive = true) : ¬ (b.axisAlone f slot t).slope < 0 := by
  have hkept := axisAlone_induction b f slot
    (motive := fun _ a => ¬ a.slope < 0 ∧ a.nextSwitch ≠ b.duration) ?start ?tick hactive
  case start =>
    intro hsteps
    have hshare : ¬ b.share slot < 0 := Single.not_ratio_lt_zero _ _
    rw [ofBlock_share hsteps]
    dsimp only
    unfold Axis.firstRamp
    split
    · exact ⟨Single.not_mul_lt_zero hup hshare, hrise⟩
    · -- the switch waits for the tick after the last planned one
      have hafter : b.duration + 1 ≠ b.duration := by grind
      rw [hlevel, if_neg hduration, if_neg (not_not.mpr rfl)]
      exact ⟨Single.not_mul_lt_zero not_zero_lt_zero hshare, hafter⟩
  case tick =>
    rintro t a ⟨hslope, hnext⟩
    refine ⟨?_, by rw [nextSwitch_tick_of_level hlevel]; exact hnext⟩
    rw [Axis.tick_slope]
    split
    · exact hslope
    · rename_i hswitch
      have hdown : 1 + UInt32.ofNat t ≠ b.rampDownStart := by
        rw [not_not.mp hswitch, hlevel]
        exact hnext
      rw [if_neg hdown]
      split
      · exact not_zero_lt_zero
      · exact hslope
  exact hkept.1

/-- In a block without a fall whose rise lasts to its end, the slope falls from its end on. -/
theorem slope_of_late_rise (hduration : b.duration ≠ 0) (hlevel : b.rampDownStart = b.duration)
    (hrise : b.rampUpEnd = b.duration) {t : Nat}
    (hactive : (b.axisAlone f slot t).isActive = true) :
    (b.axisAlone f slot t).slope =
      if t < b.duration.toNat then b.rampUp * b.share slot else (-b.rampDown) * b.share slot := by
  have hkept := axisAlone_induction b f slot
    (motive := fun t a => a.nextSwitch = b.duration ∧ a.ratio = b.share slot ∧ a.slope =
      if t < b.duration.toNat then b.rampUp * b.share slot else (-b.rampDown) * b.share slot)
    ?start ?tick hactive
  case start =>
    intro hsteps
    have hpos : 0 < b.duration.toNat :=
      Nat.pos_of_ne_zero fun h => hduration (UInt32.toNat_inj.mp h)
    have hfirst : Axis.firstRamp b = (b.rampUp, b.duration) := by
      unfold Axis.firstRamp
      rw [hrise, if_pos hduration]
    rw [ofBlock_share hsteps, hfirst, if_pos hpos]
    exact ⟨rfl, rfl, rfl⟩
  case tick =>
    rintro t a ⟨hnext, hratio, hslope⟩
    refine ⟨by rw [nextSwitch_tick_of_level hlevel]; exact hnext,
      by rw [Axis.tick_ratio]; exact hratio, ?_⟩
    rw [Axis.tick_slope, hnext, hlevel, hratio, hslope]
    have hlast := b.duration.toNat_lt_size
    -- the number of a tick comes up to the duration before it wraps, so the first match is the end
    -- of the rise
    by_cases hswitch : 1 + UInt32.ofNat t = b.duration
    · have hend : ¬ t + 1 < b.duration.toNat := by
        intro hlt
        have hsame := toNat_tickNumber (Nat.lt_trans hlt hlast)
        rw [hswitch] at hsame
        omega
      rw [if_neg (not_not.mpr hswitch), if_pos hswitch, if_neg hend]
    · have hnot : t + 1 ≠ b.duration.toNat := by
        intro heq
        have hsame := toNat_tickNumber (heq ▸ hlast)
        rw [heq] at hsame
        exact hswitch (UInt32.toNat_inj.mp hsame)
      rw [if_pos hswitch]
      by_cases hlt : t < b.duration.toNat
      · rw [if_pos hlt, if_pos (by omega)]
      · rw [if_neg hlt, if_neg (by omega)]
  exact hkept.2.2

/-- **When a block without a fall decelerates.** Let the fall of a block be planned for its end, so
that it has none, and let its rise be no fall. A slot of it decelerates exactly if the rise lasts to
the end as well, which the slot has come to while it still moves: the tick that ends the rise begins
the fall that was not planned. -/
theorem decelerating_iff_of_level (hduration : 0 < b.duration)
    (hlevel : b.rampDownStart = b.duration) (hup : 0 ≤ b.rampUp) (f : Float32) (slot : Fin n)
    (t : Nat) :
    (b.axisAlone f slot t).phase = .decelerating ↔
      b.rampUpEnd = b.duration ∧ b.duration.toNat ≤ t ∧
        (b.axisAlone f slot t).isActive = true ∧ (-b.rampDown) * b.share slot < 0 := by
  have hduration' : b.duration ≠ 0 := fun h => UInt32.lt_irrefl 0 (h ▸ hduration)
  have hup' : ¬ b.rampUp < 0 := Single.not_lt_zero_of_le hup
  rw [Axis.phase_eq_decelerating_iff]
  constructor
  · rintro ⟨hactive, hslope⟩
    -- only a rise that lasts to the end leaves the switch to be taken for a fall
    by_cases hrise : b.rampUpEnd = b.duration
    · have hlate := slope_of_late_rise hduration' hlevel hrise hactive
      rw [hlate] at hslope
      split at hslope
      · exact absurd hslope (Single.not_mul_lt_zero hup' (Single.not_ratio_lt_zero _ _))
      · rename_i hend
        exact ⟨hrise, Nat.le_of_not_lt hend, hactive, hslope⟩
    · exact absurd hslope (not_slope_lt_zero hduration' hlevel hup' hrise hactive)
  · rintro ⟨hrise, hend, hactive, hfalls⟩
    rw [slope_of_late_rise hduration' hlevel hrise hactive, if_neg (Nat.not_lt.mpr hend)]
    exact ⟨hactive, hfalls⟩

/-- Four steps at a rate that rises over all of the four planned ticks, which are too few. -/
def lateRise : Block 1 :=
  { rampUpEnd := 4, rampDownStart := 4, duration := 4, cruiseRate := 50000, rampDown := 0.125
    startRate := 25000, rampUp := 0.125, referenceSteps := 4, steps := #v[4] }

/-- The slot decelerates on its fifth tick. -/
theorem decelerating_iff_of_level_lateRise :
    0 < lateRise.duration ∧ lateRise.rampDownStart = lateRise.duration ∧ 0 ≤ lateRise.rampUp ∧
      (lateRise.axisAlone 100000 0 5).phase = .decelerating := by
  have hactive : (lateRise.axisAlone 100000 0 5).isActive = true := by decide +kernel
  have hfalls : (-lateRise.rampDown) * lateRise.share 0 < 0 := by decide +kernel
  exact ⟨by decide, rfl, by decide +kernel,
    (decelerating_iff_of_level (by decide) rfl (by decide +kernel) 100000 0 5).mpr
      ⟨rfl, by decide, hactive, hfalls⟩⟩

/-- **A block without a fall can decelerate**, though it passes, its rise is no fall and its tick
rate can be programmed. -/
theorem decelerates_without_fall :
    lateRise.fault? 1 = none ∧ 0 < lateRise.duration ∧
      lateRise.rampDownStart = lateRise.duration ∧ 0 ≤ lateRise.rampUp ∧ 0 < lateRise.rampDown ∧
      ({ tickRate := ⟨100000⟩ } : Timing).check = .ok () ∧
      (lateRise.axisAlone 100000 0 4).phase = .decelerating := by
  decide +kernel

end Block

end PulseTrain
