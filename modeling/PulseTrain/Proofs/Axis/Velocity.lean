import PulseTrain.Proofs.Axis.Guard
import PulseTrain.Proofs.Single.Range
import PulseTrain.Proofs.Single.Ratio
import PulseTrain.Proofs.Single.Sums

/-!
# The velocity of one axis

The rate of a slot, tick by tick, in a block whose rates are finite and not below zero: it rises
before the end of the rise, stays until the fall begins, and falls from there on, to zero at most.
Every addition is rounded, and the rate may come to infinity; neither changes its way. A slope is at
most the one of the reference axis, so it is finite, and no sum becomes NaN.

* **`Block.RatesInRange`**: the rates of a block are finite and not below zero.
* **`Block.rate_axisAlone_succ`**: the rate after one more tick.
* **`Block.slopeAfter_rise`**, **`Block.slopeAfter_fall`**: the slopes are finite, and which way
  they go.
* **`Block.rate_nonneg`**: the rate is never below zero, and never NaN.
* **`Block.rate_rises_then_falls`**: the profile.
-/

namespace PulseTrain

namespace Axis

theorem emit_rate (a : Axis) : a.emit.1.rate = Single.clamp a.rate := by
  unfold emit keepMoving Single.clamp
  dsimp only
  by_cases hrate : a.rate ≤ 0 <;> simp only [hrate, if_true, if_false] <;> split <;> rfl

end Axis

namespace Block

open Single (value InRange clamp)

variable {n : Nat} {b : Block n} {f : Float32} {slot : Fin n} {registered t : Nat}

/-- The rates of the block are finite and not below zero. -/
structure RatesInRange (b : Block n) : Prop where
  startRate : InRange b.startRate
  cruiseRate : InRange b.cruiseRate
  rampUp : InRange b.rampUp
  rampDown : InRange b.rampDown

/-! ## The rate after one more tick -/

/-- The rate before `emit` sees it, on the tick after `t` of them. -/
def rateDue (b : Block n) (f : Float32) (slot : Fin n) (t : Nat) : Float32 :=
  if t + 1 = b.rampUpEnd.toNat ∧ 0 < b.rampUpEnd ∧ b.rampUpEnd < b.rampDownStart ∧
      b.rampDownStart < b.duration then
    (b.share slot * b.cruiseRate) / f
  else (b.axisAlone f slot t).rate + b.slopeAfter slot t

/-- What comes to `emit` is the sum of rate and slope, or the rate that the end of the rise sets. -/
theorem rate_switchPhase_eq_rateDue (hpass : b.fault? registered = none)
    (hactive : (b.axisAlone f slot t).isActive = true) :
    ((b.axisAlone f slot t).accelerate.switchPhase (UInt32.ofNat (t + 1)) b.toProfile f).rate =
      b.rateDue f slot t := by
  have hup := ((fault?_eq_none_iff b registered).mp hpass).1.1
  have hscheduled := onSchedule hpass hactive
  rw [hscheduled.accelerate.rate_switchPhase hup, rateDue, ← hscheduled.slope]
  rfl

/-- The rate after a tick: what came to `emit`, or zero if that is below zero. -/
theorem rate_axisAlone_succ (hpass : b.fault? registered = none)
    (hactive : (b.axisAlone f slot t).isActive = true) :
    (b.axisAlone f slot (t + 1)).rate = clamp (b.rateDue f slot t) := by
  rw [axisAlone_succ, if_pos hactive, tickAlone, Axis.tick, Axis.emit_rate, ← tickNumber_eq,
    rate_switchPhase_eq_rateDue hpass hactive]

/-- Once it is through, a slot keeps its rate. -/
theorem rate_axisAlone_of_inactive (hinactive : (b.axisAlone f slot t).isActive = false) :
    (b.axisAlone f slot (t + 1)).rate = (b.axisAlone f slot t).rate := by
  rw [axisAlone_succ, hinactive, if_neg (by decide)]

/-! ## The slopes -/

/-- No slot moves faster than the reference axis. -/
theorem share_le_one (hpass : b.fault? registered = none) (hsteps : b.steps.get slot ≠ 0) :
    value (b.share slot) ≤ 1 := by
  obtain ⟨hmoves, hreference⟩ := within_reference hpass hsteps
  exact Single.ratio_le_one hmoves hreference

/-- Only a slot that the block moves is ever active. -/
theorem steps_ne_zero_of_active (hactive : (b.axisAlone f slot t).isActive = true) :
    b.steps.get slot ≠ 0 :=
  (tallies_axisAlone b f slot t).steps_ne_zero hactive

/-- Before the end of the rise, the slope is finite and not below zero. -/
theorem slopeAfter_rise (hpass : b.fault? registered = none) (hrates : b.RatesInRange)
    (hsteps : b.steps.get slot ≠ 0) (hrising : t < b.rampUpEnd.toNat) :
    (b.slopeAfter slot t).isFinite = true ∧ 0 ≤ value (b.slopeAfter slot t) := by
  obtain ⟨hshare, hpos⟩ := share_pos hpass hsteps
  obtain ⟨hfinite, hsign, -⟩ :=
    Single.mul_share hrates.rampUp.1 hshare hpos (share_le_one hpass hsteps)
  rw [slopeAfter_of_rise hrising]
  exact ⟨hfinite, hsign hrates.rampUp.value_nonneg⟩

/-- From the end of the rise on, the slope is finite and not above zero. -/
theorem slopeAfter_fall (hpass : b.fault? registered = none) (hrates : b.RatesInRange)
    (hsteps : b.steps.get slot ≠ 0) (hrisen : b.rampUpEnd.toNat ≤ t) :
    (b.slopeAfter slot t).isFinite = true ∧ value (b.slopeAfter slot t) ≤ 0 := by
  obtain ⟨hshare, hpos⟩ := share_pos hpass hsteps
  have hfinite : (-b.rampDown).isFinite = true := by
    apply Single.isFinite_of_abs_lt (Single.isNaN_neg (Single.isNaN_of_isFinite hrates.rampDown.1))
    rw [Single.value_neg, abs_neg]
    exact Single.abs_value_lt hrates.rampDown.1
  have hdown : value (-b.rampDown) ≤ 0 := by
    rw [Single.value_neg]
    linarith [hrates.rampDown.value_nonneg]
  obtain ⟨hslope, -, hsign⟩ := Single.mul_share hfinite hshare hpos (share_le_one hpass hsteps)
  unfold slopeAfter
  rw [if_neg (Nat.not_lt.mpr hrisen)]
  -- a fall, or no slope at all
  split
  · exact ⟨hslope, hsign hdown⟩
  · exact ⟨rfl, le_rfl⟩

/-! ## The rate is not below zero -/

/-- The rate at the beginning. -/
theorem zero_le_startRate (hpass : b.fault? registered = none) (hstart : 0 ≤ b.startRate)
    (hf : f.isFinite = true) (hf' : 0 < value f) :
    0 ≤ (Axis.ofBlock b slot f).rate := by
  by_cases hsteps : b.steps.get slot = 0
  · rw [ofBlock_of_none hsteps]
    decide
  · obtain ⟨hshare, hpos⟩ := share_pos hpass hsteps
    rw [ofBlock_share hsteps]
    exact Single.zero_le_share_div hstart hshare hpos (share_le_one hpass hsteps) hf hf'

/-- The rate that the end of the rise sets. -/
theorem zero_le_cruiseRate (hpass : b.fault? registered = none) (hrates : b.RatesInRange)
    (hsteps : b.steps.get slot ≠ 0) (hf : f.isFinite = true) (hf' : 0 < value f) :
    0 ≤ (b.share slot * b.cruiseRate) / f := by
  obtain ⟨hshare, hpos⟩ := share_pos hpass hsteps
  have hcruise := hrates.cruiseRate.value_nonneg
  have hproduct := Single.rounded_mul hshare hrates.cruiseRate.1
  have hnonneg := hproduct.value_nonneg (mul_nonneg hpos.le hcruise)
  have hle := hproduct.value_le (x := b.cruiseRate)
    (mul_le_of_le_one_left hcruise (share_le_one hpass hsteps))
  have hbound := (abs_lt.mp (Single.abs_value_lt hrates.cruiseRate.1)).2
  -- the quotient may be infinite, but not NaN, since the product is finite
  apply Single.zero_le_div _ hnonneg hf hf'
  apply Single.isFinite_of_abs_lt hproduct.not_isNaN
  rw [abs_of_nonneg hnonneg]
  linarith

/-- What comes to `emit` is a number, wherever the rate before it is one that is not below zero. -/
theorem rateDue_not_isNaN (hpass : b.fault? registered = none) (hrates : b.RatesInRange)
    (hsteps : b.steps.get slot ≠ 0) (hf : f.isFinite = true) (hf' : 0 < value f)
    (hrate : 0 ≤ (b.axisAlone f slot t).rate) : (b.rateDue f slot t).isNaN = false := by
  have hnan := (Single.zero_le_iff.mp hrate).1
  unfold rateDue
  split
  · exact (Single.zero_le_iff.mp (zero_le_cruiseRate hpass hrates hsteps hf hf')).1
  · -- infinity and a finite slope do not make NaN, whichever way the slope goes
    by_cases hrising : t < b.rampUpEnd.toNat
    · obtain ⟨hfinite, hrises⟩ := slopeAfter_rise hpass hrates hsteps hrising
      exact (Single.value_le_add hnan hfinite hrises).1
    · obtain ⟨hfinite, hfalls⟩ := slopeAfter_fall hpass hrates hsteps (Nat.le_of_not_lt hrising)
      exact (Single.add_value_le hnan hfinite hfalls).1

/-- **The rate is a number, and never below zero.** -/
theorem rate_nonneg (hpass : b.fault? registered = none) (hrates : b.RatesInRange)
    (hf : f.isFinite = true) (hf' : 0 < value f) (slot : Fin n) (t : Nat) :
    0 ≤ (b.axisAlone f slot t).rate := by
  -- on the ticks: `emit` puts what is below zero to zero, and what comes to it is a number
  induction t with
  | zero => exact zero_le_startRate hpass hrates.startRate.2 hf hf'
  | succ t ih =>
    cases hactive : (b.axisAlone f slot t).isActive with
    | false => rwa [rate_axisAlone_of_inactive hactive]
    | true =>
      have hsteps := steps_ne_zero_of_active hactive
      obtain ⟨hnan, hvalue⟩ :=
        Single.value_clamp (rateDue_not_isNaN hpass hrates hsteps hf hf' ih)
      rw [rate_axisAlone_succ hpass hactive, Single.zero_le_iff, hvalue]
      exact ⟨hnan, le_max_right _ _⟩

/-! ## The profile -/

/-- The value of the rate after a tick that does not set it. -/
theorem value_rate_succ (hpass : b.fault? registered = none) (hrates : b.RatesInRange)
    (hf : f.isFinite = true) (hf' : 0 < value f)
    (hactive : (b.axisAlone f slot t).isActive = true) (hkept : t + 1 ≠ b.rampUpEnd.toNat) :
    value (b.axisAlone f slot (t + 1)).rate =
      max (value ((b.axisAlone f slot t).rate + b.slopeAfter slot t)) 0 := by
  have hnan := rateDue_not_isNaN (t := t) hpass hrates (steps_ne_zero_of_active hactive) hf hf'
    (rate_nonneg hpass hrates hf hf' slot t)
  rw [rate_axisAlone_succ hpass hactive, (Single.value_clamp hnan).2, rateDue,
    if_neg fun hset => hkept hset.1]

/-- **Before the end of the rise** a tick does not lower the rate. -/
theorem value_rate_rising (hpass : b.fault? registered = none) (hrates : b.RatesInRange)
    (hf : f.isFinite = true) (hf' : 0 < value f) (hrising : t + 1 < b.rampUpEnd.toNat) :
    value (b.axisAlone f slot t).rate ≤ value (b.axisAlone f slot (t + 1)).rate := by
  cases hactive : (b.axisAlone f slot t).isActive with
  | false => rw [rate_axisAlone_of_inactive hactive]
  | true =>
    have hsteps := steps_ne_zero_of_active hactive
    have hnan := (Single.zero_le_iff.mp (rate_nonneg hpass hrates hf hf' slot t)).1
    obtain ⟨hfinite, hrises⟩ :=
      slopeAfter_rise (t := t) hpass hrates hsteps (by omega)
    rw [value_rate_succ hpass hrates hf hf' hactive (by omega)]
    exact (Single.value_le_add hnan hfinite hrises).2.trans (le_max_left _ _)

/-- **From the end of the rise on** a tick does not raise the rate. -/
theorem value_rate_falling (hpass : b.fault? registered = none) (hrates : b.RatesInRange)
    (hf : f.isFinite = true) (hf' : 0 < value f) (hrisen : b.rampUpEnd.toNat ≤ t) :
    value (b.axisAlone f slot (t + 1)).rate ≤ value (b.axisAlone f slot t).rate := by
  cases hactive : (b.axisAlone f slot t).isActive with
  | false => rw [rate_axisAlone_of_inactive hactive]
  | true =>
    have hsteps := steps_ne_zero_of_active hactive
    obtain ⟨hnan, hnonneg⟩ :=
      Single.zero_le_iff.mp (rate_nonneg hpass hrates hf hf' slot t)
    obtain ⟨hfinite, hfalls⟩ := slopeAfter_fall hpass hrates hsteps hrisen
    rw [value_rate_succ hpass hrates hf hf' hactive (by omega)]
    exact max_le (Single.add_value_le hnan hfinite hfalls).2 hnonneg

/-- **Between the rise and the fall** a tick keeps the rate. -/
theorem value_rate_level (hpass : b.fault? registered = none) (hrates : b.RatesInRange)
    (hf : f.isFinite = true) (hf' : 0 < value f) (hrisen : b.rampUpEnd.toNat ≤ t)
    (hlevel : t + 1 ≤ b.rampDownStart.toNat) :
    value (b.axisAlone f slot (t + 1)).rate = value (b.axisAlone f slot t).rate := by
  cases hactive : (b.axisAlone f slot t).isActive with
  | false => rw [rate_axisAlone_of_inactive hactive]
  | true =>
    obtain ⟨hnan, hnonneg⟩ :=
      Single.zero_le_iff.mp (rate_nonneg hpass hrates hf hf' slot t)
    have hslope : b.slopeAfter slot t = 0 := slopeAfter_of_level hrisen (.inl (by omega))
    have hge := (Single.value_le_add (y := 0) hnan rfl le_rfl).2
    have hle := (Single.add_value_le (y := 0) hnan rfl le_rfl).2
    rw [value_rate_succ hpass hrates hf hf' hactive (by omega), hslope, le_antisymm hle hge,
      max_eq_left hnonneg]

/-- **The rate rises, then falls, and is never below zero.** Let the rates of a block that passes be
finite and not below zero, and the tick rate finite and above zero. Then the rate of a slot is never
NaN and never below zero. A tick before the end of the rise does not lower it, and a tick after the
end of the rise does not raise it; a tick after the end of the rise that is not later than the
beginning of the fall leaves it as it is. -/
theorem rate_rises_then_falls (hpass : b.fault? registered = none) (hrates : b.RatesInRange)
    (hf : f.isFinite = true) (hf' : 0 < f) (slot : Fin n) (t : Nat) :
    ((b.axisAlone f slot t).rate.isNaN = false ∧ 0 ≤ (b.axisAlone f slot t).rate) ∧
      (1 ≤ t → t < b.rampUpEnd.toNat →
        (b.axisAlone f slot (t - 1)).rate ≤ (b.axisAlone f slot t).rate) ∧
      (b.rampUpEnd.toNat ≤ t →
        (b.axisAlone f slot (t + 1)).rate ≤ (b.axisAlone f slot t).rate) ∧
      (b.rampUpEnd.toNat ≤ t → t + 1 ≤ b.rampDownStart.toNat →
        ((b.axisAlone f slot (t + 1)).rate == (b.axisAlone f slot t).rate) = true) := by
  have hpos : 0 < value f := Single.value_pos hf'
  have hrate (t : Nat) := rate_nonneg hpass hrates hf hpos slot t
  have hnan (t : Nat) := (Single.zero_le_iff.mp (hrate t)).1
  refine ⟨⟨hnan t, hrate t⟩, fun hfirst hrising => ?_, fun hrisen => ?_, fun hrisen hlevel => ?_⟩
  · obtain ⟨before, rfl⟩ : ∃ before, t = before + 1 := ⟨t - 1, by omega⟩
    rw [Nat.add_sub_cancel, Single.le_iff (hnan _) (hnan _)]
    exact value_rate_rising hpass hrates hf hpos hrising
  · rw [Single.le_iff (hnan _) (hnan _)]
    exact value_rate_falling hpass hrates hf hpos hrisen
  · -- zeros of either sign compare as equal, which is why the rates need not be the same bits
    rw [Single.beq_iff (hnan _) (hnan _)]
    exact value_rate_level hpass hrates hf hpos hrisen hlevel

/-- One of each: the first tick rises, the fourth is level, and the fifth falls. -/
theorem rate_rises_then_falls_shortMove :
    shortMove.fault? 1 = none ∧ shortMove.RatesInRange ∧ Float32.isFinite 100000 = true ∧
      (0 : Float32) < 100000 ∧ (shortMove.axisAlone 100000 0 5).isActive = true ∧
      (shortMove.axisAlone 100000 0 0).rate ≤ (shortMove.axisAlone 100000 0 1).rate ∧
      ((shortMove.axisAlone 100000 0 4).rate == (shortMove.axisAlone 100000 0 3).rate) = true ∧
      (shortMove.axisAlone 100000 0 5).rate ≤ (shortMove.axisAlone 100000 0 4).rate ∧
      0 ≤ (shortMove.axisAlone 100000 0 5).rate := by
  have hpass : shortMove.fault? 1 = none := by decide
  have hrates : shortMove.RatesInRange := by
    constructor <;> exact ⟨rfl, by decide +kernel⟩
  have hf : (0 : Float32) < 100000 := by decide +kernel
  have hprofile := rate_rises_then_falls hpass hrates rfl hf 0
  have hactive : (shortMove.axisAlone 100000 0 5).isActive = true := by decide +kernel
  exact ⟨hpass, hrates, rfl, hf, hactive, (hprofile 1).2.1 (by decide) (by decide),
    (hprofile 3).2.2.2 (by decide) (by decide), (hprofile 4).2.2.1 (by decide), (hprofile 5).1.2⟩

end Block

end PulseTrain
