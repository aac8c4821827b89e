import PulseTrain.Proofs.Axis.Rest
import PulseTrain.Proofs.Axis.Velocity
import PulseTrain.Proofs.Single.Fraction

/-!
# Exact rates

At rates of whole units of `2 ^ (-23)`, up to one step per tick, nothing is rounded: the accumulator
stays below two, where it is exact. So the axis moves as the sum of its rates says, however long it
runs: the steps are the whole part of the sum, and what is left over is in the accumulator.

* **`Axis.HasMoved`**: the axis has come so many units of `2 ^ (-23)` steps; **`HasMoved.emit`**:
  one more `emit` adds the rate.
* **`Axis.paced`**: an axis whose rate is loaded anew before each `emit`; **`Axis.hasMoved_paced`**:
  it comes as far as its rates together.
* **`Block.LevelFor`**: the block neither rises nor falls for so many ticks; **`Block.keepsPace`**:
  a slot of it comes as far as the ticks say.
* **`Block.steps_follow_exact_rates`**: the steps as floors, and the ticks of a level move as
  ceilings.
-/

namespace PulseTrain

open Single (value InUnits)

namespace Axis

variable {a : Axis} {units : ℕ}

/-! ## One `emit` -/

/-- Only `emit` touches the accumulator. -/
@[simp] theorem switchPhase_carry (a : Axis) (t : UInt32) (p : Profile) (f : Float32) :
    (a.accelerate.switchPhase t p f).carry = a.carry := by
  rw [switchPhase_eq]
  rfl

/-- A block begins with nothing gathered. -/
@[simp] theorem ofBlock_carry {n : ℕ} (b : Block n) (slot : Fin n) (f : Float32) :
    (ofBlock b slot f).carry = 0 := by
  unfold ofBlock
  dsimp only
  split <;> rfl

/-- The axis has come so many units of `2 ^ (-23)` steps: the whole steps among them are emitted,
and the rest is in the accumulator. -/
structure HasMoved (a : Axis) (units : ℕ) : Prop where
  emitted : a.emitted.toNat = units / 2 ^ 23
  carry : InUnits a.carry (units % 2 ^ 23)

/-- **An `emit` at an exact rate adds the rate**, and a step is due if it completes one. -/
theorem HasMoved.emit {steps : UInt32} {rate : ℕ} (h : a.HasMoved units) (htally : a.Tallies steps)
    (hactive : a.isActive = true) (hrate : InUnits a.rate rate) (hpos : 0 < rate)
    (hle : rate ≤ 2 ^ 23) :
    a.emit.1.HasMoved (units + rate) ∧
      (a.emit.2 = true ↔ units / 2 ^ 23 < (units + rate) / 2 ^ 23) := by
  have hmoves := hrate.not_le_zero hpos
  have hsum := h.carry.add hrate (by omega)
  have hemitted := htally.emitted_emit hactive
  rw [h.emitted] at hemitted
  -- the sum is exact, so whether it comes up to one is a question of units
  by_cases hbelow : a.carry + a.rate < 1
  · have hunits := hsum.lt_one_iff.mp hbelow
    rw [emit_of_sum_lt hmoves hbelow] at hemitted ⊢
    refine ⟨⟨?_, ?_⟩, ?_⟩
    · rw [hemitted]
      show units / 2 ^ 23 + 0 = _
      omega
    · rw [show (units + rate) % 2 ^ 23 = units % 2 ^ 23 + rate by omega]
      exact hsum
    · exact iff_of_false Bool.false_ne_true (by omega)
  · have hunits := mt hsum.lt_one_iff.mpr hbelow
    obtain ⟨hdue, hcarry⟩ := emit_of_le_sum hmoves hbelow
    rw [hdue] at hemitted
    refine ⟨⟨?_, ?_⟩, ?_⟩
    · rw [hemitted, Bool.toNat_true]
      omega
    · rw [hcarry, show (units + rate) % 2 ^ 23 = units % 2 ^ 23 + rate - 2 ^ 23 by omega]
      exact hsum.sub_one (by omega) (by omega)
    · exact iff_of_true hdue (by omega)

/-- Nothing but the count and the accumulator tells how far an axis has come. -/
theorem HasMoved.congr (h : a.HasMoved units) {a' : Axis} (hemitted : a'.emitted = a.emitted)
    (hcarry : a'.carry = a.carry) : a'.HasMoved units :=
  ⟨by rw [hemitted]; exact h.emitted, by rw [hcarry]; exact h.carry⟩

/-! ## A rate for each call -/

/-- The axis after so many calls of `emit`, with a rate of its own loaded before each. -/
def paced (a : Axis) (rates : ℕ → Float32) : ℕ → Axis
  | 0 => a
  | k + 1 => (emit { a.paced rates k with rate := rates k }).1

/-- Whether a step is due on the call after `k` of them. -/
def pacedDue (a : Axis) (rates : ℕ → Float32) (k : ℕ) : Bool :=
  (emit { a.paced rates k with rate := rates k }).2

/-- An axis that is through stays so. -/
theorem emit_of_inactive (h : a.isActive = false) : a.emit.1.isActive = false := by
  have htarget : a.target = 0 := by simpa [isActive] using h
  cases hdue : a.emit.2 with
  | false => simp [isActive, (emit_of_not_due hdue).1, htarget]
  | true => simp [isActive, (emit_of_due hdue).2, htarget]

variable {rates : ℕ → Float32} {pace : ℕ → ℕ} {steps : UInt32} {k : ℕ}

/-- One more call, at an exact rate. -/
theorem HasMoved.paced_succ {rate : ℕ} (h : (a.paced rates k).HasMoved units)
    (htally : (a.paced rates k).Tallies steps) (hactive : (a.paced rates k).isActive = true)
    (hrate : InUnits (rates k) rate) (hpos : 0 < rate) (hle : rate ≤ 2 ^ 23) :
    (a.paced rates (k + 1)).HasMoved (units + rate) ∧ (a.paced rates (k + 1)).Tallies steps ∧
      (a.pacedDue rates k = true ↔ units / 2 ^ 23 < (units + rate) / 2 ^ 23) := by
  have hloaded : Tallies { a.paced rates k with rate := rates k } steps :=
    ⟨htally.emitted_le, htally.target_eq⟩
  have hmoved : HasMoved { a.paced rates k with rate := rates k } units := h.congr rfl rfl
  obtain ⟨hnext, hdue⟩ := hmoved.emit hloaded hactive hrate hpos hle
  exact ⟨hnext, hloaded.emit hactive, hdue⟩

/-- **The axis comes as far as its rates together**, as long as it is active. The induction is on
the number of calls. -/
theorem hasMoved_paced (hstart : a.HasMoved 0) (htally : a.Tallies steps)
    (hrates : ∀ i, InUnits (rates i) (pace i) ∧ 0 < pace i ∧ pace i ≤ 2 ^ 23)
    (hactive : (a.paced rates k).isActive = true) :
    (a.paced rates k).HasMoved (∑ i ∈ Finset.range k, pace i) ∧
      (a.paced rates k).Tallies steps := by
  induction k with
  | zero => exact ⟨hstart, htally⟩
  | succ k ih =>
    -- an axis that is through stays so, so one that is active now was active before
    have hbefore : (a.paced rates k).isActive = true := by
      rw [← Bool.not_eq_false]
      intro hinactive
      have hthrough : (a.paced rates (k + 1)).isActive = false :=
        emit_of_inactive (a := { a.paced rates k with rate := rates k }) hinactive
      rw [hactive] at hthrough
      cases hthrough
    obtain ⟨hmoved, htally'⟩ := ih hbefore
    obtain ⟨hrate, hpos, hle⟩ := hrates k
    obtain ⟨hnext, hnext', -⟩ := hmoved.paced_succ htally' hbefore hrate hpos hle
    rw [Finset.sum_range_succ]
    exact ⟨hnext, hnext'⟩

/-! ## Units as numbers -/

/-- The whole part of a number of units. -/
theorem floor_units (units : ℕ) : ⌊(units / 2 ^ 23 : ℚ)⌋₊ = units / 2 ^ 23 := by
  rw [show (2 ^ 23 : ℚ) = (2 ^ 23 : ℕ) by norm_num, Nat.floor_div_eq_div]

/-- The fraction of a number of units. -/
theorem fract_units (units : ℕ) :
    Int.fract (units / 2 ^ 23 : ℚ) = (units % 2 ^ 23 : ℕ) / 2 ^ 23 := by
  rw [show (2 ^ 23 : ℚ) = (2 ^ 23 : ℕ) by norm_num, Int.fract_div_natCast_eq_div_natCast_mod]

/-- How many steps so many rates bring an axis forward together. -/
def distance (rates : ℕ → Float32) (k : ℕ) : ℚ := ∑ i ∈ Finset.range k, value (rates i)

/-- The sum of rates that are whole numbers of units is one too. -/
theorem distance_units (hrates : ∀ i, InUnits (rates i) (pace i)) (k : ℕ) :
    distance rates k = (∑ i ∈ Finset.range k, pace i : ℕ) / 2 ^ 23 := by
  rw [distance, Nat.cast_sum, Finset.sum_div]
  exact Finset.sum_congr rfl fun i _ => (hrates i).2

/-- A rate of whole units of `2 ^ (-23)`, above zero and not above one step per tick. -/
def IsExactRate (rate : Float32) : Prop :=
  ∃ j : ℕ, 1 ≤ j ∧ j ≤ 2 ^ 23 ∧ value rate = j / 2 ^ 23

/-- An exact rate as a number of units. -/
theorem IsExactRate.inUnits {rate : Float32} (h : IsExactRate rate) :
    ∃ j, InUnits rate j ∧ 0 < j ∧ j ≤ 2 ^ 23 := by
  obtain ⟨j, hpos, hle, hvalue⟩ := h
  exact ⟨j, .of_value hvalue hpos (by omega), hpos, hle⟩

/-- **The sum of the rates**: its whole part is emitted, its fraction is in the accumulator, and a
step is due on a call that completes one. -/
theorem paced_of_exact (htarget : a.target ≠ 0) (hemitted : a.emitted = 0)
    (hcarry : InUnits a.carry 0) (hrates : ∀ i, IsExactRate (rates i))
    (hactive : (a.paced rates k).isActive = true) :
    (a.paced rates (k + 1)).emitted.toNat = ⌊distance rates (k + 1)⌋₊ ∧
      (a.paced rates (k + 1)).carry.isFinite = true ∧
      value (a.paced rates (k + 1)).carry = Int.fract (distance rates (k + 1)) ∧
      (a.pacedDue rates k = true ↔ ⌊distance rates k⌋₊ < ⌊distance rates (k + 1)⌋₊) := by
  -- from here on the rates are numbers of units, and everything is integer arithmetic
  choose pace hpace using fun i => (hrates i).inUnits
  have hstart : a.HasMoved 0 := ⟨by rw [hemitted]; rfl, hcarry⟩
  have htally : a.Tallies a.target := by
    refine ⟨?_, ?_⟩ <;> rw [hemitted]
    · exact UInt32.zero_le
    · rw [if_neg htarget.symm]
  obtain ⟨hmoved, htally'⟩ := hasMoved_paced hstart htally hpace hactive
  obtain ⟨hrate, hpos, hle⟩ := hpace k
  obtain ⟨hnext, -, hdue⟩ := hmoved.paced_succ htally' hactive hrate hpos hle
  have hunits (i : ℕ) : InUnits (rates i) (pace i) := (hpace i).1
  rw [← Finset.sum_range_succ] at hnext hdue
  rw [distance_units hunits, distance_units hunits, floor_units, floor_units, fract_units]
  exact ⟨hnext.emitted, hnext.carry.1, hnext.carry.2, hdue⟩

end Axis

/-! ## A level move -/

namespace Block

variable {n : ℕ} {b : Block n} {f : Float32} {slot : Fin n} {registered count t j : ℕ}

/-- The block neither rises nor falls for so many ticks: it has no rise, and it has no fall or one
that begins later. A block whose boundaries are all at zero falls from its beginning. -/
structure LevelFor (b : Block n) (count : ℕ) : Prop where
  rampUpEnd : b.rampUpEnd = 0
  rampDownStart : b.rampDownStart ≠ 0
  lasts : b.rampDownStart = b.duration ∨ count ≤ b.rampDownStart.toNat

/-- As long as a block is level there is no slope. -/
theorem LevelFor.slopeAfter_eq (h : b.LevelFor count) (ht : t < count) :
    b.slopeAfter slot t = 0 := by
  have hrisen : b.rampUpEnd.toNat ≤ t := by
    rw [h.rampUpEnd]
    exact Nat.zero_le t
  apply slopeAfter_of_level hrisen
  -- the fall is never, or later than all the ticks that matter
  rcases h.lasts with hnever | hlater
  · refine .inr ⟨?_, ?_⟩
    · rw [hnever]
      exact UInt32.lt_irrefl _
    · rw [h.rampUpEnd]
      exact h.rampDownStart.symm
  · exact .inl (ht.trans_le hlater)

/-- A slot that has been at one exact rate so far, and has come as far as the ticks say. -/
structure KeepsPace (b : Block n) (f : Float32) (slot : Fin n) (j t : ℕ) : Prop where
  rate : InUnits (b.axisAlone f slot t).rate j
  moved : (b.axisAlone f slot t).HasMoved (t * j)

/-- **A level tick at an exact rate** keeps the rate, and comes further by it. -/
theorem KeepsPace.succ (h : b.KeepsPace f slot j t) (hpass : b.fault? registered = none)
    (hlevel : b.LevelFor count) (ht : t < count) (hpos : 0 < j) (hle : j ≤ 2 ^ 23)
    (hactive : (b.axisAlone f slot t).isActive = true) :
    b.KeepsPace f slot j (t + 1) ∧
      ((b.tickAlone f slot t).2 = true ↔ t * j / 2 ^ 23 < (t + 1) * j / 2 ^ 23) := by
  have hdue : InUnits (b.rateDue f slot t) j := by
    have hset : ¬ 0 < b.rampUpEnd := by
      rw [hlevel.rampUpEnd]
      exact UInt32.lt_irrefl 0
    rw [rateDue, if_neg fun hends => hset hends.2.1, hlevel.slopeAfter_eq ht]
    exact h.rate.add .zero (by omega)
  -- what comes before `emit` leaves the count and the accumulator alone
  have hmoved : ((b.axisAlone f slot t).accelerate.switchPhase (1 + UInt32.ofNat t) b.toProfile
      f).HasMoved (t * j) := h.moved.congr (by simp) (by simp)
  have hrate : InUnits ((b.axisAlone f slot t).accelerate.switchPhase (1 + UInt32.ofNat t)
      b.toProfile f).rate j := by
    rw [← tickNumber_eq, rate_switchPhase_eq_rateDue hpass hactive]
    exact hdue
  have hnext := hmoved.emit ((tallies_axisAlone b f slot t).switchPhase _ _ _)
    (by rw [Axis.switchPhase_isActive]; exact hactive) hrate hpos hle
  rw [← Nat.succ_mul] at hnext
  refine ⟨⟨?_, ?_⟩, hnext.2⟩
  · rw [rate_axisAlone_succ hpass hactive, Single.clamp, if_neg (hdue.not_le_zero hpos)]
    exact hdue
  · rw [axisAlone_succ, if_pos hactive]
    exact hnext.1

/-- A slot that keeps its pace is active as long as its units do not make up all the steps. -/
theorem KeepsPace.isActive_iff (h : b.KeepsPace f slot j t) :
    (b.axisAlone f slot t).isActive = true ↔ t * j < (b.steps.get slot).toNat * 2 ^ 23 := by
  rw [isActive_axisAlone_iff, h.moved.emitted]
  exact Nat.div_lt_iff_lt_mul (by positivity)

/-- **A level slot keeps its pace** as long as steps are missing. The induction is on the ticks. -/
theorem keepsPace (hpass : b.fault? registered = none) (hlevel : b.LevelFor count)
    (hstart : InUnits (Axis.ofBlock b slot f).rate j) (hpos : 0 < j) (hle : j ≤ 2 ^ 23)
    (hcount : (b.steps.get slot).toNat * 2 ^ 23 ≤ count * j)
    (ht : t * j < (b.steps.get slot).toNat * 2 ^ 23) : b.KeepsPace f slot j t := by
  induction t with
  | zero =>
    have hemitted : (Axis.ofBlock b slot f).emitted.toNat = 0 * j / 2 ^ 23 := by simp
    have hcarry : InUnits (Axis.ofBlock b slot f).carry (0 * j % 2 ^ 23) := by
      rw [Axis.ofBlock_carry, Nat.zero_mul]
      exact .zero
    exact ⟨hstart, hemitted, hcarry⟩
  | succ t ih =>
    have hbefore : t * j < (b.steps.get slot).toNat * 2 ^ 23 :=
      (Nat.mul_le_mul_right j (Nat.le_succ t)).trans_lt ht
    have hlasts : t < count := Nat.lt_of_mul_lt_mul_right (hbefore.trans_le hcount)
    have hkept := ih hbefore
    exact (hkept.succ hpass hlevel hlasts hpos hle (hkept.isActive_iff.mpr hbefore)).1

/-- The tick on which a pace completes so many steps. -/
theorem ceil_units (hpos : 0 < j) {steps : ℕ} (hsteps : 0 < steps) :
    ∃ t, ⌈(steps / (j / 2 ^ 23) : ℚ)⌉₊ = t + 1 ∧ t * j < steps * 2 ^ 23 ∧
      steps * 2 ^ 23 ≤ (t + 1) * j := by
  have hunits : (0 : ℚ) < j / 2 ^ 23 := by positivity
  have hticks : 0 < ⌈(steps / (j / 2 ^ 23) : ℚ)⌉₊ := Nat.ceil_pos.mpr (by positivity)
  obtain ⟨t, ht⟩ := Nat.exists_eq_add_one.mpr hticks
  refine ⟨t, ht, ?_, ?_⟩
  · -- one tick earlier the pace has not completed the steps
    have hbefore : (t : ℚ) < steps / (j / 2 ^ 23) := by
      rw [← Nat.lt_ceil, ht]
      exact Nat.lt_succ_self t
    rw [lt_div_iff₀ hunits, ← mul_div_assoc, div_lt_iff₀ (by positivity)] at hbefore
    exact_mod_cast hbefore
  · have hafter := Nat.le_ceil (steps / (j / 2 ^ 23) : ℚ)
    rw [ht, div_le_iff₀ hunits, ← mul_div_assoc, le_div_iff₀ (by positivity)] at hafter
    exact_mod_cast hafter

/-- A pace that completes so many steps on its next tick has not completed them before, and no more
of them after. -/
theorem floor_pace {steps : ℕ} (hbefore : t * j < steps * 2 ^ 23)
    (hafter : steps * 2 ^ 23 ≤ (t + 1) * j) (hle : j ≤ 2 ^ 23) :
    t * j / 2 ^ 23 < steps ∧ (t + 1) * j / 2 ^ 23 = steps := by
  rw [Nat.succ_mul] at hafter ⊢
  omega

/-- The tick on which a slot completes so many steps, at the rate with which it begins. -/
def stepTick (b : Block n) (f : Float32) (slot : Fin n) (steps : ℕ) : ℕ :=
  ⌈steps / value (Axis.ofBlock b slot f).rate⌉₊

/-- **The steps of a level move come when the rate completes them**, and no others do. -/
theorem level_of_exact (hpass : b.fault? registered = none)
    (hrate : Axis.IsExactRate (Axis.ofBlock b slot f).rate)
    (hlevel : b.LevelFor (b.stepTick f slot (b.steps.get slot).toNat)) :
    (∀ i, 1 ≤ i → i ≤ (b.steps.get slot).toNat →
        b.solo f slot (b.stepTick f slot i) = some true ∧
        (b.axisAlone f slot (b.stepTick f slot i)).emitted.toNat = i) ∧
      b.SoloEnds f slot (b.stepTick f slot (b.steps.get slot).toNat) := by
  obtain ⟨j, hstart, hpos, hle⟩ := hrate.inUnits
  unfold stepTick at hlevel ⊢
  rw [hstart.2] at hlevel ⊢
  have hsteps : 0 < (b.steps.get slot).toNat := by
    rw [toNat_pos]
    intro hnone
    have hrest : (Axis.ofBlock b slot f).rate = 0 := by simp [Axis.ofBlock, hnone]
    rw [hrest] at hstart
    exact hstart.not_le_zero hpos (by decide)
  obtain ⟨last, hlast, hlast', hcount⟩ := ceil_units hpos hsteps
  rw [hlast] at hlevel ⊢
  have htick {t : ℕ} (ht : t * j < (b.steps.get slot).toNat * 2 ^ 23) :
      (b.axisAlone f slot t).isActive = true ∧ b.KeepsPace f slot j (t + 1) ∧
        ((b.tickAlone f slot t).2 = true ↔ t * j / 2 ^ 23 < (t + 1) * j / 2 ^ 23) := by
    have hkept := keepsPace hpass hlevel hstart hpos hle hcount ht
    have hactive := hkept.isActive_iff.mpr ht
    have hlasts : t < last + 1 := Nat.lt_of_mul_lt_mul_right (ht.trans_le hcount)
    exact ⟨hactive, hkept.succ hpass hlevel hlasts hpos hle hactive⟩
  -- each step on its tick, and the last of them ends the bits
  refine ⟨fun i hfirst hmissing => ?_, soloEnds_of_isActive (fun t ht => ?_) ?_⟩
  · obtain ⟨t, ht, hbefore, hafter⟩ := ceil_units hpos hfirst
    obtain ⟨hactive, hnext, hdue⟩ := htick (hbefore.trans_le (Nat.mul_le_mul_right _ hmissing))
    obtain ⟨hfloor, hfloor'⟩ := floor_pace hbefore hafter hle
    rw [ht, solo_succ, if_pos hactive, hdue.mpr (by rwa [hfloor']), hnext.moved.emitted]
    exact ⟨rfl, hfloor'⟩
  · apply (htick _).1
    exact (Nat.mul_le_mul_right j (Nat.le_of_lt_succ ht)).trans_lt hlast'
  · rw [Bool.eq_false_iff, ne_eq, (htick hlast').2.1.isActive_iff]
    omega

/-- **No fraction of a step is lost at exact rates.** Let an axis have a target, nothing emitted and
nothing in its accumulator, and let each `emit` find an exact rate. As long as the axis is active,
the steps are the whole part of the sum of the rates, what is left of it is in the accumulator, and
a step is due exactly on the calls that raise the whole part. In particular, let a slot of a block
that passes begin at an exact rate, and the block be level for as long as the slot takes at that
rate. Then the `i`-th step is emitted on tick `⌈i / rate⌉`, and the slot is through with its last
step. -/
theorem steps_follow_exact_rates :
    (∀ (a : Axis) (rates : ℕ → Float32), a.target ≠ 0 → a.emitted = 0 → InUnits a.carry 0 →
      (∀ i, Axis.IsExactRate (rates i)) → ∀ k, (a.paced rates k).isActive = true →
        (a.paced rates (k + 1)).emitted.toNat = ⌊Axis.distance rates (k + 1)⌋₊ ∧
        (a.paced rates (k + 1)).carry.isFinite = true ∧
        value (a.paced rates (k + 1)).carry = Int.fract (Axis.distance rates (k + 1)) ∧
        (a.pacedDue rates k = true ↔
          ⌊Axis.distance rates k⌋₊ < ⌊Axis.distance rates (k + 1)⌋₊)) ∧
    ∀ (n : ℕ) (b : Block n) (registered : ℕ) (f : Float32) (slot : Fin n),
      b.fault? registered = none → Axis.IsExactRate (Axis.ofBlock b slot f).rate →
      b.LevelFor (b.stepTick f slot (b.steps.get slot).toNat) →
        (∀ i, 1 ≤ i → i ≤ (b.steps.get slot).toNat →
          b.solo f slot (b.stepTick f slot i) = some true ∧
          (b.axisAlone f slot (b.stepTick f slot i)).emitted.toNat = i) ∧
        b.SoloEnds f slot (b.stepTick f slot (b.steps.get slot).toNat) := by
  refine ⟨?paced, ?level⟩
  case paced =>
    intro a rates htarget hemitted hcarry hrates k hactive
    exact Axis.paced_of_exact htarget hemitted hcarry hrates hactive
  case level =>
    intro n b registered f slot hpass hrate hlevel
    exact level_of_exact hpass hrate hlevel

/-- Three steps at three eighths of a step per tick, which take all of the eight planned ticks. -/
def levelMove : Block 1 :=
  { rampDownStart := 8, duration := 8, startRate := 37500, referenceSteps := 3, steps := #v[3] }

/-- The eighth call makes the third step, and nothing is left; so does the eighth tick. -/
theorem steps_follow_exact_rates_levelMove :
    levelMove.fault? 1 = none ∧
      (Axis.paced { target := 3 } (fun _ => 0.375) 8).emitted.toNat = 3 ∧
      value (Axis.paced { target := 3 } (fun _ => 0.375) 8).carry = 0 ∧
      levelMove.solo 100000 0 3 = some true ∧ levelMove.solo 100000 0 6 = some true ∧
      levelMove.solo 100000 0 8 = some true ∧ levelMove.SoloEnds 100000 0 8 := by
  have hvalue : value 0.375 = 3 / 8 := by decide +kernel
  have hexact : Axis.IsExactRate 0.375 :=
    ⟨3145728, by norm_num, by norm_num, by rw [hvalue]; norm_num⟩
  -- eight ticks at three eighths of a step
  have hdistance : Axis.distance (fun _ => 0.375) 8 = 3 := by
    rw [Axis.distance, hvalue, Finset.sum_const, Finset.card_range]
    norm_num
  obtain ⟨hpaced, hlevel⟩ := steps_follow_exact_rates
  obtain ⟨hemitted, -, hcarry, -⟩ := hpaced { target := 3 } (fun _ => 0.375) (by decide) rfl .zero
    (fun _ => hexact) 7 (by decide +kernel)
  rw [hdistance] at hemitted hcarry
  have hpass : levelMove.fault? 1 = none := by decide
  have hrate : (Axis.ofBlock levelMove 0 100000).rate = 0.375 := by decide +kernel
  obtain ⟨hsolo, hends⟩ := hlevel 1 levelMove 1 100000 0 hpass (by rw [hrate]; exact hexact)
    ⟨rfl, by decide, .inl rfl⟩
  -- the ticks of the three steps, by the bounds of their ceilings
  have htick (i t : ℕ) (hbefore : ((t - 1 : ℕ) : ℚ) < i / (3 / 8)) (hafter : i / (3 / 8) ≤ (t : ℚ))
      (ht : t ≠ 0) : levelMove.stepTick 100000 0 i = t := by
    rw [stepTick, hrate, hvalue]
    exact (Nat.ceil_eq_iff ht).mpr ⟨hbefore, hafter⟩
  have hfirst : levelMove.stepTick 100000 0 1 = 3 := by apply htick <;> norm_num
  have hsecond : levelMove.stepTick 100000 0 2 = 6 := by apply htick <;> norm_num
  have hthird : levelMove.stepTick 100000 0 3 = 8 := by apply htick <;> norm_num
  refine ⟨hpass, ?_, ?_, ?_, ?_, ?_, ?_⟩
  · rw [hemitted]
    norm_num
  · rw [hcarry]
    norm_num
  · rw [← hfirst]
    exact (hsolo 1 (by decide) (by decide)).1
  · rw [← hsecond]
    exact (hsolo 2 (by decide) (by decide)).1
  · rw [← hthird]
    exact (hsolo 3 (by decide) (by decide)).1
  · rw [← hthird]
    exact hends

end Block

end PulseTrain
