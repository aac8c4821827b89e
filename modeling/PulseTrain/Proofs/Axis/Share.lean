import PulseTrain.Proofs.Axis.Velocity
import PulseTrain.Proofs.Single.Order

/-!
# The shares of the slots

Every slot of a block moves at its share of the rates of the reference axis. The share is no exact
quotient: the steps and those of the reference axis are converted, which rounds counts above `2 ^
24`, the reference is inverted, and the inverse multiplied. No share comes above one all the same,
and of two slots the one with fewer steps has no larger share, nor does it start at a higher rate.

* **`Block.share_mono`**: shares are in the order of the steps.
* **`Block.startRate_mono`**: so are the rates at the beginning.
* **`Block.shares_in_order`**: the shares are above zero and at most one, and in order.
-/

namespace PulseTrain

namespace Block

open Single (value)

variable {n : Nat} {b : Block n} {f : Float32} {slot slot' : Fin n} {registered : Nat}

/-- **Shares are in the order of the steps.** -/
theorem share_mono (hpass : b.fault? registered = none) (hsteps : b.steps.get slot ≠ 0)
    (hle : b.steps.get slot ≤ b.steps.get slot') :
    value (b.share slot) ≤ value (b.share slot') :=
  Single.ratio_le_ratio (within_reference hpass hsteps).1 hle

theorem ratio_ofBlock (hsteps : b.steps.get slot ≠ 0) :
    (Axis.ofBlock b slot f).ratio = b.share slot := by
  rw [ofBlock_share hsteps]

/-- **The rates at the beginning are in the order of the steps**, also next to a slot that stands
still. -/
theorem startRate_mono (hpass : b.fault? registered = none) (hstart : 0 ≤ b.startRate)
    (hf : f.isFinite = true) (hf' : 0 < value f) (hle : b.steps.get slot ≤ b.steps.get slot') :
    (Axis.ofBlock b slot f).rate ≤ (Axis.ofBlock b slot' f).rate := by
  have hrate (slot : Fin n) : 0 ≤ (Axis.ofBlock b slot f).rate :=
    zero_le_startRate hpass hstart hf hf'
  by_cases hsteps : b.steps.get slot = 0
  · -- a slot without steps has the rate zero
    rw [ofBlock_of_none hsteps]
    exact hrate slot'
  · have hsteps' := ne_zero_of_le hsteps hle
    obtain ⟨hshare, hpos⟩ := share_pos hpass hsteps
    obtain ⟨hshare', -⟩ := share_pos hpass hsteps'
    rw [Single.le_iff (Single.zero_le_iff.mp (hrate slot)).1 (Single.zero_le_iff.mp (hrate slot')).1,
      ofBlock_share hsteps, ofBlock_share hsteps']
    -- a larger share of the same rate stays larger when both are rounded
    exact Single.share_div_le hstart hshare hpos hshare' (share_mono hpass hsteps hle)
      (share_le_one hpass hsteps') hf hf'

/-- **No slot is scaled above the reference axis, and the shares are in order.** Let a block pass,
and the tick rate be finite and above zero. Then the share of every slot that moves is finite, above
zero and at most one; a slot that moves has no larger share than another one with as many steps or
more; and where the block does not start below zero, infinity included, a slot starts no faster than
another one with as many steps or more. The steps may be any count, also one that single precision
does not have. -/
theorem shares_in_order (hpass : b.fault? registered = none) (hf : f.isFinite = true)
    (hf' : 0 < f) :
    (∀ slot, b.steps.get slot ≠ 0 →
      (Axis.ofBlock b slot f).ratio.isFinite = true ∧ 0 < (Axis.ofBlock b slot f).ratio ∧
        (Axis.ofBlock b slot f).ratio ≤ 1) ∧
      (∀ slot slot', b.steps.get slot ≠ 0 → b.steps.get slot ≤ b.steps.get slot' →
        (Axis.ofBlock b slot f).ratio ≤ (Axis.ofBlock b slot' f).ratio) ∧
      (0 ≤ b.startRate → ∀ slot slot', b.steps.get slot ≤ b.steps.get slot' →
        (Axis.ofBlock b slot f).rate ≤ (Axis.ofBlock b slot' f).rate) := by
  refine ⟨fun slot hsteps => ?_, fun slot slot' hsteps hle => ?_, fun hstart slot slot' hle => ?_⟩
  · obtain ⟨hfinite, hpos⟩ := share_pos hpass hsteps
    have hnan := Single.isNaN_of_isFinite hfinite
    rw [ratio_ofBlock hsteps, Single.lt_iff rfl hnan, Single.value_zero, Single.le_iff hnan rfl,
      Single.value_one]
    exact ⟨hfinite, hpos, share_le_one hpass hsteps⟩
  · have hsteps' := ne_zero_of_le hsteps hle
    rw [ratio_ofBlock hsteps, ratio_ofBlock hsteps',
      Single.le_iff (Single.isNaN_of_isFinite (share_pos hpass hsteps).1)
        (Single.isNaN_of_isFinite (share_pos hpass hsteps').1)]
    exact share_mono hpass hsteps hle
  · exact startRate_mono hpass hstart hf (Single.value_pos hf') hle

/-- Three slots: one as far as the reference axis, one with a step less, which is the same number in
single precision, and one that stands still. -/
def farMove : Block 3 :=
  { rampDownStart := 1000, duration := 1000, startRate := 25000, referenceSteps := 16777217
    steps := #v[16777217, 16777216, 0] }

/-- Counts above `2 ^ 24`, which single precision rounds, do not put the shares out of order. -/
theorem shares_in_order_farMove :
    farMove.fault? 3 = none ∧ (Axis.ofBlock farMove 0 100000).ratio ≤ 1 ∧
      (Axis.ofBlock farMove 1 100000).ratio ≤ (Axis.ofBlock farMove 0 100000).ratio ∧
      (Axis.ofBlock farMove 2 100000).rate ≤ (Axis.ofBlock farMove 1 100000).rate := by
  have hpass : farMove.fault? 3 = none := by decide
  obtain ⟨hbounds, hshares, hrates⟩ :=
    shares_in_order hpass (f := 100000) (by decide +kernel) (by decide +kernel)
  exact ⟨hpass, (hbounds 0 (by decide)).2.2, hshares 1 0 (by decide) (by decide),
    hrates (by decide +kernel) 2 1 (by decide)⟩

end Block

end PulseTrain
