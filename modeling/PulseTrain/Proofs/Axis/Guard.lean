import PulseTrain.Proofs.Axis.Schedule

/-!
# The end of a move that has stalled

Where the rate is not above zero after the rise, it stays so: the slope is none or that of the fall,
nothing sets the rate any more, and a step that is due puts the rate to zero. So every tick is due
until all steps are emitted.

* **`Axis.emit_of_stalled`**: a tick at such a rate is due.
* **`Block.Stalls`**: the rate of a slot is not above zero on its next tick; **`Stalls.succ`**: and
  not on the tick after that either.
* **`Block.stalled_steps_every_tick`**: a step on every tick until the last one.
-/

namespace PulseTrain

namespace Axis

theorem one_add_zero_not_lt_one : ¬ (1 : Float32) + 0 < 1 := by decide +kernel

/-- At a rate that is not above zero a step is due, and rate and accumulator are zero after it. -/
theorem emit_of_stalled {a : Axis} (h : a.rate ≤ 0) :
    a.emit.2 = true ∧ a.emit.1.rate = 0 := by
  have hkept : a.keepMoving = { a with carry := 1, rate := 0 } := if_pos h
  unfold emit
  rw [hkept]
  dsimp only
  rw [if_neg one_add_zero_not_lt_one]
  exact ⟨rfl, rfl⟩

end Axis

namespace Block

variable {n : Nat} {b : Block n} {f : Float32} {slot : Fin n} {registered t : Nat}

/-! ## Steps that are missing -/

/-- The bookkeeping of a slot is right after any number of ticks. -/
theorem tallies_axisAlone (b : Block n) (f : Float32) (slot : Fin n) (t : Nat) :
    (b.axisAlone f slot t).Tallies (b.steps.get slot) := by
  induction t with
  | zero => exact Axis.tallies_ofBlock b slot f
  | succ t ih =>
    rw [axisAlone_succ]
    split
    · rename_i hactive
      exact ih.tick hactive _ _ _
    · -- a slot that is through does not change any more
      exact ih

/-- A slot is active exactly as long as steps are missing. -/
theorem isActive_axisAlone_iff :
    (b.axisAlone f slot t).isActive = true ↔
      (b.axisAlone f slot t).emitted.toNat < (b.steps.get slot).toNat := by
  have htally := tallies_axisAlone b f slot t
  have hle := UInt32.le_iff_toNat_le.mp htally.emitted_le
  rw [htally.isActive_iff, ne_eq, ← UInt32.toNat_inj]
  omega

/-- A slot counts one step if its next tick is due, and none otherwise. -/
theorem emitted_axisAlone_succ (hactive : (b.axisAlone f slot t).isActive = true) :
    (b.axisAlone f slot (t + 1)).emitted.toNat =
      (b.axisAlone f slot t).emitted.toNat + (b.tickAlone f slot t).2.toNat := by
  rw [axisAlone_succ, if_pos hactive]
  exact (tallies_axisAlone b f slot t).emitted_tick hactive _ _ _

/-! ## Stalling -/

/-- The slot is active after `t` ticks, and its rate is not above zero on the next one. -/
structure Stalls (b : Block n) (f : Float32) (slot : Fin n) (t : Nat) : Prop where
  active : (b.axisAlone f slot t).isActive = true
  rate : ((b.axisAlone f slot t).accelerate.switchPhase (UInt32.ofNat (t + 1)) b.toProfile
    f).rate ≤ 0

/-- A slot that stalls steps on its next tick, and is left with the rate zero. -/
theorem Stalls.emit (h : b.Stalls f slot t) :
    (b.tickAlone f slot t).2 = true ∧ (b.tickAlone f slot t).1.rate = 0 := by
  unfold tickAlone Axis.tick
  rw [← tickNumber_eq]
  exact Axis.emit_of_stalled h.rate

/-- After the rise, no slope brings the rate of zero above zero. -/
theorem zero_add_slope_nonpos (hpass : b.fault? registered = none) (hfall : 0 ≤ b.rampDown)
    (hsteps : b.steps.get slot ≠ 0) (hrisen : b.rampUpEnd.toNat ≤ t) :
    (0 : Float32) + b.slopeAfter slot t ≤ 0 := by
  obtain ⟨hshare, hshare'⟩ := share_pos hpass hsteps
  have hnan := (Single.isNaN_of_le hfall).2
  have hdown : Single.value (-b.rampDown) ≤ 0 := by
    rw [Single.le_iff rfl hnan, Single.value_zero] at hfall
    rw [Single.value_neg]
    linarith
  obtain ⟨hnan', hfalls⟩ := Single.mul_nonpos (Single.isNaN_neg hnan) hdown hshare hshare'
  have hslope : (b.slopeAfter slot t).isNaN = false ∧ Single.value (b.slopeAfter slot t) ≤ 0 := by
    unfold slopeAfter
    rw [if_neg (Nat.not_lt.mpr hrisen)]
    split
    · exact ⟨hnan', hfalls⟩
    · exact ⟨rfl, le_rfl⟩
  -- zero and a slope that is not above zero may still be rounded, but not to above zero
  obtain ⟨hsum, hle⟩ := Single.add_nonpos (x := 0) rfl hslope.1 le_rfl hslope.2
  exact (Single.le_zero_iff hsum).mpr hle

/-- **A slot that stalls after the rise goes on to stall** as long as it is active. -/
theorem Stalls.succ (h : b.Stalls f slot t) (hpass : b.fault? registered = none)
    (hfall : 0 ≤ b.rampDown) (hrisen : b.rampUpEnd.toNat ≤ t + 1)
    (hactive : (b.axisAlone f slot (t + 1)).isActive = true) : b.Stalls f slot (t + 1) where
  active := hactive
  rate := by
    have hup := ((fault?_eq_none_iff b registered).mp hpass).1.1
    have hsteps := (tallies_axisAlone b f slot (t + 1)).steps_ne_zero hactive
    have hscheduled := onSchedule hpass hactive
    have hrate : (b.axisAlone f slot (t + 1)).rate = 0 := by
      rw [axisAlone_succ, if_pos h.active]
      exact h.emit.2
    -- the rate is set at the end of the rise only, which has passed
    rw [hscheduled.accelerate.rate_switchPhase hup, if_neg fun hends => by omega]
    show (b.axisAlone f slot (t + 1)).rate + (b.axisAlone f slot (t + 1)).slope ≤ 0
    rw [hrate, hscheduled.slope]
    exact zero_add_slope_nonpos hpass hfall hsteps hrisen

/-- From the tick on that first stalls, the steps are counted one by one. -/
theorem Stalls.emitted (h : b.Stalls f slot t) (hpass : b.fault? registered = none)
    (hfall : 0 ≤ b.rampDown) (hrisen : b.rampUpEnd.toNat ≤ t + 1) {k : Nat}
    (hk : (b.axisAlone f slot t).emitted.toNat + k ≤ (b.steps.get slot).toNat) :
    (b.axisAlone f slot (t + k)).emitted.toNat = (b.axisAlone f slot t).emitted.toNat + k ∧
      ((b.axisAlone f slot (t + k)).isActive = true → b.Stalls f slot (t + k)) := by
  -- on the ticks: each one stalls because the one before it did and steps are still missing
  induction k with
  | zero => exact ⟨rfl, fun _ => h⟩
  | succ k ih =>
    obtain ⟨hemitted, hstalls⟩ := ih (by omega)
    have hactive : (b.axisAlone f slot (t + k)).isActive = true :=
      isActive_axisAlone_iff.mpr (by omega)
    have hstalled := hstalls hactive
    have hcount := emitted_axisAlone_succ hactive
    rw [hstalled.emit.1, Bool.toNat_true, hemitted] at hcount
    exact ⟨hcount, hstalled.succ hpass hfall (by omega)⟩

/-! ## The length of a string that ends -/

/-- A slot that is active now was active all the time before. -/
theorem isActive_axisAlone_of_le {t' : Nat} (h : (b.axisAlone f slot t').isActive = true)
    (hle : t ≤ t') : (b.axisAlone f slot t).isActive = true := by
  induction hle with
  | refl => exact h
  | step _ ih =>
    refine ih ?_
    rw [axisAlone_succ] at h
    split at h
    · rename_i hbefore
      exact hbefore
    · exact h

/-- The bits end where the slot has become inactive. -/
theorem soloEnds_of_isActive {length : Nat}
    (hbefore : ∀ t < length, (b.axisAlone f slot t).isActive = true)
    (hend : (b.axisAlone f slot length).isActive = false) : b.SoloEnds f slot length := by
  intro t
  have hsome : (b.solo f slot (t + 1)).isSome = true ↔ (b.axisAlone f slot t).isActive = true := by
    rw [← not_iff_not, Bool.not_eq_true, Option.isSome_eq_false_iff, Option.isNone_iff_eq_none,
      solo_eq_none_iff, Bool.not_eq_true]
  rw [hsome]
  refine ⟨fun hactive => Nat.lt_of_not_le fun hle => ?_, hbefore t⟩
  rw [isActive_axisAlone_of_le hactive hle] at hend
  cases hend

/-- **A move that has stalled is finished at one step per tick.** Let the fall of a block that
passes be no rise. If a slot is still active before its `t`-th tick, which does not come before the
end of the rise, and if its rate is not above zero when that tick adds it up, then a step is due on
that tick and on every one after it until no step is missing, and the slot is active no longer. -/
theorem stalled_steps_every_tick (hpass : b.fault? registered = none) (hfall : 0 ≤ b.rampDown)
    (f : Float32) (slot : Fin n) (ht : 1 ≤ t) (hrisen : b.rampUpEnd.toNat ≤ t)
    (hactive : (b.axisAlone f slot (t - 1)).isActive = true)
    (hrate : ((b.axisAlone f slot (t - 1)).accelerate.switchPhase (UInt32.ofNat t) b.toProfile
      f).rate ≤ 0) :
    (∀ k < (b.steps.get slot).toNat - (b.axisAlone f slot (t - 1)).emitted.toNat,
        b.solo f slot (t + k) = some true) ∧
      b.SoloEnds f slot
        (t + ((b.steps.get slot).toNat - (b.axisAlone f slot (t - 1)).emitted.toNat) - 1) := by
  obtain ⟨before, rfl⟩ : ∃ before, t = before + 1 := ⟨t - 1, by omega⟩
  rw [Nat.add_sub_cancel] at hactive hrate ⊢
  have hmissing := isActive_axisAlone_iff.mp hactive
  have hstalls : b.Stalls f slot before := ⟨hactive, hrate⟩
  have hstep {k : Nat} (hk : k < (b.steps.get slot).toNat -
      (b.axisAlone f slot before).emitted.toNat) : b.Stalls f slot (before + k) := by
    obtain ⟨hemitted, hnext⟩ := hstalls.emitted hpass hfall hrisen (k := k) (by omega)
    exact hnext (isActive_axisAlone_iff.mpr (by omega))
  refine ⟨fun k hk => ?_, ?_⟩
  · rw [Nat.add_right_comm, solo_succ, if_pos (hstep hk).active, (hstep hk).emit.1]
  · -- the last missing step comes on the tick before that number, so the string ends there
    have hlast : before + 1 + ((b.steps.get slot).toNat -
        (b.axisAlone f slot before).emitted.toNat) - 1 =
        before + ((b.steps.get slot).toNat - (b.axisAlone f slot before).emitted.toNat) := by omega
    rw [hlast]
    refine soloEnds_of_isActive (fun t' ht' => ?_) ?_
    · by_cases hlate : before ≤ t'
      · have hactive' := (hstep (k := t' - before) (by omega)).active
        rwa [show before + (t' - before) = t' by omega] at hactive'
      · exact isActive_axisAlone_of_le hactive (by omega)
    · obtain ⟨hemitted, -⟩ := hstalls.emitted hpass hfall hrisen
        (k := (b.steps.get slot).toNat - (b.axisAlone f slot before).emitted.toNat) (by omega)
      rw [Bool.eq_false_iff, ne_eq, isActive_axisAlone_iff]
      omega

/-- A fall that begins at once and is too steep: the rate is used up by the second tick. -/
def steepFall : Block 1 :=
  { rampUpEnd := 0, rampDownStart := 0, duration := 8, rampDown := 0.25, startRate := 50000
    referenceSteps := 4, steps := .replicate 1 4 }

/-- The second tick stalls, with all four steps missing. -/
theorem stalled_steps_every_tick_steepFall :
    steepFall.fault? 1 = none ∧ 0 ≤ steepFall.rampDown ∧
      (∀ k < 4, steepFall.solo 100000 0 (2 + k) = some true) ∧ steepFall.SoloEnds 100000 0 5 := by
  have hpass : steepFall.fault? 1 = none := by decide
  have hfall : 0 ≤ steepFall.rampDown := by decide +kernel
  have hactive : (steepFall.axisAlone 100000 0 1).isActive = true := by decide +kernel
  have hrate : ((steepFall.axisAlone 100000 0 1).accelerate.switchPhase 2 steepFall.toProfile
      100000).rate ≤ 0 := by decide +kernel
  have hmissing : (steepFall.steps.get 0).toNat -
      (steepFall.axisAlone 100000 0 (2 - 1)).emitted.toNat = 4 := by decide +kernel
  obtain ⟨hdue, hend⟩ := stalled_steps_every_tick hpass hfall 100000 0 (t := 2) (by decide)
    (by decide) hactive hrate
  rw [hmissing] at hdue hend
  exact ⟨hpass, hfall, hdue, hend⟩

end Block

end PulseTrain
