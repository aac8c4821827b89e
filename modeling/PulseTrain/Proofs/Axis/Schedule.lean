import PulseTrain.Proofs.Axis.Slope
import PulseTrain.Proofs.Single.Arithmetic

/-!
# The schedule of the slopes

A slot keeps one number, the tick at which its slope is looked at next, and compares it for equality
with the number of the tick, which wraps. What comes of that is a schedule in closed form: the slope
rises before the end of the rise, is level from there on, and falls from the beginning of the fall
on, whatever boundaries coincide and however often the tick number has wrapped.

* **`Block.slopeAfter`**, **`Block.switchAfter`**: the schedule, by the number of ticks.
* **`Block.OnSchedule`**: an axis is on it; **`OnSchedule.switchPhase`**, **`OnSchedule.tick`**: a
  tick keeps an axis on it.
* **`Block.onSchedule`**: a slot is on schedule as long as it is active.
* **`Block.slope_follows_schedule`**: the slope, and the rate where a tick sets it.
-/

namespace PulseTrain.Block

variable {n : Nat} {b : Block n} {f : Float32} {slot : Fin n}

/-! ## The schedule -/

/-- The slope of a slot after `t` ticks of the block. A fall without a length is never begun, unless
the rise ends where it is planned. -/
def slopeAfter (b : Block n) (slot : Fin n) (t : Nat) : Float32 :=
  if t < b.rampUpEnd.toNat then b.rampUp * b.share slot
  else if b.rampDownStart.toNat ≤ t ∧
      (b.rampDownStart < b.duration ∨ b.rampUpEnd = b.rampDownStart) then
    (-b.rampDown) * b.share slot
  else 0

/-- The tick at which the slope is looked at next, after `t` ticks of the block. Where nothing is
left to switch, it is a tick that changes nothing. -/
def switchAfter (b : Block n) (t : Nat) : UInt32 :=
  if t < b.rampUpEnd.toNat then b.rampUpEnd
  else if b.rampUpEnd = 0 ∧ (b.rampDownStart = 0 ∨ b.rampDownStart = b.duration) then b.duration + 1
  else if b.rampDownStart < b.duration then b.rampDownStart
  else b.rampUpEnd

/-- The axis of a slot is on schedule after `t` ticks of the block. -/
structure OnSchedule (b : Block n) (slot : Fin n) (t : Nat) (a : Axis) : Prop where
  ratio : a.ratio = b.share slot
  slope : a.slope = b.slopeAfter slot t
  nextSwitch : a.nextSwitch = b.switchAfter t

/-! ## The number of a tick -/

/-- Ticks are counted from one. -/
theorem tickNumber_eq (t : Nat) : UInt32.ofNat (t + 1) = 1 + UInt32.ofNat t := by
  rw [UInt32.ofNat_add, UInt32.add_comm]
  rfl

/-- The number of a tick wraps. -/
theorem toNat_tickNumber_mod (t : Nat) : (UInt32.ofNat t).toNat = t % 2 ^ 32 := UInt32.toNat_ofNat'

/-- A tick whose number is a boundary does not come before it, though it may come again. -/
theorem le_of_tickNumber_eq {t : Nat} {boundary : UInt32} (h : UInt32.ofNat t = boundary) :
    boundary.toNat ≤ t := by
  rw [← h, toNat_tickNumber_mod]
  exact Nat.mod_le _ _

/-- The first tick whose number is a boundary is that of its number. -/
theorem tickNumber_eq_of_le {t : Nat} {boundary : UInt32} (h : t ≤ boundary.toNat) :
    UInt32.ofNat t = boundary ↔ t = boundary.toNat := by
  have hlast := boundary.toNat_lt
  rw [← UInt32.toNat_inj, toNat_tickNumber_mod, Nat.mod_eq_of_lt (by omega)]

/-- Before the end of the rise. -/
theorem slopeAfter_of_rise {t : Nat} (h : t < b.rampUpEnd.toNat) :
    b.slopeAfter slot t = b.rampUp * b.share slot := if_pos h

/-- From the beginning of the fall on, or from the end of a rise that coincides with it. -/
theorem slopeAfter_of_fall {t : Nat} (hup : b.rampUpEnd.toNat ≤ t)
    (hdown : b.rampDownStart.toNat ≤ t)
    (hfalls : b.rampDownStart < b.duration ∨ b.rampUpEnd = b.rampDownStart) :
    b.slopeAfter slot t = (-b.rampDown) * b.share slot := by
  unfold slopeAfter
  rw [if_neg (Nat.not_lt.mpr hup), if_pos ⟨hdown, hfalls⟩]

/-- Between the rise and the fall, and after the rise of a block that does not fall. -/
theorem slopeAfter_of_level {t : Nat} (hup : b.rampUpEnd.toNat ≤ t)
    (hlevel : t < b.rampDownStart.toNat ∨
      ¬ b.rampDownStart < b.duration ∧ b.rampUpEnd ≠ b.rampDownStart) :
    b.slopeAfter slot t = 0 := by
  unfold slopeAfter
  rw [if_neg (Nat.not_lt.mpr hup), if_neg]
  rintro ⟨hdown, hfalls⟩
  rcases hlevel with hbefore | ⟨hnever, hapart⟩
  · omega
  · exact hfalls.elim hnever hapart

/-- After the rise, the slope changes on the first tick of the fall and on no other. -/
theorem slopeAfter_succ_of_risen {t : Nat} (hrisen : b.rampUpEnd.toNat ≤ t)
    (hsame : ¬ (t + 1 = b.rampDownStart.toNat ∧ b.rampDownStart < b.duration)) :
    b.slopeAfter slot (t + 1) = b.slopeAfter slot t := by
  have hrisen' : b.rampUpEnd.toNat ≤ t + 1 := Nat.le_succ_of_le hrisen
  by_cases hfalls : b.rampDownStart < b.duration ∨ b.rampUpEnd = b.rampDownStart
  · by_cases hdown : b.rampDownStart.toNat ≤ t
    · rw [slopeAfter_of_fall hrisen' (Nat.le_succ_of_le hdown) hfalls,
        slopeAfter_of_fall hrisen hdown hfalls]
    · -- a fall that is due now is not due where the rise has ended
      have hnever : ¬ t + 1 = b.rampDownStart.toNat := by
        intro hnow
        rcases hfalls with hfalls | hcoincide
        · exact hsame ⟨hnow, hfalls⟩
        · rw [hcoincide] at hrisen
          omega
      rw [slopeAfter_of_level hrisen' (.inl (by omega)),
        slopeAfter_of_level hrisen (.inl (by omega))]
  · rw [not_or] at hfalls
    rw [slopeAfter_of_level hrisen' (.inr hfalls), slopeAfter_of_level hrisen (.inr hfalls)]

/-- What is looked at after the rise: a tick that changes nothing, the beginning of the fall, or the
end of the rise once more. -/
theorem switchAfter_of_risen {t : Nat} (hrisen : b.rampUpEnd.toNat ≤ t) :
    (b.switchAfter t = b.duration + 1 ∧ b.rampUpEnd = 0 ∧
      (b.rampDownStart = 0 ∨ b.rampDownStart = b.duration)) ∨
    (b.switchAfter t = b.rampDownStart ∧ b.rampDownStart < b.duration) ∨
    (b.switchAfter t = b.rampUpEnd ∧ ¬ b.rampDownStart < b.duration) := by
  unfold switchAfter
  rw [if_neg (Nat.not_lt.mpr hrisen)]
  -- a block that begins at its end or with its fall looks at a tick that changes nothing
  split
  · rename_i hnever
    exact .inl ⟨rfl, hnever⟩
  · split
    · rename_i hfalls
      exact .inr (.inl ⟨rfl, hfalls⟩)
    · rename_i hlevel
      exact .inr (.inr ⟨rfl, hlevel⟩)

/-- The first tick of the fall is looked at. -/
theorem switchAfter_of_fall {t : Nat} (hrisen : b.rampUpEnd.toNat ≤ t)
    (hnow : t + 1 = b.rampDownStart.toNat) (hfalls : b.rampDownStart < b.duration) :
    b.switchAfter t = b.rampDownStart := by
  obtain ⟨-, -, hzero | hend⟩ | ⟨hnext, -⟩ | ⟨-, hlevel⟩ := switchAfter_of_risen hrisen
  · rw [hzero] at hnow
    cases hnow
  · rw [hend] at hfalls
    exact absurd hfalls (UInt32.lt_irrefl _)
  · exact hnext
  · exact absurd hfalls hlevel

theorem succ_ne_self (count : UInt32) : count + 1 ≠ count := by grind

/-! ## What a tick switches -/

namespace OnSchedule

variable {t : Nat} {a : Axis}

/-- The end of the rise. Up to it no number has come twice. -/
theorem slope_of_rising (h : b.OnSchedule slot t a) (hup : b.rampUpEnd ≤ b.rampDownStart)
    (hrising : t < b.rampUpEnd.toNat) :
    (a.switchPhase (UInt32.ofNat (t + 1)) b.toProfile f).slope = b.slopeAfter slot (t + 1) := by
  have hnext : b.switchAfter t = b.rampUpEnd := if_pos hrising
  rw [UInt32.le_iff_toNat_le] at hup
  rw [Axis.switchPhase_eq]
  dsimp only
  rw [h.ratio, h.slope, h.nextSwitch, hnext, slopeAfter_of_rise hrising]
  by_cases hends : UInt32.ofNat (t + 1) = b.rampUpEnd
  · have hend : t + 1 = b.rampUpEnd.toNat := (tickNumber_eq_of_le hrising).mp hends
    rw [if_neg (not_not.mpr hends), hends]
    by_cases hcoincide : b.rampUpEnd = b.rampDownStart
    · have hdown : b.rampDownStart.toNat ≤ t + 1 := by rw [← hcoincide, hend]
      rw [if_pos hcoincide, slopeAfter_of_fall hend.ge hdown (.inr hcoincide)]
    · have hapart : b.rampUpEnd.toNat ≠ b.rampDownStart.toNat :=
        fun heq => hcoincide (UInt32.toNat_inj.mp heq)
      rw [if_neg hcoincide, if_pos rfl, slopeAfter_of_level hend.ge (.inl (by omega))]
  · -- not yet: the number of this tick is below the boundary
    have hend : t + 1 ≠ b.rampUpEnd.toNat := mt (tickNumber_eq_of_le hrising).mpr hends
    rw [if_pos hends, slopeAfter_of_rise (by omega)]

/-- After the rise. The number that is looked at may have come before. -/
theorem slope_of_risen (h : b.OnSchedule slot t a) (hrisen : b.rampUpEnd.toNat ≤ t) :
    (a.switchPhase (UInt32.ofNat (t + 1)) b.toProfile f).slope = b.slopeAfter slot (t + 1) := by
  have hrisen' : b.rampUpEnd.toNat ≤ t + 1 := Nat.le_succ_of_le hrisen
  rw [Axis.switchPhase_eq]
  dsimp only
  rw [h.ratio, h.slope, h.nextSwitch]
  -- a number that has come before may come again, so the cases are those of what is looked at
  by_cases hlook : UInt32.ofNat (t + 1) = b.switchAfter t
  · have hcases := switchAfter_of_risen hrisen
    rw [← hlook] at hcases
    rw [if_neg (not_not.mpr hlook)]
    by_cases hfall : UInt32.ofNat (t + 1) = b.rampDownStart
    · rw [if_pos hfall, slopeAfter_of_fall hrisen' (le_of_tickNumber_eq hfall)]
      rw [hfall] at hcases
      obtain ⟨hafter, hup, hzero | hend⟩ | ⟨-, hfalls⟩ | ⟨hcoincide, -⟩ := hcases
      · exact .inr (hup.trans hzero.symm)
      · exact absurd (hafter.symm.trans hend) (succ_ne_self _)
      · exact .inl hfalls
      · exact .inr hcoincide.symm
    · rw [if_neg hfall]
      -- a fall that begins at once is not begun again
      have hlevel : ¬ b.rampDownStart < b.duration ∨ b.rampUpEnd = 0 ∧ b.rampDownStart = 0 := by
        obtain ⟨-, hup, hzero | hend⟩ | ⟨hnext, -⟩ | ⟨-, hlevel⟩ := hcases
        · exact .inr ⟨hup, hzero⟩
        · exact .inl (hend ▸ UInt32.lt_irrefl _)
        · exact absurd hnext hfall
        · exact .inl hlevel
      by_cases hends : UInt32.ofNat (t + 1) = b.rampUpEnd
      · have hapart : b.rampUpEnd ≠ b.rampDownStart := fun heq => hfall (hends.trans heq)
        have hnever := hlevel.resolve_right fun hzero => hapart (hzero.1.trans hzero.2.symm)
        rw [if_pos hends, slopeAfter_of_level hrisen' (.inr ⟨hnever, hapart⟩)]
      · rw [if_neg hends, slopeAfter_succ_of_risen hrisen]
        rintro ⟨hnow, hfalls⟩
        rcases hlevel with hlevel | ⟨-, hzero⟩
        · exact hlevel hfalls
        · rw [hzero] at hnow
          cases hnow
  · rw [if_pos hlook, slopeAfter_succ_of_risen hrisen]
    rintro ⟨hnow, hfalls⟩
    have hnumber := (tickNumber_eq_of_le hnow.le).mpr hnow
    exact hlook (hnumber.trans (switchAfter_of_fall hrisen hnow hfalls).symm)

/-- **What is looked at next** is as the schedule says, for every way in which the boundaries
coincide. -/
theorem nextSwitch_switchPhase (h : b.OnSchedule slot t a) :
    (a.switchPhase (UInt32.ofNat (t + 1)) b.toProfile f).nextSwitch = b.switchAfter (t + 1) := by
  rw [Axis.switchPhase_eq]
  dsimp only
  rw [h.nextSwitch]
  -- up to the end of the rise no number has come twice; after it what is looked at does not change
  by_cases hrising : t < b.rampUpEnd.toNat
  · have hnext : b.switchAfter t = b.rampUpEnd := if_pos hrising
    rw [hnext]
    by_cases hends : UInt32.ofNat (t + 1) = b.rampUpEnd
    · have hend : t + 1 = b.rampUpEnd.toNat := (tickNumber_eq_of_le hrising).mp hends
      have hup : b.rampUpEnd ≠ 0 := by
        intro hzero
        rw [hzero] at hrising
        exact Nat.not_lt_zero t hrising
      have hafter : b.switchAfter (t + 1) =
          if b.rampDownStart < b.duration then b.rampDownStart else b.rampUpEnd := by
        unfold switchAfter
        rw [if_neg (show ¬ t + 1 < b.rampUpEnd.toNat by omega), if_neg fun hnever => hup hnever.1]
      rw [hafter, hends]
      exact if_congr ⟨fun hswitch => hswitch.2.2, fun hfalls => ⟨rfl, rfl, hfalls⟩⟩ rfl rfl
    · have hend : t + 1 ≠ b.rampUpEnd.toNat := mt (tickNumber_eq_of_le hrising).mpr hends
      rw [if_neg fun hswitch => hends hswitch.1]
      exact (if_pos (show t + 1 < b.rampUpEnd.toNat by omega)).symm
  · have hsame : b.switchAfter (t + 1) = b.switchAfter t := by
      unfold switchAfter
      rw [if_neg hrising, if_neg (show ¬ t + 1 < b.rampUpEnd.toNat by omega)]
    rw [hsame]
    split
    · rename_i hswitch
      obtain ⟨hlook, hends, hfalls⟩ := hswitch
      obtain ⟨-, hup, hzero | hend⟩ | ⟨hnext, -⟩ | ⟨-, hlevel⟩ :=
        switchAfter_of_risen (Nat.le_of_not_lt hrising)
      · rw [← hlook, hends, hup, hzero]
      · rw [hend] at hfalls
        exact absurd hfalls (UInt32.lt_irrefl _)
      · exact hnext.symm
      · exact absurd hfalls hlevel
    · rfl

/-- **The rate is set on one tick only**, the end of a rise that a level part and a fall follow. -/
theorem rate_switchPhase (h : b.OnSchedule slot t a) (hup : b.rampUpEnd ≤ b.rampDownStart) :
    (a.switchPhase (UInt32.ofNat (t + 1)) b.toProfile f).rate =
      if t + 1 = b.rampUpEnd.toNat ∧ 0 < b.rampUpEnd ∧ b.rampUpEnd < b.rampDownStart ∧
          b.rampDownStart < b.duration then
        (b.share slot * b.cruiseRate) / f
      else a.rate := by
  rw [Axis.switchPhase_eq]
  dsimp only
  rw [h.nextSwitch, h.ratio]
  refine if_congr ⟨?_, ?_⟩ rfl rfl
  · rintro ⟨hlook, hends, hfalls, hapart⟩
    -- a later tick of the same number does not look at the rise any more
    by_cases hrising : t < b.rampUpEnd.toNat
    · have hpos : 0 < b.rampUpEnd := UInt32.lt_iff_toNat_lt.mpr (Nat.zero_lt_of_lt hrising)
      have hlater : b.rampUpEnd < b.rampDownStart :=
        UInt32.lt_of_le_of_ne hup fun heq => hapart (hends.trans heq)
      exact ⟨(tickNumber_eq_of_le hrising).mp hends, hpos, hlater, hfalls⟩
    · obtain ⟨-, hzero, hdown | hend⟩ | ⟨hnext, -⟩ | ⟨-, hlevel⟩ :=
        switchAfter_of_risen (Nat.le_of_not_lt hrising)
      · exact absurd (hends.trans (hzero.trans hdown.symm)) hapart
      · rw [hend] at hfalls
        exact absurd hfalls (UInt32.lt_irrefl _)
      · exact absurd (hlook.trans hnext) hapart
      · exact absurd hfalls hlevel
  · rintro ⟨hend, -, hlater, hfalls⟩
    have hends : UInt32.ofNat (t + 1) = b.rampUpEnd := (tickNumber_eq_of_le hend.le).mpr hend
    have hnext : b.switchAfter t = b.rampUpEnd := if_pos hend.le
    rw [hnext, hends]
    exact ⟨rfl, rfl, hfalls, UInt32.ne_of_lt hlater⟩

/-- **What a tick switches keeps an axis on schedule.** -/
theorem switchPhase (h : b.OnSchedule slot t a) (hup : b.rampUpEnd ≤ b.rampDownStart) :
    b.OnSchedule slot (t + 1) (a.switchPhase (UInt32.ofNat (t + 1)) b.toProfile f) where
  ratio := by
    rw [Axis.switchPhase_eq]
    exact h.ratio
  slope := by
    by_cases hrising : t < b.rampUpEnd.toNat
    · exact h.slope_of_rising hup hrising
    · exact h.slope_of_risen (Nat.le_of_not_lt hrising)
  nextSwitch := h.nextSwitch_switchPhase

/-- To add the slope to the rate does not leave the schedule. -/
theorem accelerate (h : b.OnSchedule slot t a) : b.OnSchedule slot t a.accelerate :=
  ⟨h.ratio, h.slope, h.nextSwitch⟩

/-- **A tick keeps an axis on schedule**: `emit` does not touch what the tick has switched. -/
theorem tick (h : b.OnSchedule slot t a) (hup : b.rampUpEnd ≤ b.rampDownStart) :
    b.OnSchedule slot (t + 1) (a.tick (1 + UInt32.ofNat t) b.toProfile f).1 := by
  have hswitched := h.accelerate.switchPhase (f := f) hup
  rw [tickNumber_eq] at hswitched
  unfold Axis.tick
  refine ⟨?_, ?_, ?_⟩
  · rw [Axis.emit_ratio]
    exact hswitched.ratio
  · rw [Axis.emit_slope]
    exact hswitched.slope
  · rw [Axis.emit_nextSwitch]
    exact hswitched.nextSwitch

end OnSchedule

/-! ## A block from its beginning -/

/-- What is at least as many as some is some. -/
theorem ne_zero_of_le {count count' : UInt32} (h : count ≠ 0) (hle : count ≤ count') :
    count' ≠ 0 := by
  rintro rfl
  exact h (UInt32.le_antisymm hle UInt32.zero_le)

/-- A slot that moves does so within the reference axis, which moves as well. -/
theorem within_reference {registered : Nat} (hpass : b.fault? registered = none)
    (hsteps : b.steps.get slot ≠ 0) :
    b.referenceSteps ≠ 0 ∧ b.steps.get slot ≤ b.referenceSteps := by
  have hreference := (((fault?_eq_none_iff b registered).mp hpass).2 slot hsteps).2
  exact ⟨ne_zero_of_le hsteps hreference, hreference⟩

/-- The share of a slot that moves is finite and above zero. -/
theorem share_pos {registered : Nat} (hpass : b.fault? registered = none)
    (hsteps : b.steps.get slot ≠ 0) :
    (b.share slot).isFinite = true ∧ 0 < Single.value (b.share slot) :=
  Single.ratio_pos (within_reference hpass hsteps).1 hsteps

theorem toNat_pos {count : UInt32} : 0 < count.toNat ↔ count ≠ 0 := by
  rw [Nat.pos_iff_ne_zero, ne_eq, ne_eq, ← UInt32.toNat_inj]
  rfl

/-- The first slope, for each of the ways in which a block may begin. Zero times a share must be
zero, since the level part has its slope from a product too. -/
theorem slope_firstRamp (hlevel : (0 : Float32) * b.share slot = 0) :
    (Axis.firstRamp b).1 * b.share slot = b.slopeAfter slot 0 := by
  unfold Axis.firstRamp
  by_cases hup : b.rampUpEnd = 0
  · rw [if_neg (not_not.mpr hup)]
    have hrisen : b.rampUpEnd.toNat ≤ 0 := by rw [hup]; rfl
    -- without a rise, a block begins with its fall or at a level rate
    by_cases hdown : b.rampDownStart = 0
    · have hfall : b.rampDownStart.toNat ≤ 0 := by rw [hdown]; rfl
      rw [if_pos hdown, slopeAfter_of_fall hrisen hfall (.inr (hup.trans hdown.symm))]
    · rw [if_neg hdown, slopeAfter_of_level hrisen (.inl (toNat_pos.mpr hdown))]
      split <;> exact hlevel
  · rw [if_pos hup, slopeAfter_of_rise (toNat_pos.mpr hup)]

/-- The first tick that is looked at. -/
theorem nextSwitch_firstRamp (hdown : b.rampDownStart ≤ b.duration) :
    (Axis.firstRamp b).2 = b.switchAfter 0 := by
  unfold Axis.firstRamp switchAfter
  by_cases hup : b.rampUpEnd = 0
  · rw [if_neg (not_not.mpr hup), if_neg (mt toNat_pos.mp (not_not.mpr hup))]
    by_cases hzero : b.rampDownStart = 0
    · rw [if_pos hzero, if_pos ⟨hup, .inl hzero⟩]
    · rw [if_neg hzero]
      by_cases hend : b.rampDownStart = b.duration
      · rw [if_neg (not_not.mpr hend), if_pos ⟨hup, .inr hend⟩]
      · rw [if_pos hend, if_neg fun hnever => hnever.2.elim hzero hend,
          if_pos (UInt32.lt_of_le_of_ne hdown hend)]
  · rw [if_pos hup, if_pos (toNat_pos.mpr hup)]

/-- A slot that moves begins on schedule. -/
theorem onSchedule_ofBlock {registered : Nat} (hpass : b.fault? registered = none)
    (hsteps : b.steps.get slot ≠ 0) : b.OnSchedule slot 0 (Axis.ofBlock b slot f) := by
  obtain ⟨hfinite, hpos⟩ := share_pos hpass hsteps
  have hordered := ((fault?_eq_none_iff b registered).mp hpass).1
  rw [ofBlock_share hsteps]
  exact ⟨rfl, slope_firstRamp (Single.zero_mul_of_pos hfinite hpos),
    nextSwitch_firstRamp hordered.2⟩

/-- **A slot is on schedule as long as it is active.** -/
theorem onSchedule {registered : Nat} (hpass : b.fault? registered = none) {t : Nat}
    (hactive : (b.axisAlone f slot t).isActive = true) :
    b.OnSchedule slot t (b.axisAlone f slot t) :=
  axisAlone_induction b f slot (motive := fun t a => b.OnSchedule slot t a)
    (onSchedule_ofBlock hpass)
    (fun _ _ h => h.tick ((fault?_eq_none_iff b registered).mp hpass).1.1) hactive

/-- **The slope and the rate by the number of the tick.** Let the boundaries of a block that passes
not all coincide. Then on its `t`-th tick, by which the tick number may have wrapped, a slot that is
still active has the slope of the rise before the end of the rise, that of the fall from its
beginning on, and none between, the same bits for every way to come there. The rate is set on the
tick that ends the rise, if a level part and a fall follow it, and on no other. -/
theorem slope_follows_schedule {registered : Nat} (hpass : b.fault? registered = none)
    (hapart : ¬ (b.rampUpEnd = b.rampDownStart ∧ b.rampDownStart = b.duration)) (f : Float32)
    (slot : Fin n) {t : Nat} (ht : 1 ≤ t)
    (hactive : (b.axisAlone f slot (t - 1)).isActive = true) :
    ((b.axisAlone f slot (t - 1)).accelerate.switchPhase (UInt32.ofNat t) b.toProfile f).slope =
        (if t < b.rampUpEnd.toNat then b.rampUp * b.share slot
        else if b.rampDownStart < b.duration ∧ b.rampDownStart.toNat ≤ t then
          (-b.rampDown) * b.share slot
        else 0) ∧
      ((b.axisAlone f slot (t - 1)).accelerate.switchPhase (UInt32.ofNat t) b.toProfile f).rate =
        if t = b.rampUpEnd.toNat ∧ 0 < b.rampUpEnd ∧ b.rampUpEnd < b.rampDownStart ∧
            b.rampDownStart < b.duration then
          (b.share slot * b.cruiseRate) / f
        else (b.axisAlone f slot (t - 1)).accelerate.rate := by
  obtain ⟨before, rfl⟩ : ∃ before, t = before + 1 := ⟨t - 1, by omega⟩
  rw [Nat.add_sub_cancel] at hactive ⊢
  obtain ⟨hup, hdown⟩ := ((fault?_eq_none_iff b registered).mp hpass).1
  have hscheduled := (onSchedule hpass hactive).accelerate
  refine ⟨?_, hscheduled.rate_switchPhase hup⟩
  -- the boundaries do not all coincide, so a fall that begins with the end of the rise is a proper
  -- one
  have hfall : (b.rampDownStart.toNat ≤ before + 1 ∧
      (b.rampDownStart < b.duration ∨ b.rampUpEnd = b.rampDownStart)) ↔
      (b.rampDownStart < b.duration ∧ b.rampDownStart.toNat ≤ before + 1) := by
    constructor
    · rintro ⟨hbegun, hfalls | hcoincide⟩
      · exact ⟨hfalls, hbegun⟩
      · exact ⟨UInt32.lt_of_le_of_ne hdown fun hend => hapart ⟨hcoincide, hend⟩, hbegun⟩
    · rintro ⟨hfalls, hbegun⟩
      exact ⟨hbegun, .inl hfalls⟩
  have hslope := (hscheduled.switchPhase (f := f) hup).slope
  unfold slopeAfter at hslope
  rw [if_congr hfall rfl rfl] at hslope
  exact hslope

/-- A rise of two ticks, a level part of two and a fall of two. -/
def shortMove : Block 1 :=
  { rampUpEnd := 2, rampDownStart := 4, duration := 6, cruiseRate := 50000, rampDown := 0.125
    startRate := 25000, rampUp := 0.125, referenceSteps := 4, steps := .replicate 1 4 }

/-- The second tick ends the rise, and sets the rate. -/
theorem slope_follows_schedule_shortMove :
    shortMove.fault? 1 = none ∧ (shortMove.axisAlone 100000 0 1).isActive = true ∧
      ((shortMove.axisAlone 100000 0 1).accelerate.switchPhase 2 shortMove.toProfile
        100000).slope = 0 ∧
      ((shortMove.axisAlone 100000 0 1).accelerate.switchPhase 2 shortMove.toProfile
        100000).rate = (shortMove.share 0 * 50000) / 100000 := by
  have hpass : shortMove.fault? 1 = none := by decide
  have hactive : (shortMove.axisAlone 100000 0 1).isActive = true := by decide +kernel
  obtain ⟨hslope, hrate⟩ :=
    slope_follows_schedule hpass (by decide) 100000 0 (t := 2) (by decide) hactive
  exact ⟨hpass, hactive, hslope, hrate⟩

end PulseTrain.Block
