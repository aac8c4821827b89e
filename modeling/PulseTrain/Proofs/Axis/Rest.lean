import PulseTrain.Proofs.Axis.Guard
import PulseTrain.Proofs.Single.Sums

/-!
# Slots that come to rest

After the beginning of the fall nothing changes the slope or sets the rate any more, and a tick
without a step only adds: the slope to the rate, and the rate to the accumulator. In single
precision such a sum comes to stay. A slot whose rate and accumulator both stay, below a whole step,
is at rest and never steps again; and a slot that does not come to rest ends.

* **`Axis.Rests`**: adding changes neither the rate nor the accumulator.
* **`Block.rests_of_le`**: a slot at rest stays there.
* **`Block.Late.due_or_rests`**: an active slot steps once more, or comes to rest.
* **`Block.ends_iff_never_rests`**: a slot ends unless it comes to rest.
* **`Block.bounds_of_rests`**: it rests only at a rate of at most `2 ^ (-25)` steps per tick, and
  with a slope of at most `2 ^ (-49)`, so not where the rates fall steeply
  (**`FallsSteeply.not_rests`**).
-/

namespace PulseTrain

namespace Axis

/-- The axis stays as it is: the slope does not change the rate, and the rate, which is above zero,
does not change the accumulator, which is below a whole step. -/
structure Rests (a : Axis) : Prop where
  active : a.isActive = true
  rate : ¬ a.rate ≤ 0
  steady : a.rate + a.slope = a.rate
  absorbed : a.carry + a.rate = a.carry
  below : a.carry < 1

/-! ## Ticks without a step -/

/-- Where less than a whole step has gathered, it stays in the accumulator. -/
theorem emit_of_sum_lt {a : Axis} (hrate : ¬ a.rate ≤ 0) (hsum : a.carry + a.rate < 1) :
    a.emit = ({ a with carry := a.carry + a.rate }, false) := by
  have hkept : a.keepMoving = a := if_neg hrate
  unfold emit
  rw [hkept]
  dsimp only
  rw [if_pos hsum]

/-- Where a whole step has gathered, it is emitted, and taken off the accumulator. -/
theorem emit_of_le_sum {a : Axis} (hrate : ¬ a.rate ≤ 0) (hsum : ¬ a.carry + a.rate < 1) :
    a.emit.2 = true ∧ a.emit.1.carry = a.carry + a.rate - 1 := by
  have hkept : a.keepMoving = a := if_neg hrate
  unfold emit
  rw [hkept]
  dsimp only
  rw [if_neg hsum]
  exact ⟨rfl, rfl⟩

/-- A tick without a step has a rate above zero and has gathered less than a whole step. -/
theorem sum_lt_of_not_due {a : Axis} (h : a.emit.2 = false) :
    ¬ a.rate ≤ 0 ∧ a.carry + a.rate < 1 := by
  have hrate : ¬ a.rate ≤ 0 := by
    intro hstalled
    rw [(emit_of_stalled hstalled).1] at h
    cases h
  refine ⟨hrate, ?_⟩
  -- a whole step that has gathered would be due
  by_contra hsum
  rw [(emit_of_le_sum hrate hsum).1] at h
  cases h

end Axis

namespace Block

variable {n : Nat} {b : Block n} {f : Float32} {slot : Fin n} {registered t : Nat}

/-! ## After the beginning of the fall -/

/-- After the rise the tick that is looked at stays the same. -/
theorem switchAfter_succ_of_risen (hrisen : b.rampUpEnd.toNat ≤ t) :
    b.switchAfter (t + 1) = b.switchAfter t := by
  unfold switchAfter
  rw [if_neg (show ¬ t < b.rampUpEnd.toNat by omega),
    if_neg (show ¬ t + 1 < b.rampUpEnd.toNat by omega)]

/-- Once the fall has begun, a tick switches nothing before it emits. -/
theorem OnSchedule.switchPhase_late {a : Axis} (h : b.OnSchedule slot t a)
    (hup : b.rampUpEnd ≤ b.rampDownStart) (hlate : b.rampDownStart.toNat ≤ t) :
    a.accelerate.switchPhase (UInt32.ofNat (t + 1)) b.toProfile f =
      { a with rate := a.rate + a.slope } := by
  have hrisen : b.rampUpEnd.toNat ≤ t := (UInt32.le_iff_toNat_le.mp hup).trans hlate
  have hscheduled := h.accelerate.switchPhase (f := f) hup
  -- slope, next switch and rate are as the schedule says, and nothing else is touched
  have hslope : (a.accelerate.switchPhase (UInt32.ofNat (t + 1)) b.toProfile f).slope =
      a.slope := by
    rw [hscheduled.slope, h.slope, slopeAfter_succ_of_risen hrisen fun hnow => by omega]
  have hnext : (a.accelerate.switchPhase (UInt32.ofNat (t + 1)) b.toProfile f).nextSwitch =
      a.nextSwitch := by
    rw [hscheduled.nextSwitch, h.nextSwitch, switchAfter_succ_of_risen hrisen]
  have hrate : (a.accelerate.switchPhase (UInt32.ofNat (t + 1)) b.toProfile f).rate =
      a.rate + a.slope := by
    rw [h.accelerate.rate_switchPhase hup, if_neg fun hends => by omega]
    rfl
  rw [Axis.switchPhase_eq] at hslope hnext hrate ⊢
  dsimp only at hslope hnext hrate
  rw [hslope, hnext, hrate]
  rfl

/-- A slot that is active and has come past the beginning of the fall of a block that passes. -/
structure Late (b : Block n) (f : Float32) (slot : Fin n) (t : Nat) : Prop where
  passes : ∃ registered, b.fault? registered = none
  begun : b.rampDownStart.toNat ≤ t
  active : (b.axisAlone f slot t).isActive = true

/-- A tick of a late slot is one addition and an `emit`. -/
theorem Late.tickAlone_eq (h : b.Late f slot t) :
    b.tickAlone f slot t = Axis.emit { b.axisAlone f slot t with
      rate := (b.axisAlone f slot t).rate + (b.axisAlone f slot t).slope } := by
  obtain ⟨registered, hpass⟩ := h.passes
  have hup := ((fault?_eq_none_iff b registered).mp hpass).1.1
  unfold tickAlone Axis.tick
  rw [← tickNumber_eq, (onSchedule hpass h.active).switchPhase_late hup h.begun]

/-- A tick that only adds. -/
structure Adds (b : Block n) (f : Float32) (slot : Fin n) (t : Nat) : Prop where
  rate_pos : ¬ (b.axisAlone f slot (t + 1)).rate ≤ 0
  carry_lt : (b.axisAlone f slot (t + 1)).carry < 1
  slope : (b.axisAlone f slot (t + 1)).slope = (b.axisAlone f slot t).slope
  rate : (b.axisAlone f slot (t + 1)).rate =
    (b.axisAlone f slot t).rate + (b.axisAlone f slot t).slope
  carry : (b.axisAlone f slot (t + 1)).carry =
    (b.axisAlone f slot t).carry + (b.axisAlone f slot (t + 1)).rate
  late : b.Late f slot (t + 1)

/-- **A late tick without a step only adds**: the slope to the rate, and the rate to the
accumulator. -/
theorem Late.adds (h : b.Late f slot t) (hdue : (b.tickAlone f slot t).2 = false) :
    b.Adds f slot t := by
  have htick := h.tickAlone_eq
  rw [htick] at hdue
  obtain ⟨hrate, hsum⟩ := Axis.sum_lt_of_not_due hdue
  have hnext : b.axisAlone f slot (t + 1) = { b.axisAlone f slot t with
      rate := (b.axisAlone f slot t).rate + (b.axisAlone f slot t).slope
      carry := (b.axisAlone f slot t).carry +
        ((b.axisAlone f slot t).rate + (b.axisAlone f slot t).slope) } := by
    rw [axisAlone_succ, if_pos h.active, htick, Axis.emit_of_sum_lt hrate hsum]
  refine ⟨?_, ?_, ?_, ?_, ?_, h.passes, h.begun.trans (Nat.le_succ t), ?_⟩ <;> rw [hnext]
  · exact hrate
  · exact hsum
  · exact h.active

/-! ## Slots at rest -/

/-- A slot at rest is as it was after one more tick, and has not stepped. -/
theorem rests_succ (hpass : b.fault? registered = none) (hlate : b.rampDownStart.toNat ≤ t)
    (h : (b.axisAlone f slot t).Rests) :
    b.axisAlone f slot (t + 1) = b.axisAlone f slot t := by
  have htick := (show b.Late f slot t from ⟨⟨registered, hpass⟩, hlate, h.active⟩).tickAlone_eq
  rw [h.steady] at htick
  have hsum : (b.axisAlone f slot t).carry + (b.axisAlone f slot t).rate < 1 := by
    rw [h.absorbed]
    exact h.below
  rw [axisAlone_succ, if_pos h.active, htick, Axis.emit_of_sum_lt h.rate hsum, h.absorbed]

/-- **A slot at rest stays there.** -/
theorem rests_of_le (hpass : b.fault? registered = none) (hlate : b.rampDownStart.toNat ≤ t)
    (h : (b.axisAlone f slot t).Rests) {t' : Nat} (hle : t ≤ t') :
    b.axisAlone f slot t' = b.axisAlone f slot t := by
  induction hle with
  | refl => rfl
  | @step t' hle ih =>
    rw [← ih] at h
    rw [rests_succ hpass (hlate.trans hle) h, ih]

/-! ## Coming to rest -/

section

variable (hadds : ∀ i, b.Adds f slot (t + i))

include hadds

/-- The slope stays as it is. -/
theorem slope_of_adds (i : Nat) :
    (b.axisAlone f slot (t + i)).slope = (b.axisAlone f slot t).slope := by
  induction i with
  | zero => rfl
  | succ i ih => exact (hadds i).slope.trans ih

/-- The rate is above zero, and neither it nor the slope is infinite. -/
theorem rate_of_adds (i : Nat) :
    (b.axisAlone f slot (t + i + 1)).rate.isFinite = true ∧
      0 < Single.value (b.axisAlone f slot (t + i + 1)).rate ∧
      (b.axisAlone f slot t).slope.isFinite = true := by
  have hsum := (hadds i).carry_lt
  rw [(hadds i).carry] at hsum
  obtain ⟨hfinite, hpos⟩ := Single.isFinite_of_add_lt_one hsum (hadds i).rate_pos
  have hsplit := hfinite
  rw [(hadds i).rate, slope_of_adds hadds] at hsplit
  exact ⟨hfinite, hpos, (Single.isFinite_of_add hsplit).2⟩

/-- So the rate goes by the same slope on every tick. -/
theorem rate_succ_of_adds (i : Nat) :
    (b.axisAlone f slot (t + (i + 1) + 1)).rate =
      (b.axisAlone f slot (t + i + 1)).rate + (b.axisAlone f slot t).slope := by
  rw [(hadds (i + 1)).rate, slope_of_adds hadds]
  rfl

/-- The rate goes one way, and comes to stay. -/
theorem rate_stays_of_adds :
    ∃ i, (b.axisAlone f slot (t + (i + 1) + 1)).rate = (b.axisAlone f slot (t + i + 1)).rate := by
  have hnext := rate_succ_of_adds hadds
  have hsame (i : Nat) (h : Single.value (b.axisAlone f slot (t + (i + 1) + 1)).rate =
      Single.value (b.axisAlone f slot (t + i + 1)).rate) :
      (b.axisAlone f slot (t + (i + 1) + 1)).rate = (b.axisAlone f slot (t + i + 1)).rate := by
    obtain ⟨hfinite, -, hslope⟩ := rate_of_adds hadds i
    have hpos := (rate_of_adds hadds (i + 1)).2.1
    rw [hnext] at h hpos ⊢
    exact Single.add_eq_of_value_eq hfinite hslope h hpos.ne'
  -- the rate falls or it rises; either way there are finitely many numbers to go through
  rcases le_total (Single.value (b.axisAlone f slot t).slope) 0 with hfalls | hrises
  · refine Single.exists_stays_of_falling
      (fun i => (b.axisAlone f slot (t + i + 1)).rate) fun i => ?_
    obtain ⟨hfinite, -, hslope⟩ := rate_of_adds hadds i
    have hle := Single.value_add_le hfinite hslope hfalls
    rw [← hnext] at hle
    exact hle.eq_or_lt.imp_left (hsame i)
  · refine Single.exists_stays_of_rising
      (fun i => (b.axisAlone f slot (t + i + 1)).rate) fun i => ?_
    obtain ⟨hfinite, -, hslope⟩ := rate_of_adds hadds i
    have hge := Single.value_add_ge hfinite hslope hrises
    rw [← hnext] at hge
    exact hge.eq_or_lt.imp_left fun heq => hsame i heq.symm

/-- Where every tick only adds, the slot comes to rest. -/
theorem rests_of_adds : ∃ t', t ≤ t' ∧ (b.axisAlone f slot t').Rests := by
  obtain ⟨i, hstays⟩ := rate_stays_of_adds hadds
  rw [rate_succ_of_adds hadds] at hstays
  have hrate (k : Nat) :
      (b.axisAlone f slot (t + (i + k) + 1)).rate = (b.axisAlone f slot (t + i + 1)).rate := by
    induction k with
    | zero => rfl
    | succ k ih =>
      rw [← Nat.add_assoc i k 1, rate_succ_of_adds hadds, ih, hstays]
  have hcarry (k : Nat) : (b.axisAlone f slot (t + (i + (k + 1)) + 1)).carry =
      (b.axisAlone f slot (t + (i + k) + 1)).carry + (b.axisAlone f slot (t + i + 1)).rate := by
    rw [(hadds (i + (k + 1))).carry, hrate]
    rfl
  obtain ⟨hfinite, hpos, -⟩ := rate_of_adds hadds i
  -- the accumulator rises by the same rate on every tick
  obtain ⟨k, hfull⟩ := Single.exists_stays_of_rising
    (fun k => (b.axisAlone f slot (t + (i + k) + 1)).carry) fun k => by
      rw [hcarry]
      exact Single.add_pos_moves hfinite hpos
  have hlast := hadds (i + k)
  refine ⟨t + (i + k) + 1, by omega, hlast.late.active, hlast.rate_pos, ?_, ?_, hlast.carry_lt⟩
  · have hslope : (b.axisAlone f slot (t + (i + k) + 1)).slope = (b.axisAlone f slot t).slope :=
      slope_of_adds hadds (i + k + 1)
    rw [hrate, hslope, hstays]
  · rw [hrate, ← hcarry]
    exact hfull

end

/-- **A slot that is late steps once more, or comes to rest.** -/
theorem Late.due_or_rests (h : b.Late f slot t) :
    ∃ t', t ≤ t' ∧ (b.Late f slot t' ∧ (b.tickAlone f slot t').2 = true ∨
      (b.axisAlone f slot t').Rests) := by
  -- if no late tick ever steps, then every one only adds, and the slot comes to rest
  by_contra hnever
  rw [not_exists] at hnever
  have hadds (t' : Nat) (hle : t ≤ t') (hlate : b.Late f slot t') : b.Adds f slot t' := by
    refine hlate.adds (Bool.eq_false_iff.mpr fun hdue => ?_)
    exact hnever t' ⟨hle, .inl ⟨hlate, hdue⟩⟩
  have hlate (i : Nat) : b.Late f slot (t + i) := by
    induction i with
    | zero => exact h
    | succ i ih => exact (hadds (t + i) (Nat.le_add_right t i) ih).late
  obtain ⟨t', hle, hrests⟩ := rests_of_adds fun i => hadds (t + i) (Nat.le_add_right t i) (hlate i)
  exact hnever t' ⟨hle, .inr hrests⟩

/-- Steps are never taken back. -/
theorem emitted_axisAlone_le {t' : Nat} (hle : t ≤ t') :
    (b.axisAlone f slot t).emitted.toNat ≤ (b.axisAlone f slot t').emitted.toNat := by
  induction hle with
  | refl => exact le_rfl
  | @step t' _ ih =>
    cases hactive : (b.axisAlone f slot t').isActive with
    | true => exact ih.trans (by rw [emitted_axisAlone_succ hactive]; exact Nat.le_add_right _ _)
    | false => rwa [axisAlone_succ, hactive, if_neg (by decide)]

/-- The induction is on the steps that are missing. -/
theorem inactive_or_rests_of_missing (hpass : b.fault? registered = none) (missing : Nat) {t : Nat}
    (hlate : b.rampDownStart.toNat ≤ t)
    (hmissing : (b.steps.get slot).toNat ≤ (b.axisAlone f slot t).emitted.toNat + missing) :
    ∃ t', t ≤ t' ∧ ((b.axisAlone f slot t').isActive = false ∨ (b.axisAlone f slot t').Rests) := by
  induction missing generalizing t with
  | zero =>
    refine ⟨t, le_rfl, .inl ?_⟩
    rw [Bool.eq_false_iff, ne_eq, isActive_axisAlone_iff]
    omega
  -- one step more is made, and fewer are missing, or the slot rests before
  | succ missing ih =>
    cases hactive : (b.axisAlone f slot t).isActive with
    | false => exact ⟨t, le_rfl, .inl hactive⟩
    | true =>
      have hcome : b.Late f slot t := ⟨⟨registered, hpass⟩, hlate, hactive⟩
      obtain ⟨t', hle, ⟨hlate', hdue⟩ | hrests⟩ := hcome.due_or_rests
      · have hcount := emitted_axisAlone_succ hlate'.active
        have hkept : (b.axisAlone f slot t).emitted.toNat ≤
            (b.axisAlone f slot t').emitted.toNat := emitted_axisAlone_le hle
        rw [hdue, Bool.toNat_true] at hcount
        obtain ⟨t'', hle', hend⟩ := ih (t := t' + 1)
          (hlate'.begun.trans (Nat.le_succ t')) (by omega)
        exact ⟨t'', by omega, hend⟩
      · exact ⟨t', hle, .inr hrests⟩

/-- A slot ends if it is through at some time. -/
theorem exists_soloEnds_iff :
    (∃ length, b.SoloEnds f slot length) ↔ ∃ t, (b.axisAlone f slot t).isActive = false := by
  constructor
  · rintro ⟨length, hends⟩
    refine ⟨length, Bool.eq_false_iff.mpr ?_⟩
    rw [ne_eq, hends.isActive_iff]
    exact Nat.lt_irrefl length
  · intro hinactive
    refine ⟨Nat.find hinactive, soloEnds_of_isActive (fun t ht => ?_) (Nat.find_spec hinactive)⟩
    exact Bool.eq_true_of_not_eq_false (Nat.find_min hinactive ht)

/-- **A slot ends unless it comes to rest**, which can happen only once the fall has begun. -/
theorem ends_iff_never_rests (hpass : b.fault? registered = none) (f : Float32) (slot : Fin n) :
    (∃ length, b.SoloEnds f slot length) ↔
      ∀ t, b.rampDownStart.toNat ≤ t → ¬ (b.axisAlone f slot t).Rests := by
  constructor
  · -- a slot at rest is active at all times, also when its bits should have ended
    rintro ⟨length, hends⟩ t hlate hrests
    have hkept := rests_of_le hpass hlate hrests (le_max_left t length)
    have hactive := hrests.active
    rw [← hkept, hends.isActive_iff] at hactive
    omega
  · intro hnever
    have hall : (b.steps.get slot).toNat ≤
        (b.axisAlone f slot b.rampDownStart.toNat).emitted.toNat + (b.steps.get slot).toNat :=
      Nat.le_add_left _ _
    obtain ⟨t, hlate, hend | hrests⟩ := inactive_or_rests_of_missing hpass _ le_rfl hall
    · exact exists_soloEnds_iff.mpr ⟨t, hend⟩
    · exact absurd hrests (hnever t hlate)

/-! ## The rate of a slot at rest -/

/-- No `emit` brings the accumulator below zero: a whole step is taken off only where it has
gathered. -/
theorem carry_emit_not_lt_zero {a : Axis} (h : ¬ a.carry < 0) : ¬ a.emit.1.carry < 0 := by
  by_cases hrate : a.rate ≤ 0
  · have hkept : a.keepMoving = { a with carry := 1, rate := 0 } := if_pos hrate
    have hcarry : ¬ (1 : Float32) + 0 - 1 < 0 := by decide +kernel
    unfold Axis.emit
    rw [hkept]
    dsimp only
    rw [if_neg Axis.one_add_zero_not_lt_one]
    exact hcarry
  · -- the three branches of an `emit`: stalled, not yet a whole step, and a whole step
    by_cases hsum : a.carry + a.rate < 1
    · rw [Axis.emit_of_sum_lt hrate hsum]
      exact Single.not_add_lt_zero h hrate
    · rw [(Axis.emit_of_le_sum hrate hsum).2]
      exact Single.not_sub_one_lt_zero hsum

/-- The accumulator does not come below zero. -/
theorem carry_not_lt_zero (hactive : (b.axisAlone f slot t).isActive = true) :
    ¬ (b.axisAlone f slot t).carry < 0 := by
  refine axisAlone_induction b f slot (motive := fun _ a => ¬ a.carry < 0) (fun hsteps => ?_)
    (fun t a h => ?_) hactive
  · rw [ofBlock_share hsteps]
    exact not_zero_lt_zero
  · unfold Axis.tick
    refine carry_emit_not_lt_zero ?_
    rw [Axis.switchPhase_eq]
    exact h

/-- **A slot rests only at a rate of at most `2 ^ (-25)` steps per tick**, and with a slope of at
most `2 ^ (-49)`. -/
theorem bounds_of_rests (h : (b.axisAlone f slot t).Rests) :
    Single.value (b.axisAlone f slot t).rate ≤ 1 / 2 ^ 25 ∧
      |Single.value (b.axisAlone f slot t).slope| ≤ 1 / 2 ^ 49 := by
  have hnonneg := carry_not_lt_zero h.active
  have hsum : (b.axisAlone f slot t).carry + (b.axisAlone f slot t).rate < 1 := by
    rw [h.absorbed]
    exact h.below
  obtain ⟨hrate, hpos⟩ := Single.isFinite_of_add_lt_one hsum h.rate
  have hnan := (Single.isNaN_of_lt h.below).1
  have hlt := h.below
  rw [Single.not_lt_zero_iff_value hnan] at hnonneg
  rw [Single.lt_iff hnan rfl, Single.value_one] at hlt
  have hcarry : (b.axisAlone f slot t).carry.isFinite = true := by
    refine Single.isFinite_of_abs_lt hnan ?_
    rw [abs_of_nonneg hnonneg]
    linarith
  -- the accumulator is below a whole step, which bounds the rate, and that bounds the slope
  have hrate_le := Single.abs_le_of_absorbed (e := -24) (by norm_num) (by norm_num) hcarry hrate
    (by rw [abs_of_nonneg hnonneg]; norm_num; exact hlt) h.absorbed
  rw [abs_of_pos hpos] at hrate_le
  have hslope : (b.axisAlone f slot t).slope.isFinite = true := by
    refine (Single.isFinite_of_add (x := (b.axisAlone f slot t).rate) ?_).2
    rw [h.steady]
    exact hrate
  have hslope_le := Single.abs_le_of_absorbed (e := -48) (by norm_num) (by norm_num) hrate hslope
    (by rw [abs_of_pos hpos]; exact hrate_le.trans_lt (by norm_num)) h.steady
  refine ⟨hrate_le.trans (by norm_num), hslope_le.trans (by norm_num)⟩

/-- The rate of every slot that moves falls by more than `2 ^ (-49)` on each tick of the fall. -/
def FallsSteeply (b : Block n) : Prop :=
  b.rampDownStart < b.duration ∧
    ∀ slot, b.steps.get slot ≠ 0 → 1 / 2 ^ 49 < |Single.value ((-b.rampDown) * b.share slot)|

/-- **No slot rests where the rates fall steeply.** -/
theorem FallsSteeply.not_rests (h : b.FallsSteeply) (hpass : b.fault? registered = none)
    (hlate : b.rampDownStart.toNat ≤ t) : ¬ (b.axisAlone f slot t).Rests := by
  intro hrests
  have hup := ((fault?_eq_none_iff b registered).mp hpass).1.1
  have hslope := (onSchedule hpass hrests.active).slope
  rw [slopeAfter_of_fall ((UInt32.le_iff_toNat_le.mp hup).trans hlate) hlate (.inl h.1)] at hslope
  have hsteps : b.steps.get slot ≠ 0 := by
    intro hnone
    have hmissing := isActive_axisAlone_iff.mp hrests.active
    rw [hnone] at hmissing
    exact Nat.not_lt_zero _ hmissing
  -- a slope that a rate absorbs is smaller than any that the block has
  have hle := (bounds_of_rests hrests).2
  rw [hslope] at hle
  linarith [h.2 slot hsteps]

end Block

end PulseTrain
