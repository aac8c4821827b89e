import PulseTrain.Proofs.Single.Order
import PulseTrain.Timing

/-!
# The tick rates that pass

A tick rate should be positive and not faster than the timer clock. The check asks instead whether a
tick spans a whole count of the timer, and that of a quotient that is rounded before its fraction is
cut off. The two come to the same: no rate is so little above the clock that the quotient would be
rounded up to one.

* **`Timing.RateFits`**: the rate is positive and not above the clock, as exact numbers.
* **`tickCounts_eq_zero_iff`**: when a tick spans no count at all.
* **`Timing.check_tickRate_iff`**: the check refuses exactly the rates that do not fit.
-/

namespace PulseTrain.Timing

open Single (value)

/-- The tick rate is a finite number above zero and not above the timer clock. -/
structure RateFits (t : Timing) : Prop where
  finite : t.tickRate.value.isFinite = true
  pos : 0 < value t.tickRate.value
  le_clock : value t.tickRate.value ≤ value t.timerClock.value

variable {t : Timing}

/-- The exact numbers are in order as the ones that are compared. -/
theorem rateFits_iff (hclock : 0 < t.timerClock.value) :
    t.RateFits ↔ 0 < t.tickRate.value ∧ t.tickRate.value ≤ t.timerClock.value ∧
      t.tickRate.value.isFinite = true := by
  have hnan := (Single.isNaN_of_lt hclock).2
  constructor
  · rintro ⟨hfinite, hpos, hle⟩
    have hrate := Single.isNaN_of_isFinite hfinite
    rw [Single.lt_iff rfl hrate, Single.value_zero, Single.le_iff hrate hnan]
    exact ⟨hpos, hle, hfinite⟩
  · rintro ⟨hpos, hle, hfinite⟩
    refine ⟨hfinite, Single.value_pos hpos, ?_⟩
    rwa [Single.le_iff (Single.isNaN_of_isFinite hfinite) hnan] at hle

/-! ## Counts of a tick -/

/-- The counts of a tick whose rate is finite, be the clock infinite or not. -/
theorem tickCounts_eq_zero_iff_lt (hclock : 0 < t.timerClock.value) (hrate : 0 < t.tickRate.value)
    (hfinite : t.tickRate.value.isFinite = true) :
    t.tickCounts = 0 ↔ value t.timerClock.value < value t.tickRate.value := by
  have hpos := Single.value_pos hrate
  show (t.timerClock.value / t.tickRate.value).toUInt32 = 0 ↔ _
  cases hclockFinite : t.timerClock.value.isFinite with
  | true =>
    have hquotient := Single.rounded_div hclockFinite hfinite hpos.ne'
    have hnonneg := hquotient.value_nonneg (div_nonneg (Single.value_pos hclock).le hpos.le)
    rw [Single.toUInt32_eq_zero_iff hquotient.not_isNaN hnonneg,
      Single.value_div_lt_one_iff hclockFinite hfinite hpos]
  | false =>
    -- an infinite clock is above every rate, and stays infinite when it is divided
    have hlarge := Single.value_of_not_isFinite hclockFinite (Single.value_pos hclock)
    have hbound := (abs_lt.mp (Single.abs_value_lt hfinite)).2
    rw [Single.div_of_not_isFinite_left hclockFinite hfinite hpos,
      Single.toUInt32_eq_zero_iff (Single.isNaN_of_lt hclock).2 (Single.value_pos hclock).le,
      hlarge]
    exact iff_of_false (by norm_num) hbound.not_gt

/-- **A tick spans no count** exactly where its rate is above the clock, or both are infinite. -/
theorem tickCounts_eq_zero_iff (hclock : 0 < t.timerClock.value) (hrate : 0 < t.tickRate.value) :
    t.tickCounts = 0 ↔ t.timerClock.value < t.tickRate.value ∨
      t.timerClock.value.isFinite = false ∧ t.tickRate.value.isFinite = false := by
  have hclockNaN := (Single.isNaN_of_lt hclock).2
  have hrateNaN := (Single.isNaN_of_lt hrate).2
  rw [Single.lt_iff hclockNaN hrateNaN]
  cases hfinite : t.tickRate.value.isFinite with
  | true =>
    rw [tickCounts_eq_zero_iff_lt hclock hrate hfinite, or_iff_left fun h => by cases h.2]
  | false =>
    refine iff_of_true (Single.toUInt32_div_of_not_isFinite hfinite) ?_
    cases hclockFinite : t.timerClock.value.isFinite with
    | true =>
      rw [Single.value_of_not_isFinite hfinite (Single.value_pos hrate)]
      exact .inl (abs_lt.mp (Single.abs_value_lt hclockFinite)).2
    | false => exact .inr ⟨rfl, rfl⟩

/-! ## The check -/

/-- What the check asks of the rate, once the clock has passed. -/
theorem check_eq_tickRate_iff (hclock : 0 < t.timerClock.value) (v : Float32) :
    t.check = .error (.tickRate v) ↔
      v = t.tickRate.value ∧ (¬ 0 < t.tickRate.value ∨ t.tickCounts = 0) := by
  unfold check
  grind

/-- **The check refuses exactly the rates that do not fit.** Let the timer clock be above zero, if
infinite. Then the tick rate is reported exactly if it is not a finite number above zero and not
above the clock, where the numbers are compared as they are and not as a rounded quotient; for a
tick spans no count exactly where its rate is above the clock, or both are infinite. -/
theorem check_tickRate_iff (hclock : 0 < t.timerClock.value) :
    (∀ v, t.check = .error (.tickRate v) ↔ v = t.tickRate.value ∧ ¬ t.RateFits) ∧
      (t.RateFits ↔ 0 < t.tickRate.value ∧ t.tickRate.value ≤ t.timerClock.value ∧
        t.tickRate.value.isFinite = true) ∧
      (0 < t.tickRate.value → (t.tickCounts = 0 ↔ t.timerClock.value < t.tickRate.value ∨
        t.timerClock.value.isFinite = false ∧ t.tickRate.value.isFinite = false)) := by
  refine ⟨fun v => ?_, rateFits_iff hclock, tickCounts_eq_zero_iff hclock⟩
  rw [check_eq_tickRate_iff hclock, and_congr_right_iff]
  rintro -
  -- a rate that is not above zero is refused for that, before any count is looked at
  by_cases hrate : 0 < t.tickRate.value
  · rw [or_iff_right (not_not.mpr hrate)]
    cases hfinite : t.tickRate.value.isFinite with
    | true =>
      rw [tickCounts_eq_zero_iff_lt hclock hrate hfinite]
      constructor
      · exact fun hlt hfits => hlt.not_ge hfits.le_clock
      · intro hnot
        by_contra hge
        exact hnot ⟨hfinite, Single.value_pos hrate, not_lt.mp hge⟩
    | false =>
      refine iff_of_true (Single.toUInt32_div_of_not_isFinite hfinite) fun hfits => ?_
      rw [hfits.finite] at hfinite
      cases hfinite
  · exact iff_of_true (.inl hrate) fun hfits => hrate ((rateFits_iff hclock).mp hfits).1

/-- A rate that is next above the clock of 25 MHz is refused, and at the clock it is not. -/
theorem check_tickRate_iff_nextAbove :
    (0 : Float32) < 25000000 ∧
      check { tickRate := ⟨25000002⟩ } = .error (.tickRate 25000002) ∧
      check { tickRate := ⟨25000000⟩ } ≠ .error (.tickRate 25000000) := by
  have hclock : (0 : Float32) < 25000000 := by decide +kernel
  have habove := check_tickRate_iff (t := { tickRate := ⟨25000002⟩ }) hclock
  have hequal := check_tickRate_iff (t := { tickRate := ⟨25000000⟩ }) hclock
  refine ⟨hclock, (habove.1 _).mpr ⟨rfl, fun hfits => ?_⟩, fun hrefused => ?_⟩
  · exact absurd (habove.2.1.mp hfits).2.1 (by decide +kernel)
  · refine ((hequal.1 _).mp hrefused).2 (hequal.2.1.mpr ?_)
    decide +kernel

end PulseTrain.Timing
