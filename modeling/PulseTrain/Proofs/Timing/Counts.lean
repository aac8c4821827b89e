import PulseTrain.Proofs.Single.Range
import PulseTrain.Timing

/-!
# Timer counts of a tick and of a pulse

Whether a pulse fits into a tick is asked of the width and of the cycle of the tick rate, while the
timers are given counts that are rounded and cut off on two different ways. The width that fits does
end before the cycle, but its counts need not be below those of the tick.

* **`Timing.tickSpan`**, **`Timing.pulseSpan`**: how many counts the tick and the pulse really last.
* **`pulseSpan_lt_tickSpan`**: a pulse that fits is shorter.
* **`le_tickCounts`**, **`pulseCounts_le`**: how far the counts are from the spans.
* **`Timing.counts_of_pulseFitsTick`**: what a pulse that fits says of the counts;
  **`Timing.pulse_outlasts_tick`**: what it does not.
-/

namespace PulseTrain.Timing

open Single (value)

/-- How many counts of the timer clock one cycle of the tick rate really lasts. -/
def tickSpan (t : Timing) : ℚ := value t.timerClock.value / value t.tickRate.value

/-- How many counts of the timer clock a step pulse really lasts. -/
def pulseSpan (t : Timing) : ℚ := value t.timerClock.value * value t.pulseWidth.value / 10 ^ 6

/-! ## Timing that can be programmed -/

/-- A million is exact in single precision. -/
theorem value_million : value 1000000 = 10 ^ 6 := by
  show Single.factor .positive * (((16000000 : ℕ) : ℚ) * 2 ^ (-4 : ℤ)) = 10 ^ 6
  norm_num [Single.factor]

variable {t : Timing}

/-- A rate that passes is finite, as an infinite one spans no count. -/
theorem tickRate_isFinite (hok : t.check = .ok ()) : t.tickRate.value.isFinite = true := by
  obtain ⟨-, ⟨-, hcounts⟩, -⟩ := (check_eq_ok_iff t).mp hok
  rw [← Bool.not_eq_false]
  exact fun hinfinite => hcounts (Single.toUInt32_div_of_not_isFinite hinfinite)

theorem tickRate_pos (hok : t.check = .ok ()) : 0 < value t.tickRate.value :=
  Single.value_pos ((check_eq_ok_iff t).mp hok).2.1.1

theorem timerClock_pos (hok : t.check = .ok ()) : 0 < value t.timerClock.value :=
  Single.value_pos ((check_eq_ok_iff t).mp hok).1

theorem pulseWidth_pos (hok : t.check = .ok ()) : 0 < value t.pulseWidth.value :=
  Single.value_pos ((check_eq_ok_iff t).mp hok).2.2.1

/-- The cycle in microseconds is rounded once. -/
theorem rounded_cycle (hok : t.check = .ok ()) :
    Single.Rounded t.tickRate.cycle.value (10 ^ 6 / value t.tickRate.value) := by
  have hquotient := Single.rounded_div (x := 1000000) rfl (tickRate_isFinite hok)
    (tickRate_pos hok).ne'
  rwa [value_million] at hquotient

/-! ## Spans -/

/-- The comparison is exact: a rounded cycle that is longer than the width is not rounded to below
it. -/
theorem width_lt_cycle (hok : t.check = .ok ()) (hfits : t.pulseFitsTick = true) :
    value t.pulseWidth.value < 10 ^ 6 / value t.tickRate.value := by
  have hlt : t.pulseWidth.value < t.tickRate.cycle.value := decide_eq_true_iff.mp hfits
  obtain ⟨hwidth, hcycle⟩ := Single.isNaN_of_lt hlt
  rw [Single.lt_iff hwidth hcycle] at hlt
  by_contra hge
  exact absurd ((rounded_cycle hok).value_le (not_lt.mp hge)) (not_le.mpr hlt)

/-- A pulse that fits has a finite width. -/
theorem pulseWidth_isFinite (hok : t.check = .ok ()) (hfits : t.pulseFitsTick = true) :
    t.pulseWidth.value.isFinite = true := by
  have hlt : t.pulseWidth.value < t.tickRate.cycle.value := decide_eq_true_iff.mp hfits
  obtain ⟨hwidth, hcycle⟩ := Single.isNaN_of_lt hlt
  rw [Single.lt_iff hwidth hcycle] at hlt
  have hbound := (Single.representable_value t.tickRate.cycle.value).abs_le
  refine Single.isFinite_of_abs_lt hwidth ?_
  rw [abs_of_pos (pulseWidth_pos hok)]
  exact hlt.trans_le ((le_abs_self _).trans hbound)

/-- A pulse that fits is shorter than the tick, in exact counts of the clock. -/
theorem pulseSpan_lt_tickSpan (hok : t.check = .ok ()) (hfits : t.pulseFitsTick = true) :
    t.pulseSpan < t.tickSpan := by
  have hclock := timerClock_pos hok
  have hwidth := width_lt_cycle hok hfits
  unfold pulseSpan tickSpan
  rw [lt_div_iff₀ (tickRate_pos hok)] at hwidth ⊢
  rw [div_mul_eq_mul_div, div_lt_iff₀ (by norm_num), mul_assoc]
  exact mul_lt_mul_of_pos_left hwidth hclock

theorem tickSpan_pos (hok : t.check = .ok ()) : 0 < t.tickSpan :=
  div_pos (timerClock_pos hok) (tickRate_pos hok)

/-! ## Counts -/

/-- The counts of a tick, if the clock is not infinite. -/
theorem tickCounts_eq (hok : t.check = .ok ()) (hclock : t.timerClock.value.isFinite = true) :
    ∃ q : ℚ, Single.Nearest t.tickSpan q ∧ 0 ≤ q ∧
      t.tickCounts.toNat = min ⌊q⌋₊ (2 ^ 32 - 1) := by
  have hquotient := Single.rounded_div hclock (tickRate_isFinite hok) (tickRate_pos hok).ne'
  have hnonneg : 0 ≤ value (t.timerClock.value / t.tickRate.value) :=
    hquotient.value_nonneg (tickSpan_pos hok).le
  exact ⟨_, hquotient.nearest, hnonneg, Single.toNat_toUInt32 hquotient.not_isNaN hnonneg⟩

/-- An infinite clock gives a tick the largest count. -/
theorem tickCounts_of_infinite (hok : t.check = .ok ())
    (hclock : t.timerClock.value.isFinite = false) : t.tickCounts.toNat = 2 ^ 32 - 1 := by
  have hpos := timerClock_pos hok
  have hnan := (Single.isNaN_of_lt ((check_eq_ok_iff t).mp hok).1).2
  have hsame : t.timerClock.value / t.tickRate.value = t.timerClock.value :=
    Single.div_of_not_isFinite_left hclock (tickRate_isFinite hok) (tickRate_pos hok)
  have hfloor : ⌊(2 ^ 128 : ℚ)⌋₊ = 2 ^ 128 := by exact_mod_cast Nat.floor_natCast (2 ^ 128)
  show (t.timerClock.value / t.tickRate.value).toUInt32.toNat = _
  rw [hsame, Single.toNat_toUInt32 hnan hpos.le, Single.value_of_not_isFinite hclock hpos, hfloor]
  rfl

/-- **A tick that fits into the register** has as many counts as it lasts, up to the rounding of
its span and the fraction that is cut off. -/
theorem le_tickCounts (hok : t.check = .ok ()) (hspan : t.tickSpan < 2 ^ 32) :
    t.tickSpan - t.tickSpan / 2 ^ 24 - 1 / 2 ^ 150 ≤ t.tickCounts.toNat + 1 := by
  have hpos := tickSpan_pos hok
  have hfull : ((2 ^ 32 - 1 : ℕ) : ℚ) = 2 ^ 32 - 1 := by norm_num
  cases hclock : t.timerClock.value.isFinite with
  | false =>
    rw [tickCounts_of_infinite hok hclock, hfull]
    have : (0 : ℚ) < 1 / 2 ^ 150 := by positivity
    have : 0 < t.tickSpan / 2 ^ 24 := by positivity
    linarith
  | true =>
    obtain ⟨q, hq, hnonneg, hcounts⟩ := tickCounts_eq hok hclock
    have hbound : q ≤ 2 ^ 32 := hq.ge_of_ge
      (by exact_mod_cast Single.representable_two_zpow (k := 32) (by norm_num) (by norm_num))
      hspan.le
    have herror := hq.abs_sub_le (by rw [abs_of_pos hpos]; linarith)
    rw [abs_of_pos hpos] at herror
    have hle := (abs_le.mp herror).2
    have hfloor := Nat.lt_floor_add_one q
    rw [hcounts, Nat.cast_min, hfull]
    -- the rounding of the quotient, then the floor, then the limit of the register
    rcases min_cases ((⌊q⌋₊ : ℕ) : ℚ) (2 ^ 32 - 1) with ⟨heq, -⟩ | ⟨heq, -⟩ <;> rw [heq] <;>
      linarith

/-- A tick that does not fit into the register gets the largest count. -/
theorem tickCounts_of_long (hok : t.check = .ok ()) (hspan : 2 ^ 32 ≤ t.tickSpan) :
    t.tickCounts.toNat = 2 ^ 32 - 1 := by
  cases hclock : t.timerClock.value.isFinite with
  | false => exact tickCounts_of_infinite hok hclock
  | true =>
    obtain ⟨q, hq, hnonneg, hcounts⟩ := tickCounts_eq hok hclock
    have hbound : 2 ^ 32 ≤ q := hq.le_of_le
      (by exact_mod_cast Single.representable_two_zpow (k := 32) (by norm_num) (by norm_num))
      hspan
    have hfloor : 2 ^ 32 ≤ ⌊q⌋₊ := Nat.le_floor (by exact_mod_cast hbound)
    omega

/-- The largest count is not exceeded. -/
theorem pulseCounts_lt_of_full (h : t.tickCounts.toNat = 2 ^ 32 - 1) :
    (t.pulseCounts.toNat : ℚ) < (t.tickCounts.toNat + 1) * (1 + 1 / 10 ^ 6) := by
  have hlt : (t.pulseCounts.toNat : ℚ) < 2 ^ 32 := by exact_mod_cast t.pulseCounts.toNat_lt
  have hfull : (t.tickCounts.toNat : ℚ) + 1 = 2 ^ 32 := by
    rw [h]
    norm_num
  rw [hfull]
  linarith

theorem pulseCounts_pos (hok : t.check = .ok ()) : 1 ≤ t.pulseCounts.toNat := by
  have hcounts := ((check_eq_ok_iff t).mp hok).2.2.2
  exact Nat.one_le_iff_ne_zero.mpr fun hzero => hcounts (UInt32.toNat_inj.mp hzero)

/-- The width of a pulse in seconds, as it is calculated. -/
theorem seconds_bounds (hok : t.check = .ok ()) (hwidth : t.pulseWidth.value.isFinite = true) :
    (t.pulseWidth.value / 1000000).isFinite = true ∧ 0 ≤ value (t.pulseWidth.value / 1000000) ∧
      value (t.pulseWidth.value / 1000000) ≤
        value t.pulseWidth.value / 10 ^ 6 * (1 + 1 / 2 ^ 24) + 1 / 2 ^ 150 := by
  have hmillion : value 1000000 ≠ 0 := by rw [value_million]; norm_num
  have hpos := pulseWidth_pos hok
  have hlt := (abs_lt.mp (Single.abs_value_lt hwidth)).2
  have hseconds := Single.rounded_div hwidth (y := 1000000) rfl hmillion
  rw [value_million] at hseconds
  have hexact : 0 ≤ value t.pulseWidth.value / 10 ^ 6 := by positivity
  have hnonneg := hseconds.value_nonneg hexact
  have hle := hseconds.value_le_add hexact (by linarith)
  refine ⟨Single.isFinite_of_abs_lt hseconds.not_isNaN ?_, hnonneg, hle⟩
  rw [abs_of_nonneg hnonneg]
  linarith

/-- **The counts of a pulse** are at most as many as it lasts, up to its two roundings. -/
theorem pulseCounts_le (hok : t.check = .ok ()) (hclock : t.timerClock.value.isFinite = true)
    (hwidth : t.pulseWidth.value.isFinite = true) (hspan : t.pulseSpan < 2 ^ 32) :
    1 / 2 < t.pulseSpan ∧
      t.pulseCounts.toNat ≤ (t.pulseSpan * (1 + 1 / 2 ^ 24) + 1 / 2 ^ 22) * (1 + 1 / 2 ^ 24) +
        1 / 2 ^ 150 := by
  have hpos := timerClock_pos hok
  have hlt := (abs_lt.mp (Single.abs_value_lt hclock)).2
  obtain ⟨hfinite, hseconds, hle⟩ := seconds_bounds hok hwidth
  have hproduct := Single.rounded_mul hclock hfinite
  have hexact : 0 ≤ value t.timerClock.value * value (t.pulseWidth.value / 1000000) := by
    positivity
  -- the error of the first rounding is scaled by the clock, which is below 2 ^ 128
  have hexact_le : value t.timerClock.value * value (t.pulseWidth.value / 1000000) ≤
      t.pulseSpan * (1 + 1 / 2 ^ 24) + 1 / 2 ^ 22 := by
    calc value t.timerClock.value * value (t.pulseWidth.value / 1000000)
        ≤ value t.timerClock.value * (value t.pulseWidth.value / 10 ^ 6 * (1 + 1 / 2 ^ 24) +
          1 / 2 ^ 150) := by gcongr
      _ = t.pulseSpan * (1 + 1 / 2 ^ 24) + value t.timerClock.value * (1 / 2 ^ 150) := by
        unfold pulseSpan
        ring
      _ ≤ t.pulseSpan * (1 + 1 / 2 ^ 24) + 1 / 2 ^ 22 := by linarith
  have hcounts : (t.pulseCounts.toNat : ℚ) ≤
      value (t.timerClock.value * (t.pulseWidth.value / 1000000)) := by
    have hnonneg := hproduct.value_nonneg hexact
    have hfloor : t.pulseCounts.toNat ≤
        ⌊value (t.timerClock.value * (t.pulseWidth.value / 1000000))⌋₊ :=
      (Single.toNat_toUInt32 hproduct.not_isNaN hnonneg).le.trans (min_le_left _ _)
    exact (Nat.cast_le.mpr hfloor).trans (Nat.floor_le hnonneg)
  have hrounded := hproduct.value_le_add hexact (by linarith)
  have hone : (1 : ℚ) ≤ t.pulseCounts.toNat := by exact_mod_cast pulseCounts_pos hok
  have hbound : (t.pulseCounts.toNat : ℚ) ≤
      (t.pulseSpan * (1 + 1 / 2 ^ 24) + 1 / 2 ^ 22) * (1 + 1 / 2 ^ 24) + 1 / 2 ^ 150 := by linarith
  exact ⟨by linarith, hbound⟩

/-- **What a pulse that fits says of the counts.** The pulse is shorter than the tick. Its counts
are therefore below those of the tick if the tick fits into the register and the pulse is shorter by
one count and a millionth; and in any case they exceed those of the tick by no more than that. -/
theorem counts_of_pulseFitsTick (hok : t.check = .ok ()) (hfits : t.pulseFitsTick = true) :
    t.pulseSpan < t.tickSpan ∧
      (t.timerClock.value.isFinite = true → t.tickSpan < 2 ^ 32 →
        t.pulseSpan * (1 + 1 / 10 ^ 6) + 1 ≤ t.tickSpan → t.pulseCounts < t.tickCounts) ∧
      (t.pulseCounts.toNat : ℚ) < (t.tickCounts.toNat + 1) * (1 + 1 / 10 ^ 6) := by
  have hspan := pulseSpan_lt_tickSpan hok hfits
  have hwidth := pulseWidth_isFinite hok hfits
  refine ⟨hspan, fun hclock hrange hapart => ?_, ?_⟩
  · obtain ⟨hhalf, hpulse⟩ := pulseCounts_le hok hclock hwidth (hspan.trans hrange)
    have htick := le_tickCounts hok hrange
    have hlt : (t.pulseCounts.toNat : ℚ) < t.tickCounts.toNat := by linarith
    exact UInt32.lt_iff_toNat_lt.mpr (by exact_mod_cast hlt)
  · -- a tick that is too long for the register, or one of an infinite clock, has the largest count
    by_cases hrange : t.tickSpan < 2 ^ 32
    · cases hclock : t.timerClock.value.isFinite with
      | false => exact pulseCounts_lt_of_full (tickCounts_of_infinite hok hclock)
      | true =>
        obtain ⟨hhalf, hpulse⟩ := pulseCounts_le hok hclock hwidth (hspan.trans hrange)
        have htick := le_tickCounts hok hrange
        linarith
    · exact pulseCounts_lt_of_full (tickCounts_of_long hok (not_lt.mp hrange))

/-- Half a cycle of a tick, at a clock of one megahertz. -/
def halfCycle : Timing := { tickRate := ⟨1000⟩, pulseWidth := ⟨500⟩, timerClock := ⟨1000000⟩ }

/-- The counts are 500 and 1000. -/
theorem counts_of_pulseFitsTick_halfCycle :
    halfCycle.check = .ok () ∧ halfCycle.pulseFitsTick = true ∧
      halfCycle.pulseCounts < halfCycle.tickCounts := by
  have hok : halfCycle.check = .ok () := by decide +kernel
  have hfits : halfCycle.pulseFitsTick = true := by decide +kernel
  -- the numbers are exact, so the spans are the counts
  have hrate : value 1000 = 1000 := by
    show Single.factor .positive * (((16384000 : ℕ) : ℚ) * 2 ^ (-14 : ℤ)) = 1000
    norm_num [Single.factor]
  have hwidth : value 500 = 500 := by
    show Single.factor .positive * (((16384000 : ℕ) : ℚ) * 2 ^ (-15 : ℤ)) = 500
    norm_num [Single.factor]
  have htick : halfCycle.tickSpan = 1000 := by
    show value 1000000 / value 1000 = 1000
    rw [value_million, hrate]
    norm_num
  have hpulse : halfCycle.pulseSpan = 500 := by
    show value 1000000 * value 500 / 10 ^ 6 = 500
    rw [value_million, hwidth]
    norm_num
  refine ⟨hok, hfits, (counts_of_pulseFitsTick hok hfits).2.1 rfl ?_ ?_⟩
  · rw [htick]
    norm_num
  · rw [htick, hpulse]
    norm_num

/-- **The counts of a pulse that fits are not always below those of the tick.** At 25 MHz they are
the same for 30 kHz and 33.33 μs; at a rate and a width chosen worse, the pulse outlasts the tick by
one count. -/
theorem pulse_outlasts_tick :
    ∃ meets crosses : Timing,
      (meets.check = .ok () ∧ meets.pulseFitsTick = true ∧
        meets.pulseCounts = 833 ∧ meets.tickCounts = 833) ∧
      (crosses.check = .ok () ∧ crosses.pulseFitsTick = true ∧
        crosses.pulseCounts = 1545 ∧ crosses.tickCounts = 1544) := by
  refine ⟨{ tickRate := ⟨30000⟩, pulseWidth := ⟨33.33⟩ },
    { tickRate := ⟨16181.23046875⟩, pulseWidth := ⟨61.799995⟩ }, ?_, ?_⟩
  · decide +kernel
  · decide +kernel

end PulseTrain.Timing
