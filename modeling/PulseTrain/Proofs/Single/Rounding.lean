import PulseTrain.Proofs.Single.Value

/-!
# Rounding to single precision

An operation is calculated exactly first, and then rounded to the nearest number of single
precision. While it is rounded, two bits beside the significand tell how much has been dropped.

* **`Nearest`**: no number of single precision is closer; **`Nearest.le_of_le`**,
  **`Nearest.ge_of_ge`**: rounding does not pass a number of single precision, so that it keeps the
  order and leaves such numbers alone; **`Nearest.abs_sub_le`**: how close it is.
* **`Marks`**: what the two bits tell; **`Marks.shiftRight`**: a shift keeps track of what it drops.
* **`Rounded`**, **`rounded_roundWithAccuracy`**: what is rounded is nearest.
-/

namespace PulseTrain.Single

open Float.Model (Format UnpackedFloat)
open Float.Model.UnpackedFloat (Sign Accuracy ExtendedMantissa roundWithAccuracy accuracyOfFraction
  shiftToTargetExponent)

/-! ## The nearest number -/

/-- No whole number is closer than one that is within a half. -/
theorem abs_sub_le_of_half {x : ℚ} {m : ℕ} (h : |x - m| ≤ 1 / 2) (j : ℤ) : |x - m| ≤ |x - j| := by
  by_cases hj : j = m
  · rw [hj]
    exact le_rfl
  · -- another whole number is at least one away
    have hone : (1 : ℚ) ≤ |(m : ℚ) - j| := by
      exact_mod_cast Int.one_le_abs (sub_ne_zero.mpr (Ne.symm hj))
    have htri := abs_sub_le (m : ℚ) x j
    rw [abs_sub_comm (m : ℚ) x] at htri
    linarith

/-- The numbers that single precision has, infinity being the first power of two that is too
large. -/
def Representable (q : ℚ) : Prop := ∃ k e : ℤ, |k| ≤ 2 ^ 24 ∧ -149 ≤ e ∧ e ≤ 104 ∧ q = k * 2 ^ e

/-- No number of single precision is closer. -/
structure Nearest (q z : ℚ) : Prop where
  representable : Representable z
  closest : ∀ w, Representable w → |q - z| ≤ |q - w|

/-- The numbers of single precision lie the same on both sides of zero. -/
theorem Representable.neg {q : ℚ} (h : Representable q) : Representable (-q) := by
  obtain ⟨k, e, hk, hleast, hmost, rfl⟩ := h
  exact ⟨-k, e, by rwa [abs_neg], hleast, hmost, by push_cast; ring⟩

/-- None of them is above the first power of two that is too large, which stands for infinity. -/
theorem Representable.abs_le {q : ℚ} (h : Representable q) : |q| ≤ 2 ^ 128 := by
  obtain ⟨k, e, hk, -, hmost, rfl⟩ := h
  have hk' : |(k : ℚ)| ≤ 2 ^ 24 := by exact_mod_cast hk
  have he : (2 : ℚ) ^ e ≤ 2 ^ (104 : ℤ) := zpow_le_zpow_right₀ (by norm_num) hmost
  have hpos : (0 : ℚ) < 2 ^ e := by positivity
  rw [abs_mul, abs_of_pos hpos]
  calc |(k : ℚ)| * 2 ^ e ≤ 2 ^ 24 * 2 ^ (104 : ℤ) := by gcongr
    _ = 2 ^ 128 := by norm_num

namespace Nearest

variable {q z w : ℚ}

/-- What is nearest lies the same on both sides of zero. -/
theorem neg (h : Nearest q z) : Nearest (-q) (-z) := by
  refine ⟨h.representable.neg, fun w hw => ?_⟩
  calc |-q - -z| = |q - z| := by rw [neg_sub_neg, abs_sub_comm]
    _ ≤ |q - -w| := h.closest (-w) hw.neg
    _ = |-q - w| := by rw [← abs_neg, neg_sub, sub_eq_add_neg, add_comm, ← sub_eq_add_neg]

/-- The sign has no part in rounding. -/
theorem signed (h : Nearest q z) (s : Sign) : Nearest (factor s * q) (factor s * z) := by
  cases s with
  | negative =>
    rw [factor, neg_one_mul, neg_one_mul]
    exact h.neg
  | positive =>
    rw [factor, one_mul, one_mul]
    exact h

/-- Rounding does not pass a number of single precision. -/
theorem le_of_le (h : Nearest q z) (hw : Representable w) (hle : w ≤ q) : w ≤ z := by
  by_contra hlt
  have hclosest := h.closest w hw
  rw [abs_of_nonneg (by linarith), abs_of_nonneg (by linarith)] at hclosest
  linarith

theorem ge_of_ge (h : Nearest q z) (hw : Representable w) (hle : q ≤ w) : z ≤ w := by
  have := h.neg.le_of_le hw.neg (neg_le_neg hle)
  linarith

/-- **A number of single precision is nearest to itself** alone. -/
theorem eq_of_representable (h : Nearest q z) (hq : Representable q) : z = q :=
  le_antisymm (h.ge_of_ge hq le_rfl) (h.le_of_le hq le_rfl)

end Nearest

/-- The bound itself counts as one of them. -/
theorem representable_bound : Representable (2 ^ 128) :=
  ⟨2 ^ 24, 104, by norm_num, by norm_num, le_rfl, by norm_num⟩

/-- Among multiples of a unit there is one within half a unit. -/
theorem Nearest.abs_sub_le_half {q z : ℚ} (h : Nearest q z) {e : ℤ} (hleast : -149 ≤ e)
    (hmost : e ≤ 104) (hq : |q| ≤ 2 ^ 24 * 2 ^ e) : |q - z| ≤ 2 ^ e / 2 := by
  have hunit : (0 : ℚ) < 2 ^ e := by positivity
  have hround := abs_sub_round (q / 2 ^ e)
  have hbound : |q / 2 ^ e| ≤ 2 ^ 24 := by
    rw [abs_div, abs_of_pos hunit, div_le_iff₀ hunit]
    exact hq
  -- the multiple next to the number has a factor of 24 bits, so it is one of single precision
  have hfactor : |round (q / 2 ^ e)| ≤ 2 ^ 24 := by
    have htri := abs_sub_abs_le_abs_sub ((round (q / 2 ^ e) : ℤ) : ℚ) (q / 2 ^ e)
    rw [abs_sub_comm] at htri
    have hlt : |((round (q / 2 ^ e) : ℤ) : ℚ)| < ((2 ^ 24 : ℤ) : ℚ) + 1 := by push_cast; linarith
    exact Int.lt_add_one_iff.mp (by exact_mod_cast hlt)
  calc |q - z| ≤ |q - (round (q / 2 ^ e) : ℤ) * 2 ^ e| :=
        h.closest _ ⟨_, e, hfactor, hleast, hmost, rfl⟩
    _ = |q / 2 ^ e - (round (q / 2 ^ e) : ℤ)| * 2 ^ e := by
        rw [← abs_of_pos hunit, ← abs_mul, abs_of_pos hunit, sub_mul, div_mul_cancel₀ _ hunit.ne']
    _ ≤ 1 / 2 * 2 ^ e := by gcongr
    _ = 2 ^ e / 2 := by ring

/-- **How close rounding is**: by the 24 bits of the significand, and for the least numbers by half
the least unit. -/
theorem Nearest.abs_sub_le {q z : ℚ} (h : Nearest q z) (hq : |q| < 2 ^ 128) :
    |q - z| ≤ |q| / 2 ^ 24 + 1 / 2 ^ 150 := by
  by_cases hsmall : |q| ≤ 2 ^ 24 * 2 ^ (-149 : ℤ)
  · have herror := h.abs_sub_le_half le_rfl (by norm_num) hsmall
    have hle : (0 : ℚ) ≤ |q| / 2 ^ 24 := by positivity
    have hhalf : (2 : ℚ) ^ (-149 : ℤ) / 2 = 1 / 2 ^ 150 := by norm_num
    linarith
  · -- the size of a larger number lies between two powers of two, which fixes its unit
    have hpos : 0 < |q| := lt_trans (by positivity) (not_le.mp hsmall)
    obtain ⟨k, hlo, hhi⟩ := exists_mem_Ico_zpow hpos one_lt_two
    have hleast : (-125 : ℤ) ≤ k := by
      by_contra hk
      have : (2 : ℚ) ^ (k + 1) ≤ 2 ^ (-125 : ℤ) := zpow_le_zpow_right₀ (by norm_num) (by omega)
      have : (2 : ℚ) ^ 24 * 2 ^ (-149 : ℤ) = 2 ^ (-125 : ℤ) := by norm_num
      linarith
    have hmost : k ≤ 127 := by
      by_contra hk
      have : (2 : ℚ) ^ (128 : ℤ) ≤ 2 ^ k := zpow_le_zpow_right₀ (by norm_num) (by omega)
      have : (2 : ℚ) ^ (128 : ℤ) = 2 ^ 128 := by norm_num
      linarith
    have hunit : (2 : ℚ) ^ (k - 23) = 2 ^ k / 2 ^ 23 := by rw [zpow_sub₀ two_ne_zero]; norm_num
    have hnext : (2 : ℚ) ^ (k + 1) = 2 * 2 ^ k := by rw [zpow_add_one₀ two_ne_zero]; ring
    have herror := h.abs_sub_le_half (e := k - 23) (by omega) (by omega)
      (by rw [hunit]; linarith)
    rw [hunit] at herror
    have hfine : (0 : ℚ) < 1 / 2 ^ 150 := by positivity
    linarith

/-- A number of 24 bits may be rounded to one more than these have, but no further. -/
theorem rounded_le {y : ℚ} {m : ℕ} (hm : |y - m| ≤ 1 / 2) (hlt : y < 2 ^ 24) : m ≤ 2 ^ 24 := by
  obtain ⟨hlo, -⟩ := abs_le.mp hm
  have hnext : (m : ℚ) < (2 ^ 24 : ℕ) + 1 := by push_cast; linarith
  exact Nat.lt_succ_iff.mp (by exact_mod_cast hnext)

/-- It is not rounded to one with fewer bits. -/
theorem le_rounded {y : ℚ} {m : ℕ} (hm : |y - m| ≤ 1 / 2) (hge : 2 ^ 23 ≤ y) : 2 ^ 23 ≤ m := by
  obtain ⟨-, hhi⟩ := abs_le.mp hm
  have hnext : ((2 ^ 23 : ℕ) : ℚ) < m + 1 := by push_cast; linarith
  exact Nat.lt_succ_iff.mp (by exact_mod_cast hnext)

/-- A number that is finer than a unit is below the least number that needs this unit. -/
theorem finer_le {k e e' : ℤ} (hk : |k| ≤ 2 ^ 24) (hfine : e' < e) :
    (k * 2 ^ e' : ℚ) ≤ 2 ^ 23 * 2 ^ e := by
  have hk' : (k : ℚ) ≤ 2 ^ 24 := by exact_mod_cast (abs_le.mp hk).2
  have he' : (2 : ℚ) ^ e' ≤ 2 ^ (e - 1) := zpow_le_zpow_right₀ (by norm_num) (by omega)
  calc (k * 2 ^ e' : ℚ) ≤ 2 ^ 24 * 2 ^ e' := by gcongr
    _ ≤ 2 ^ 24 * 2 ^ (e - 1) := by gcongr
    _ = 2 ^ 23 * 2 ^ e := by rw [zpow_sub_one₀ two_ne_zero]; ring

/-- A number in units that are not larger than its own. -/
theorem units_of_le (k : ℤ) {e e' : ℤ} (h : e' ≤ e) :
    (k * 2 ^ e : ℚ) = (k * 2 ^ (e - e').toNat : ℤ) * 2 ^ e' := by
  push_cast
  rw [mul_assoc, ← zpow_natCast, ← zpow_add₀ two_ne_zero, Int.toNat_of_nonneg (by omega)]
  congr 2
  omega

/-- A whole number of units that is within half a unit is nearest, if the unit is the least one or
the number needs it. -/
theorem nearest_of_mem {y : ℚ} {m : ℕ} {e : ℤ} (hm : |y - m| ≤ 1 / 2) (hmost : m ≤ 2 ^ 24)
    (he : -149 ≤ e) (hrange : e ≤ 104) (hfull : 2 ^ 23 ≤ y ∨ e = -149) :
    Nearest (y * 2 ^ e) (m * 2 ^ e) := by
  have hunit : (0 : ℚ) < 2 ^ e := by positivity
  refine ⟨⟨m, e, by rw [Nat.abs_cast]; exact_mod_cast hmost, he, hrange, rfl⟩, ?_⟩
  -- multiples of the unit are compared by their factors
  have hmultiple (j : ℤ) : |y * 2 ^ e - m * 2 ^ e| ≤ |y * 2 ^ e - j * 2 ^ e| := by
    rw [← sub_mul, ← sub_mul, abs_mul, abs_mul]
    exact mul_le_mul_of_nonneg_right (abs_sub_le_of_half hm j) (abs_nonneg _)
  rintro w ⟨k, e', hk, hleast', hmost', rfl⟩
  by_cases hfine : e ≤ e'
  · rw [units_of_le k hfine]
    exact hmultiple _
  · -- a finer unit does not come up to the number, and its full significand is a multiple of the
    -- unit
    have hw := finer_le hk (not_le.mp hfine)
    have hq : 2 ^ 23 * 2 ^ e ≤ y * 2 ^ e :=
      mul_le_mul_of_nonneg_right (hfull.resolve_right (by omega)) hunit.le
    refine (hmultiple (2 ^ 23)).trans ?_
    push_cast
    rw [abs_of_nonneg (by linarith), abs_of_nonneg (by linarith)]
    linarith

/-- A full significand with an exponent that is too large reaches the bound. -/
theorem bound_le {c : ℚ} {e : ℤ} (hc : 2 ^ 23 ≤ c) (he : 105 ≤ e) : 2 ^ 128 ≤ c * 2 ^ e := by
  have he' : (2 : ℚ) ^ (105 : ℤ) ≤ 2 ^ e := zpow_le_zpow_right₀ (by norm_num) he
  calc (2 : ℚ) ^ 128 = 2 ^ 23 * 2 ^ (105 : ℤ) := by norm_num
    _ ≤ c * 2 ^ e := by gcongr

/-- What is not below the first power of two that is too large is nearest to that. -/
theorem nearest_bound {q : ℚ} (h : 2 ^ 128 ≤ q) : Nearest q (2 ^ 128) := by
  refine ⟨representable_bound, fun w hw => ?_⟩
  have hw' := (abs_le.mp hw.abs_le).2
  rw [abs_of_nonneg (by linarith), abs_of_nonneg (by linarith)]
  linarith

/-- **A whole number of units that is within half a unit is nearest**, if the unit is the least one
or the number needs it, and if it is not too large. -/
theorem nearest_of_units {y : ℚ} {m : ℕ} {e : ℤ} (hm : |y - m| ≤ 1 / 2) (hlt : y < 2 ^ 24)
    (he : -149 ≤ e) (hfull : 2 ^ 23 ≤ y ∨ e = -149) :
    Nearest (y * 2 ^ e) (min (m * 2 ^ e) (2 ^ 128)) := by
  have hmost := rounded_le hm hlt
  -- an exponent that is too large is that of infinity
  by_cases hrange : e ≤ 104
  · have hle : (m * 2 ^ e : ℚ) ≤ 2 ^ 128 := by
      have hm' : (m : ℚ) ≤ 2 ^ 24 := by exact_mod_cast hmost
      have he' : (2 : ℚ) ^ e ≤ 2 ^ (104 : ℤ) := zpow_le_zpow_right₀ (by norm_num) hrange
      calc (m * 2 ^ e : ℚ) ≤ 2 ^ 24 * 2 ^ (104 : ℤ) := by gcongr
        _ = 2 ^ 128 := by norm_num
    rw [min_eq_left hle]
    exact nearest_of_mem hm hmost he hrange hfull
  · have hge : (2 ^ 23 : ℚ) ≤ y := hfull.resolve_right (by omega)
    have hm' : (2 ^ 23 : ℚ) ≤ m := by exact_mod_cast le_rounded hm hge
    rw [min_eq_right (bound_le hm' (by omega))]
    exact nearest_bound (bound_le hge (by omega))

/-! ## The two bits beside the significand -/

/-- The mantissa is the whole part of a number, and the two bits tell where its fraction lies: at
zero, below one half, at one half or above it. -/
inductive Marks : ExtendedMantissa → ℚ → Prop where
  | whole (m : ℕ) : Marks ⟨m, false, false⟩ m
  | below {m : ℕ} {x : ℚ} (hlo : m < x) (hhi : x < m + 1 / 2) : Marks ⟨m, false, true⟩ x
  | half (m : ℕ) : Marks ⟨m, true, false⟩ (m + 1 / 2)
  | above {m : ℕ} {x : ℚ} (hlo : m + 1 / 2 < x) (hhi : x < m + 1) : Marks ⟨m, true, true⟩ x

/-- A fraction by the two bits: none, below the half, the half, or above it. -/
theorem marks_fraction (m : ℕ) {num den : ℕ} (h : num < den) :
    Marks (.ofMantissaAndAccuracy m (accuracyOfFraction num den)) (m + num / den) := by
  have hden : (0 : ℚ) < den := by exact_mod_cast Nat.zero_lt_of_lt h
  have hone : (num / den : ℚ) < 1 := (div_lt_one hden).mpr (by exact_mod_cast h)
  unfold accuracyOfFraction
  by_cases hzero : num = 0
  · rw [if_pos hzero, hzero, Nat.cast_zero, zero_div, add_zero]
    exact .whole m
  rw [if_neg hzero]
  have hpos : (0 : ℚ) < num / den := div_pos (by exact_mod_cast Nat.pos_of_ne_zero hzero) hden
  -- twice the numerator against the denominator is the fraction against the half
  rcases lt_trichotomy (2 * num) den with hlt | heq | hgt
  · have hhalf : (num / den : ℚ) < 1 / 2 := by
      rw [div_lt_div_iff₀ hden two_pos]
      exact_mod_cast (by omega : num * 2 < 1 * den)
    rw [Nat.compare_eq_lt.mpr hlt]
    exact .below (by linarith) (by linarith)
  · have hhalf : (num / den : ℚ) = 1 / 2 := by
      rw [div_eq_div_iff hden.ne' two_ne_zero]
      exact_mod_cast (by omega : num * 2 = 1 * den)
    rw [Nat.compare_eq_eq.mpr heq, hhalf]
    exact .half m
  · have hhalf : (1 / 2 : ℚ) < num / den := by
      rw [div_lt_div_iff₀ two_pos hden]
      exact_mod_cast (by omega : 1 * den < num * 2)
    rw [Nat.compare_eq_gt.mpr hgt]
    exact .above (by linarith) (by linarith)

/-- A shift of a single bit, which is the next round bit. -/
theorem shiftRightOne_even (k : ℕ) (round sticky : Bool) :
    ExtendedMantissa.shiftRightOne ⟨2 * k, round, sticky⟩ = ⟨k, false, round || sticky⟩ := by
  simp [ExtendedMantissa.shiftRightOne]

theorem shiftRightOne_odd (k : ℕ) (round sticky : Bool) :
    ExtendedMantissa.shiftRightOne ⟨2 * k + 1, round, sticky⟩ = ⟨k, true, round || sticky⟩ := by
  simp [ExtendedMantissa.shiftRightOne]
  omega

/-- What a shift drops is kept track of by the two bits. -/
theorem Marks.shiftRightOne {em : ExtendedMantissa} {x : ℚ} (h : Marks em x) :
    Marks em.shiftRightOne (x / 2) := by
  -- the last bit becomes the round bit, and what was in both is gathered in the other
  obtain ⟨k, hk | hk⟩ := Nat.even_or_odd' em.mantissa
  · cases h with
    | whole m =>
      obtain rfl : m = 2 * k := hk
      rw [shiftRightOne_even, show ((2 * k : ℕ) : ℚ) / 2 = k by push_cast; ring]
      exact .whole k
    | @below m x hlo hhi =>
      obtain rfl : m = 2 * k := hk
      push_cast at hlo hhi
      rw [shiftRightOne_even]
      exact .below (by linarith) (by linarith)
    | half m =>
      obtain rfl : m = 2 * k := hk
      rw [shiftRightOne_even]
      exact .below (by push_cast; linarith) (by push_cast; linarith)
    | @above m x hlo hhi =>
      obtain rfl : m = 2 * k := hk
      push_cast at hlo hhi
      rw [shiftRightOne_even]
      exact .below (by linarith) (by linarith)
  · cases h with
    | whole m =>
      obtain rfl : m = 2 * k + 1 := hk
      rw [shiftRightOne_odd, show ((2 * k + 1 : ℕ) : ℚ) / 2 = k + 1 / 2 by push_cast; ring]
      exact .half k
    | @below m x hlo hhi =>
      obtain rfl : m = 2 * k + 1 := hk
      push_cast at hlo hhi
      rw [shiftRightOne_odd]
      exact .above (by linarith) (by linarith)
    | half m =>
      obtain rfl : m = 2 * k + 1 := hk
      rw [shiftRightOne_odd]
      exact .above (by push_cast; linarith) (by push_cast; linarith)
    | @above m x hlo hhi =>
      obtain rfl : m = 2 * k + 1 := hk
      push_cast at hlo hhi
      rw [shiftRightOne_odd]
      exact .above (by linarith) (by linarith)

/-- Any number of shifts halves the number as often, and the two bits still tell where it is. -/
theorem Marks.shiftRight {em : ExtendedMantissa} {x : ℚ} (h : Marks em x) (count : ℕ) :
    Marks (em >>> count) (x / 2 ^ count) := by
  show Marks (count.repeat ExtendedMantissa.shiftRightOne em) _
  induction count with
  | zero => rwa [pow_zero, div_one]
  | succ count ih =>
    rw [pow_succ, ← div_div]
    exact ih.shiftRightOne

/-- The rounded mantissa is within one half of the number, and so no whole number is closer. -/
theorem Marks.abs_sub_le {em : ExtendedMantissa} {x : ℚ} (h : Marks em x) :
    |x - em.roundedMantissa| ≤ 1 / 2 := by
  cases h with
  | whole m =>
    simp [ExtendedMantissa.roundedMantissa, ExtendedMantissa.accuracy, Accuracy.roundToNearestEven]
  | @below m x hlo hhi =>
    show |x - m| ≤ 1 / 2
    rw [abs_le]
    exact ⟨by linarith, by linarith⟩
  | half m =>
    show |(m + 1 / 2 : ℚ) - (m + m % 2 : ℕ)| ≤ 1 / 2
    -- a tie goes to the even neighbour, and is as far from both
    have hmod := Nat.mod_two_eq_zero_or_one m
    rcases hmod with h | h <;> rw [h] <;> push_cast <;> rw [abs_le] <;> constructor <;> linarith
  | @above m x hlo hhi =>
    show |x - (m + 1 : ℕ)| ≤ 1 / 2
    push_cast
    rw [abs_le]
    exact ⟨by linarith, by linarith⟩

/-- The mantissa is the whole part. -/
theorem Marks.mantissa_le {em : ExtendedMantissa} {x : ℚ} (h : Marks em x) :
    (em.mantissa : ℚ) ≤ x ∧ x < em.mantissa + 1 := by
  cases h with
  | whole m => exact ⟨le_rfl, lt_add_one _⟩
  | below hlo hhi => exact ⟨hlo.le, by linarith⟩
  | half m => exact ⟨by linarith, by linarith⟩
  | above hlo hhi => exact ⟨by linarith, hhi⟩


/-! ## The two shifts -/

/-- The exponent with which a number is kept, by its significand and exponent before. -/
def keptExponent (m : ℕ) (e : ℤ) : ℤ := max (m.log2 + 1 + e - 24) (-149)

/-- The first shift brings the exponent to the one that is kept. -/
theorem shiftToTargetExponent_eq (m : ℕ) (e : ℤ) (acc : Accuracy) :
    shiftToTargetExponent Format.binary32 m e acc =
      (ExtendedMantissa.ofMantissaAndAccuracy m acc >>> (keptExponent m e - e).toNat,
        e + (keptExponent m e - e).toNat) := rfl

/-- A significand that rounding has made too long by one bit is shifted once more; that drops
nothing. -/
theorem shiftAgain {m : ℕ} {e : ℤ} (hm : m ≤ 2 ^ 24) (he : -149 ≤ e) :
    shiftToTargetExponent Format.binary32 m e .exact =
      if m = 2 ^ 24 then (⟨2 ^ 23, false, false⟩, e + 1) else (⟨m, false, false⟩, e) := by
  rw [shiftToTargetExponent_eq]
  -- only a significand that has become a power of two has a bit too many
  split
  · rename_i hlong
    have hkept : keptExponent m e = e + 1 := by
      unfold keptExponent
      rw [hlong, Nat.log2_two_pow]
      omega
    rw [hkept, hlong, show (e + 1 - e).toNat = 1 by omega]
    rfl
  · rename_i hshort
    have hkept : keptExponent m e ≤ e := by
      unfold keptExponent
      by_cases hzero : m = 0
      · rw [hzero, Nat.log2_zero]
        omega
      · have hlog := (Nat.log2_lt hzero).mpr (show m < 2 ^ 24 by omega)
        omega
    rw [show (keptExponent m e - e).toNat = 0 by omega]
    exact Prod.ext rfl (Int.add_zero e)

/-- What rounding comes to: zero, one bit more than there is room for, or what was rounded. -/
theorem roundWithAccuracy_eq (s : Sign) {m : ℕ} {e : ℤ} {acc : Accuracy} {rounded : ℕ}
    (he : e ≤ keptExponent m e)
    (hrounded : (ExtendedMantissa.ofMantissaAndAccuracy m acc >>>
      (keptExponent m e - e).toNat).roundedMantissa = rounded) (hle : rounded ≤ 2 ^ 24) :
    roundWithAccuracy Format.binary32 s m e acc =
      if h : rounded = 0 then .zero s
      else if rounded = 2 ^ 24 then .finite s (2 ^ 23) (keptExponent m e + 1) (by norm_num)
      else .finite s rounded (keptExponent m e) (Nat.pos_of_ne_zero h) := by
  have hexponent : e + (keptExponent m e - e).toNat = keptExponent m e := by omega
  have hleast : -149 ≤ keptExponent m e := le_max_right _ _
  unfold roundWithAccuracy
  simp only [shiftToTargetExponent_eq m e acc, hexponent, hrounded, shiftAgain hle hleast]
  -- the second shift does nothing to what is not too long
  by_cases hzero : rounded = 0
  · simp [hzero]
  · by_cases hlong : rounded = 2 ^ 24
    · simp [hlong]
    · simp [hzero, hlong, -Nat.reducePow]

/-! ## What is rounded is nearest -/

/-- What is packed is worth as much as it was, or the bound if that is exceeded. -/
theorem worth_pack_finite (s : Sign) {m : ℕ} {e : ℤ} (hm : 0 < m) (hlt : m < 2 ^ 24)
    (he : -149 ≤ e) (hfull : 2 ^ 23 ≤ m ∨ e = -149) :
    (Float32.Model.pack (.finite s m e hm)).unpack ≠ .notANumber ∧
      worth (Float32.Model.pack (.finite s m e hm)).unpack =
        factor s * min (m * 2 ^ e : ℚ) (2 ^ 128) := by
  by_cases hmost : e ≤ 104
  · have hkept : Kept m e := ⟨hlt, he, hmost, hfull⟩
    rw [unpack_pack_kept s hm hkept, min_eq_left hkept.lt_bound.le]
    exact ⟨nofun, rfl⟩
  · have hm' : (2 ^ 23 : ℚ) ≤ m := by exact_mod_cast hfull.resolve_right (by omega)
    have he' : (2 : ℚ) ^ (105 : ℤ) ≤ 2 ^ e := zpow_le_zpow_right₀ (by norm_num) (by omega)
    have hlarge : (2 : ℚ) ^ 128 ≤ m * 2 ^ e :=
      calc (2 : ℚ) ^ 128 = 2 ^ 23 * 2 ^ (105 : ℤ) := by norm_num
        _ ≤ (m : ℚ) * 2 ^ e := by gcongr
    rw [unpack_pack_large s hm (by omega), min_eq_right hlarge]
    exact ⟨nofun, rfl⟩

/-- The significand keeps 24 bits in front of its point, unless the exponent is the least one. -/
theorem Marks.kept {m : ℕ} {e : ℤ} {acc : Accuracy} {x : ℚ}
    (h : Marks (.ofMantissaAndAccuracy m acc) x) (he : e ≤ keptExponent m e) :
    x / 2 ^ (keptExponent m e - e).toNat < 2 ^ 24 ∧
      (2 ^ 23 ≤ x / 2 ^ (keptExponent m e - e).toNat ∨ keptExponent m e = -149) := by
  obtain ⟨hlo, hhi⟩ := h.mantissa_le
  rw [show (ExtendedMantissa.ofMantissaAndAccuracy m acc).mantissa = m by
    unfold ExtendedMantissa.ofMantissaAndAccuracy; split <;> rfl] at hlo hhi
  have hpos : (0 : ℚ) < 2 ^ (keptExponent m e - e).toNat := by positivity
  rw [div_lt_iff₀ hpos, le_div_iff₀ hpos, ← pow_add, ← pow_add]
  have hkept : keptExponent m e = m.log2 + 1 + e - 24 ∨ keptExponent m e = -149 := by
    unfold keptExponent
    omega
  have hatLeast : m.log2 + 1 + e - 24 ≤ keptExponent m e := le_max_left _ _
  -- above and below by the number of bits, which the whole part already has
  refine ⟨?_, ?_⟩
  · have hbits : m + 1 ≤ 2 ^ (24 + (keptExponent m e - e).toNat) :=
      Nat.lt_log2_self.trans_le (Nat.pow_le_pow_right two_pos (by omega))
    calc x < m + 1 := hhi
      _ ≤ 2 ^ (24 + (keptExponent m e - e).toNat) := by exact_mod_cast hbits
  · refine hkept.imp_left fun hnormal => ?_
    have hm : m ≠ 0 := by
      rintro rfl
      rw [Nat.log2_zero] at hnormal
      omega
    have hbits : 2 ^ (23 + (keptExponent m e - e).toNat) ≤ m := by
      rw [show 23 + (keptExponent m e - e).toNat = m.log2 by omega]
      exact Nat.log2_self_le hm
    calc (2 : ℚ) ^ (23 + (keptExponent m e - e).toNat) ≤ m := by exact_mod_cast hbits
      _ ≤ x := hlo

/-- The number is the one of single precision that is nearest to `q`. -/
structure Rounded (z : Float32) (q : ℚ) : Prop where
  not_isNaN : z.isNaN = false
  nearest : Nearest q (value z)

/-- Rounding is a matter of what is unpacked again. -/
theorem rounded_of_unpack {x : UnpackedFloat} {q : ℚ}
    (hnan : (Float32.Model.pack x).unpack ≠ .notANumber)
    (h : Nearest q (worth (Float32.Model.pack x).unpack)) : Rounded (.ofModel (.pack x)) q :=
  ⟨isNaN_eq_false_iff.mpr hnan, h⟩

/-- **What is rounded is nearest.** The number before has the value `x * 2 ^ e`. -/
theorem rounded_roundWithAccuracy (s : Sign) {m : ℕ} {e : ℤ} (acc : Accuracy) {x : ℚ}
    (h : Marks (.ofMantissaAndAccuracy m acc) x) (he : e ≤ keptExponent m e) :
    Rounded (.ofModel (.pack (roundWithAccuracy Format.binary32 s m e acc)))
      (factor s * (x * 2 ^ e)) := by
  obtain ⟨hlt, hfull⟩ := h.kept he
  have hleast : -149 ≤ keptExponent m e := le_max_right _ _
  have hhalf := (h.shiftRight (keptExponent m e - e).toNat).abs_sub_le
  generalize hrounded : (ExtendedMantissa.ofMantissaAndAccuracy m acc >>>
    (keptExponent m e - e).toNat).roundedMantissa = rounded at hhalf
  have hmost := rounded_le hhalf hlt
  have hvalue : x / 2 ^ (keptExponent m e - e).toNat * 2 ^ keptExponent m e = x * 2 ^ e := by
    have hunit : (2 : ℚ) ^ keptExponent m e = 2 ^ (keptExponent m e - e).toNat * 2 ^ e := by
      rw [← zpow_natCast, ← zpow_add₀ two_ne_zero]
      congr 1
      omega
    rw [hunit, ← mul_assoc, div_mul_cancel₀ _ (by positivity)]
  have hnearest := nearest_of_units hhalf hlt hleast hfull
  rw [hvalue] at hnearest
  rw [roundWithAccuracy_eq s he hrounded hmost]
  have hsigned := hnearest.signed s
  -- the three results of rounding, each with its own packed form
  by_cases hzero : rounded = 0
  · rw [hzero, Nat.cast_zero, zero_mul, min_eq_left (by positivity), mul_zero] at hsigned
    rw [dif_pos hzero]
    exact rounded_of_unpack (by rw [unpack_pack (.zero s)]; nofun)
      (by rw [unpack_pack (.zero s)]; exact hsigned)
  rw [dif_neg hzero]
  by_cases hlong : rounded = 2 ^ 24
  · obtain ⟨hnan, hworth⟩ := worth_pack_finite s (m := 2 ^ 23) (e := keptExponent m e + 1)
      (by norm_num) (by norm_num) (by omega) (.inl le_rfl)
    have hsame : ((2 ^ 23 : ℕ) : ℚ) * 2 ^ (keptExponent m e + 1) =
        rounded * 2 ^ keptExponent m e := by
      rw [hlong, zpow_add_one₀ two_ne_zero]
      push_cast
      ring
    rw [if_pos hlong]
    exact rounded_of_unpack hnan (by rw [hworth, hsame]; exact hsigned)
  · obtain ⟨hnan, hworth⟩ := worth_pack_finite s (e := keptExponent m e)
      (Nat.pos_of_ne_zero hzero) (by omega) hleast (hfull.imp_left (le_rounded hhalf))
    rw [if_neg hlong]
    exact rounded_of_unpack hnan (by rw [hworth]; exact hsigned)

end PulseTrain.Single
