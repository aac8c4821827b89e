import PulseTrain.Proofs.Single.Range
import PulseTrain.Proofs.Single.Ratio

/-!
# Products and quotients in order

Two numbers of single precision that differ do so by one part in `2 ^ 24` at least, which is as much
as what lies between one and the next number below it. So a quotient is rounded to below one exactly
where it is below one. And products and quotients keep the order of what is multiplied or divided,
for a rounding that goes either way between two numbers is the same one for the same numbers.

* **`gap_of_lt`**: how far two numbers are apart.
* **`value_div_lt_one_iff`**: which quotients are below one; **`toUInt32_eq_zero_iff`**: which
  numbers count as none.
* **`value_mul_le`**, **`value_div_le`**: products and quotients keep the order;
  **`share_div_le`**, **`ratio_le_ratio`**: so do shares and ratios of counts.
-/

namespace PulseTrain.Single

variable {x y z w : Float32}

/-! ## Neighbours -/

/-- **Two numbers are apart** by one part in `2 ^ 24` at least. -/
theorem gap_of_lt {c q : ℚ} (hc : Representable c) (hq : Representable q) (hlt : c < q) :
    q ≤ 2 ^ 24 * (q - c) := by
  obtain ⟨j, e, hj, -, -, rfl⟩ := hc
  obtain ⟨k, e', hk, -, -, rfl⟩ := hq
  have hj' := (abs_le.mp hj).2
  have hk' := (abs_le.mp hk).2
  by_cases hfine : e' ≤ e
  · -- the smaller one is a number of units of the larger one
    have hunit : (0 : ℚ) < 2 ^ e' := by positivity
    rw [units_of_le j hfine] at hlt ⊢
    generalize j * 2 ^ (e - e').toNat = i at hlt ⊢
    have hlt' : i < k := by exact_mod_cast lt_of_mul_lt_mul_right hlt hunit.le
    have hle : k ≤ 2 ^ 24 * (k - i) := by omega
    calc (k * 2 ^ e' : ℚ) ≤ (2 ^ 24 * (k - i) : ℤ) * 2 ^ e' := by gcongr
      _ = 2 ^ 24 * (k * 2 ^ e' - i * 2 ^ e') := by push_cast; ring
  · -- the larger one is an even number of units of the smaller one
    have hunit : (0 : ℚ) < 2 ^ e := by positivity
    have hnext : (2 : ℚ) ^ (e + 1) = 2 * 2 ^ e := by rw [zpow_add_one₀ two_ne_zero]; ring
    rw [units_of_le k (show e + 1 ≤ e' by omega), hnext] at hlt ⊢
    generalize k * 2 ^ (e' - (e + 1)).toNat = i at hlt ⊢
    have hlt' : j < 2 * i := by
      have hunits : (j * 2 ^ e : ℚ) < (2 * i : ℤ) * 2 ^ e := by push_cast; linarith
      exact_mod_cast lt_of_mul_lt_mul_right hunits hunit.le
    have hle : 2 * i ≤ 2 ^ 24 * (2 * i - j) := by omega
    calc (i * (2 * 2 ^ e) : ℚ) = (2 * i : ℤ) * 2 ^ e := by push_cast; ring
      _ ≤ (2 ^ 24 * (2 * i - j) : ℤ) * 2 ^ e := by gcongr
      _ = 2 ^ 24 * (i * (2 * 2 ^ e) - j * 2 ^ e) := by push_cast; ring

/-! ## Quotients around one -/

/-- The number next below one. -/
theorem representable_belowOne : Representable (1 - 1 / 2 ^ 24) :=
  ⟨2 ^ 24 - 1, -24, by norm_num, by norm_num, by norm_num, by norm_num⟩

/-- **A quotient is rounded to below one exactly where it is below one.** -/
theorem value_div_lt_one_iff (hx : x.isFinite = true) (hy : y.isFinite = true)
    (hpos : 0 < value y) : value (x / y) < 1 ↔ value x < value y := by
  have hquotient := rounded_div hx hy hpos.ne'
  constructor
  · intro hlt
    by_contra hge
    have hone := hquotient.le_value (x := 1) (by
      rw [value_one]
      exact (one_le_div hpos).mpr (not_lt.mp hge))
    rw [value_one] at hone
    linarith
  · intro hlt
    -- numbers in order are apart, so the quotient is not above the number next below one
    have hgap := gap_of_lt (representable_value x) (representable_value y) hlt
    have hle : value x / value y ≤ 1 - 1 / 2 ^ 24 := by
      rw [div_le_iff₀ hpos]
      linarith
    have hbelow := hquotient.nearest.ge_of_ge representable_belowOne hle
    linarith

/-- A number counts as none exactly where it is below one. -/
theorem toUInt32_eq_zero_iff (hnan : x.isNaN = false) (h : 0 ≤ value x) :
    x.toUInt32 = 0 ↔ value x < 1 := by
  have hcount := toNat_toUInt32 hnan h
  rw [← Nat.floor_eq_zero, ← UInt32.toNat_inj, hcount]
  show min _ _ = 0 ↔ _
  omega

/-! ## Order -/

/-- Zero is exact. -/
theorem value_eq_zero_of_rounded (h : Rounded z 0) : value z = 0 := by
  rw [← value_zero] at h
  exact h.value_eq

/-- **Products keep the order** of what is multiplied with a number that is not below zero. -/
theorem value_mul_le (hx : x.isFinite = true) (hx' : 0 ≤ value x) (hy : y.isFinite = true)
    (hz : z.isFinite = true) (hle : value y ≤ value z) : value (x * y) ≤ value (x * z) := by
  have hproduct := rounded_mul hx hy
  have hproduct' := rounded_mul hx hz
  rcases hx'.eq_or_lt with hzero | hpos
  · rw [← hzero, zero_mul] at hproduct hproduct'
    rw [value_eq_zero_of_rounded hproduct, value_eq_zero_of_rounded hproduct']
  -- equal values are equal numbers, zeros apart, which need not have the same sign
  rcases hle.eq_or_lt with hsame | hlt
  · by_cases hzero : value y = 0
    · rw [hzero, mul_zero] at hproduct
      rw [← hsame, hzero, mul_zero] at hproduct'
      rw [value_eq_zero_of_rounded hproduct, value_eq_zero_of_rounded hproduct']
    · rw [eq_of_value_eq (isNaN_of_isFinite hy) (isNaN_of_isFinite hz) hsame hzero]
  · exact hproduct.nearest.le_of_lt hproduct'.nearest (mul_lt_mul_of_pos_left hlt hpos)

/-- **Quotients keep the order** of what is divided by a number above zero. -/
theorem value_div_le (hx : x.isFinite = true) (hx' : 0 < value x) (hy : y.isFinite = true)
    (hz : z.isFinite = true) (hle : value y ≤ value z) : value (y / x) ≤ value (z / x) := by
  have hquotient := rounded_div hy hx hx'.ne'
  have hquotient' := rounded_div hz hx hx'.ne'
  rcases hle.eq_or_lt with hsame | hlt
  · by_cases hzero : value y = 0
    · rw [hzero, zero_div] at hquotient
      rw [← hsame, hzero, zero_div] at hquotient'
      rw [value_eq_zero_of_rounded hquotient, value_eq_zero_of_rounded hquotient']
    · rw [eq_of_value_eq (isNaN_of_isFinite hy) (isNaN_of_isFinite hz) hsame hzero]
  · exact hquotient.nearest.le_of_lt hquotient'.nearest (div_lt_div_of_pos_right hlt hx')

/-- Shares of a number, divided by a number above zero, are in the order of the shares. -/
theorem share_div_le (hx : 0 ≤ x) (hy : y.isFinite = true) (hpos : 0 < value y)
    (hw : w.isFinite = true) (hle : value y ≤ value w) (hone : value w ≤ 1)
    (hz : z.isFinite = true) (hz' : 0 < value z) : value (x * y / z) ≤ value (x * w / z) := by
  have hpos' := hpos.trans_le hle
  cases hfinite : x.isFinite with
  | true =>
    have hproduct := (mul_share hfinite hy hpos (hle.trans hone)).1
    have hproduct' := (mul_share hfinite hw hpos' hone).1
    exact value_div_le hz hz' hproduct hproduct'
      (value_mul_le hfinite (zero_le_iff.mp hx).2 hy hw hle)
  | false =>
    -- an infinite rate is as high for every share
    rw [mul_of_not_isFinite_left hfinite hy hpos, mul_of_not_isFinite_left hfinite hw hpos']

/-- Ratios of counts keep the order of their parts. -/
theorem ratio_le_ratio {whole part part' : UInt32} (hwhole : whole ≠ 0) (hle : part ≤ part') :
    value (1 / whole.toFloat32 * part.toFloat32) ≤ value (1 / whole.toFloat32 * part'.toFloat32) := by
  obtain ⟨hfinite, hlo, -⟩ := inverse_mem hwhole
  have hnonneg : 0 ≤ value (1 / whole.toFloat32) := hlo.trans' (by positivity)
  exact value_mul_le hfinite hnonneg (toFloat32_isFinite part) (toFloat32_isFinite part')
    (value_toFloat32_le hle)

end PulseTrain.Single
