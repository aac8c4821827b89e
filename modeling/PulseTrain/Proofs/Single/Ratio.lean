import PulseTrain.Proofs.Single.Arithmetic

/-!
# Ratios of counts

The share of a slot is calculated from two counts in four roundings: both counts are converted, the
larger one is inverted, and the inverse is multiplied with the smaller one. None of them lets the
share come above one, though the inverse may be above the exact one.

* **`Nearest.le_of_lt`**: rounding keeps the order of numbers, whichever way ties go.
* **`Nearest.le_one`**: what is above one by less than half a unit is not rounded to above it.
* **`inverse_mul_lt`**: a rounded inverse comes that close to the exact one.
* **`ratio_le_one`**: a ratio of counts is at most one.
-/

namespace PulseTrain.Single

/-! ## Rounding keeps the order -/

/-- A number that is rounded up does not lie below the middle. -/
theorem Nearest.mid_le {q z w : ℚ} (h : Nearest q z) (hw : Representable w) (hlt : w < z) :
    w + z ≤ 2 * q := by
  by_contra hlow
  have hclosest := h.closest w hw
  have hdown : |q - z| = z - q := by rw [abs_sub_comm]; exact abs_of_pos (by linarith)
  have hcloser : |q - w| < z - q := abs_lt.mpr ⟨by linarith, by linarith⟩
  linarith

/-- **Rounding keeps the order.** Were the results the other way round, their middle would lie
between the two numbers the wrong way. -/
theorem Nearest.le_of_lt {q q' z z' : ℚ} (h : Nearest q z) (h' : Nearest q' z') (hlt : q < q') :
    z ≤ z' := by
  by_contra hgt
  have hlow := h.mid_le h'.representable (not_le.mp hgt)
  have hhigh := h'.neg.mid_le h.neg.representable (neg_lt_neg (not_le.mp hgt))
  linarith

/-- Counts keep their order as numbers, those included that are rounded. -/
theorem value_toFloat32_le {part whole : UInt32} (h : part ≤ whole) :
    value part.toFloat32 ≤ value whole.toFloat32 := by
  rcases UInt32.le_iff_lt_or_eq.mp h with hlt | rfl
  · have hlt' : (part.toNat : ℚ) < whole.toNat := by exact_mod_cast UInt32.lt_iff_toNat_lt.mp hlt
    exact (rounded_toFloat32 part).nearest.le_of_lt (rounded_toFloat32 whole).nearest hlt'
  · exact le_rfl

/-! ## Around one -/

/-- Above one, the next number is one unit of `2 ^ (-23)` away. -/
theorem Representable.le_one_of_lt {q : ℚ} (h : Representable q) (hlt : q < 1 + 1 / 2 ^ 23) :
    q ≤ 1 := by
  obtain ⟨k, e, hk, -, -, rfl⟩ := h
  by_contra hgt
  rw [not_le] at hgt
  -- a finer unit does not reach so far
  have hcoarse : -23 ≤ e := by
    by_contra hfine
    have hle : (k : ℚ) * 2 ^ e ≤ 2 ^ 23 * 2 ^ (-23 : ℤ) := finer_le hk (by omega)
    norm_num at hle
    linarith
  have hunit : (2 : ℚ) ^ (-23 : ℤ) = 1 / 2 ^ 23 := by norm_num
  rw [units_of_le k hcoarse, hunit] at hlt hgt
  generalize k * 2 ^ (e - -23).toNat = i at hlt hgt
  have hlo : (2 ^ 23 : ℤ) < i := by
    have : ((2 ^ 23 : ℤ) : ℚ) < i := by push_cast; linarith
    exact_mod_cast this
  have hhi : i < (2 ^ 23 + 1 : ℤ) := by
    have : (i : ℚ) < (2 ^ 23 + 1 : ℤ) := by push_cast; linarith
    exact_mod_cast this
  omega

/-- What is above one by less than half a unit is rounded to one at most. -/
theorem Nearest.le_one {q z : ℚ} (h : Nearest q z) (hlt : q < 1 + 1 / 2 ^ 24) : z ≤ 1 := by
  have hone : Representable 1 := by rw [← value_one]; exact representable_value 1
  by_cases hle : q ≤ 1
  · exact h.ge_of_ge hone hle
  · apply h.representable.le_one_of_lt
    have hclosest := h.closest 1 hone
    rw [abs_of_pos (show 0 < q - 1 by linarith)] at hclosest
    linarith [(abs_le.mp hclosest).1]

/-- **A rounded inverse** times the number is above one by less than half a unit: the number and its
inverse have opposite exponents, so that the half unit of one makes up for the size of the other. -/
theorem inverse_mul_lt {c z : ℚ} (hlo : 1 ≤ c) (hhi : c ≤ 2 ^ 32) (h : Nearest (1 / c) z) :
    z * c < 1 + 1 / 2 ^ 24 := by
  have hpos : 0 < c := by linarith
  -- the number lies between two powers of two, and its inverse between theirs
  obtain ⟨k, hk, hk'⟩ := exists_mem_Ico_zpow hpos one_lt_two
  have hleast : 0 ≤ k := by
    by_contra hneg
    have hle : (2 : ℚ) ^ (k + 1) ≤ 2 ^ (0 : ℤ) := zpow_le_zpow_right₀ (by norm_num) (by omega)
    rw [zpow_zero] at hle
    linarith
  have hmost : k ≤ 32 := by
    by_contra hlarge
    have hle : (2 : ℚ) ^ (33 : ℤ) ≤ 2 ^ k := zpow_le_zpow_right₀ (by norm_num) (by omega)
    norm_num at hle
    linarith
  have hunit : (0 : ℚ) < 2 ^ k := by positivity
  have hfine : (2 : ℚ) ^ (-k - 24) = 1 / 2 ^ k / 2 ^ 24 := by
    rw [zpow_sub₀ two_ne_zero, zpow_neg]
    norm_num
  have hinverse : 1 / c ≤ 1 / 2 ^ k := one_div_le_one_div_of_le hunit hk
  have herror := h.abs_sub_le_half (e := -k - 24) (by omega) (by omega) (by
    rw [abs_of_pos (by positivity), hfine]
    linarith)
  rw [hfine, abs_sub_comm] at herror
  have hle : z ≤ 1 / c + 1 / 2 ^ k / 2 ^ 24 / 2 := by linarith [(abs_le.mp herror).2]
  have hnext : (2 : ℚ) ^ (k + 1) = 2 * 2 ^ k := by rw [zpow_add_one₀ two_ne_zero]; ring
  -- the error of the inverse is half a unit, which the number makes larger by less than two
  calc z * c ≤ (1 / c + 1 / 2 ^ k / 2 ^ 24 / 2) * c := by gcongr
    _ = 1 + c / 2 ^ k / 2 ^ 25 := by field_simp
    _ < 1 + 1 / 2 ^ 24 := by
      have hsize : c / 2 ^ k < 2 := by rw [div_lt_iff₀ hunit]; linarith
      linarith

/-! ## Ratios -/

/-- No count is too large. -/
theorem toFloat32_isFinite (count : UInt32) : count.toFloat32.isFinite = true := by
  by_cases hzero : count = 0
  · rw [hzero]
    rfl
  · exact (toFloat32_mem hzero).1

/-- **A ratio of counts is at most one**, where the part is not more than the whole. -/
theorem ratio_le_one {whole part : UInt32} (hwhole : whole ≠ 0) (hle : part ≤ whole) :
    value (1 / whole.toFloat32 * part.toFloat32) ≤ 1 := by
  obtain ⟨hfinite, hlo, hhi⟩ := toFloat32_mem hwhole
  have hpart := value_toFloat32_le hle
  obtain ⟨hinverseFinite, hinverseLo, -⟩ := inverse_mem hwhole
  have hnonneg : 0 ≤ value (1 / whole.toFloat32) := hinverseLo.trans' (by positivity)
  have hinverse := rounded_div (x := 1) rfl hfinite (by linarith)
  rw [value_one] at hinverse
  have hclose := inverse_mul_lt hlo hhi hinverse.nearest
  -- the product is above one by less than half a unit, and so rounded to one at most
  apply (rounded_mul hinverseFinite (toFloat32_isFinite part)).nearest.le_one
  exact (mul_le_mul_of_nonneg_left hpart hnonneg).trans_lt hclose

end PulseTrain.Single
