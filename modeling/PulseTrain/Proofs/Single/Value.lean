import PulseTrain.Proofs.Single.Packing

/-!
# The number that a single-precision number stands for

Every single-precision number but NaN stands for a rational number, and the order of the bits is
the order of what they stand for. Infinity is placed at the first power of two that is too large for
a finite number, which keeps it above all of them.

* **`worth`**, **`value`**: the number that is stood for.
* **`lt_iff`**, **`le_iff`**, **`beq_iff`**: comparison is that of the values; **`isNaN_of_lt`**,
  **`isNaN_of_le`**: nothing is in order with NaN.
* **`eq_of_value_eq`**: no two numbers share a value, zero apart.
-/

namespace PulseTrain.Single

open Float.Model (Format UnpackedFloat)
open Float.Model.UnpackedFloat (Sign)

def factor : Sign → ℚ
  | .negative => -1
  | .positive => 1

/-- The number that an unpacked number stands for. Infinity counts as the first power of two that
is too large for a finite number, and NaN as zero. -/
def worth : UnpackedFloat → ℚ
  | .notANumber => 0
  | .infinity s => factor s * 2 ^ 128
  | .zero _ => 0
  | .finite s m e _ => factor s * (m * 2 ^ e)

/-- The number that a single-precision number stands for. -/
def value (x : Float32) : ℚ := worth x.toModel.unpack

/-! ## The order of kept numbers -/

theorem Kept.pos {m : ℕ} (e : ℤ) (hm : 0 < m) : (0 : ℚ) < m * 2 ^ e := by positivity

/-- The largest finite number is below the first power of two that is too large. -/
theorem Kept.lt_bound {m : ℕ} {e : ℤ} (h : Kept m e) : (m * 2 ^ e : ℚ) < 2 ^ 128 := by
  have hm : (m : ℚ) < 2 ^ 24 := by exact_mod_cast h.lt
  have he : (2 : ℚ) ^ e ≤ 2 ^ (104 : ℤ) := zpow_le_zpow_right₀ (by norm_num) h.most
  calc (m * 2 ^ e : ℚ) < 2 ^ 24 * 2 ^ e := by gcongr
    _ ≤ 2 ^ 24 * 2 ^ (104 : ℤ) := by gcongr
    _ = 2 ^ 128 := by norm_num

/-- A larger exponent makes a larger number, since all bits of its significand are used. -/
theorem Kept.lt_of_exponent_lt {m₁ m₂ : ℕ} {e₁ e₂ : ℤ} (h₁ : Kept m₁ e₁) (h₂ : Kept m₂ e₂)
    (h : e₁ < e₂) : (m₁ * 2 ^ e₁ : ℚ) < m₂ * 2 ^ e₂ := by
  have hm₁ : (m₁ : ℚ) < 2 ^ 24 := by exact_mod_cast h₁.lt
  have hfull : 2 ^ 23 ≤ m₂ := h₂.full.resolve_right (by have := h₁.least; omega)
  have hm₂ : (2 ^ 23 : ℚ) ≤ m₂ := by exact_mod_cast hfull
  calc (m₁ * 2 ^ e₁ : ℚ) < 2 ^ 24 * 2 ^ e₁ := by gcongr
    _ = 2 ^ 23 * 2 ^ (e₁ + 1) := by rw [zpow_add_one₀ (by norm_num)]; ring
    _ ≤ m₂ * 2 ^ e₂ := by
      have hexponent : (2 : ℚ) ^ (e₁ + 1) ≤ 2 ^ e₂ := zpow_le_zpow_right₀ (by norm_num) h
      gcongr

/-- The order of two kept numbers is settled by their exponents, and then by their significands. -/
theorem Kept.cmp_eq {m₁ m₂ : ℕ} {e₁ e₂ : ℤ} (h₁ : Kept m₁ e₁) (h₂ : Kept m₂ e₂) :
    cmp (m₁ * 2 ^ e₁ : ℚ) (m₂ * 2 ^ e₂) = (compare e₁ e₂).then (compare m₁ m₂) := by
  -- the significands matter only where the exponents are the same
  rcases lt_trichotomy e₁ e₂ with hlt | rfl | hgt
  · rw [Int.compare_eq_lt.mpr hlt]
    exact (h₁.lt_of_exponent_lt h₂ hlt).cmp_eq_lt
  · have hpos : (0 : ℚ) < 2 ^ e₁ := by positivity
    rw [Int.compare_eq_eq.mpr rfl, cmp_mul_pos_right hpos,
      (Nat.strictMono_cast (α := ℚ)).cmp_map_eq, cmp_eq_compare]
    rfl
  · rw [Int.compare_eq_gt.mpr hgt]
    exact (h₂.lt_of_exponent_lt h₁ hgt).cmp_eq_gt

/-- The two ways in which a comparison is settled by the values. -/
theorem some_lt_eq_cmp {x y : ℚ} (h : x < y) : some Ordering.lt = some (cmp x y) := by
  rw [h.cmp_eq_lt]

theorem some_gt_eq_cmp {x y : ℚ} (h : y < x) : some Ordering.gt = some (cmp x y) := by
  rw [h.cmp_eq_gt]

/-- **The order of canonical numbers is that of the numbers that they stand for.** -/
theorem compare_eq {a b : UnpackedFloat} (ha : Canonical a) (hb : Canonical b)
    (hna : a ≠ .notANumber) (hnb : b ≠ .notANumber) :
    a.compare b = some (cmp (worth a) (worth b)) := by
  have hbound : (0 : ℚ) < 2 ^ 128 := by positivity
  -- form against form: the sign settles what the size does not, and infinity is above all finite
  -- numbers by its bound
  cases ha with
  | nan => exact absurd rfl hna
  | infinity s =>
    cases hb with
    | nan => exact absurd rfl hnb
    | infinity s' =>
      cases s <;> cases s'
      · exact congrArg some (cmp_self_eq_eq _).symm
      · exact some_lt_eq_cmp (by simp only [worth, factor]; linarith)
      · exact some_gt_eq_cmp (by simp only [worth, factor]; linarith)
      · exact congrArg some (cmp_self_eq_eq _).symm
    | zero s' =>
      cases s
      · exact some_lt_eq_cmp (by simp only [worth, factor]; linarith)
      · exact some_gt_eq_cmp (by simp only [worth, factor]; linarith)
    | @finite s' m e hm h =>
      have hpos := Kept.pos e hm
      have hlt := h.lt_bound
      cases s
      · exact some_lt_eq_cmp (by cases s' <;> simp only [worth, factor] <;> linarith)
      · exact some_gt_eq_cmp (by cases s' <;> simp only [worth, factor] <;> linarith)
  | zero s =>
    cases hb with
    | nan => exact absurd rfl hnb
    | infinity s' =>
      cases s'
      · exact some_gt_eq_cmp (by simp only [worth, factor]; linarith)
      · exact some_lt_eq_cmp (by simp only [worth, factor]; linarith)
    | zero s' => exact congrArg some (cmp_self_eq_eq (0 : ℚ)).symm
    | @finite s' m e hm h =>
      have hpos := Kept.pos e hm
      cases s'
      · exact some_gt_eq_cmp (by simp only [worth, factor]; linarith)
      · exact some_lt_eq_cmp (by simp only [worth, factor]; linarith)
  | @finite s m e hm h =>
    have hpos := Kept.pos e hm
    have hlt := h.lt_bound
    cases hb with
    | nan => exact absurd rfl hnb
    | infinity s' =>
      cases s'
      · exact some_gt_eq_cmp (by cases s <;> simp only [worth, factor] <;> linarith)
      · exact some_lt_eq_cmp (by cases s <;> simp only [worth, factor] <;> linarith)
    | zero s' =>
      cases s
      · exact some_lt_eq_cmp (by simp only [worth, factor]; linarith)
      · exact some_gt_eq_cmp (by simp only [worth, factor]; linarith)
    | @finite s' m' e' hm' h' =>
      have hpos' := Kept.pos e' hm'
      cases s <;> cases s'
      · -- below zero the order of the sizes is turned round
        simp only [worth, factor, neg_one_mul, UnpackedFloat.compare]
        rw [← h.cmp_eq h', cmp_swap]
        have hneg : StrictAnti fun q : ℚ => -q := fun _ _ hlt => neg_lt_neg hlt
        exact congrArg some (hneg.cmp_map_eq _ _).symm
      · exact some_lt_eq_cmp (by simp only [worth, factor]; linarith)
      · exact some_gt_eq_cmp (by simp only [worth, factor]; linarith)
      · simp only [worth, factor, one_mul, UnpackedFloat.compare]
        rw [← h.cmp_eq h']

/-! ## The order of single-precision numbers -/

variable {x y : Float32}

/-- The test for NaN by the unpacked form. -/
theorem isNaN_eq_false_iff : x.isNaN = false ↔ x.toModel.unpack ≠ .notANumber := by
  rw [← Bool.not_eq_true, ne_eq, ← UnpackedFloat.isNaN_iff]
  rfl

/-- NaN does not count as finite. -/
theorem isNaN_of_isFinite (h : x.isFinite = true) : x.isNaN = false := by
  rw [isNaN_eq_false_iff]
  intro hnan
  have hfinite : x.toModel.unpack.isFinite = true := h
  rw [hnan] at hfinite
  cases hfinite

/-- The comparison that stands behind the order. -/
theorem lt_iff_compare : x < y ↔ x.toModel.unpack.compare y.toModel.unpack = some .lt := by
  have hlt : x < y ↔ (x.toModel.unpack.compare y.toModel.unpack == some .lt) = true :=
    decide_eq_true_iff
  rw [hlt, beq_iff_eq]

theorem le_iff_compare :
    x ≤ y ↔ (x.toModel.unpack.compare y.toModel.unpack).any (·.isLE) = true :=
  decide_eq_true_iff

/-- **The order is that of the values.** -/
theorem lt_iff (hx : x.isNaN = false) (hy : y.isNaN = false) : x < y ↔ value x < value y := by
  rw [lt_iff_compare, compare_eq (canonical_unpack x) (canonical_unpack y)
    (isNaN_eq_false_iff.mp hx) (isNaN_eq_false_iff.mp hy), Option.some.injEq]
  exact cmp_eq_lt_iff _ _

/-- The order that allows for equality is that of the values, too. -/
theorem le_iff (hx : x.isNaN = false) (hy : y.isNaN = false) : x ≤ y ↔ value x ≤ value y := by
  rw [le_iff_compare, compare_eq (canonical_unpack x) (canonical_unpack y)
    (isNaN_eq_false_iff.mp hx) (isNaN_eq_false_iff.mp hy), Option.any_some, Ordering.isLE_iff_ne_gt,
    cmp_eq_gt_iff, not_lt]
  rfl

/-- Numbers compare as equal where their values are: zeros with either sign do. -/
theorem beq_iff (hx : x.isNaN = false) (hy : y.isNaN = false) :
    (x == y) = true ↔ value x = value y := by
  have hcompare : (x == y) = true ↔
      (x.toModel.unpack.compare y.toModel.unpack == some .eq) = true := Iff.rfl
  rw [hcompare, compare_eq (canonical_unpack x) (canonical_unpack y) (isNaN_eq_false_iff.mp hx)
    (isNaN_eq_false_iff.mp hy), beq_iff_eq, Option.some.injEq]
  exact cmp_eq_eq_iff _ _

/-- Numbers that compare as equal are the same, zeros apart. -/
theorem eq_of_compare_eq {a b : UnpackedFloat} (h : a.compare b = some .eq) (ha : worth a ≠ 0) :
    a = b := by
  have hbeq : a.beq b = true := by
    rw [UnpackedFloat.beq, h]
    rfl
  obtain ⟨-, -, hsame | ⟨rfl, -⟩ | ⟨rfl, -⟩⟩ :=
    (UnpackedFloat.beq_iff_ne_notANumber_and_eq a b).mp hbeq
  · exact hsame
  · exact absurd rfl ha
  · exact absurd rfl ha

/-- **No two numbers share a value**, zero apart. -/
theorem eq_of_value_eq (hx : x.isNaN = false) (hy : y.isNaN = false) (h : value x = value y)
    (hne : value x ≠ 0) : x = y := by
  refine eq_of_unpack_eq (eq_of_compare_eq ?_ hne)
  rw [compare_eq (canonical_unpack x) (canonical_unpack y) (isNaN_eq_false_iff.mp hx)
    (isNaN_eq_false_iff.mp hy), Option.some.injEq]
  exact cmp_eq_eq_iff _ _ |>.mpr h

/-- Nothing is compared with NaN. -/
theorem compare_nan_left (a : UnpackedFloat) : UnpackedFloat.notANumber.compare a = none := rfl

theorem compare_nan_right (a : UnpackedFloat) : a.compare .notANumber = none := by
  cases a <;> rfl

/-- **What is in order is a number**, on both sides. -/
theorem isNaN_of_lt (h : x < y) : x.isNaN = false ∧ y.isNaN = false := by
  rw [lt_iff_compare] at h
  rw [isNaN_eq_false_iff, isNaN_eq_false_iff]
  -- NaN on either side leaves nothing to compare
  refine ⟨fun hnan => ?_, fun hnan => ?_⟩
  · rw [hnan, compare_nan_left] at h
    cases h
  · rw [hnan, compare_nan_right] at h
    cases h

/-- What is comparable with equality allowed is no NaN on either side. -/
theorem isNaN_of_le (h : x ≤ y) : x.isNaN = false ∧ y.isNaN = false := by
  rw [le_iff_compare] at h
  rw [isNaN_eq_false_iff, isNaN_eq_false_iff]
  refine ⟨fun hnan => ?_, fun hnan => ?_⟩
  · rw [hnan, compare_nan_left] at h
    cases h
  · rw [hnan, compare_nan_right] at h
    cases h

end PulseTrain.Single
