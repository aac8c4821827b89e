import PulseTrain.Proofs.Single.Arithmetic

/-!
# Numbers that are not below zero

What is calculated of numbers that are not below zero is none either, as long as nothing is taken
away; and a share of a finite number is finite. `0 ≤ x` says of `x` that it is a number as well,
since nothing is in order with NaN.

* **`InRange`**: finite, and not below zero.
* **`mul_share`**, **`zero_le_div`**, **`zero_le_share_div`**: shares and quotients.
* **`clamp`**, **`value_clamp`**: the larger one of a number and zero.
-/

namespace PulseTrain.Single

variable {x y z : Float32}

/-- Finite, and not below zero. -/
def InRange (x : Float32) : Prop := x.isFinite = true ∧ 0 ≤ x

/-- Numbers that are not below zero, by their values. -/
theorem zero_le_iff : 0 ≤ x ↔ x.isNaN = false ∧ 0 ≤ value x := by
  constructor
  · intro h
    have hnan := (isNaN_of_le h).2
    rw [le_iff rfl hnan, value_zero] at h
    exact ⟨hnan, h⟩
  · rintro ⟨hnan, h⟩
    rwa [le_iff rfl hnan, value_zero]

theorem value_pos (h : 0 < x) : 0 < value x := by
  rwa [lt_iff rfl (isNaN_of_lt h).2, value_zero] at h

theorem InRange.value_nonneg (h : InRange x) : 0 ≤ value x := (zero_le_iff.mp h.2).2

/-- A share of a finite number is finite, and has its sign. -/
theorem mul_share (hx : x.isFinite = true) (hy : y.isFinite = true) (hpos : 0 < value y)
    (hle : value y ≤ 1) :
    (x * y).isFinite = true ∧ (0 ≤ value x → 0 ≤ value (x * y)) ∧
      (value x ≤ 0 → value (x * y) ≤ 0) := by
  have hproduct := rounded_mul hx hy
  obtain ⟨hlo, hhi⟩ := abs_lt.mp (abs_value_lt hx)
  -- on either side of zero a share lies between zero and the number, and rounding does not pass
  -- them
  rcases le_total 0 (value x) with hsign | hsign
  · have hshare := hproduct.value_le (x := x) (mul_le_of_le_one_right hsign hle)
    have hnonneg := hproduct.value_nonneg (mul_nonneg hsign hpos.le)
    refine ⟨isFinite_of_abs_lt hproduct.not_isNaN ?_, fun _ => hnonneg, fun hnonpos => ?_⟩
    · exact abs_lt.mpr ⟨by linarith, by linarith⟩
    · linarith
  · have hshare := hproduct.le_value (x := x) (by nlinarith)
    have hnonpos : value (x * y) ≤ 0 := hproduct.value_le (x := 0) (by rw [value_zero]; nlinarith)
    refine ⟨isFinite_of_abs_lt hproduct.not_isNaN ?_, fun hnonneg => ?_, fun _ => hnonpos⟩
    · exact abs_lt.mpr ⟨by linarith, by linarith⟩
    · apply hproduct.value_nonneg
      apply mul_nonneg hnonneg hpos.le

/-- A quotient may be infinite, but it is a number. -/
theorem zero_le_div (hx : x.isFinite = true) (hx' : 0 ≤ value x) (hy : y.isFinite = true)
    (hpos : 0 < value y) : 0 ≤ x / y := by
  have hquotient := rounded_div hx hy hpos.ne'
  exact zero_le_iff.mpr ⟨hquotient.not_isNaN, hquotient.value_nonneg (div_nonneg hx' hpos.le)⟩

/-- A share of a number, infinity included, divided by a number above zero. -/
theorem zero_le_share_div (hx : 0 ≤ x) (hy : y.isFinite = true) (hpos : 0 < value y)
    (hle : value y ≤ 1) (hz : z.isFinite = true) (hz' : 0 < value z) : 0 ≤ x * y / z := by
  cases hfinite : x.isFinite with
  | true =>
    obtain ⟨hproduct, hsign, -⟩ := mul_share hfinite hy hpos hle
    exact zero_le_div hproduct (hsign (zero_le_iff.mp hx).2) hz hz'
  | false =>
    rwa [mul_of_not_isFinite_left hfinite hy hpos, div_of_not_isFinite_left hfinite hz hz']

/-- The number itself where it is above zero, and zero else. -/
def clamp (x : Float32) : Float32 := if x ≤ 0 then 0 else x

/-- To put a number that is not above zero to zero is to take the larger of the two. -/
theorem value_clamp (hx : x.isNaN = false) :
    (clamp x).isNaN = false ∧ value (clamp x) = max (value x) 0 := by
  unfold clamp
  split
  · rename_i hle
    rw [le_zero_iff hx] at hle
    exact ⟨rfl, by rw [value_zero, max_eq_right hle]⟩
  · rename_i hgt
    rw [le_zero_iff hx, not_le] at hgt
    exact ⟨hx, by rw [max_eq_left hgt.le]⟩

end PulseTrain.Single
