import PulseTrain.Proofs.Single.Arithmetic

/-!
# Exact fractions

Single precision has 24 bits, so that a number of units of `2 ^ (-23)` is exact up to two, and so
are sums and differences of such numbers that stay there. This is what an accumulator needs that
never comes to two.

* **`InUnits`**: the number is that many units of `2 ^ (-23)`.
* **`InUnits.add`**, **`InUnits.sub_one`**: no sum and no difference up to two is rounded.
* **`InUnits.lt_one_iff`**: the comparison with one is that of the units.
-/

namespace PulseTrain.Single

/-- The number is so many units of `2 ^ (-23)`. -/
def InUnits (x : Float32) (units : ℕ) : Prop := x.isFinite = true ∧ value x = units / 2 ^ 23

/-- Up to two, a number of units of `2 ^ (-23)` needs no rounding. -/
theorem representable_units {units : ℕ} (h : units ≤ 2 ^ 24) :
    Representable (units / 2 ^ 23 : ℚ) := by
  refine ⟨units, -23, ?_, by norm_num, by norm_num, ?_⟩
  · rw [Nat.abs_cast]
    exact_mod_cast h
  · norm_num
    ring

/-- What is rounded to a number of units is that number, as long as it is not above two. -/
theorem Rounded.inUnits {z : Float32} {units : ℕ} (h : Rounded z (units / 2 ^ 23))
    (hle : units ≤ 2 ^ 24) : InUnits z units := by
  have hexact := h.nearest.eq_of_representable (representable_units hle)
  refine ⟨isFinite_of_abs_lt h.not_isNaN ?_, hexact⟩
  have hle' : (units : ℚ) ≤ 2 ^ 24 := by exact_mod_cast hle
  rw [hexact, abs_of_nonneg (by positivity), div_lt_iff₀ (by positivity)]
  linarith

namespace InUnits

variable {x y : Float32} {a c : ℕ}

/-- A number of units is a number. -/
theorem not_isNaN (h : InUnits x a) : x.isNaN = false := isNaN_of_isFinite h.1

/-- A number that is worth a number of units above zero is finite, and a number. -/
theorem of_value (h : value x = a / 2 ^ 23) (hpos : 0 < a) (hle : a ≤ 2 ^ 24) : InUnits x a := by
  refine ⟨?_, h⟩
  have hpos' : (0 : ℚ) < a := by exact_mod_cast hpos
  have hle' : (a : ℚ) ≤ 2 ^ 24 := by exact_mod_cast hle
  have hvalue : 0 < value x := by rw [h]; positivity
  rw [← Bool.not_eq_false]
  intro hinfinite
  rw [value_of_not_isFinite hinfinite hvalue, eq_div_iff (by positivity)] at h
  linarith

theorem zero : InUnits 0 0 := ⟨rfl, by rw [value_zero, Nat.cast_zero, zero_div]⟩

/-- **A sum up to two is exact.** -/
theorem add (hx : InUnits x a) (hy : InUnits y c) (hle : a + c ≤ 2 ^ 24) :
    InUnits (x + y) (a + c) := by
  have hsum := rounded_add hx.1 hy.1
  rw [hx.2, hy.2, ← add_div, ← Nat.cast_add] at hsum
  exact hsum.inUnits hle

/-- **What is left above one** is exact. -/
theorem sub_one (hx : InUnits x a) (hone : 2 ^ 23 ≤ a) (hle : a ≤ 2 ^ 24) :
    InUnits (x - 1) (a - 2 ^ 23) := by
  have hdifference := rounded_sub (y := 1) hx.1 rfl
  have hunits : (a / 2 ^ 23 - 1 : ℚ) = (a - 2 ^ 23 : ℕ) / 2 ^ 23 := by
    rw [Nat.cast_sub hone]
    push_cast
    ring
  rw [hx.2, value_one, hunits] at hdifference
  exact hdifference.inUnits (by omega)

/-- One is `2 ^ 23` units. -/
theorem lt_one_iff (hx : InUnits x a) : x < 1 ↔ a < 2 ^ 23 := by
  rw [lt_iff hx.not_isNaN rfl, hx.2, value_one, div_lt_one (by positivity)]
  exact_mod_cast Iff.rfl

theorem not_le_zero (hx : InUnits x a) (hpos : 0 < a) : ¬ x ≤ 0 := by
  have hpos' : (0 : ℚ) < a := by exact_mod_cast hpos
  rw [le_zero_iff hx.not_isNaN, hx.2, not_le]
  positivity

end InUnits

end PulseTrain.Single
