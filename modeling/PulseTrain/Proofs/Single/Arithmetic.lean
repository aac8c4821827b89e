import PulseTrain.Proofs.Single.Rounding

/-!
# Arithmetic in single precision

Sums, products and quotients of finite numbers are those of the values, rounded once.

* **`rounded_add`**, **`rounded_sub`**, **`rounded_mul`**, **`rounded_div`**: the four operations.
* **`Rounded.le_value`**, **`Rounded.value_le_add`**: order and error of what is rounded.
* **`repack_of_not_isFinite`**: the operations that leave infinity and NaN alone.
* **`rounded_toFloat32`**: a count as a number; **`toNat_toUInt32`**: a number as a count.
* **`rounded_ofInt`**: an integer of any size as a number.
-/

namespace PulseTrain.Single

open Float.Model (Format UnpackedFloat totalExponent)
open Float.Model.UnpackedFloat (Sign Accuracy decreaseExponent divCore
  accuracyOfFraction roundWithAccuracy ExtendedMantissa)

/-! ## Numbers that need no rounding -/

/-- A canonical number is one of single precision, infinity counting as the bound. -/
theorem representable_worth {a : UnpackedFloat} (h : Canonical a) : Representable (worth a) := by
  cases h with
  | nan | zero => exact ⟨0, 0, by norm_num, by norm_num, by norm_num, by simp [worth]⟩
  | infinity s =>
    cases s
    · exact ⟨-2 ^ 24, 104, by norm_num, by norm_num, le_rfl, by norm_num [worth, factor]⟩
    · exact ⟨2 ^ 24, 104, by norm_num, by norm_num, le_rfl, by norm_num [worth, factor]⟩
  | @finite s m e hm h =>
    have hm' : (m : ℤ) ≤ 2 ^ 24 := by exact_mod_cast h.lt.le
    cases s
    · exact ⟨-m, e, by rwa [abs_neg, Nat.abs_cast], h.least, h.most, by
        simp only [worth, factor]; push_cast; ring⟩
    · exact ⟨m, e, by rwa [Nat.abs_cast], h.least, h.most, by
        simp only [worth, factor]; push_cast; ring⟩

/-- A number is one of single precision. -/
theorem representable_value (x : Float32) : Representable (value x) :=
  representable_worth (canonical_unpack x)

theorem Representable.nearest {q : ℚ} (h : Representable q) : Nearest q q :=
  ⟨h, fun w _ => by rw [sub_self, abs_zero]; exact abs_nonneg _⟩

/-- What is canonical needs no rounding. -/
theorem rounded_of_canonical {a : UnpackedFloat} (h : Canonical a) (hnan : a ≠ .notANumber) :
    Rounded (.ofModel (.pack a)) (worth a) :=
  rounded_of_unpack (by rwa [unpack_pack h])
    (by rw [unpack_pack h]; exact (representable_worth h).nearest)

theorem rounded_zero (s : Sign) : Rounded (.ofModel (.pack (.zero s))) 0 :=
  rounded_of_canonical (.zero s) nofun

theorem rounded_finite (s : Sign) {m : ℕ} {e : ℤ} {hm : 0 < m} (h : Kept m e) :
    Rounded (.ofModel (.pack (.finite s m e hm))) (worth (.finite s m e hm)) :=
  rounded_of_canonical (.finite s h) nofun

theorem value_zero : value 0 = 0 := rfl

/-- One is `2 ^ 23` times `2 ^ (-23)`. -/
theorem value_one : value 1 = 1 := by
  show factor .positive * (((2 ^ 23 : ℕ) : ℚ) * 2 ^ (-23 : ℤ)) = 1
  norm_num [factor]

namespace Rounded

variable {x z : Float32} {q : ℚ}

/-- A number that is not above another one is not above what that is rounded to. -/
theorem le_value (h : Rounded z q) (hx : value x ≤ q) : value x ≤ value z :=
  h.nearest.le_of_le (representable_value x) hx

theorem value_le (h : Rounded z q) (hx : q ≤ value x) : value z ≤ value x :=
  h.nearest.ge_of_ge (representable_value x) hx

/-- To round a number of single precision changes nothing. -/
theorem value_eq (h : Rounded z (value x)) : value z = value x :=
  h.nearest.eq_of_representable (representable_value x)

theorem value_nonneg (h : Rounded z q) (hq : 0 ≤ q) : 0 ≤ value z := h.le_value (x := 0) hq

/-- How much larger a number becomes when it is rounded. -/
theorem value_le_add (h : Rounded z q) (hq : 0 ≤ q) (hlt : q < 2 ^ 128) :
    value z ≤ q * (1 + 1 / 2 ^ 24) + 1 / 2 ^ 150 := by
  have herror := h.nearest.abs_sub_le (by rwa [abs_of_nonneg hq])
  rw [abs_of_nonneg hq, abs_sub_comm] at herror
  linarith [(abs_le.mp herror).2]

end Rounded

/-! ## Exponents -/

/-- A significand may be made longer if the exponent is lowered by as much. -/
theorem shiftLeft_mul_zpow (m k : ℕ) (e : ℤ) : ((m <<< k : ℕ) * 2 ^ (e - k) : ℚ) = m * 2 ^ e := by
  rw [Nat.shiftLeft_eq, Nat.cast_mul, mul_assoc]
  push_cast
  rw [← zpow_natCast, ← zpow_add₀ two_ne_zero, add_sub_cancel]

/-- It has so many bits more. -/
theorem log2_shiftLeft {m : ℕ} (hm : m ≠ 0) (k : ℕ) : (m <<< k).log2 = m.log2 + k := by
  have hlo := Nat.log2_self_le hm
  have hhi : m < 2 ^ (m.log2 + 1) := Nat.lt_log2_self
  have hpos : 0 < 2 ^ k := by positivity
  rw [Nat.shiftLeft_eq, Nat.log2_eq_iff (by positivity), pow_add, add_right_comm, pow_add _ _ k]
  exact ⟨Nat.mul_le_mul_right _ hlo, Nat.mul_lt_mul_of_pos_right hhi hpos⟩

/-- A significand and an exponent of any size are rounded to the nearest. -/
theorem rounded_round (s : Sign) {m : ℕ} (e : ℤ) (hm : 0 < m) :
    Rounded (.ofModel (.pack (UnpackedFloat.round Format.binary32 s m e)))
      (factor s * (m * 2 ^ e)) := by
  have hkept : e - (e - keptExponent m e).toNat ≤
      keptExponent (m <<< (e - keptExponent m e).toNat) (e - (e - keptExponent m e).toNat) := by
    unfold keptExponent
    rw [log2_shiftLeft hm.ne']
    omega
  rw [← shiftLeft_mul_zpow m (e - keptExponent m e).toNat]
  exact rounded_roundWithAccuracy s .exact (.whole _) hkept

/-- An integer with an exponent, which is how sums come out, is rounded to the nearest. -/
theorem rounded_normalize (k e : ℤ) :
    Rounded (.ofModel (.pack (UnpackedFloat.normalize Format.binary32 k e .positive)))
      (k * 2 ^ e) := by
  unfold UnpackedFloat.normalize
  -- the significand has no sign, so the three cases are those of the integer
  rcases lt_trichotomy k 0 with hneg | rfl | hpos
  · rw [Int.compare_eq_lt.mpr hneg]
    have hround := rounded_round .negative e (show 0 < (-k).toNat by omega)
    have hcast : (((-k).toNat : ℤ) : ℚ) = ((-k : ℤ) : ℚ) := by rw [Int.toNat_of_nonneg (by omega)]
    push_cast at hcast
    rw [hcast, factor, neg_one_mul, neg_mul, neg_neg] at hround
    exact hround
  · rw [Int.compare_eq_eq.mpr rfl, Int.cast_zero, zero_mul]
    exact rounded_zero .positive
  · rw [Int.compare_eq_gt.mpr hpos]
    have hround := rounded_round .positive e (show 0 < k.toNat by omega)
    have hcast : ((k.toNat : ℤ) : ℚ) = ((k : ℤ) : ℚ) := by rw [Int.toNat_of_nonneg (by omega)]
    push_cast at hcast
    rw [hcast, factor, one_mul] at hround
    exact hround

/-! ## The operations -/

variable {x y : Float32}

/-- The forms of a finite number. -/
theorem canonical_of_isFinite (h : x.isFinite = true) :
    (∃ s, x.toModel.unpack = .zero s) ∨
      ∃ s m e hm, x.toModel.unpack = .finite s m e hm ∧ Kept m e := by
  have hcanonical := canonical_unpack x
  have hfinite : x.toModel.unpack.isFinite = true := h
  revert hcanonical hfinite
  generalize x.toModel.unpack = a
  intro hcanonical hfinite
  cases hcanonical with
  | nan | infinity => cases hfinite
  | zero s => exact .inl ⟨s, rfl⟩
  | finite s h => exact .inr ⟨s, _, _, _, rfl, h⟩

/-- A sign is a factor. -/
theorem apply_eq_factor (s : Sign) (m : ℕ) : ((s.apply m : ℤ) : ℚ) = factor s * m := by
  cases s <;> simp [Sign.apply, factor]

theorem factor_mul (s s' : Sign) : factor (s * s') = factor s * factor s' := by
  cases s <;> cases s' <;> simp only [factor] <;> norm_num

/-- Signs are their own inverses, so they are divided by multiplying them. -/
theorem factor_div (s s' : Sign) : factor (s / s') = factor s / factor s' := by
  have hsign : s / s' = s * s' := by cases s <;> cases s' <;> rfl
  rw [hsign, factor_mul]
  cases s' with
  | negative => rw [show factor .negative = -1 from rfl, mul_neg_one, div_neg, div_one]
  | positive => rw [show factor .positive = 1 from rfl, mul_one, div_one]

theorem factor_neg (s : Sign) : factor (-s) = -factor s := by
  cases s
  · exact (neg_neg (1 : ℚ)).symm
  · rfl

/-- A sum of zeros is a zero, of one sign or the other. -/
theorem rounded_zeros (c : Bool) (s : Sign) :
    Rounded (.ofModel (.pack (if c then .zero s else .zero .positive))) 0 := by
  cases c
  · exact rounded_zero .positive
  · exact rounded_zero s

/-- A number with a lower exponent, which is how numbers are added. -/
theorem apply_shiftLeft (s : Sign) {m : ℕ} {e t : ℤ} (hm : 0 < m) (h : t ≤ e) :
    ((s.apply (m <<< (e - t).toNat : ℕ) : ℤ) : ℚ) * 2 ^ t = worth (.finite s m e hm) := by
  have hshift := shiftLeft_mul_zpow m (e - t).toNat e
  rw [show e - (e - t).toNat = t by omega] at hshift
  rw [apply_eq_factor, mul_assoc, hshift]
  rfl

/-- **A sum** is that of the values, rounded. -/
theorem rounded_add (hx : x.isFinite = true) (hy : y.isFinite = true) :
    Rounded (x + y) (value x + value y) := by
  show Rounded (.ofModel (.pack (UnpackedFloat.add Format.binary32 x.toModel.unpack
    y.toModel.unpack))) (worth x.toModel.unpack + worth y.toModel.unpack)
  obtain ⟨s, ha⟩ | ⟨s, m, e, hm, ha, hkept⟩ := canonical_of_isFinite hx <;>
    obtain ⟨s', hb⟩ | ⟨s', m', e', hm', hb, hkept'⟩ := canonical_of_isFinite hy <;> rw [ha, hb]
  · rw [show worth (.zero s) + worth (.zero s') = 0 from add_zero 0]
    exact rounded_zeros _ s
  · rw [show worth (.zero s) = 0 from rfl, zero_add]
    exact rounded_finite s' hkept'
  · rw [show worth (.zero s') = 0 from rfl, add_zero]
    exact rounded_finite s hkept
  · -- both terms at the lower exponent, where they are added as integers
    rw [← apply_shiftLeft s hm (min_le_left e e'), ← apply_shiftLeft s' hm' (min_le_right e e'),
      ← add_mul, ← Int.cast_add]
    exact rounded_normalize _ _

/-- **A difference** is that of the values, rounded. -/
theorem rounded_sub (hx : x.isFinite = true) (hy : y.isFinite = true) :
    Rounded (x - y) (value x - value y) := by
  show Rounded (.ofModel (.pack (UnpackedFloat.sub Format.binary32 x.toModel.unpack
    y.toModel.unpack))) (worth x.toModel.unpack - worth y.toModel.unpack)
  obtain ⟨s, ha⟩ | ⟨s, m, e, hm, ha, hkept⟩ := canonical_of_isFinite hx <;>
    obtain ⟨s', hb⟩ | ⟨s', m', e', hm', hb, hkept'⟩ := canonical_of_isFinite hy <;> rw [ha, hb]
  · rw [show worth (.zero s) - worth (.zero s') = 0 from sub_zero 0]
    exact rounded_zeros _ s
  · -- what is taken from zero is negated
    have hneg : worth (.zero s) - worth (.finite s' m' e' hm') =
        worth (.finite (-s') m' e' hm') := by
      simp only [worth, factor_neg]
      ring
    rw [hneg]
    exact rounded_finite (-s') hkept'
  · rw [show worth (.zero s') = 0 from rfl, sub_zero]
    exact rounded_finite s hkept
  · -- both significands by the smaller exponent, so that their difference is a whole number
    rw [← apply_shiftLeft s hm (min_le_left e e'), ← apply_shiftLeft s' hm' (min_le_right e e'),
      ← sub_mul, ← Int.cast_sub]
    exact rounded_normalize _ _

/-- A product of significands has bits enough, unless its exponent is the least one. -/
theorem le_keptExponent_mul {m m' : ℕ} {e e' : ℤ} (hm : 0 < m) (hm' : 0 < m') (h : Kept m e)
    (h' : Kept m' e') : e + e' ≤ keptExponent (m * m') (e + e') := by
  unfold keptExponent
  by_cases hlong : 2 ^ 23 ≤ m * m'
  · have hlog := (Nat.le_log2 (Nat.mul_pos hm hm').ne').mpr hlong
    omega
  · -- factors without all their bits have the least exponent, and their product a lower one
    have hshort : ¬ 2 ^ 23 ≤ m := fun hle => hlong (hle.trans (Nat.le_mul_of_pos_right m hm'))
    have hshort' : ¬ 2 ^ 23 ≤ m' := fun hle => hlong (hle.trans (Nat.le_mul_of_pos_left m' hm))
    have hleast := h.full.resolve_left hshort
    have hleast' := h'.full.resolve_left hshort'
    omega

/-- **A product** is that of the values, rounded. -/
theorem rounded_mul (hx : x.isFinite = true) (hy : y.isFinite = true) :
    Rounded (x * y) (value x * value y) := by
  show Rounded (.ofModel (.pack (UnpackedFloat.mul Format.binary32 x.toModel.unpack
    y.toModel.unpack))) (worth x.toModel.unpack * worth y.toModel.unpack)
  obtain ⟨s, ha⟩ | ⟨s, m, e, hm, ha, hkept⟩ := canonical_of_isFinite hx <;>
    obtain ⟨s', hb⟩ | ⟨s', m', e', hm', hb, hkept'⟩ := canonical_of_isFinite hy <;> rw [ha, hb]
  · rw [show worth (.zero s) = 0 from rfl, zero_mul]
    exact rounded_zero (s * s')
  · rw [show worth (.zero s) = 0 from rfl, zero_mul]
    exact rounded_zero (s * s')
  · rw [show worth (.zero s') = 0 from rfl, mul_zero]
    exact rounded_zero (s * s')
  · -- the product of the significands is exact, and rounded once
    have hproduct : worth (.finite s m e hm) * worth (.finite s' m' e' hm') =
        factor (s * s') * ((m * m' : ℕ) * 2 ^ (e + e')) := by
      rw [worth, worth, factor_mul, Nat.cast_mul, zpow_add₀ two_ne_zero]
      ring
    rw [hproduct]
    exact rounded_roundWithAccuracy (s * s') .exact (.whole _)
      (le_keptExponent_mul hm hm' hkept hkept')

/-- A quotient of significands is made long enough. -/
theorem le_keptExponent_div {m m' : ℕ} {e e' t : ℤ} (hm : 0 < m) (hm' : 0 < m')
    (ht : t = min (e - e') (max (totalExponent m e - totalExponent m' e' - 24) (-149))) :
    t ≤ keptExponent ((m <<< (e - e' - t).toNat) / m') t := by
  unfold totalExponent at ht
  unfold keptExponent
  by_cases hleast : t ≤ -149
  · omega
  · -- the dividend is shifted until it is at least 24 bits longer than the divisor
    have hlog : m'.log2 + 24 ≤ (m <<< (e - e' - t).toNat).log2 := by
      rw [log2_shiftLeft hm.ne']
      omega
    have hlong : 2 ^ 23 ≤ (m <<< (e - e' - t).toNat) / m' := by
      have hpos : m <<< (e - e' - t).toNat ≠ 0 := by
        rw [Nat.shiftLeft_eq]
        positivity
      rw [Nat.le_div_iff_mul_le hm']
      calc 2 ^ 23 * m' ≤ 2 ^ 23 * 2 ^ (m'.log2 + 1) := Nat.mul_le_mul_left _ Nat.lt_log2_self.le
        _ = 2 ^ (m'.log2 + 24) := by rw [← pow_add]; congr 1; omega
        _ ≤ m <<< (e - e' - t).toNat := (Nat.le_log2 hpos).mp hlog
    have hlog' := (Nat.le_log2 (by omega)).mpr hlong
    omega

/-- **A quotient** is that of the values, rounded. -/
theorem rounded_div (hx : x.isFinite = true) (hy : y.isFinite = true) (hne : value y ≠ 0) :
    Rounded (x / y) (value x / value y) := by
  revert hne
  show worth y.toModel.unpack ≠ 0 → Rounded (.ofModel (.pack (UnpackedFloat.div Format.binary32
    x.toModel.unpack y.toModel.unpack))) (worth x.toModel.unpack / worth y.toModel.unpack)
  obtain ⟨s', hb⟩ | ⟨s', m', e', hm', hb, hkept'⟩ := canonical_of_isFinite hy
  · rw [hb]
    exact fun hne => absurd rfl hne
  obtain ⟨s, ha⟩ | ⟨s, m, e, hm, ha, hkept⟩ := canonical_of_isFinite hx <;> rw [ha, hb] <;>
    intro hne
  · rw [show worth (.zero s) = 0 from rfl, zero_div]
    exact rounded_zero (s / s')
  · generalize ht : min (e - e') (max (totalExponent m e - totalExponent m' e' - 24) (-149)) = t
    have hquotient : worth (.finite s m e hm) / worth (.finite s' m' e' hm') =
        factor (s / s') * (((m <<< (e - e' - t).toNat / m' : ℕ) +
          (m <<< (e - e' - t).toNat % m' : ℕ) / m') * 2 ^ t) := by
      have hshift := shiftLeft_mul_zpow m (e - e' - t).toNat (e - e')
      rw [show e - e' - (e - e' - t).toNat = t by omega] at hshift
      have hm'' : (m' : ℚ) ≠ 0 := by exact_mod_cast hm'.ne'
      -- the quotient of the significands and its remainder make up the whole
      have hdivision : ((m <<< (e - e' - t).toNat / m' : ℕ) : ℚ) +
          (m <<< (e - e' - t).toNat % m' : ℕ) / m' = (m <<< (e - e' - t).toNat : ℕ) / m' := by
        rw [eq_div_iff hm'', add_mul, div_mul_cancel₀ _ hm'', mul_comm]
        exact_mod_cast Nat.div_add_mod _ _
      rw [hdivision, div_mul_eq_mul_div, hshift, worth, worth, factor_div, zpow_sub₀ two_ne_zero]
      ring
    rw [hquotient]
    have hround := rounded_roundWithAccuracy (s / s') _
      (marks_fraction (m <<< (e - e' - t).toNat / m') (Nat.mod_lt (m <<< (e - e' - t).toNat) hm'))
      (le_keptExponent_div hm hm' ht.symm)
    rw [← ht] at hround ⊢
    exact hround

/-! ## Negation -/

/-- The other sign fits as well. -/
theorem canonical_neg {a : UnpackedFloat} (h : Canonical a) : Canonical a.neg := by
  cases h with
  | nan => exact .nan
  | infinity s => exact .infinity (-s)
  | zero s => exact .zero (-s)
  | finite s h => exact .finite (-s) h

/-- Negation changes the sign and nothing else. -/
theorem unpack_neg (x : Float32) : (-x).toModel.unpack = x.toModel.unpack.neg :=
  unpack_pack (canonical_neg (canonical_unpack x))

/-- The value is negated too, where there is one. -/
theorem value_neg (x : Float32) : value (-x) = -value x := by
  unfold value
  rw [unpack_neg]
  cases x.toModel.unpack with
  | notANumber => exact neg_zero.symm
  | infinity s => simp only [UnpackedFloat.neg, worth, factor_neg, neg_mul]
  | zero s => exact neg_zero.symm
  | finite s m e hm => simp only [UnpackedFloat.neg, worth, factor_neg, neg_mul]

/-- It does not make NaN of a number. -/
theorem isNaN_neg (h : x.isNaN = false) : (-x).isNaN = false := by
  rw [isNaN_eq_false_iff] at h ⊢
  rw [unpack_neg]
  cases hx : x.toModel.unpack with
  | notANumber => exact absurd hx h
  | infinity | zero | finite => nofun

/-! ## Numbers that are not finite -/

/-- **A number within the bound is finite.** -/
theorem isFinite_of_abs_lt (h : x.isNaN = false) (hlt : |value x| < 2 ^ 128) :
    x.isFinite = true := by
  rw [isNaN_eq_false_iff] at h
  revert h hlt
  show x.toModel.unpack ≠ _ → |worth x.toModel.unpack| < _ → x.toModel.unpack.isFinite = true
  cases x.toModel.unpack with
  | notANumber => exact fun h => absurd rfl h
  | infinity s => cases s <;> exact fun _ hlt => absurd hlt (by norm_num [worth, factor])
  | zero | finite => exact fun _ _ => rfl

/-- A finite number is below the bound of the format. -/
theorem abs_value_lt (hx : x.isFinite = true) : |value x| < 2 ^ 128 := by
  unfold value
  obtain ⟨s, ha⟩ | ⟨s, m, e, hm, ha, hkept⟩ := canonical_of_isFinite hx <;> rw [ha]
  · norm_num [worth]
  · have hpos := Kept.pos e hm
    have hlt := hkept.lt_bound
    rw [worth, abs_mul, abs_of_pos hpos]
    -- either sign has the same size
    cases s <;> simpa [factor] using hlt

/-- The forms of a number that is not finite. -/
theorem eq_infinity_of_not_isFinite (h : x.isFinite = false) :
    x.toModel.unpack = .notANumber ∨ ∃ s, x.toModel.unpack = .infinity s := by
  revert h
  show x.toModel.unpack.isFinite = false → _
  cases x.toModel.unpack with
  | notANumber => exact fun _ => .inl rfl
  | infinity s => exact fun _ => .inr ⟨s, rfl⟩
  | zero | finite => nofun

/-- The value of infinity is the bound. -/
theorem value_of_not_isFinite (hx : x.isFinite = false) (hpos : 0 < value x) :
    value x = 2 ^ 128 := by
  unfold value at hpos ⊢
  obtain ha | ⟨s, ha⟩ := eq_infinity_of_not_isFinite hx <;> rw [ha] at hpos ⊢
  · exact absurd hpos (lt_irrefl 0)
  · cases s with
    | negative => exact absurd hpos (by norm_num [worth, factor])
    | positive => norm_num [worth, factor]

/-- What leaves infinity and NaN alone leaves every number alone that is not finite. -/
theorem repack_of_not_isFinite (op : UnpackedFloat → UnpackedFloat) (hx : x.isFinite = false)
    (hnan : op .notANumber = .notANumber) (hinfinity : ∀ s, op (.infinity s) = .infinity s) :
    Float32.ofModel (.pack (op x.toModel.unpack)) = x := by
  have hkept : op x.toModel.unpack = x.toModel.unpack := by
    obtain ha | ⟨s, ha⟩ := eq_infinity_of_not_isFinite hx
    · rw [ha, hnan]
    · rw [ha, hinfinity]
  rw [hkept, pack_unpack]

/-- Infinity and NaN are not changed by a finite number that is added. -/
theorem add_of_not_isFinite (hx : x.isFinite = true) (hy : y.isFinite = false) : x + y = y := by
  refine repack_of_not_isFinite (UnpackedFloat.add Format.binary32 x.toModel.unpack) hy ?_ ?_
  · obtain ⟨s, ha⟩ | ⟨s, m, e, hm, ha, -⟩ := canonical_of_isFinite hx <;> rw [ha] <;> rfl
  · intro s'
    obtain ⟨s, ha⟩ | ⟨s, m, e, hm, ha, -⟩ := canonical_of_isFinite hx <;> rw [ha] <;> rfl

/-- Infinity and NaN are not changed by a finite number that they are added to. -/
theorem add_of_not_isFinite_left (hx : x.isFinite = false) (hy : y.isFinite = true) :
    x + y = x := by
  refine repack_of_not_isFinite (UnpackedFloat.add Format.binary32 · y.toModel.unpack) hx rfl
    fun s' => ?_
  obtain ⟨s, hb⟩ | ⟨s, m, e, hm, hb, -⟩ := canonical_of_isFinite hy <;> rw [hb] <;> rfl

/-- Infinity and NaN are not changed by a finite number that is taken away. -/
theorem sub_of_not_isFinite_left (hx : x.isFinite = false) (hy : y.isFinite = true) :
    x - y = x := by
  refine repack_of_not_isFinite (UnpackedFloat.sub Format.binary32 · y.toModel.unpack) hx rfl
    fun s' => ?_
  obtain ⟨s, hb⟩ | ⟨s, m, e, hm, hb, -⟩ := canonical_of_isFinite hy <;> rw [hb] <;> rfl

/-- A finite number above zero has a plus. -/
theorem unpack_of_pos (hx : x.isFinite = true) (hpos : 0 < value x) :
    ∃ m e hm, x.toModel.unpack = .finite .positive m e hm := by
  unfold value at hpos
  obtain ⟨s, ha⟩ | ⟨s, m, e, hm, ha, -⟩ := canonical_of_isFinite hx <;> rw [ha] at hpos
  · exact absurd hpos (lt_irrefl 0)
  · cases s with
    | negative =>
      have := Kept.pos e hm
      simp only [worth, factor] at hpos
      linarith
    | positive => exact ⟨m, e, hm, ha⟩

/-- Infinity and NaN are not changed by a positive factor. -/
theorem mul_of_not_isFinite_left (hx : x.isFinite = false) (hy : y.isFinite = true)
    (hpos : 0 < value y) : x * y = x := by
  refine repack_of_not_isFinite (UnpackedFloat.mul Format.binary32 · y.toModel.unpack) hx rfl
    fun s => ?_
  obtain ⟨m, e, hm, hb⟩ := unpack_of_pos hy hpos
  rw [hb]
  cases s <;> rfl

/-- Infinity and NaN are not changed by a positive divisor. -/
theorem div_of_not_isFinite_left (hx : x.isFinite = false) (hy : y.isFinite = true)
    (hpos : 0 < value y) : x / y = x := by
  refine repack_of_not_isFinite (UnpackedFloat.div Format.binary32 · y.toModel.unpack) hx rfl
    fun s => ?_
  obtain ⟨m, e, hm, hb⟩ := unpack_of_pos hy hpos
  rw [hb]
  cases s <;> rfl

/-- Zero times a positive number is zero, with the same sign. -/
theorem zero_mul_of_pos (hy : y.isFinite = true) (hpos : 0 < value y) : 0 * y = 0 := by
  show Float32.ofModel (.pack (UnpackedFloat.mul Format.binary32 (0 : Float32).toModel.unpack
    y.toModel.unpack)) = 0
  obtain ⟨m, e, hm, hb⟩ := unpack_of_pos hy hpos
  rw [hb]
  rfl

/-! ## Counts -/

/-- A whole number that is unpacked is rounded to the nearest. -/
theorem rounded_normalize_natCast (n : ℕ) :
    Rounded (.ofModel (.pack (UnpackedFloat.ofNat Format.binary32 n))) n := by
  have hround := rounded_normalize n 0
  rw [zpow_zero, mul_one, Int.cast_natCast] at hround
  exact hround

/-- **A count as a number** is the nearest one. -/
theorem rounded_toFloat32 (count : UInt32) : Rounded count.toFloat32 count.toNat :=
  rounded_normalize_natCast count.toNat

/-- What is too large for a count becomes the largest one. -/
theorem toNat_ofNatClamp (k : ℕ) : (UInt32.ofNatClamp k).toNat = min k (2 ^ 32 - 1) := by
  unfold UInt32.ofNatClamp
  split
  · rename_i hlt
    have hlt' : k < 2 ^ 32 := hlt
    rw [UInt32.toNat_ofNatLT]
    omega
  · rename_i hge
    have hge' : ¬ k < 2 ^ 32 := hge
    rw [min_eq_right (by omega)]
    rfl

/-- The integer that a positive number is cut down to is its whole part: the shift to the exponent
zero keeps it in the mantissa. -/
theorem toInt_eq_floor {m : ℕ} {e : ℤ} (hm : 0 < m) :
    (UnpackedFloat.toInt 0 (UInt32.size - 1) (.finite .positive m e hm)).toNat =
      ⌊(m * 2 ^ e : ℚ)⌋₊ := by
  have hshift := shiftLeft_mul_zpow m e.toNat e
  have hmarks := ((Marks.whole (m <<< e.toNat)).shiftRight (0 - (e - e.toNat)).toNat).mantissa_le
  have hunit : (2 : ℚ) ^ (e - e.toNat) = (2 ^ (0 - (e - e.toNat)).toNat)⁻¹ := by
    rw [← zpow_natCast, ← zpow_neg]
    congr 1
    omega
  rw [← hshift, hunit, ← div_eq_mul_inv, (Nat.floor_eq_iff (by positivity)).mpr hmarks]
  show Int.toNat ((ExtendedMantissa.ofMantissaAndAccuracy (m <<< (e - 0).toNat) .exact >>>
    (0 - (e - (e - 0).toNat)).toNat).mantissa : ℕ) = _
  rw [sub_zero]
  rfl

/-- **A number as a count**: its whole part, or the largest count. -/
theorem toNat_toUInt32 (hnan : x.isNaN = false) (h : 0 ≤ value x) :
    x.toUInt32.toNat = min ⌊value x⌋₊ (2 ^ 32 - 1) := by
  rw [isNaN_eq_false_iff] at hnan
  revert hnan h
  show _ → 0 ≤ worth x.toModel.unpack →
    (UInt32.ofNatClamp (x.toModel.unpack.toInt 0 (UInt32.size - 1)).toNat).toNat =
      min ⌊worth x.toModel.unpack⌋₊ (2 ^ 32 - 1)
  rw [toNat_ofNatClamp]
  -- form by form: only a finite number has a whole part to speak of
  cases x.toModel.unpack with
  | notANumber => exact fun hnan => absurd rfl hnan
  | infinity s =>
    cases s with
    | negative => exact fun _ h => absurd h (by norm_num [worth, factor])
    | positive =>
      intro _ _
      have hfloor : ⌊worth (.infinity .positive)⌋₊ = 2 ^ 128 := by
        rw [show worth (.infinity .positive) = ((2 ^ 128 : ℕ) : ℚ) by norm_num [worth, factor]]
        exact Nat.floor_natCast _
      rw [hfloor]
      rfl
  | zero s =>
    intro _ _
    rw [show worth (.zero s) = 0 from rfl, Nat.floor_zero]
    rfl
  | finite s m e hm =>
    intro _ h
    cases s with
    | negative =>
      have hpos := Kept.pos e hm
      simp only [worth, factor] at h
      linarith
    | positive => rw [toInt_eq_floor hm, worth, factor, one_mul]

/-- To divide by infinity or NaN leaves zero or NaN. -/
theorem div_of_not_isFinite (a : UnpackedFloat) {b : UnpackedFloat}
    (hb : b = .notANumber ∨ ∃ s, b = .infinity s) :
    UnpackedFloat.div Format.binary32 a b = .notANumber ∨
      ∃ s, UnpackedFloat.div Format.binary32 a b = .zero s := by
  obtain rfl | ⟨s', rfl⟩ := hb
  · cases a <;> exact .inl rfl
  · cases a with
    | notANumber | infinity => exact .inl rfl
    | zero | finite => exact .inr ⟨_, rfl⟩

/-- Nothing is left of a number that is divided by infinity. -/
theorem toUInt32_div_of_not_isFinite (hy : y.isFinite = false) : (x / y).toUInt32 = 0 := by
  show (Float32.Model.pack (UnpackedFloat.div Format.binary32 x.toModel.unpack
    y.toModel.unpack)).unpack.toUInt32 = 0
  obtain hdiv | ⟨s, hdiv⟩ :=
    div_of_not_isFinite x.toModel.unpack (eq_infinity_of_not_isFinite hy)
  · rw [hdiv]
    rfl
  · rw [hdiv, unpack_pack (.zero s)]
    rfl

/-! ## Integers -/

/-- Not to be above zero, by the value. -/
theorem le_zero_iff (hx : x.isNaN = false) : x ≤ 0 ↔ value x ≤ 0 := by
  rw [le_iff hx rfl, value_zero]

/-- A sum of numbers that are not above zero is not above zero either. -/
theorem add_nonpos (hx : x.isFinite = true) (hy : y.isNaN = false) (hx' : value x ≤ 0)
    (hy' : value y ≤ 0) : (x + y).isNaN = false ∧ value (x + y) ≤ 0 := by
  cases hfinite : y.isFinite with
  | true =>
    have hsum := rounded_add hx hfinite
    exact ⟨hsum.not_isNaN, hsum.value_le (x := 0) (by rw [value_zero]; linarith)⟩
  | false =>
    rw [add_of_not_isFinite hx hfinite]
    exact ⟨hy, hy'⟩

/-- A positive factor does not bring a number above zero. -/
theorem mul_nonpos (hx : x.isNaN = false) (hx' : value x ≤ 0) (hy : y.isFinite = true)
    (hy' : 0 < value y) : (x * y).isNaN = false ∧ value (x * y) ≤ 0 := by
  cases hfinite : x.isFinite with
  | true =>
    -- a product with a positive factor is not above zero, and rounding does not pass zero
    have hproduct := rounded_mul hfinite hy
    exact ⟨hproduct.not_isNaN, hproduct.value_le (x := 0) (by rw [value_zero]; nlinarith)⟩
  | false =>
    rw [mul_of_not_isFinite_left hfinite hy hy']
    exact ⟨hx, hx'⟩

/-! ## Ratios of counts -/

/-- Powers of two in the range of the format are exact. -/
theorem representable_two_zpow {k : ℤ} (hleast : -149 ≤ k) (hmost : k ≤ 104) :
    Representable (2 ^ k) :=
  ⟨1, k, by norm_num, hleast, hmost, by rw [Int.cast_one, one_mul]⟩

/-- What lies between two powers of two is rounded to a number between them. -/
theorem Rounded.isFinite_of_mem {z : Float32} {q : ℚ} (h : Rounded z q) (hlo : 2 ^ (-32 : ℤ) ≤ q)
    (hhi : q ≤ 2 ^ (32 : ℤ)) :
    z.isFinite = true ∧ 2 ^ (-32 : ℤ) ≤ value z ∧ value z ≤ 2 ^ (32 : ℤ) := by
  have hlo' := h.nearest.le_of_le (representable_two_zpow (by norm_num) (by norm_num)) hlo
  have hhi' := h.nearest.ge_of_ge (representable_two_zpow (by norm_num) (by norm_num)) hhi
  have hpos : (0 : ℚ) < 2 ^ (-32 : ℤ) := by positivity
  have hmost : (2 : ℚ) ^ (32 : ℤ) < 2 ^ 128 := by norm_num
  refine ⟨isFinite_of_abs_lt h.not_isNaN ?_, hlo', hhi'⟩
  rw [abs_of_pos (by linarith)]
  linarith

/-- A count that is not zero is one at least, also as a number. -/
theorem toFloat32_mem {count : UInt32} (h : count ≠ 0) :
    count.toFloat32.isFinite = true ∧ 1 ≤ value count.toFloat32 ∧
      value count.toFloat32 ≤ 2 ^ (32 : ℤ) := by
  have hone : (1 : ℚ) ≤ count.toNat := by
    exact_mod_cast Nat.pos_of_ne_zero fun hzero => h (UInt32.toNat_inj.mp hzero)
  have hmost : (count.toNat : ℚ) ≤ 2 ^ (32 : ℤ) := by exact_mod_cast count.toNat_lt.le
  have hsmall : (2 : ℚ) ^ (-32 : ℤ) ≤ 1 := by norm_num
  have hround := rounded_toFloat32 count
  obtain ⟨hfinite, -, hhi⟩ := hround.isFinite_of_mem (hsmall.trans hone) hmost
  rw [← value_one] at hone ⊢
  exact ⟨hfinite, hround.le_value hone, hhi⟩

/-- The inverse of a count. -/
theorem inverse_mem {count : UInt32} (h : count ≠ 0) :
    (1 / count.toFloat32).isFinite = true ∧ 2 ^ (-32 : ℤ) ≤ value (1 / count.toFloat32) ∧
      value (1 / count.toFloat32) ≤ 1 := by
  obtain ⟨hfinite, hlo, hhi⟩ := toFloat32_mem h
  have hpos : 0 < value count.toFloat32 := by linarith
  have hinverse : (2 : ℚ) ^ (-32 : ℤ) ≤ 1 / value count.toFloat32 := by
    rw [show (2 : ℚ) ^ (-32 : ℤ) = 1 / 2 ^ (32 : ℤ) by norm_num]
    gcongr
  have hle : 1 / value count.toFloat32 ≤ 1 := (div_le_one hpos).mpr hlo
  -- the inverse lies between `2 ^ (-32)` and one, which rounding does not leave
  have hround := rounded_div (x := 1) rfl hfinite hpos.ne'
  rw [value_one] at hround
  obtain ⟨hinverseFinite, hinverseLo, -⟩ :=
    hround.isFinite_of_mem hinverse (hle.trans (by norm_num))
  have hinverseHi := hround.value_le (x := 1) (by rwa [value_one])
  rw [value_one] at hinverseHi
  exact ⟨hinverseFinite, hinverseLo, hinverseHi⟩

/-- The ratio of two counts is finite and above zero. -/
theorem ratio_pos {whole part : UInt32} (hwhole : whole ≠ 0) (hpart : part ≠ 0) :
    (1 / whole.toFloat32 * part.toFloat32).isFinite = true ∧
      0 < value (1 / whole.toFloat32 * part.toFloat32) := by
  obtain ⟨hinverseFinite, hinverseLo, hinverseHi⟩ := inverse_mem hwhole
  obtain ⟨hpartFinite, hpartLo, hpartHi⟩ := toFloat32_mem hpart
  have hunit : (0 : ℚ) < 2 ^ (-32 : ℤ) := by positivity
  obtain ⟨hratio, hratioLo, -⟩ := (rounded_mul hinverseFinite hpartFinite).isFinite_of_mem
    (by nlinarith) (by nlinarith)
  exact ⟨hratio, by linarith⟩

end PulseTrain.Single
