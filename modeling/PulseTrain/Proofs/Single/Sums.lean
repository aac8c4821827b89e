import PulseTrain.Proofs.Single.Arithmetic

/-!
# Sums that do not move

A number that is added again and again moves the sum at first, and then does so no longer: there are
only finitely many numbers, and the sum goes one way.

* **`isFinite_of_add`**: a sum is finite only if both its terms are.
* **`value_add_ge`**, **`value_add_le`**: a sum goes the way of the number that is added, or stays;
  **`value_le_add`**, **`add_value_le`**: also where the other term is infinite.
* **`not_add_lt_zero`**, **`not_sub_one_lt_zero`**: what does not come below zero.
* **`exists_stays_of_rising`**, **`exists_stays_of_falling`**: what goes one way or stays comes to
  stay.
* **`abs_le_of_absorbed`**: what does not move a sum is at most half a unit.
-/

namespace PulseTrain.Single

open Float.Model (Format UnpackedFloat)

variable {x y : Float32}

/-! ## Sums and their terms -/

/-- A number that is not finite swallows what it is added to. -/
theorem add_of_not_isFinite_right (x : Float32) (hy : y.isFinite = false) :
    (x + y).isNaN = true ∨ x + y = y := by
  cases hx : x.isFinite with
  | true => exact .inr (add_of_not_isFinite hx hy)
  | false =>
    have hsum : x + y = .ofModel (.pack (UnpackedFloat.add Format.binary32 x.toModel.unpack
      y.toModel.unpack)) := rfl
    obtain ha | ⟨s, ha⟩ := eq_infinity_of_not_isFinite hx
    · have hadd : UnpackedFloat.add Format.binary32 .notANumber y.toModel.unpack =
          .notANumber := rfl
      rw [hsum, ha, hadd]
      exact .inl rfl
    · obtain hb | ⟨s', hb⟩ := eq_infinity_of_not_isFinite hy
      · have hadd : UnpackedFloat.add Format.binary32 (.infinity s) .notANumber = .notANumber := rfl
        rw [hsum, ha, hb, hadd]
        exact .inl rfl
      · have hy' := pack_unpack y
        rw [hb] at hy'
        rw [hsum, ha, hb]
        -- infinities of one sign add up, and others do not
        cases s <;> cases s'
        · exact .inr hy'
        · exact .inl rfl
        · exact .inl rfl
        · exact .inr hy'

/-- A finite sum has finite terms. -/
theorem isFinite_of_add (h : (x + y).isFinite = true) :
    x.isFinite = true ∧ y.isFinite = true := by
  have hy : y.isFinite = true := by
    rw [← Bool.not_eq_false]
    intro hy
    obtain hnan | hsame := add_of_not_isFinite_right x hy
    · rw [isNaN_of_isFinite h] at hnan
      cases hnan
    · rw [hsame, hy] at h
      cases h
  -- with one term finite, the other one decides about the sum
  refine ⟨?_, hy⟩
  rw [← Bool.not_eq_false]
  intro hx
  rw [add_of_not_isFinite_left hx hy, hx] at h
  cases h

/-- To be above zero, by the value. -/
theorem not_le_zero_iff (hx : x.isNaN = false) : ¬ x ≤ 0 ↔ 0 < value x := by
  rw [le_zero_iff hx, not_le]

/-- What is added to a sum below one and is not below zero itself is finite. -/
theorem isFinite_of_add_lt_one (h : x + y < 1) (hy : ¬ y ≤ 0) :
    y.isFinite = true ∧ 0 < value y := by
  have hfinite : y.isFinite = true := by
    rw [← Bool.not_eq_false]
    intro hinfinite
    obtain hnan | hsame := add_of_not_isFinite_right x hinfinite
    · rw [(isNaN_of_lt h).1] at hnan
      cases hnan
    · rw [hsame] at h
      have hnan := (isNaN_of_lt h).1
      have hlarge := value_of_not_isFinite hinfinite ((not_le_zero_iff hnan).mp hy)
      rw [lt_iff hnan rfl, hlarge, value_one] at h
      norm_num at h
  exact ⟨hfinite, (not_le_zero_iff (isNaN_of_isFinite hfinite)).mp hy⟩

/-! ## Which way a sum goes -/

/-- A sum is not below the number that something is added to, and not above the number that
something is taken from. -/
theorem value_add_ge (hx : x.isFinite = true) (hy : y.isFinite = true) (hle : 0 ≤ value y) :
    value x ≤ value (x + y) :=
  (rounded_add hx hy).le_value (by linarith)

/-- What is taken away does not raise a number. -/
theorem value_add_le (hx : x.isFinite = true) (hy : y.isFinite = true) (hle : value y ≤ 0) :
    value (x + y) ≤ value x :=
  (rounded_add hx hy).value_le (by linarith)

/-- What is added does not lower a number that may be infinite: infinity stays as it is. -/
theorem value_le_add (hx : x.isNaN = false) (hy : y.isFinite = true) (hle : 0 ≤ value y) :
    (x + y).isNaN = false ∧ value x ≤ value (x + y) := by
  cases hfinite : x.isFinite with
  | true => exact ⟨(rounded_add hfinite hy).not_isNaN, value_add_ge hfinite hy hle⟩
  | false =>
    rw [add_of_not_isFinite_left hfinite hy]
    exact ⟨hx, le_rfl⟩

/-- What is taken away does not raise a number that may be infinite. -/
theorem add_value_le (hx : x.isNaN = false) (hy : y.isFinite = true) (hle : value y ≤ 0) :
    (x + y).isNaN = false ∧ value (x + y) ≤ value x := by
  cases hfinite : x.isFinite with
  | true => exact ⟨(rounded_add hfinite hy).not_isNaN, value_add_le hfinite hy hle⟩
  | false =>
    rw [add_of_not_isFinite_left hfinite hy]
    exact ⟨hx, le_rfl⟩

/-- Where the value of a sum is that of a term, so are the bits, unless they are those of zero. -/
theorem add_eq_of_value_eq (hx : x.isFinite = true) (hy : y.isFinite = true)
    (h : value (x + y) = value x) (hne : value (x + y) ≠ 0) : x + y = x :=
  eq_of_value_eq (rounded_add hx hy).not_isNaN (isNaN_of_isFinite hx) h hne

/-- **A number above zero moves a sum up**, or not at all. -/
theorem add_pos_moves (hy : y.isFinite = true) (hpos : 0 < value y) :
    x + y = x ∨ value x < value (x + y) := by
  cases hx : x.isFinite with
  | false => exact .inl (add_of_not_isFinite_left hx hy)
  | true =>
    refine (value_add_ge hx hy hpos.le).eq_or_lt.imp_left fun hsame => ?_
    refine add_eq_of_value_eq hx hy hsame.symm fun hzero => ?_
    -- a sum with zero is exact
    have hsum := rounded_add hx hy
    rw [← hsame] at hzero
    rw [hzero, zero_add] at hsum
    have hexact := hsum.value_eq
    rw [← hsame, hzero] at hexact
    linarith

/-! ## Sums that are not below zero -/

/-- Not to be below zero, by the value. -/
theorem not_lt_zero_iff_value (hx : x.isNaN = false) : ¬ x < 0 ↔ 0 ≤ value x := by
  rw [lt_iff hx rfl, value_zero, not_lt]

/-- NaN is not below zero either. -/
theorem not_lt_zero_of_isNaN (hx : x.isNaN = true) : ¬ x < 0 := by
  intro hlt
  rw [(isNaN_of_lt hlt).1] at hx
  cases hx

/-- A sum of numbers that are not below zero is not below zero, infinity and NaN included. -/
theorem not_add_lt_zero (hx : ¬ x < 0) (hy : ¬ y ≤ 0) : ¬ x + y < 0 := by
  cases hfinite : y.isFinite with
  | true =>
    have hpos := (not_le_zero_iff (isNaN_of_isFinite hfinite)).mp hy
    cases hfinite' : x.isFinite with
    | true =>
      have hsum := value_add_ge hfinite' hfinite hpos.le
      rw [not_lt_zero_iff_value (isNaN_of_isFinite hfinite')] at hx
      rw [not_lt_zero_iff_value (rounded_add hfinite' hfinite).not_isNaN]
      exact hx.trans hsum
    | false => rwa [add_of_not_isFinite_left hfinite' hfinite]
  | false =>
    -- what is not finite is left as the sum, and is above zero
    obtain hnan | hsame := add_of_not_isFinite_right x hfinite
    · exact not_lt_zero_of_isNaN hnan
    · rw [hsame]
      intro hlt
      have hnan := (isNaN_of_lt hlt).1
      rw [lt_iff hnan rfl, value_zero] at hlt
      rw [not_le_zero_iff hnan] at hy
      exact absurd hlt hy.asymm

/-- Where one has gathered it can be taken off. -/
theorem not_sub_one_lt_zero (hx : ¬ x < 1) : ¬ x - 1 < 0 := by
  cases hfinite : x.isFinite with
  | true =>
    rw [lt_iff (isNaN_of_isFinite hfinite) rfl, value_one, not_lt] at hx
    have hdifference := rounded_sub (y := 1) hfinite rfl
    rw [value_one] at hdifference
    rw [not_lt_zero_iff_value hdifference.not_isNaN]
    exact hdifference.value_nonneg (by linarith)
  | false =>
    rw [sub_of_not_isFinite_left hfinite rfl]
    intro hlt
    have hnan := (isNaN_of_lt hlt).1
    rw [lt_iff hnan rfl, value_one] at hx
    rw [lt_iff hnan rfl, value_zero] at hlt
    linarith

/-! ## What goes one way comes to stay -/

instance instFiniteFloat32 : Finite Float32 :=
  Finite.of_injective (fun x : Float32 => x.toBits.toBitVec.toFin) fun _ _ h =>
    Float32.toBits_inj.mp (UInt32.toBitVec_inj.mp (BitVec.toFin_inj.mp h))

/-- **There are finitely many numbers**, so one that only ever rises comes to stay. -/
theorem exists_stays_of_rising (seq : ℕ → Float32)
    (h : ∀ i, seq (i + 1) = seq i ∨ value (seq i) < value (seq (i + 1))) :
    ∃ i, seq (i + 1) = seq i := by
  by_contra hmoves
  rw [not_exists] at hmoves
  have hmono : StrictMono fun i => value (seq i) :=
    strictMono_nat_of_lt_succ fun i => (h i).resolve_left (hmoves i)
  -- a sequence that never stays would give infinitely many numbers
  exact not_injective_infinite_finite seq
    (Function.Injective.of_comp (f := value) hmono.injective)

/-- A sequence of numbers that only ever falls comes to stay, too. -/
theorem exists_stays_of_falling (seq : ℕ → Float32)
    (h : ∀ i, seq (i + 1) = seq i ∨ value (seq (i + 1)) < value (seq i)) :
    ∃ i, seq (i + 1) = seq i := by
  by_contra hmoves
  rw [not_exists] at hmoves
  have hanti : StrictAnti fun i => value (seq i) :=
    strictAnti_nat_of_succ_lt fun i => (h i).resolve_left (hmoves i)
  exact not_injective_infinite_finite seq
    (Function.Injective.of_comp (f := value) hanti.injective)

/-! ## What no longer moves a sum -/

/-- **What does not move a sum is small**: at most half the unit that the numbers around the sum
have. -/
theorem abs_le_of_absorbed {e : ℤ} (hleast : -149 ≤ e) (hmost : e ≤ 104) (hx : x.isFinite = true)
    (hy : y.isFinite = true) (hlt : |value x| < 2 ^ 24 * 2 ^ e) (h : x + y = x) :
    |value y| ≤ 2 ^ e / 2 := by
  have hsum := rounded_add hx hy
  rw [h] at hsum
  have hbound : Representable (2 ^ 24 * 2 ^ e) :=
    ⟨2 ^ 24, e, by norm_num, hleast, hmost, by push_cast; ring⟩
  obtain ⟨hlo, hhi⟩ := abs_lt.mp hlt
  -- were the exact sum out of range, so would be the rounded one
  have hrange : |value x + value y| ≤ 2 ^ 24 * 2 ^ e := by
    rw [abs_le]
    constructor
    · by_contra hlow
      have := hsum.nearest.ge_of_ge hbound.neg (not_le.mp hlow).le
      linarith
    · by_contra hhigh
      have := hsum.nearest.le_of_le hbound (not_le.mp hhigh).le
      linarith
  -- the sum is off by the number that it absorbs, and rounding by half a unit at most
  have herror := hsum.nearest.abs_sub_le_half hleast hmost hrange
  rwa [add_sub_cancel_left] at herror

end PulseTrain.Single
