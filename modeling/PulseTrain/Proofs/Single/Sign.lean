import Mathlib.Logic.Basic

/-!
# Signs of single-precision numbers

Which sign a product, a quotient or a converted count has is seen before it is rounded: rounding
keeps the sign, and so does the packing of a number into its bits. NaN counts as a number with
neither sign, and is neither below nor above zero.

* **`Plus`**: the sign bit is clear; **`NotBelow`**: not below zero, which a zero with a minus is
  not either.
* **`Plus.mul`**, **`Plus.div`**, **`plus_ofNat`**: what has a plus; **`Plus.repack`**: packing
  keeps it.
* **`lt_zero_iff`**, **`not_mul_lt_zero`**: a product of numbers that are not below zero is not
  below zero; **`not_ratio_lt_zero`**: neither is a ratio of counts.
-/

namespace PulseTrain.Single

open Float.Model (Format UnpackedFloat)
open Float.Model.UnpackedFloat (Sign Accuracy packComponents roundWithAccuracy unpackSign)

/-! ## Numbers before they are packed -/

/-- NaN, or a number with a plus. -/
inductive Plus : UnpackedFloat → Prop where
  | nan : Plus .notANumber
  | infinity : Plus (.infinity .positive)
  | zero : Plus (.zero .positive)
  | finite {m : Nat} {e : Int} {hm : 0 < m} : Plus (.finite .positive m e hm)

/-- NaN, or a number that is not below zero. -/
inductive NotBelow : UnpackedFloat → Prop where
  | zero : NotBelow (.zero .negative)
  | plus {x : UnpackedFloat} (h : Plus x) : NotBelow x

theorem plus_dite {c : Prop} [Decidable c] {x : c → UnpackedFloat} {y : ¬ c → UnpackedFloat}
    (hx : ∀ h, Plus (x h)) (hy : ∀ h, Plus (y h)) : Plus (if h : c then x h else y h) := by
  by_cases h : c
  · rw [dif_pos h]
    exact hx h
  · rw [dif_neg h]
    exact hy h

/-- Rounding keeps the sign, also where it rounds to zero. -/
theorem plus_round (spec : Format) (m : Nat) (e : Int) (acc : Accuracy) :
    Plus (roundWithAccuracy spec .positive m e acc) :=
  plus_dite (fun _ => .zero) fun _ => .finite

/-- The sign of a product is the product of the signs. -/
theorem Plus.mul {x y : UnpackedFloat} (hx : Plus x) (hy : Plus y) (spec : Format) :
    Plus (UnpackedFloat.mul spec x y) := by
  cases hx <;> cases hy <;> first | exact .nan | exact .infinity | exact .zero | exact plus_round ..

theorem Plus.div {x y : UnpackedFloat} (hx : Plus x) (hy : Plus y) (spec : Format) :
    Plus (UnpackedFloat.div spec x y) := by
  cases hx <;> cases hy <;> first | exact .nan | exact .infinity | exact .zero | exact plus_round ..

/-- A count has a plus. -/
theorem plus_ofNat (spec : Format) (count : Nat) : Plus (UnpackedFloat.ofNat spec count) := by
  unfold UnpackedFloat.ofNat UnpackedFloat.ofInt UnpackedFloat.normalize
  split
  · -- a count is never below zero
    rename_i h
    rw [Int.compare_eq_lt] at h
    omega
  · exact .zero
  · exact plus_round ..

/-- A zero with a minus is all that a product can have of a minus, and that is not below zero. -/
theorem NotBelow.mul {x y : UnpackedFloat} (hx : NotBelow x) (hy : NotBelow y) (spec : Format) :
    NotBelow (UnpackedFloat.mul spec x y) := by
  -- zeros with a minus apart: next to infinity they make NaN, and next to anything else a zero
  cases hx with
  | zero =>
    cases hy with
    | zero => exact .plus .zero
    | plus hy => cases hy <;> first | exact .plus .nan | exact .zero
  | plus hx =>
    cases hy with
    | zero => cases hx <;> first | exact .plus .nan | exact .zero
    | plus hy => exact .plus (hx.mul hy spec)

/-- To be below zero is to be infinite or finite with a minus. -/
theorem lt_zero_iff_unpacked (x : UnpackedFloat) :
    x.lt (.zero .positive) = true ↔ ¬ NotBelow x := by
  constructor
  · intro h hx
    cases hx with
    | zero => cases h
    | plus hx => cases hx <;> cases h
  · intro h
    -- every form by its sign
    rcases x with ⟨_ | _⟩ | _ | ⟨_ | _⟩ | ⟨_ | _⟩
    case infinity.negative | finite.negative => rfl
    case zero.negative => exact absurd .zero h
    case infinity.positive => exact absurd (.plus .infinity) h
    case notANumber => exact absurd (.plus .nan) h
    case zero.positive => exact absurd (.plus .zero) h
    case finite.positive => exact absurd (.plus .finite) h

/-- What zero is not above is not below it. -/
theorem notBelow_of_compare {x : UnpackedFloat}
    (h : (UnpackedFloat.zero .positive).compare x ≠ some .gt) : NotBelow x := by
  rcases x with ⟨_ | _⟩ | _ | ⟨_ | _⟩ | ⟨_ | _⟩
  case infinity.negative | finite.negative => exact absurd rfl h
  case zero.negative => exact .zero
  case infinity.positive => exact .plus .infinity
  case notANumber => exact .plus .nan
  case zero.positive => exact .plus .zero
  case finite.positive => exact .plus .finite

/-! ## Packing -/

/-- The bits keep the sign that they are packed with. -/
theorem unpackSign_packComponents {spec : Format} (sign : Sign)
    (exponent : BitVec spec.exponentBits) (mantissa : BitVec spec.mantissaBitsWithoutImplicit) :
    unpackSign (packComponents spec sign exponent mantissa) = sign.toBitVec := by
  show BitVec.cast _ (BitVec.extractLsb _ _ (sign.toBitVec ++ exponent ++ mantissa)) = _
  ext i hi
  obtain rfl : i = 0 := by omega
  simp [BitVec.getLsbD_eq_getElem, BitVec.getLsbD_append, BitVec.getElem_append]

/-- A number with a plus is packed with a clear sign bit, in whichever range its exponent is. -/
theorem unpackSign_pack {spec : Format} {x : UnpackedFloat} (h : Plus x) :
    unpackSign (UnpackedFloat.pack spec x) = 0#1 := by
  cases h with
  | nan | infinity | zero => exact unpackSign_packComponents .positive _ _
  | finite =>
    unfold UnpackedFloat.pack
    dsimp only
    split
    · exact unpackSign_packComponents .positive _ _
    · split <;> exact unpackSign_packComponents .positive _ _

/-- A number whose sign bit is clear has a plus. -/
theorem plus_unpack {spec : Format} {bits : BitVec spec.numBits} (h : unpackSign bits = 0#1) :
    Plus (UnpackedFloat.unpack spec bits) := by
  have hsign : Sign.ofBitVec (unpackSign bits) = .positive := by rw [h]; rfl
  unfold UnpackedFloat.unpack
  dsimp only
  rw [hsign]
  -- the exponent tells whether the bits are of infinity or NaN, of a number below the normal ones,
  -- or of a normal one
  by_cases hlast : UnpackedFloat.unpackExponent bits = -1#_
  · rw [if_pos hlast]
    split
    · exact .infinity
    · exact .nan
  · rw [if_neg hlast]
    by_cases hfirst : UnpackedFloat.unpackExponent bits = 0#_
    · rw [if_pos hfirst]
      exact plus_dite (fun _ => .zero) fun _ => .finite
    · rw [if_neg hfirst]
      exact .finite

/-- Packing and unpacking keep a plus. -/
theorem Plus.repack {x : UnpackedFloat} (h : Plus x) : Plus (Float32.Model.pack x).unpack :=
  plus_unpack (unpackSign_pack h)

/-- They bring no number below zero, since zeros keep their form. -/
theorem NotBelow.repack {x : UnpackedFloat} (h : NotBelow x) :
    NotBelow (Float32.Model.pack x).unpack := by
  cases h with
  | zero => exact .zero
  | plus h => exact .plus h.repack

/-! ## Single-precision numbers -/

variable {x y : Float32}

theorem unpack_zero : (0 : Float32).toModel.unpack = .zero .positive := rfl

/-- To be below zero, by the unpacked form of a number. -/
theorem lt_zero_iff : x < 0 ↔ ¬ NotBelow x.toModel.unpack := by
  rw [← lt_zero_iff_unpacked, ← unpack_zero]
  exact decide_eq_true_iff

theorem not_lt_zero_iff : ¬ x < 0 ↔ NotBelow x.toModel.unpack := by
  rw [lt_zero_iff, not_not]

/-- **A product of numbers that are not below zero is not below zero**, NaN included. -/
theorem not_mul_lt_zero (hx : ¬ x < 0) (hy : ¬ y < 0) : ¬ x * y < 0 := by
  rw [not_lt_zero_iff] at hx hy ⊢
  exact (hx.mul hy _).repack

/-- A number below zero is not above zero as well. -/
theorem not_zero_lt (h : x < 0) : ¬ 0 < x := by
  intro hx
  have hcompare : ((0 : Float32).toModel.unpack.compare x.toModel.unpack == some .lt) = true :=
    decide_eq_true_iff.mp hx
  refine lt_zero_iff.mp h (notBelow_of_compare fun hgt => ?_)
  rw [unpack_zero, hgt] at hcompare
  cases hcompare

/-- What zero is not above is not below it. -/
theorem not_lt_zero_of_le (h : 0 ≤ x) : ¬ x < 0 := by
  have hcompare : ((0 : Float32).toModel.unpack.compare x.toModel.unpack).any (·.isLE) = true :=
    decide_eq_true_iff.mp h
  refine not_lt_zero_iff.mpr (notBelow_of_compare fun hgt => ?_)
  rw [unpack_zero, hgt] at hcompare
  cases hcompare

/-- A product of quotients of counts is not below zero. -/
theorem not_ratio_lt_zero (whole part : UInt32) : ¬ 1 / whole.toFloat32 * part.toFloat32 < 0 := by
  have hone : Plus (1 : Float32).toModel.unpack := .finite
  have hcount (count : UInt32) : Plus count.toFloat32.toModel.unpack :=
    (plus_ofNat _ count.toNat).repack
  rw [not_lt_zero_iff]
  exact .plus (((hone.div (hcount whole) _).repack.mul (hcount part) _).repack)

end PulseTrain.Single
