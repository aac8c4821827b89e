import Mathlib
import PulseTrain.Proofs.Single.Sign

/-!
# Packed and unpacked numbers

A single-precision number is kept in 32 bits and calculated with as a significand and an exponent.
Packing loses nothing of a number that fits into the format, and unpacking never gives anything
else.

* **`Kept`**: the significands and exponents that fit; **`Canonical`**: the unpacked numbers that
  do.
* **`canonical_unpack`**: a number unpacks to one that fits.
* **`unpack_pack`**: packing loses nothing of a number that fits; **`unpack_pack_large`**: a number
  too large becomes infinity.
* **`pack_unpack`**: a number is what its unpacked form packs to, so that no two numbers unpack to
  the same.
-/

namespace PulseTrain.Single

open Float.Model (Format UnpackedFloat)
open Float.Model.UnpackedFloat (Sign packComponents unpackSign unpackExponent unpackMantissa
  packComponents_unpackSign_unpackExponent_unpackMantissa unpack_inj_of_valid)

/-- The significand and the exponent with which a finite number is kept: all 24 bits are used,
unless the exponent is the least one. -/
structure Kept (m : ℕ) (e : ℤ) : Prop where
  lt : m < 2 ^ 24
  least : -149 ≤ e
  most : e ≤ 104
  full : 2 ^ 23 ≤ m ∨ e = -149

/-- An unpacked number that fits into the format. -/
inductive Canonical : UnpackedFloat → Prop where
  | nan : Canonical .notANumber
  | infinity (s : Sign) : Canonical (.infinity s)
  | zero (s : Sign) : Canonical (.zero s)
  | finite (s : Sign) {m : ℕ} {e : ℤ} {hm : 0 < m} (h : Kept m e) : Canonical (.finite s m e hm)

/-! ## The three fields -/

/-- The leading bit of a normal number is not stored. -/
theorem toNat_significand (mantissa : BitVec 23) :
    (1#1 ++ mantissa).toNat = 2 ^ 23 + mantissa.toNat := by
  rw [BitVec.toNat_append, ← Nat.shiftLeft_add_eq_or_of_lt mantissa.isLt]
  rfl

/-- A number by the three fields of its bits. -/
theorem unpack_components (s : Sign) (exponent : BitVec 8) (mantissa : BitVec 23) :
    UnpackedFloat.unpack Format.binary32 (packComponents Format.binary32 s exponent mantissa) =
      if exponent = -1#8 then (if mantissa = 0#23 then .infinity s else .notANumber)
      else if exponent = 0#8 then
        if h : mantissa = 0#23 then .zero s
        else .finite s mantissa.toNat (-149) (by simpa [BitVec.toNat_pos, BitVec.pos_iff_ne_zero])
      else .finite s (2 ^ 23 + mantissa.toNat) (exponent.toNat - 150) (by omega) := by
  unfold UnpackedFloat.unpack
  simp only [Float.Model.UnpackedFloat.unpackMantissa_packComponents,
    Float.Model.UnpackedFloat.unpackExponent_packComponents, unpackSign_packComponents,
    Sign.ofBitVec_toBitVec, toNat_significand]
  -- the last exponent is that of infinity and NaN, and the first one that of the numbers without a
  -- leading bit
  split
  · rfl
  · split
    · rename_i hfirst
      rw [hfirst]
      rfl
    · rfl

/-! ## Unpacking -/

/-- Whatever the bits are, what they unpack to fits. -/
theorem canonical_unpack_bits (bits : BitVec Format.binary32.numBits) :
    Canonical (UnpackedFloat.unpack Format.binary32 bits) := by
  have hexponent : (unpackExponent bits).toNat < 256 := (unpackExponent bits).isLt
  have hmantissa : (unpackMantissa bits).toNat < 2 ^ 23 := (unpackMantissa bits).isLt
  rw [← packComponents_unpackSign_unpackExponent_unpackMantissa bits, unpack_components]
  split
  · split
    · exact .infinity _
    · exact .nan
  · -- what is left is finite, since the last exponent is out
    rename_i hlast
    have hlast' : (unpackExponent bits).toNat ≠ 255 := fun heq => hlast (BitVec.eq_of_toNat_eq heq)
    split
    · split
      · exact .zero _
      · exact .finite _ ⟨by omega, le_rfl, by omega, .inr rfl⟩
    · rename_i hfirst
      have hfirst' : (unpackExponent bits).toNat ≠ 0 :=
        fun heq => hfirst (BitVec.eq_of_toNat_eq heq)
      exact .finite _ ⟨by omega, by omega, by omega, .inl (by omega)⟩

/-- **A number unpacks to one that fits.** -/
theorem canonical_unpack (x : Float32) : Canonical x.toModel.unpack := canonical_unpack_bits _

/-! ## Packing -/

/-- A finite number by the fields that it is packed into. -/
theorem pack_finite (s : Sign) {m : ℕ} (e : ℤ) (hm : 0 < m) :
    UnpackedFloat.pack Format.binary32 (.finite s m e hm) =
      if 256 ≤ (e + 150).toNat + 1 then packComponents Format.binary32 s (-1#8) 0#23
      else if m.log2 = 23 then
        packComponents Format.binary32 s (BitVec.ofNat 8 (e + 150).toNat) (BitVec.ofNat 23 m)
      else packComponents Format.binary32 s 0#8 (BitVec.ofNat 23 m) := by
  have hbias : e + (Format.binary32.exponentBias : ℤ) + (23 : ℕ) = e + 150 := by
    rw [show Format.binary32.exponentBias = 127 from rfl]
    omega
  have hwidth : (m.log2 + 1 = Format.binary32.mantissaBits) = (m.log2 = 23) := by
    rw [show Format.binary32.mantissaBits = 24 from rfl]
    exact propext (by omega)
  unfold UnpackedFloat.pack
  simp only [hbias, hwidth]
  rfl

/-- A significand and an exponent that fit come back. -/
theorem unpack_pack_kept (s : Sign) {m : ℕ} {e : ℤ} (hm : 0 < m) (h : Kept m e) :
    (Float32.Model.pack (.finite s m e hm)).unpack = .finite s m e hm := by
  obtain ⟨hlt, hleast, hmost, hfull⟩ := h
  show UnpackedFloat.unpack Format.binary32 (UnpackedFloat.pack Format.binary32 _) = _
  rw [pack_finite, if_neg (by omega)]
  -- a significand of 24 bits is packed without its leading bit, and a shorter one as it is
  by_cases hnormal : m.log2 = 23
  · have hge : 2 ^ 23 ≤ m := hnormal ▸ Nat.log2_self_le hm.ne'
    have hexponent : (BitVec.ofNat 8 (e + 150).toNat).toNat = (e + 150).toNat := by
      rw [BitVec.toNat_ofNat, Nat.mod_eq_of_lt (by omega)]
    have hmantissa : (BitVec.ofNat 23 m).toNat = m - 2 ^ 23 := by
      rw [BitVec.toNat_ofNat]
      omega
    have hfirst : BitVec.ofNat 8 (e + 150).toNat ≠ 0#8 := by
      rw [ne_eq, ← BitVec.toNat_inj, hexponent]
      simp only [BitVec.toNat_ofNat]
      omega
    have hlast : BitVec.ofNat 8 (e + 150).toNat ≠ -1#8 := by
      rw [ne_eq, ← BitVec.toNat_inj, hexponent, show (-1#8).toNat = 255 from rfl]
      omega
    rw [if_pos hnormal, unpack_components, if_neg hlast, if_neg hfirst, UnpackedFloat.finite.injEq]
    exact ⟨rfl, by omega, by omega⟩
  · -- a significand that leaves bits unused has the least exponent
    have hlog : m.log2 < 24 := (Nat.log2_lt hm.ne').mpr hlt
    have hlt' : m < 2 ^ 23 := (Nat.log2_lt hm.ne').mp (by omega)
    obtain rfl : e = -149 := hfull.resolve_left (by omega)
    have hmantissa : (BitVec.ofNat 23 m).toNat = m := by
      rw [BitVec.toNat_ofNat, Nat.mod_eq_of_lt hlt']
    have hzero : BitVec.ofNat 23 m ≠ 0#23 := by
      rw [ne_eq, ← BitVec.toNat_inj, hmantissa]
      exact hm.ne'
    rw [if_neg hnormal, unpack_components, if_neg (by decide), if_pos rfl, dif_neg hzero,
      UnpackedFloat.finite.injEq]
    exact ⟨rfl, hmantissa, rfl⟩

/-- **Packing loses nothing of a number that fits.** -/
theorem unpack_pack {x : UnpackedFloat} (h : Canonical x) : (Float32.Model.pack x).unpack = x := by
  cases h with
  | nan => rfl
  | infinity s => cases s <;> rfl
  | zero s => cases s <;> rfl
  | @finite s m e hm h => exact unpack_pack_kept s hm h

/-- An exponent that does not fit is that of infinity. -/
theorem unpack_pack_large (s : Sign) {m : ℕ} {e : ℤ} (hm : 0 < m) (h : 105 ≤ e) :
    (Float32.Model.pack (.finite s m e hm)).unpack = .infinity s := by
  show UnpackedFloat.unpack Format.binary32 (UnpackedFloat.pack Format.binary32 _) = _
  rw [pack_finite, if_pos (by omega), unpack_components]
  rfl

/-- **A number is what its unpacked form packs to.** -/
theorem pack_unpack (x : Float32) : .ofModel (.pack x.toModel.unpack) = x := Float32.ofBits_toBits x

/-- No two numbers unpack to the same. -/
theorem eq_of_unpack_eq {x y : Float32} (h : x.toModel.unpack = y.toModel.unpack) : x = y :=
  Float32.toBits_inj.mp (UInt32.toBitVec_inj.mp
    ((unpack_inj_of_valid x.toModel.valid y.toModel.valid).mp h))

end PulseTrain.Single
