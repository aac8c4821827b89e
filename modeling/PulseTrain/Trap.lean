/-!
# Traps

The definitions of this library are total: an access gives an option, a shift by too much gives zero
and a count wraps. A processor stops instead. The operations here stop where it does, and each of
them says when it does not.
-/

namespace PulseTrain

/-- What stops a processor. -/
inductive Trap where
  /-- An entry that a table of this size does not have. -/
  | access (i size : Nat)
  /-- A shift by the width of the word or more. -/
  | shift (amount : Nat)
  /-- A count that passes the largest number. -/
  | overflow
deriving DecidableEq, Repr

/-- An access to a table with `size` entries. -/
def access (size i : Nat) : Except Trap (Fin size) :=
  if h : i < size then .ok ⟨i, h⟩ else .error (.access i size)

/-- An entry that is there can be had. -/
theorem access_val {size : Nat} (i : Fin size) : access size i.val = .ok i :=
  dif_pos i.isLt

/-- Counts one more. -/
def countUp (count : UInt32) : Except Trap UInt32 :=
  if count.toNat + 1 < UInt32.size then .ok (count + 1) else .error .overflow

/-- Below the largest number there is one more to count. -/
theorem countUp_eq {count : UInt32} (h : count.toNat + 1 < UInt32.size) :
    countUp count = .ok (count + 1) :=
  if_pos h

end PulseTrain
