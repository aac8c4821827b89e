import Mathlib.Data.List.Sort
import PulseTrain.SlotSet

/-!
# Draining a set of slots

To take the lowest slot out again and again gives every slot of the set once, in ascending order.

* **`contains_of_pop?`**: what is left is the set without the slot that was taken out.
* **`lt_of_pop?`**: that slot was the lowest.
* **`drain_eq_toList`**: draining gives the slots of the set in ascending order.
-/

namespace PulseTrain.SlotSet

/-- Subtracting one clears the lowest bit that is set and leaves those above it alone. -/
theorem testBit_and_sub_one {x k : Nat} (hlow : ∀ i < k, x.testBit i = false)
    (hbit : x.testBit k = true) (i : Nat) :
    (x &&& (x - 1)).testBit i = (x.testBit i && i != k) := by
  -- without its low zeros the number is odd, and one less than that is even
  have hx : x = 2 ^ k * (x / 2 ^ k) := by
    have hmod : x % 2 ^ k = 0 := by
      apply Nat.eq_of_testBit_eq
      intro j
      rw [Nat.testBit_mod_two_pow, Nat.zero_testBit]
      by_cases hj : j < k
      · rw [hlow j hj, Bool.and_false]
      · simp [hj]
    have hdiv := Nat.div_add_mod x (2 ^ k)
    omega
  obtain ⟨half, hodd⟩ : ∃ half, x / 2 ^ k = 2 * half + 1 := by
    have hk : (x / 2 ^ k).testBit 0 = true := by
      rw [Nat.testBit_div_two_pow, Nat.zero_add]
      exact hbit
    rw [Nat.testBit_zero, decide_eq_true_eq] at hk
    exact ⟨x / 2 ^ k / 2, by omega⟩
  have hpow : 0 < 2 ^ k := Nat.two_pow_pos k
  have hpred : x - 1 = 2 ^ k * (2 * half) + (2 ^ k - 1) := by
    rw [hodd, Nat.mul_add, Nat.mul_one] at hx
    omega
  rw [Nat.testBit_and]
  rcases Nat.lt_trichotomy i k with hi | rfl | hi
  · rw [hlow i hi, Bool.false_and, Bool.false_and]
  · -- the bit itself is cleared
    have hcleared : (x - 1).testBit i = false := by
      rw [hpred, Nat.testBit_two_pow_mul_add _ (by omega), if_neg (Nat.lt_irrefl i), Nat.sub_self]
      simp
    rw [hcleared, Bool.and_false, bne_self_eq_false, Bool.and_false]
  · -- above it, an odd number and its predecessor have the same bits
    have hsame : (x - 1).testBit i = x.testBit i := by
      obtain ⟨d, hd⟩ : ∃ d, i - k = d + 1 := ⟨i - k - 1, by omega⟩
      rw [hpred, Nat.testBit_two_pow_mul_add _ (by omega), if_neg (by omega), hx, hodd,
        Nat.testBit_two_pow_mul, hd, Nat.testBit_succ, Nat.testBit_succ]
      have hle : k ≤ i := Nat.le_of_lt hi
      simp [hle]
      congr 1
      omega
    have hne : (i != k) = true := bne_iff_ne.mpr (by omega)
    rw [hsame, Bool.and_self, hne, Bool.and_true]

/-! ## Taking one slot out -/

/-- The slot that is taken out is the lowest bit that is set, which is then cleared. -/
theorem bits_ne_zero_of_pop? {s t : SlotSet} {slot : Nat} (h : s.pop? = some (slot, t)) :
    s.bits ≠ 0#32 ∧ slot = s.bits.ctz.toNat ∧ t.bits = s.bits &&& (s.bits - 1) := by
  unfold pop? isEmpty at h
  split at h
  · cases h
  · rename_i hne
    cases h
    exact ⟨by simpa using hne, rfl, rfl⟩

theorem contains_lowest {s t : SlotSet} {slot : Nat} (h : s.pop? = some (slot, t)) :
    s.contains slot = true := by
  obtain ⟨hne, rfl, -⟩ := bits_ne_zero_of_pop? h
  exact BitVec.getLsbD_true_ctz_of_ne_zero hne

/-- No slot of the set is below the one that is taken out. -/
theorem lowest_le {s t : SlotSet} {slot other : Nat} (h : s.pop? = some (slot, t))
    (hother : s.contains other = true) : slot ≤ other := by
  obtain ⟨-, rfl, -⟩ := bits_ne_zero_of_pop? h
  by_contra hlt
  rw [contains, BitVec.getLsbD_false_of_lt_ctz (Nat.lt_of_not_le hlt)] at hother
  cases hother

/-- **What is left is the set without the slot that was taken out.** -/
theorem contains_of_pop? {s t : SlotSet} {slot : Nat} (h : s.pop? = some (slot, t)) (other : Nat) :
    t.contains other = (s.contains other && other != slot) := by
  -- all bits below the slot are clear, since it is the lowest one of the set
  have hlow : ∀ i < slot, s.bits.toNat.testBit i = false := by
    intro i hi
    rw [Bool.eq_false_iff]
    intro hbit
    have hle := lowest_le h (show s.contains i = true from hbit)
    omega
  have hbit : s.bits.toNat.testBit slot = true := contains_lowest h
  obtain ⟨hne, -, hrest⟩ := bits_ne_zero_of_pop? h
  have hpos : s.bits.toNat ≠ 0 := fun h0 => hne (BitVec.eq_of_toNat_eq (by simpa using h0))
  have hsub : (s.bits - 1).toNat = s.bits.toNat - 1 := by
    rw [BitVec.toNat_sub_of_le (by simp [BitVec.le_def]; omega)]
    rfl
  show t.bits.toNat.testBit other = (s.bits.toNat.testBit other && other != slot)
  rw [hrest, BitVec.toNat_and, hsub]
  exact testBit_and_sub_one hlow hbit other

/-! ## Taking all slots out -/

/-- Draining gives exactly the slots of the set. -/
theorem mem_drain (s : SlotSet) (slot : Nat) : slot ∈ s.drain ↔ s.contains slot = true := by
  -- induction along the loop: what is not the lowest slot is in the set that is left
  fun_induction drain s with
  | case1 s hpop =>
    have hempty : s.bits = 0#32 := by
      unfold pop? isEmpty at hpop
      split at hpop
      · rename_i hzero
        simpa using hzero
      · cases hpop
    simp [contains, hempty]
  | case2 s lowest rest hpop ih =>
    rw [List.mem_cons, ih, contains_of_pop? hpop]
    by_cases hslot : slot = lowest
    · simp [hslot, contains_lowest hpop]
    · simp [hslot]

/-- Draining gives the slots in ascending order. -/
theorem pairwise_drain (s : SlotSet) : s.drain.Pairwise (· < ·) := by
  fun_induction drain s with
  | case1 => exact .nil
  | case2 s lowest rest hpop ih =>
    refine .cons ?_ ih
    intro slot hmem
    -- a slot that is left is in the set, so not below the lowest, and is not the lowest itself
    rw [mem_drain, contains_of_pop? hpop, Bool.and_eq_true, bne_iff_ne] at hmem
    exact Nat.lt_of_le_of_ne (lowest_le hpop hmem.1) hmem.2.symm

@[simp] theorem mem_toList (s : SlotSet) (slot : Nat) :
    slot ∈ s.toList ↔ s.contains slot = true := by
  rw [toList, List.mem_filter, List.mem_range]
  exact ⟨fun h => h.2, fun h => ⟨lt_of_contains h, h⟩⟩

theorem pairwise_toList (s : SlotSet) : s.toList.Pairwise (· < ·) :=
  (List.sortedLT_range 32).pairwise.filter _

/-- **Draining gives the slots of the set in ascending order**, each of them once. -/
theorem drain_eq_toList (s : SlotSet) : s.drain = s.toList := by
  refine s.pairwise_drain.sortedLT.eq_of_mem_iff s.pairwise_toList.sortedLT ?_
  intro slot
  rw [mem_drain, mem_toList]

end PulseTrain.SlotSet
