import PulseTrain.Trap

/-!
# Sets of slots

The slots whose step output is waiting to be released, one bit each. `SlotSet.pop?` takes the lowest
slot out, and `SlotSet.drain` takes all of them out in ascending order. `SlotSet.next` takes them
out call by call.

A set is shared by two sides: one flags slots, and the other takes what is flagged and leaves an
empty set. `SlotSet.call` is one such access, and `SlotSet.run` is any number of them.
-/

namespace PulseTrain

/-- A set of slots below 32. -/
structure SlotSet where
  /-- Bit `i` stands for slot `i`. -/
  bits : BitVec 32 := 0
deriving DecidableEq, Repr

/-- A call on a set of slots that two sides share. -/
inductive SetCall where
  | flag (slot : Nat)
  | peek
  | take
deriving DecidableEq, Repr

namespace SlotSet

def empty : SlotSet := {}

/-- Adds a slot below 32. -/
def insert (s : SlotSet) (slot : Nat) : SlotSet := ⟨s.bits ||| BitVec.twoPow 32 slot⟩

def contains (s : SlotSet) (slot : Nat) : Bool := s.bits.getLsbD slot

def isEmpty (s : SlotSet) : Bool := s.bits == 0

/-- The lowest slot of the set and the set without it: subtracting one from the bits changes exactly
the lowest one that is set and those below it. -/
def pop? (s : SlotSet) : Option (Nat × SlotSet) :=
  if s.isEmpty then none else some (s.bits.ctz.toNat, ⟨s.bits &&& (s.bits - 1)⟩)

/-- The bits lose their lowest one with every slot taken out. -/
theorem bits_lt_of_pop? {s t : SlotSet} {slot : Nat} (h : s.pop? = some (slot, t)) :
    t.bits.toNat < s.bits.toNat := by
  unfold pop? isEmpty at h
  split at h
  · contradiction
  · rename_i hne
    obtain ⟨-, rfl⟩ := Prod.mk.inj (Option.some.inj h)
    have hpos : s.bits.toNat ≠ 0 := fun h0 =>
      hne (by simpa using BitVec.eq_of_toNat_eq (y := 0#32) h0)
    have hsub : (s.bits - 1).toNat = s.bits.toNat - 1 := by
      rw [BitVec.toNat_sub_of_le (by simp [BitVec.le_def]; omega)]
      rfl
    -- the bits of the rest are among those of one less, and that does not wrap
    calc (s.bits &&& (s.bits - 1)).toNat ≤ (s.bits - 1).toNat := by
          rw [BitVec.toNat_and]; exact Nat.and_le_right
      _ < s.bits.toNat := by omega

/-- All slots of the set, taken out one by one. -/
def drain (s : SlotSet) : List Nat :=
  match _ : s.pop? with
  | none => []
  | some (slot, rest) => slot :: rest.drain
termination_by s.bits.toNat
decreasing_by exact bits_lt_of_pop? ‹_›

/-- A set without a lowest slot is drained at once. -/
theorem drain_eq_nil {s : SlotSet} (h : s.pop? = none) : s.drain = [] := by
  rw [drain]
  split
  · rfl
  · rename_i hpop
    rw [h] at hpop
    cases hpop

/-- The lowest slot comes first, and then the others. -/
theorem drain_eq_cons {s rest : SlotSet} {slot : Nat} (h : s.pop? = some (slot, rest)) :
    s.drain = slot :: rest.drain := by
  rw [drain]
  split
  · rename_i hpop
    rw [h] at hpop
    cases hpop
  · rename_i hpop
    rw [h] at hpop
    cases hpop
    rfl

/-- Takes the lowest slot out, which is the answer. A set without slots stays as it is. -/
def next (s : SlotSet) : SlotSet × Option Nat :=
  match s.pop? with
  | none => (s, none)
  | some (slot, rest) => (rest, some slot)

/-- How many slots there are, counted by taking them out one by one. -/
def count (s : SlotSet) : Nat :=
  match _ : s.pop? with
  | none => 0
  | some (_, rest) => rest.count + 1
termination_by s.bits.toNat
decreasing_by exact bits_lt_of_pop? ‹_›

/-- One call hands out the first of the slots that draining gives. -/
theorem next_answer (s : SlotSet) : s.next.2 = s.drain.head? := by
  unfold next
  cases hpop : s.pop? with
  | none =>
    rw [drain_eq_nil hpop]
    rfl
  | some found =>
    rw [drain_eq_cons hpop]
    rfl

/-- What is left after a call is the rest of the draining. -/
theorem drain_next (s : SlotSet) : s.next.1.drain = s.drain.tail := by
  unfold next
  cases hpop : s.pop? with
  | none => rw [drain_eq_nil hpop, List.tail_nil]
  | some found => rw [drain_eq_cons hpop, List.tail_cons]

/-- Counting and draining take the same slots out. -/
theorem count_eq_length (s : SlotSet) : s.count = s.drain.length := by
  -- counting and draining recurse on the same rest
  fun_induction count s with
  | case1 s hpop => rw [drain_eq_nil hpop, List.length_nil]
  | case2 s slot rest hpop ih => rw [drain_eq_cons hpop, List.length_cons, ih]

/-- The slots of the set in ascending order, said by membership. -/
def toList (s : SlotSet) : List Nat := (List.range 32).filter s.contains

/-! ## Calls -/

/-- Adds a slot to a set of slots, which are the bits of one word. -/
def flag (set : SlotSet) (slot : Nat) : Except Trap SlotSet :=
  if slot < 32 then .ok (set.insert slot) else .error (.shift slot)

/-- A call on a set, with what it answers. A slot that the word has no bit for cannot be flagged. -/
def call (s : SlotSet) : SetCall → Except Trap (SlotSet × Option SlotSet)
  | .flag slot => do return (← s.flag slot, none)
  | .peek => return (s, some s)
  | .take => return (empty, some s)

/-- Calls in a row, with all that they answer. -/
def run (s : SlotSet) : List SetCall → Except Trap (SlotSet × List (Option SlotSet))
  | [] => return (s, [])
  | c :: rest => do
    let (next, answer) ← s.call c
    let (last, answers) ← next.run rest
    return (last, answer :: answers)

/-- Any slot that a word has a bit for can be flagged. -/
theorem flag_eq {slot : Nat} (h : slot < 32) (set : SlotSet) :
    set.flag slot = .ok (set.insert slot) :=
  if_pos h

/-- The first call that is not trapped is answered, and the others go on from the set that it
leaves. -/
theorem run_cons {s next : SlotSet} {c : SetCall} {answer : Option SlotSet}
    (h : s.call c = .ok (next, answer)) (rest : List SetCall) :
    s.run (c :: rest) = (next.run rest).map fun o => (o.1, answer :: o.2) := by
  rw [run, h]
  show (next.run rest >>= fun o => pure (o.1, answer :: o.2)) = _
  cases next.run rest <;> rfl

/-! ## Members -/

@[simp] theorem contains_empty (slot : Nat) : empty.contains slot = false := by
  simp [empty, contains]

/-- A slot that is added is in the set, and no other slot comes or goes. A slot from 32 on cannot be
added. -/
@[simp] theorem contains_insert (s : SlotSet) (slot other : Nat) :
    (s.insert slot).contains other =
      (s.contains other || (decide (other < 32) && other == slot)) := by
  simp only [insert, contains, BitVec.getLsbD_or, BitVec.getLsbD_twoPow]
  grind

/-- No slot from 32 on is ever in a set. -/
theorem lt_of_contains {s : SlotSet} {slot : Nat} (h : s.contains slot) : slot < 32 :=
  BitVec.lt_of_getLsbD h

/-- There is no bit for a slot from 32 on. -/
theorem contains_of_le (s : SlotSet) {slot : Nat} (h : 32 ≤ slot) : s.contains slot = false :=
  BitVec.getLsbD_of_ge s.bits slot h

end SlotSet

end PulseTrain
