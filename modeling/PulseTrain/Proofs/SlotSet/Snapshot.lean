import Mathlib.Data.List.DropRight
import PulseTrain.Proofs.SlotSet.Drain

/-!
# Snapshots of a set of slots

One side adds slots to a set, one at a time, and the other side takes them all out at once and goes
through what it has taken. The bits of a word carry both: a slot is added by a shifted bit, and the
lowest slot is found and taken out by arithmetic on the word.

* **`sinceTake`**: the calls on a set after the last one that has taken its slots.
* **`Holds.call`**, **`Holds.run`**: a set holds the slots that were flagged since the last take.
* **`drain_skip`**: what is left after calls for the next slot is what is left of the list of slots.
* **`SlotSet.HandsOut`**: a set is gone through slot by slot, up to its end and no further.
* **`SlotSet.flagged_once`**: a snapshot has the slots flagged since the last take, and hands out
  each of them once.
-/

namespace PulseTrain

/-- What a call answers: the set as it is found, if the call reads it. -/
def SetCall.answer (s : SlotSet) : SetCall → Option SlotSet
  | .flag _ => none
  | .peek | .take => some s

/-- The calls after the last one that has taken the slots out. -/
def sinceTake (calls : List SetCall) : List SetCall := calls.rtakeWhile (· != .take)

/-- A take begins anew, and any other call comes after those since the last take. -/
theorem sinceTake_concat (calls : List SetCall) (c : SetCall) :
    sinceTake (calls ++ [c]) = if c = .take then [] else sinceTake calls ++ [c] := by
  unfold sinceTake
  rw [List.rtakeWhile_concat]
  by_cases htake : c = .take <;> simp [htake]

namespace SlotSet

/-! ## Words as sets -/

/-- The word with one bit, which is shifted to its place if the word has that place. -/
def singleBit (slot : Nat) : Except Trap (BitVec 32) :=
  if slot < 32 then .ok (1#32 <<< slot) else .error (.shift slot)

/-- Looks for the bit of a slot, unless the word is too short to have it. -/
def containsGuarded (s : SlotSet) (slot : Nat) : Except Trap Bool :=
  if slot < 32 then do return s.bits &&& (← singleBit slot) != 0
  else return false

/-- Masking with a single bit tests that bit. -/
theorem and_singleBit (x : BitVec 32) {slot : Nat} (h : slot < 32) :
    (x &&& 1#32 <<< slot != 0#32) = x.getLsbD slot := by
  have hmasked : x &&& 1#32 <<< slot =
      if x.getLsbD slot then BitVec.twoPow 32 slot else 0#32 := BitVec.and_twoPow x slot
  have hset : (BitVec.twoPow 32 slot).getLsbD slot = true := by
    rw [BitVec.getLsbD_twoPow, decide_eq_true h, decide_eq_true rfl]
    rfl
  -- the masked word is the single bit or nothing
  rw [hmasked]
  split
  · rename_i hbit
    rw [hbit, bne_iff_ne]
    intro hzero
    rw [hzero, BitVec.getLsbD_zero] at hset
    cases hset
  · rename_i hbit
    rw [Bool.not_eq_true] at hbit
    rw [hbit]
    rfl

/-- No slot is too high to be looked for. -/
theorem containsGuarded_eq (s : SlotSet) (slot : Nat) :
    s.containsGuarded slot = .ok (s.contains slot) := by
  unfold containsGuarded singleBit
  by_cases hslot : slot < 32
  · rw [if_pos hslot, if_pos hslot]
    exact congrArg Except.ok (and_singleBit s.bits hslot)
  · rw [if_neg hslot, s.contains_of_le (Nat.le_of_not_lt hslot)]
    rfl

/-- Counting the low bits of a word one at a time counts those that are set. -/
theorem cpopNatRec_eq_length {w : Nat} (x : BitVec w) (n : Nat) :
    x.cpopNatRec n 0 = ((List.range n).filter x.getLsbD).length := by
  induction n with
  | zero => rfl
  | succ n ih =>
    rw [BitVec.cpopNatRec_succ, BitVec.cpopNatRec_eq, ih, List.range_succ, List.filter_append,
      List.length_append]
    cases hbit : x.getLsbD n <;> simp [hbit]

/-- A set has as many slots as its word has bits that are set. -/
theorem length_toList (s : SlotSet) : s.toList.length = s.bits.cpop.toNat := by
  rw [BitVec.toNat_cpop, cpopNatRec_eq_length]
  rfl

/-! ## Flagging and taking -/

/-- A set holds the slots that were flagged since the last take, and no others. -/
def Holds (s : SlotSet) (calls : List SetCall) : Prop :=
  ∀ slot, s.contains slot = true ↔ .flag slot ∈ sinceTake calls

variable {s : SlotSet} {past calls : List SetCall}

/-- A new set holds what was flagged since no take at all, which is nothing. -/
theorem holds_empty : empty.Holds [] := by
  intro slot
  simp [sinceTake]

/-- **Every call keeps what the set holds**, and answers with it if it reads the set. -/
theorem Holds.call (h : s.Holds past) {c : SetCall} (hslot : ∀ slot, c = .flag slot → slot < 32) :
    ∃ next, s.call c = .ok (next, c.answer s) ∧ next.Holds (past ++ [c]) := by
  cases c with
  | flag slot =>
    have hlt : slot < 32 := hslot slot rfl
    refine ⟨s.insert slot, ?_, fun other => ?_⟩
    · rw [SlotSet.call, flag_eq hlt]
      rfl
    · -- what was held before, and the slot, which the word has a bit for
      rw [sinceTake_concat, if_neg nofun, List.mem_append, List.mem_singleton, SetCall.flag.injEq,
        ← h other, contains_insert, Bool.or_eq_true]
      grind
  | peek =>
    refine ⟨s, rfl, fun other => ?_⟩
    rw [sinceTake_concat, if_neg nofun, List.mem_append, List.mem_singleton, h other]
    simp
  -- the set that is left holds nothing, as nothing has been flagged since this take
  | take =>
    refine ⟨empty, rfl, fun other => ?_⟩
    rw [sinceTake_concat, if_pos rfl, contains_empty]
    simp

/-- **A set answers for the calls that came before**, wherever in a run it is read. -/
theorem Holds.run (h : s.Holds past) (hslots : ∀ slot, .flag slot ∈ calls → slot < 32) :
    ∃ last answers, s.run calls = .ok (last, answers) ∧ last.Holds (past ++ calls) ∧
      ∀ i c, calls[i]? = some c →
        ∃ found : SlotSet, found.Holds (past ++ calls.take i) ∧
          answers[i]? = some (c.answer found) := by
  -- on the calls still to come; those made so far move into the past that the set holds
  induction calls generalizing s past with
  | nil =>
    refine ⟨s, [], rfl, ?_, nofun⟩
    rw [List.append_nil]
    exact h
  | cons c rest ih =>
    obtain ⟨next, hcall, hnext⟩ := h.call fun slot hc => hslots slot (hc ▸ List.mem_cons_self)
    obtain ⟨last, answers, hrun, hlast, hanswers⟩ :=
      ih hnext fun slot hmem => hslots slot (List.mem_cons_of_mem c hmem)
    refine ⟨last, c.answer s :: answers, ?_, ?_, fun i c' hc' => ?_⟩
    · rw [run_cons hcall, hrun]
      rfl
    · rwa [List.append_assoc] at hlast
    · cases i with
      | zero =>
        cases hc'
        refine ⟨s, ?_, rfl⟩
        rw [List.take_zero, List.append_nil]
        exact h
      | succ i =>
        obtain ⟨found, hfound, hanswer⟩ := hanswers i c' hc'
        rw [List.append_assoc] at hfound
        exact ⟨found, hfound, hanswer⟩

/-! ## Going through a set -/

/-- What is left of a set after that many calls for the next slot. -/
def skip (s : SlotSet) : Nat → SlotSet
  | 0 => s
  | k + 1 => s.next.1.skip k

/-- The calls go on in the list of all slots. -/
theorem drain_skip (s : SlotSet) (k : Nat) : (s.skip k).drain = s.drain.drop k := by
  induction k generalizing s with
  | zero => rfl
  | succ k ih => rw [skip, ih, drain_next, List.drop_tail]

/-- A set hands out its slots in ascending order, call by call, and then nothing more; at any point
it counts the slots that are still to come. -/
structure HandsOut (s : SlotSet) (slots : List Nat) : Prop where
  ascending : slots.Pairwise (· < ·)
  mem_iff : ∀ slot, slot ∈ slots ↔ s.contains slot = true
  next : ∀ k, (s.skip k).next.2 = slots[k]?
  count : ∀ k, (s.skip k).count = slots.length - k

/-- Going through a set hands out its list. -/
theorem handsOut_toList (s : SlotSet) : s.HandsOut s.toList where
  ascending := s.pairwise_toList
  mem_iff := s.mem_toList
  next k := by
    rw [next_answer, drain_skip, List.head?_drop, drain_eq_toList]
  count k := by
    rw [count_eq_length, drain_skip, List.length_drop, drain_eq_toList]

/-- **Every slot that is flagged is handed out once.** Whatever the calls on a new set, as long as
the slots are below 32, they succeed, and whenever the set is read, what is found has exactly the
slots that were flagged since the last take. And whatever the bits of a set, it hands out exactly
the slots it contains, one a call and in ascending order, and then nothing for ever; it counts as
many as there are bits set; and it may be asked for any slot, but contains none from 32 on. -/
theorem flagged_once (calls : List SetCall) (hslots : ∀ slot, .flag slot ∈ calls → slot < 32)
    (set : SlotSet) :
    (∃ last answers, empty.run calls = .ok (last, answers) ∧
      (∀ i c, calls[i]? = some c → c = .peek ∨ c = .take →
        ∃ found, answers[i]? = some (some found) ∧
          ∀ slot, found.contains slot = true ↔ .flag slot ∈ sinceTake (calls.take i)) ∧
      ∀ slot, last.contains slot = true ↔ .flag slot ∈ sinceTake calls) ∧
    (∃ slots, set.HandsOut slots) ∧ set.count = set.bits.cpop.toNat ∧
      (∀ slot, set.containsGuarded slot = .ok (set.contains slot)) ∧
      ∀ slot, 32 ≤ slot → set.containsGuarded slot = .ok false := by
  -- the three kinds of calls by the invariant, and the set that is gone through by its list
  obtain ⟨last, answers, hrun, hlast, hanswers⟩ := holds_empty.run hslots
  refine ⟨⟨last, answers, hrun, fun i c hc hreads => ?_, hlast⟩, ⟨set.toList, set.handsOut_toList⟩,
    ?_, set.containsGuarded_eq, fun slot hslot => ?_⟩
  · obtain ⟨found, hfound, hanswer⟩ := hanswers i c hc
    refine ⟨found, ?_, hfound⟩
    rw [hanswer]
    rcases hreads with rfl | rfl <;> rfl
  · rw [count_eq_length, drain_eq_toList, length_toList]
  · rw [containsGuarded_eq, set.contains_of_le hslot]

/-- A slot is flagged twice before a take, and another one after it. -/
def twoTakes : List SetCall := [.flag 31, .flag 2, .peek, .flag 2, .take, .flag 7, .take]

/-- The first take has the first two slots, and the second one has only the third. -/
theorem flagged_once_twoTakes :
    (∀ slot, .flag slot ∈ twoTakes → slot < 32) ∧
      ∃ last answers first second, empty.run twoTakes = .ok (last, answers) ∧
        answers[4]? = some (some first) ∧ answers[6]? = some (some second) ∧
        (∀ slot, first.contains slot = true ↔ slot = 31 ∨ slot = 2) ∧
        (∀ slot, second.contains slot = true ↔ slot = 7) ∧
        (∀ slot, last.contains slot = false) ∧ (⟨0x80000004⟩ : SlotSet).count = 2 := by
  have hslots : ∀ slot, .flag slot ∈ twoTakes → slot < 32 := by simp [twoTakes]
  obtain ⟨⟨last, answers, hrun, hreads, hlast⟩, -, hcount, -⟩ :=
    flagged_once twoTakes hslots ⟨0x80000004⟩
  obtain ⟨first, hfirst, hfirstSlots⟩ := hreads 4 .take rfl (.inr rfl)
  obtain ⟨second, hsecond, hsecondSlots⟩ := hreads 6 .take rfl (.inr rfl)
  -- what was flagged before each of the two takes, and after the second
  have hsinceFirst : sinceTake (twoTakes.take 4) = [.flag 31, .flag 2, .peek, .flag 2] := by decide
  have hsinceSecond : sinceTake (twoTakes.take 6) = [.flag 7] := by decide
  have hsinceLast : sinceTake twoTakes = [] := by decide
  refine ⟨hslots, last, answers, first, second, hrun, hfirst, hsecond, fun slot => ?_,
    fun slot => ?_, fun slot => ?_, hcount.trans (by decide)⟩
  · rw [hfirstSlots, hsinceFirst]
    simp
  · rw [hsecondSlots, hsinceSecond]
    simp
  · rw [Bool.eq_false_iff, Ne, hlast, hsinceLast]
    exact List.not_mem_nil

end SlotSet

end PulseTrain
