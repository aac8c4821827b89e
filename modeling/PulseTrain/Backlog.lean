/-!
# The backlog of finished blocks

How many blocks have finished and are not yet reported. The tick side adds to it with `Backlog.add`,
the report side empties it with `Backlog.drain`, one block at a time; `Backlog.drain_eq` says that
exactly the pending blocks are taken out.
-/

namespace PulseTrain

/-- Finished blocks that are not yet reported. -/
structure Backlog where
  pending : UInt32 := 0
deriving DecidableEq, Repr

namespace Backlog

def add (b : Backlog) : Backlog := ⟨b.pending + 1⟩

/-- Takes one finished block out, if there is one. -/
def take? (b : Backlog) : Option Backlog :=
  if b.pending = 0 then none else some ⟨b.pending - 1⟩

/-- There is nothing to take out exactly where nothing is pending. -/
theorem take?_eq_none_iff (b : Backlog) : b.take? = none ↔ b.pending = 0 := by
  unfold take?
  split <;> simp_all

/-- To take a block out is to have one less: the count does not wrap, since it was not zero. -/
theorem toNat_pending_of_take? {b c : Backlog} (h : b.take? = some c) :
    b.pending.toNat = c.pending.toNat + 1 := by
  unfold take? at h
  split at h
  · contradiction
  · rename_i hne
    obtain rfl := Option.some.inj h
    have hpos : b.pending.toNat ≠ 0 := fun h0 => hne (UInt32.toNat_inj.1 h0)
    have hle : (1 : UInt32) ≤ b.pending := UInt32.le_iff_toNat_le.2 (by simp; omega)
    rw [UInt32.toNat_sub_of_le _ _ hle]
    simp; omega

/-- Takes finished blocks out until none is left, and counts them. -/
def drain (b : Backlog) : Nat × Backlog :=
  match _ : b.take? with
  | none => (0, b)
  | some rest =>
    let (count, last) := rest.drain
    (count + 1, last)
termination_by b.pending.toNat
decreasing_by
  have := toNat_pending_of_take? ‹_›
  omega

/-- Draining counts every pending block once and leaves none. -/
theorem drain_eq (b : Backlog) : b.drain = (b.pending.toNat, {}) := by
  fun_induction drain b with
  | case1 b h =>
    have h := (take?_eq_none_iff b).1 h
    cases b
    simp_all
  | case2 b rest h count last hdrain ih =>
    simp [hdrain] at ih
    simp [toNat_pending_of_take? h, ih]

end Backlog

end PulseTrain
