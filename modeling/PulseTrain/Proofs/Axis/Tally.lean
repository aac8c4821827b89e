import PulseTrain.Motion.Axis

/-!
# The step count of one axis

Whatever the rates are, an axis neither adds nor drops a step. The floating-point side of a tick
(`accelerate`, `switchPhase`, `keepMoving`) decides only *when* a step is due; how many were
emitted and how many are owed is integer bookkeeping of `emit`.

* **`Tallies`**: the bookkeeping is right for a number of steps: no more are emitted than that,
  and the target is given up exactly when all of them are.
* **`tallies_ofBlock`**, **`Tallies.tick`**: it is right at the beginning of a block and stays so.
* **`Tallies.emitted_tick`**: a tick counts one step if one is due, and none otherwise.
-/

namespace PulseTrain.Axis

/-! ## What the rates leave alone -/

/-- What comes before `emit` in a tick touches the rates and not the counts. -/
@[simp] theorem accelerate_target (a : Axis) : a.accelerate.target = a.target := rfl

@[simp] theorem accelerate_emitted (a : Axis) : a.accelerate.emitted = a.emitted := rfl

@[simp] theorem levelOff_target (a : Axis) (t : UInt32) (p : Profile) (f : Float32) :
    (a.levelOff t p f).target = a.target := by
  unfold levelOff
  dsimp only
  split
  · split <;> rfl
  · rfl

@[simp] theorem levelOff_emitted (a : Axis) (t : UInt32) (p : Profile) (f : Float32) :
    (a.levelOff t p f).emitted = a.emitted := by
  unfold levelOff
  dsimp only
  split
  · split <;> rfl
  · rfl

/-- To begin another phase leaves the number of steps alone, in whichever order the two switches
come. -/
@[simp] theorem switchPhase_target (a : Axis) (t : UInt32) (p : Profile) (f : Float32) :
    (a.switchPhase t p f).target = a.target := by
  unfold switchPhase
  split
  · rfl
  · dsimp only
    split <;> split <;> simp

@[simp] theorem switchPhase_emitted (a : Axis) (t : UInt32) (p : Profile) (f : Float32) :
    (a.switchPhase t p f).emitted = a.emitted := by
  unfold switchPhase
  split
  · rfl
  · dsimp only
    split <;> split <;> simp

/-- The carry that keeps an axis from standing still is not counted as a step. -/
@[simp] theorem keepMoving_target (a : Axis) : a.keepMoving.target = a.target := by
  unfold keepMoving
  split <;> rfl

@[simp] theorem keepMoving_emitted (a : Axis) : a.keepMoving.emitted = a.emitted := by
  unfold keepMoving
  split <;> rfl

/-! ## What `emit` counts -/

/-- Where no step is due, nothing is counted. -/
theorem emit_of_not_due {a : Axis} (h : a.emit.2 = false) :
    a.emit.1.target = a.target ∧ a.emit.1.emitted = a.emitted := by
  unfold emit at h ⊢
  dsimp only at h ⊢
  split at h
  · -- the carry is below one, which is the branch without a step
    rename_i hcarry
    rw [if_pos hcarry]
    exact ⟨keepMoving_target a, keepMoving_emitted a⟩
  · exact absurd h (by simp)

/-- A step that is due is counted, and the last one gives the target up. -/
theorem emit_of_due {a : Axis} (h : a.emit.2 = true) :
    a.emit.1.emitted = a.emitted + 1 ∧
      a.emit.1.target = if a.emitted + 1 = a.target then 0 else a.target := by
  unfold emit at h ⊢
  dsimp only at h ⊢
  split at h
  · exact absurd h (by simp)
  · rename_i hcarry
    rw [if_neg hcarry]
    simp

/-! ## The invariant -/

/-- The bookkeeping of the axis is right for a block that moves it by `steps`. -/
structure Tallies (a : Axis) (steps : UInt32) : Prop where
  emitted_le : a.emitted ≤ steps
  target_eq : a.target = if a.emitted = steps then 0 else steps

/-- An axis is active exactly as long as steps are missing. -/
theorem Tallies.isActive_iff {a : Axis} {steps : UInt32} (h : a.Tallies steps) :
    a.isActive = true ↔ a.emitted ≠ steps := by
  have hle := h.emitted_le
  rw [isActive, h.target_eq, bne_iff_ne]
  by_cases he : a.emitted = steps
  · simp [he]
  · rw [if_neg he]
    have hsteps : steps ≠ 0 := by
      intro h0
      -- nothing can be missing of no steps
      rw [h0] at hle he
      exact he (UInt32.le_antisymm hle UInt32.zero_le)
    exact iff_of_true hsteps he

/-- Only an axis that has steps is ever active. -/
theorem Tallies.steps_ne_zero {a : Axis} {steps : UInt32} (h : a.Tallies steps)
    (hactive : a.isActive = true) : steps ≠ 0 := by
  rintro rfl
  exact h.isActive_iff.mp hactive (UInt32.le_antisymm h.emitted_le UInt32.zero_le)

/-- Below the target, one more step neither wraps nor overshoots. -/
theorem Tallies.toNat_emitted_succ {a : Axis} {steps : UInt32} (h : a.Tallies steps)
    (hactive : a.isActive = true) :
    (a.emitted + 1).toNat = a.emitted.toNat + 1 ∧ a.emitted.toNat + 1 ≤ steps.toNat := by
  have hne : a.emitted.toNat ≠ steps.toNat :=
    fun heq => h.isActive_iff.mp hactive (UInt32.toNat_inj.mp heq)
  have hle : a.emitted.toNat ≤ steps.toNat := UInt32.le_iff_toNat_le.mp h.emitted_le
  have hlt : steps.toNat < 2 ^ 32 := steps.toNat_lt
  refine ⟨?_, by omega⟩
  rw [UInt32.toNat_add, UInt32.toNat_one, Nat.mod_eq_of_lt (by omega)]

/-- A block begins with no step made, whether or not it moves the slot. -/
@[simp] theorem ofBlock_emitted {n : Nat} (b : Block n) (slot : Fin n) (f : Float32) :
    (ofBlock b slot f).emitted = 0 := by
  unfold ofBlock
  dsimp only
  split <;> rfl

/-- An axis is given the steps that the block has for its slot; a slot that sits out is given
none. -/
@[simp] theorem ofBlock_target {n : Nat} (b : Block n) (slot : Fin n) (f : Float32) :
    (ofBlock b slot f).target = b.steps.get slot := by
  unfold ofBlock
  dsimp only
  split
  · rename_i hzero
    exact hzero.symm
  · rfl

/-- The bookkeeping is right at the beginning of a block. -/
theorem tallies_ofBlock {n : Nat} (b : Block n) (slot : Fin n) (f : Float32) :
    (ofBlock b slot f).Tallies (b.steps.get slot) where
  emitted_le := by
    rw [ofBlock_emitted]
    exact UInt32.zero_le
  target_eq := by
    rw [ofBlock_emitted, ofBlock_target]
    split
    · rename_i hzero
      exact hzero.symm
    · rfl

/-- It stays right whether or not a step is due. -/
theorem Tallies.emit {a : Axis} {steps : UInt32} (h : a.Tallies steps)
    (hactive : a.isActive = true) : a.emit.1.Tallies steps := by
  have hmissing : a.emitted ≠ steps := h.isActive_iff.mp hactive
  have htarget : a.target = steps := by rw [h.target_eq, if_neg hmissing]
  cases hdue : a.emit.2 with
  | false =>
    obtain ⟨htarget', hemitted'⟩ := emit_of_not_due hdue
    exact ⟨hemitted' ▸ h.emitted_le, by rw [htarget', hemitted']; exact h.target_eq⟩
  | true =>
    obtain ⟨hemitted', htarget'⟩ := emit_of_due hdue
    obtain ⟨hsucc, hle⟩ := h.toNat_emitted_succ hactive
    -- the step that is due was missing, so counting it neither wraps nor overshoots
    refine ⟨?_, ?_⟩
    · rw [hemitted', UInt32.le_iff_toNat_le, hsucc]
      exact hle
    · rw [htarget', hemitted', htarget]

/-- The count goes up by the bit of the tick. -/
theorem Tallies.emitted_emit {a : Axis} {steps : UInt32} (h : a.Tallies steps)
    (hactive : a.isActive = true) :
    a.emit.1.emitted.toNat = a.emitted.toNat + a.emit.2.toNat := by
  cases hdue : a.emit.2 with
  | false => rw [(emit_of_not_due hdue).2]; rfl
  | true => rw [(emit_of_due hdue).1, (h.toNat_emitted_succ hactive).1]; rfl

/-! ## A tick -/

/-- The bookkeeping does not see the part of a tick that comes before `emit`. -/
theorem Tallies.switchPhase {a : Axis} {steps : UInt32} (h : a.Tallies steps) (t : UInt32)
    (p : Profile) (f : Float32) : (a.accelerate.switchPhase t p f).Tallies steps :=
  -- both counts are read through the simp lemmas above
  ⟨by simpa using h.emitted_le, by simpa using h.target_eq⟩

/-- An axis does not become active or inactive before `emit`. -/
theorem switchPhase_isActive (a : Axis) (t : UInt32) (p : Profile) (f : Float32) :
    (a.accelerate.switchPhase t p f).isActive = a.isActive := by
  simp [isActive]

/-- **The bookkeeping stays right from tick to tick**, whatever the rates are. -/
theorem Tallies.tick {a : Axis} {steps : UInt32} (h : a.Tallies steps)
    (hactive : a.isActive = true) (t : UInt32) (p : Profile) (f : Float32) :
    (a.tick t p f).1.Tallies steps :=
  (h.switchPhase t p f).emit (by rw [switchPhase_isActive]; exact hactive)

/-- **A tick counts exactly the step that is due.** -/
theorem Tallies.emitted_tick {a : Axis} {steps : UInt32} (h : a.Tallies steps)
    (hactive : a.isActive = true) (t : UInt32) (p : Profile) (f : Float32) :
    (a.tick t p f).1.emitted.toNat = a.emitted.toNat + (a.tick t p f).2.toNat := by
  have hemit := (h.switchPhase t p f).emitted_emit (by rw [switchPhase_isActive]; exact hactive)
  rw [switchPhase_emitted, accelerate_emitted] at hemit
  exact hemit

end PulseTrain.Axis
