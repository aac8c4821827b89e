import Mathlib.Data.List.DropRight
import PulseTrain.Proofs.Session.Effects
import PulseTrain.Proofs.Session.Run
import PulseTrain.Proofs.SlotSet.Drain

/-!
# Every pulse is released once

A step leaves an output high until the next expiry of the pulse timer. Which outputs are high is
kept in a set of slots, and the set is exactly what the history of the machine says: the slots
stepped since the last expiry, whatever sessions lie in between.

* **`Separated`**, **`Separated.append`**: two releases of a slot have a step between them.
* **`Armed`**, **`armed_tick`**: a tick restarts the pulse timer once, after its steps, or not at
  all.
* **`Machine.Releases`**: the invariant that ties the set to the transcript; **`Releases.tick`**,
  **`Releases.expire`** and **`Releases.call`**: what keeps it.
* **`steps_released_once`**: the same for every run from a creation on.
-/

namespace PulseTrain

variable {n : Nat}

/-! ## Histories of releases -/

/-- Two releases of a slot have a step of it between them. -/
def Separated (slot : Nat) (signals : List Signal) : Prop :=
  ∀ before between after,
    signals = before ++ .unstep slot :: (between ++ .unstep slot :: after) → .step slot ∈ between

/-- A place of a list that is not in its last part is in the first one. -/
theorem eq_append_of_not_mem {α : Type} {x : α} {front back before after : List α}
    (h : front ++ back = before ++ x :: after) (hx : x ∉ back) :
    ∃ rest, front = before ++ x :: rest ∧ after = rest ++ back := by
  rcases List.append_eq_append_iff.mp h with ⟨gap, -, hback⟩ | ⟨gap, hfront, hrest⟩
  · -- the place would lie behind the front
    rw [hback] at hx
    exact absurd (List.mem_append_right gap List.mem_cons_self) hx
  · cases gap with
    | nil =>
      have hmem : x ∈ back := by rw [← List.nil_append back, ← hrest]; exact List.mem_cons_self
      exact absurd hmem hx
    | cons y gap =>
      obtain ⟨rfl, hafter⟩ := List.cons.inj hrest
      exact ⟨gap, hfront, hafter⟩

/-- What releases nothing leaves the releases apart. -/
theorem Separated.append_quiet {slot : Nat} {signals more : List Signal}
    (h : Separated slot signals) (hmore : .unstep slot ∉ more) :
    Separated slot (signals ++ more) := by
  intro before between after heq
  rw [← List.cons_append, ← List.append_assoc] at heq
  obtain ⟨rest, hfront, -⟩ := eq_append_of_not_mem heq hmore
  rw [List.append_assoc, List.cons_append] at hfront
  exact h before between rest hfront

/-- A single release may follow if the slot was stepped and not released since some point. -/
theorem Separated.append_release {slot : Nat} {past since more : List Signal}
    (h : Separated slot (past ++ since)) (hstep : .step slot ∈ since)
    (hsince : .unstep slot ∉ since) (hmore : more.count (.unstep slot) ≤ 1) :
    Separated slot (past ++ since ++ more) := by
  intro before between after heq
  rw [← List.cons_append, ← List.append_assoc] at heq
  rcases List.append_eq_append_iff.mp heq with ⟨gap, hbefore, hgap⟩ | ⟨gap, hfront, hgap⟩
  · -- the second release is the new one, so the first one lies before all that came since
    have hfresh : .unstep slot ∉ gap := by
      rw [hgap, List.count_append, List.count_cons_self] at hmore
      exact List.count_eq_zero.mp (by omega)
    obtain ⟨rest, hfront, hbetween⟩ := eq_append_of_not_mem hbefore.symm hfresh
    obtain ⟨rest', -, hrest⟩ := eq_append_of_not_mem hfront hsince
    rw [hbetween, hrest]
    exact List.mem_append_left _ (List.mem_append_right _ hstep)
  · cases gap with
    | nil =>
      -- the second release is the new one again, and nothing precedes it in what follows
      rw [List.append_nil] at hfront
      obtain ⟨rest, -, hrest⟩ := eq_append_of_not_mem hfront hsince
      rw [hrest]
      exact List.mem_append_right _ hstep
    | cons signal gap =>
      -- both releases lie in the history
      obtain ⟨rfl, -⟩ := List.cons.inj hgap
      rw [List.append_assoc, List.cons_append] at hfront
      exact h before between gap hfront

namespace Transcript

/-- What has come of the calls since the last expiry. -/
def sinceExpiry (t : Transcript n) : Transcript n := t.rtakeWhile fun e => !e.isExpiry

/-- The slots stepped since the last expiry, in ascending order. -/
def waiting (t : Transcript n) : List Nat :=
  (List.range n).filter fun slot => decide (.step slot ∈ t.sinceExpiry.signals)

/-- An expiry begins anew, and every other exchange is added to what came since. -/
theorem sinceExpiry_concat (t : Transcript n) (e : Exchange n) :
    sinceExpiry (t ++ [e]) = if e.isExpiry then [] else t.sinceExpiry ++ [e] := by
  unfold sinceExpiry
  rw [List.rtakeWhile_concat]
  cases e.isExpiry <;> rfl

/-- What came since the last expiry is the end of the history. -/
theorem signals_eq_append_sinceExpiry (t : Transcript n) :
    ∃ past : List Signal, t.signals = past ++ t.sinceExpiry.signals := by
  obtain ⟨past, hpast⟩ := List.rtakeWhile_suffix (p := fun e : Exchange n => !e.isExpiry) (l := t)
  refine ⟨Transcript.signals past, ?_⟩
  rw [← signals_append]
  exact congrArg signals hpast.symm

/-- An exchange that is no expiry adds its signals to those that came since. -/
theorem mem_signals_sinceExpiry_concat {t : Transcript n} {e : Exchange n}
    (h : e.isExpiry = false) (signal : Signal) :
    signal ∈ (sinceExpiry (t ++ [e])).signals ↔
      signal ∈ t.sinceExpiry.signals ∨ signal ∈ e.signals := by
  rw [sinceExpiry_concat, h, if_neg Bool.false_ne_true, signals_concat, List.mem_append]

end Transcript

/-! ## What a tick flags and arms -/

/-- If there are steps among the signals, then the pulse timer is restarted once, after all of them;
otherwise it is not restarted. -/
structure Armed (signals : List Signal) : Prop where
  stepping : ∀ slot, .step slot ∈ signals → ∃ before after,
    signals = before ++ .restart .pulse :: after ∧ .restart .pulse ∉ before ∧
      .restart .pulse ∉ after ∧ ∀ other, .step other ∉ after
  still : (∀ slot, .step slot ∉ signals) → .restart .pulse ∉ signals

/-- What no tick sends needs no countdown: no step is among it. -/
theorem Armed.of_not_byTick {signals : List Signal}
    (h : ∀ signal ∈ signals, signal.byTick = false) : Armed signals where
  stepping slot hmem := absurd (h _ hmem) (by simp [Signal.byTick])
  still _ hmem := absurd (h _ hmem) (by simp [Signal.byTick])

namespace Session

/-- A set after slots are added to it one by one. All of them are below 32, so none is lost. -/
theorem contains_insertAll (hn : n ≤ 32) (slots : List (Fin n)) (set : SlotSet) (slot : Nat) :
    (slots.foldl (fun set (i : Fin n) => set.insert i) set).contains slot = true ↔
      set.contains slot = true ∨ ∃ i ∈ slots, i.val = slot := by
  -- on the slots that are still to be added
  induction slots generalizing set with
  | nil => simp
  | cons i slots ih =>
    have hi : i.val < 32 := Nat.lt_of_lt_of_le i.isLt hn
    have hinsert : (decide (slot < 32) && slot == i.val) = true ↔ i.val = slot := by
      rw [Bool.and_eq_true, decide_eq_true_eq, beq_iff_eq]
      omega
    rw [List.foldl_cons, ih, SlotSet.contains_insert, Bool.or_eq_true, hinsert, or_assoc,
      List.exists_mem_cons_iff]

/-- To finish a block leaves the set alone. -/
theorem flagged_finish (s : Session n) : s.finish.1.flagged = s.flagged := by
  cases handover_cases s with
  | rests _ hfinish => rw [hfinish]
  | handsOver b _ hfinish => rw [hfinish]; rfl

/-- The steps of a tick are those of the slots that are due. -/
theorem WakeCase.step_mem_tick {s : Session n} {b : Block n} (h : WakeCase s b) (slot : Nat) :
    .step slot ∈ s.tick.signals ↔ ∃ i ∈ s.awake.1.stepping, i.val = slot := by
  have hfilter : .step slot ∈ s.tick.signals ↔
      .step slot ∈ s.tick.signals.filter Signal.isStep := by
    simp [Signal.isStep]
  -- steps are sent by the advance only
  rw [hfilter, h.filter_isStep_tick]
  simp

/-- The slots that are due are added to the set. -/
theorem WakeCase.contains_flagged_moved {s : Session n} {b : Block n} (h : WakeCase s b)
    (hn : n ≤ 32) (slot : Nat) :
    s.moved.flagged.contains slot = true ↔
      s.flagged.contains slot = true ∨ .step slot ∈ s.tick.signals := by
  rw [moved, advance_fst, h.step_mem_tick, ← h.spares_awake.flagged]
  exact contains_insertAll hn _ _ _

/-- **A tick flags the slots that it steps**, and keeps those that were flagged. -/
theorem contains_flagged_tick (hn : n ≤ 32) (s : Session n) (slot : Nat) :
    s.tick.state.flagged.contains slot = true ↔
      s.flagged.contains slot = true ∨ .step slot ∈ s.tick.signals := by
  cases tick_cases s with
  | idle _ _ htick => rw [htick]; simp
  | runs b hwake _ htick =>
    rw [← hwake.contains_flagged_moved hn, htick]
  | ends b hwake _ htick =>
    rw [← hwake.contains_flagged_moved hn, htick]
    show s.moved.finish.1.flagged.contains slot = true ↔ _
    rw [flagged_finish]

/-- Only slots with a motor are stepped. -/
theorem lt_of_step_mem_tick {s : Session n} {slot : Nat} (h : .step slot ∈ s.tick.signals) :
    slot < n ∧ slot < s.motors.size := by
  -- a slot is due only if its axis is active, and that needs a motor
  have hstepping {b : Block n} (hwake : WakeCase s b) : slot < n ∧ slot < s.motors.size := by
    obtain ⟨i, hmem, rfl⟩ := (hwake.step_mem_tick slot).mp h
    rw [← hwake.motors_awake]
    exact ⟨i.isLt, ((ticked_due_iff _ i).mp (mem_stepping.mp hmem)).1⟩
  cases tick_cases s with
  | idle _ _ htick => rw [htick] at h; cases h
  | runs b hwake _ _ => exact hstepping hwake
  | ends b hwake _ _ => exact hstepping hwake

/-- The pulse timer is restarted behind the steps, and not at all if there are none, whatever comes
before and after them. -/
theorem armed_advance (s : Session n) {before : List Signal} (after : List Signal)
    (hbefore : ∀ signal ∈ before, ∃ slot d, signal = .direction slot d)
    (hafter : ∀ signal ∈ after, (∃ slot d, signal = .direction slot d) ∨ signal = .pend) :
    Armed (before ++ (s.advance.2 ++ after)) := by
  -- directions and the report are neither steps nor restarts
  have hcalm : ∀ signal ∈ before, (∀ slot, signal ≠ .step slot) ∧ signal ≠ .restart .pulse := by
    intro signal hmem
    obtain ⟨_, _, rfl⟩ := hbefore signal hmem
    exact ⟨nofun, nofun⟩
  have hcalm' : ∀ signal ∈ after, (∀ slot, signal ≠ .step slot) ∧ signal ≠ .restart .pulse := by
    intro signal hmem
    obtain ⟨_, _, rfl⟩ | rfl := hafter signal hmem <;> exact ⟨nofun, nofun⟩
  rw [advance_snd]
  cases hnone : s.stepping with
  | nil =>
    -- without steps the signals are those before and after
    have hstill : ∀ signal ∈ before ++ after, (∀ slot, signal ≠ .step slot) ∧
        signal ≠ .restart .pulse := by
      intro signal hmem
      exact (List.mem_append.mp hmem).elim (hcalm signal) (hcalm' signal)
    show Armed (before ++ after)
    exact ⟨fun slot hmem => absurd rfl ((hstill _ hmem).1 slot),
      fun _ hmem => absurd rfl (hstill _ hmem).2⟩
  -- the one restart comes between the steps and what follows
  | cons i rest =>
    have hparts : before ++ (((i :: rest).map (fun slot : Fin n => Signal.step slot) ++
        if (i :: rest).isEmpty then [] else [.restart .pulse]) ++ after) =
        (before ++ (i :: rest).map fun slot : Fin n => Signal.step slot) ++
          .restart .pulse :: after := by
      simp
    rw [hparts]
    refine ⟨fun _ _ => ⟨_, after, rfl, ?_, fun hmem => absurd rfl (hcalm' _ hmem).2,
      fun slot hmem => absurd rfl ((hcalm' _ hmem).1 slot)⟩, fun hstill => ?_⟩
    · intro hmem
      rcases List.mem_append.mp hmem with hmem | hmem
      · exact absurd rfl (hcalm _ hmem).2
      · obtain ⟨_, _, heq⟩ := List.mem_map.mp hmem
        cases heq
    · exact absurd (List.mem_append_left _ (List.mem_append_right _ List.mem_cons_self)) (hstill i)

/-- **A tick restarts the pulse timer once, after its steps, or not at all.** -/
theorem armed_tick (s : Session n) : Armed s.tick.signals := by
  have hawake : ∀ signal ∈ s.awake.2, ∃ slot d, signal = .direction slot d :=
    fun _ hmem => eq_direction_of_awake hmem
  cases tick_cases s with
  | idle _ _ htick => rw [htick]; exact .of_not_byTick (List.forall_mem_nil _)
  | runs b _ _ htick =>
    rw [htick]
    have harmed := armed_advance s.awake.1 [] hawake (List.forall_mem_nil _)
    rwa [List.append_nil] at harmed
  | ends b _ _ htick =>
    rw [htick]
    exact armed_advance s.awake.1 s.moved.finish.2 hawake fun _ hmem => eq_direction_of_finish hmem

/-! ## What an expiry releases -/

/-- **An expiry releases the slots of the set in ascending order**, if all of them have a motor. -/
theorem expire_eq {s : Session n}
    (h : ∀ slot, s.flagged.contains slot = true → slot < s.motors.size) :
    s.expire = ⟨{ s with flagged := .empty }, (), s.flagged.toList.map .unstep⟩ := by
  -- no slot of the set is passed over for want of a motor
  have hall : s.flagged.toList.filter (· < s.motors.size) = s.flagged.toList := by
    apply List.filter_eq_self.mpr
    intro slot hmem
    exact decide_eq_true (h slot ((s.flagged.mem_toList slot).mp hmem))
  rw [expire, SlotSet.drain_eq_toList]
  show Outcome.mk _ _ (List.map _ (s.flagged.toList.filter _)) = _
  rw [hall]

/-- Each slot of a set is released once, and no other slot. -/
theorem count_unstep_toList (set : SlotSet) (slot : Nat) :
    (set.toList.map Signal.unstep).count (.unstep slot) = (set.contains slot).toNat := by
  have hinj : Function.Injective Signal.unstep := fun i j h => Signal.unstep.inj h
  have hnodup : set.toList.Nodup := set.pairwise_toList.imp Nat.ne_of_lt
  rw [List.count_map_of_injective _ _ hinj, hnodup.count]
  cases hcontains : set.contains slot with
  | false => simp [hcontains]
  | true => simp [hcontains]

end Session

namespace Machine

/-! ## The set and the history -/

/-- Only a tick steps, so every exchange is armed. -/
theorem armed_exchange (m : Machine n) (ask : Call n) : Armed (m.exchange ask).signals := by
  by_cases hask : ask = .tick
  · cases m with
    | setup c => rw [hask]; exact .of_not_byTick (List.forall_mem_nil _)
    | running s => rw [hask]; exact s.armed_tick
  · refine .of_not_byTick fun signal hmem => ?_
    rw [Bool.eq_false_iff]
    intro hby
    exact hask (ask_eq_tick hmem hby)

/-- The set of slots that wait for release is what the transcript says it is. -/
structure Releases (m : Machine n) (t : Transcript n) : Prop where
  flagged_iff : ∀ slot,
    m.controller.flagged.contains slot = true ↔ .step slot ∈ t.sinceExpiry.signals
  wired : ∀ slot,
    m.controller.flagged.contains slot = true → slot < n ∧ slot < m.controller.motors.size
  -- one countdown covers all slots that wait
  restarted : ∀ slot,
    .step slot ∈ t.sinceExpiry.signals → .restart .pulse ∈ t.sinceExpiry.signals
  unreleased : ∀ slot, .unstep slot ∉ t.sinceExpiry.signals
  separated : ∀ slot, Separated slot t.signals
  -- a slot that waits has a step that no release answers yet
  unsteps_le : ∀ slot,
    t.unsteps slot + (m.controller.flagged.contains slot).toNat ≤ t.steps slot

/-- At the beginning nothing is flagged and nothing has happened. -/
theorem releases_of_empty {m : Machine n} (h : m.controller.flagged = {}) : m.Releases [] := by
  have hnone (slot : Nat) : m.controller.flagged.contains slot = false := by
    rw [h]
    exact SlotSet.contains_empty slot
  have hsince : (Transcript.sinceExpiry ([] : Transcript n)).signals = [] := rfl
  constructor
  case flagged_iff =>
    intro slot
    rw [hnone, hsince]
    exact iff_of_false Bool.false_ne_true List.not_mem_nil
  case wired =>
    intro slot hslot
    rw [hnone] at hslot
    cases hslot
  case restarted =>
    intro slot hmem
    cases hmem
  case unreleased =>
    intro slot hmem
    cases hmem
  case separated =>
    intro slot before between after heq
    exact absurd heq.symm (List.append_ne_nil_of_right_ne_nil _ (List.cons_ne_nil _ _))
  case unsteps_le =>
    intro slot
    rw [hnone]
    exact Nat.le_refl 0

/-- What is neither a tick nor an expiry leaves both the set and the history of pulses alone. -/
theorem Releases.quiet {m : Machine n} {t : Transcript n} (h : m.Releases t) {ask : Call n}
    (hby : ∀ signal ∈ (m.call ask).signals, signal.byTick = false)
    (hexpiry : (m.exchange ask).isExpiry = false)
    (hflagged : (m.call ask).state.controller.flagged = m.controller.flagged)
    (hsize : m.controller.motors.size ≤ (m.call ask).state.controller.motors.size) :
    (m.call ask).state.Releases (t ++ [m.exchange ask]) := by
  have hsteps (slot : Nat) : .step slot ∉ (m.exchange ask).signals :=
    fun hmem => Bool.false_ne_true (hby _ hmem).symm
  have hunsteps (slot : Nat) : .unstep slot ∉ (m.exchange ask).signals := by
    intro hmem
    rw [isExpiry_of_unstep hmem] at hexpiry
    cases hexpiry
  have hmem (signal : Signal) := Transcript.mem_signals_sinceExpiry_concat (t := t) hexpiry signal
  -- the six parts of the invariant: none of them is touched, as neither steps nor releases come in
  constructor
  case flagged_iff =>
    intro slot
    rw [hmem, hflagged, h.flagged_iff, or_iff_left (hsteps slot)]
  case wired =>
    intro slot hslot
    rw [hflagged] at hslot
    exact ⟨(h.wired slot hslot).1, Nat.lt_of_lt_of_le (h.wired slot hslot).2 hsize⟩
  case restarted =>
    intro slot hstep
    rw [hmem, or_iff_left (hsteps slot)] at hstep
    exact (hmem _).mpr (.inl (h.restarted slot hstep))
  case unreleased =>
    intro slot hunstep
    exact ((hmem _).mp hunstep).elim (h.unreleased slot) (hunsteps slot)
  case separated =>
    intro slot
    rw [Transcript.signals_concat]
    exact (h.separated slot).append_quiet (hunsteps slot)
  case unsteps_le =>
    intro slot
    rw [Transcript.steps_concat, Transcript.unsteps_concat, hflagged,
      List.count_eq_zero.mpr (hsteps slot), List.count_eq_zero.mpr (hunsteps slot)]
    exact h.unsteps_le slot

/-- **A tick keeps the set**: it flags what it steps, and arms the pulse timer for it. -/
theorem Releases.tick {s : Session n} {t : Transcript n} (h : (Machine.running s).Releases t)
    (hn : n ≤ 32) :
    (Machine.running s.tick.state).Releases (t ++ [(Machine.running s).exchange .tick]) := by
  have hexpiry : ((Machine.running s).exchange .tick).isExpiry = false := rfl
  have hflagged (slot : Nat) := s.contains_flagged_tick hn slot
  have hunsteps (slot : Nat) : .unstep slot ∉ s.tick.signals :=
    fun hmem => Bool.false_ne_true (Session.byTick_tick hmem)
  have hmem (signal : Signal) := Transcript.mem_signals_sinceExpiry_concat (t := t) hexpiry signal
  constructor
  case flagged_iff =>
    intro slot
    rw [hmem, ← h.flagged_iff]
    exact hflagged slot
  -- a slot that is stepped has a motor, and registrations are over
  case wired =>
    intro slot hslot
    show slot < n ∧ slot < s.tick.state.motors.size
    rw [s.motors_tick]
    exact ((hflagged slot).mp hslot).elim (h.wired slot) Session.lt_of_step_mem_tick
  case restarted =>
    intro slot hstep
    rw [hmem] at hstep ⊢
    refine hstep.imp (h.restarted slot) fun hnew => ?_
    obtain ⟨before, after, heq, -⟩ := s.armed_tick.stepping slot hnew
    show _ ∈ s.tick.signals
    rw [heq]
    exact List.mem_append_right _ List.mem_cons_self
  case unreleased =>
    intro slot hunstep
    exact ((hmem _).mp hunstep).elim (h.unreleased slot) (hunsteps slot)
  -- a tick releases nothing
  case separated =>
    intro slot
    rw [Transcript.signals_concat]
    exact (h.separated slot).append_quiet (hunsteps slot)
  case unsteps_le =>
    intro slot
    have hle := h.unsteps_le slot
    rw [Transcript.steps_concat, Transcript.unsteps_concat]
    show _ + s.tick.signals.count _ + (s.tick.state.flagged.contains slot).toNat ≤
      _ + s.tick.signals.count _
    rw [List.count_eq_zero.mpr (hunsteps slot)]
    change _ + (s.flagged.contains slot).toNat ≤ _ at hle
    cases hafter : s.tick.state.flagged.contains slot with
    | false => rw [Bool.toNat_false]; omega
    | true =>
      rw [Bool.toNat_true]
      rcases (hflagged slot).mp hafter with hbefore | hnew
      · rw [hbefore, Bool.toNat_true] at hle
        omega
      · -- a new flag comes with a step of this tick, which makes up for it
        have hpos := List.count_pos_iff.mpr hnew
        omega

/-- **An expiry keeps the set**: it releases what is in it, and empties it. -/
theorem Releases.expire {s : Session n} {t : Transcript n} (h : (Machine.running s).Releases t) :
    (Machine.running s.expire.state).Releases (t ++ [(Machine.running s).exchange .expire]) := by
  have hexpire := Session.expire_eq fun slot hslot => (h.wired slot hslot).2
  have hsignals : ((Machine.running s).exchange .expire).signals =
      s.flagged.toList.map .unstep := by
    show s.expire.signals = _
    rw [hexpire]
  have hnone (slot : Nat) : (Machine.running s.expire.state).controller.flagged.contains slot =
      false := by
    show s.expire.state.flagged.contains slot = false
    rw [hexpire]
    exact SlotSet.contains_empty slot
  have hsince : (Transcript.sinceExpiry (t ++ [(Machine.running s).exchange .expire])).signals =
      [] := by
    rw [Transcript.sinceExpiry_concat]
    rfl
  -- the set is empty again, which settles four of the six parts
  constructor
  case flagged_iff =>
    intro slot
    rw [hnone, hsince]
    exact iff_of_false Bool.false_ne_true List.not_mem_nil
  case wired =>
    intro slot hslot
    rw [hnone] at hslot
    cases hslot
  case restarted =>
    intro slot hstep
    rw [hsince] at hstep
    cases hstep
  case unreleased =>
    intro slot
    rw [hsince]
    exact List.not_mem_nil
  case separated =>
    intro slot
    have hcount := Session.count_unstep_toList s.flagged slot
    rw [Transcript.signals_concat, hsignals]
    cases hslot : s.flagged.contains slot with
    | false =>
      rw [hslot] at hcount
      exact (h.separated slot).append_quiet (List.count_eq_zero.mp hcount)
    | true =>
      -- what is released has been stepped since the last expiry
      obtain ⟨past, hpast⟩ := t.signals_eq_append_sinceExpiry
      have hseparated := h.separated slot
      rw [hpast] at hseparated ⊢
      rw [hslot] at hcount
      exact hseparated.append_release ((h.flagged_iff slot).mp hslot) (h.unreleased slot)
        (Nat.le_of_eq hcount)
  case unsteps_le =>
    intro slot
    rw [Transcript.steps_concat, Transcript.unsteps_concat, hnone, hsignals,
      Session.count_unstep_toList]
    exact Nat.le_trans (h.unsteps_le slot) (Nat.le_add_right _ _)

/-- **Every call keeps the set.** -/
theorem Releases.call {m : Machine n} {t : Transcript n} (h : m.Releases t) (hn : n ≤ 32)
    (ask : Call n) : (m.call ask).state.Releases (t ++ [m.exchange ask]) := by
  -- only ticks and expiries touch the set; all else is quiet
  cases effect_cases m ask with
  | ticked s hm hask =>
    subst hm hask
    exact h.tick hn
  | expired s hm hask =>
    subst hm hask
    exact h.expire
  | reported s hm hask =>
    subst hm hask
    refine h.quiet (fun signal hmem => ?_) rfl rfl (Nat.le_refl _)
    obtain ⟨_, rfl⟩ := Session.eq_report_of_report hmem
    rfl
  | other hflagged _ hsize htiming hexpiry _ _ =>
    exact h.quiet (fun signal hmem => Signal.byTick_of_isTiming (htiming signal hmem)) hexpiry
      hflagged hsize

/-- The set in ascending order is the list of the slots that wait. -/
theorem toList_flagged_eq_waiting {m : Machine n} {t : Transcript n} (h : m.Releases t) :
    m.controller.flagged.toList = t.waiting := by
  have hascending : t.waiting.Pairwise (· < ·) := List.pairwise_lt_range.filter _
  refine (SlotSet.pairwise_toList _).sortedLT.eq_of_mem_iff hascending.sortedLT ?_
  intro slot
  rw [SlotSet.mem_toList, Transcript.waiting, List.mem_filter, List.mem_range, decide_eq_true_eq,
    ← h.flagged_iff]
  exact ⟨fun hslot => ⟨(h.wired slot hslot).1, hslot⟩, fun hslot => hslot.2⟩

/-- **Every pulse is released once, and never left without a countdown.** After any calls from a
creation on, stops and new starts among them, the slots that wait for release are those stepped
since the last expiry; in a session, the next expiry releases each of them once, in ascending order,
and nothing else, and leaves none waiting. Two releases of a slot have a step between them, and no
slot is released more often than stepped. Only expiries release; every call restarts the pulse timer
once after its steps, if it makes any, and otherwise not at all. So if a slot waits, the countdown
has been restarted since the last expiry. -/
theorem steps_released_once (hn : n ≤ 32) {timing : Timing} {tickCounter pulseCounter : TimerCounts}
    {c₀ : Controller n} (hc₀ : (Controller.create timing tickCounter pulseCounter).1 = .ok c₀)
    {calls : List (Call n)} {m : Machine n} {t : Transcript n}
    (hrun : (Machine.setup c₀).run calls = (m, t)) :
    (∀ slot, m.controller.flagged.contains slot = true ↔ .step slot ∈ t.sinceExpiry.signals) ∧
      (∀ s, m = .running s →
        s.expire = ⟨{ s with flagged := .empty }, (), t.waiting.map .unstep⟩) ∧
      (∀ slot, Separated slot t.signals ∧ t.unsteps slot ≤ t.steps slot) ∧
      (∀ e ∈ t, Armed e.signals ∧ (e.isExpiry = false → ∀ slot, .unstep slot ∉ e.signals)) ∧
      ((∃ slot, m.controller.flagged.contains slot = true) →
        .restart .pulse ∈ t.sinceExpiry.signals) := by
  -- the invariant holds at the creation, and every call keeps it
  have hreleases : m.Releases t := by
    have hempty : (Machine.setup c₀).controller.flagged = {} := by
      show c₀.flagged = {}
      rw [Controller.create_eq_ok hc₀]
    have hall := run_induction (releases_of_empty hempty) (fun _ _ ask h => h.call hn ask) calls
    rwa [hrun] at hall
  refine ⟨hreleases.flagged_iff, ?_, ?_, ?_, ?_⟩
  · rintro s rfl
    rw [Session.expire_eq fun slot hslot => (hreleases.wired slot hslot).2,
      ← toList_flagged_eq_waiting hreleases]
    rfl
  · intro slot
    have hle := hreleases.unsteps_le slot
    exact ⟨hreleases.separated slot, Nat.le_of_add_right_le hle⟩
  · have hexchange (m' : Machine n) (ask : Call n) : Armed (m'.exchange ask).signals ∧
        ((m'.exchange ask).isExpiry = false →
          ∀ slot, .unstep slot ∉ (m'.exchange ask).signals) := by
      refine ⟨armed_exchange m' ask, fun hexpiry slot hmem => ?_⟩
      rw [isExpiry_of_unstep hmem] at hexpiry
      cases hexpiry
    have hall := forall_mem_run (P := fun e => Armed e.signals ∧
      (e.isExpiry = false → ∀ slot, .unstep slot ∉ e.signals)) hexchange (.setup c₀) calls
    rwa [hrun] at hall
  · rintro ⟨slot, hslot⟩
    exact hreleases.restarted slot ((hreleases.flagged_iff slot).mp hslot)

/-- Calls after which a step waits for its release in a second session. -/
def acrossStop : List (Call 2) :=
  [.register 0, .start, .submit twoSteps, .tick, .expire, .tick, .stop, .start]

/-- A step that is made before a stop is released in the next session. -/
theorem steps_released_once_across_stop :
    2 ≤ 32 ∧ (Controller.create {} 0 0).1 = .ok noMotor ∧
      ∃ s t, (Machine.setup noMotor).run acrossStop = (.running s, t) ∧
        s.flagged.contains 0 = true ∧ s.expire.signals = [.unstep 0] ∧
        .restart .pulse ∈ t.sinceExpiry.signals := by
  obtain ⟨s, t, hrun⟩ : ∃ s t, (Machine.setup noMotor).run acrossStop = (.running s, t) :=
    ⟨_, _, rfl⟩
  have hstep : .step 0 ∈ ((Machine.setup noMotor).run acrossStop).2.sinceExpiry.signals := by
    decide +kernel
  have hwaiting : ((Machine.setup noMotor).run acrossStop).2.waiting = [0] := by decide +kernel
  rw [hrun] at hstep hwaiting
  obtain ⟨hflagged, hexpire, -, -, harmed⟩ := steps_released_once (by decide) create_noMotor hrun
  have hslot : s.flagged.contains 0 = true := (hflagged 0).mpr hstep
  refine ⟨by decide, create_noMotor, s, t, hrun, hslot, ?_, harmed ⟨0, hslot⟩⟩
  rw [hexpire s rfl, hwaiting]
  rfl

end Machine

end PulseTrain
