import PulseTrain.Proofs.Bench.Pulses
import PulseTrain.Proofs.Session.Programming

/-!
# The interrupts do not trap

A session keeps its data in vectors of `n` slots and counts with numbers that wrap, so nothing that
it does can go wrong. A processor stops where an access lies outside its table, where a shift is by
the width of a word or more, and where a count passes the largest number. The operations of this
module are the three interrupts as a processor runs them: in loops over the numbers of the slots,
one slot at a time, and with a trap wherever it would stop.

* **`Session.tickGuarded`**, **`expireGuarded`**, **`reportGuarded`**: the interrupts with traps.
* **`sweep_slots`**: what the loop over the motors comes to, slot by slot.
* **`Machine.Reachable.size_le`**: no machine has more motors than slots.
* **`interrupts_do_not_trap`**: on whatever can be reached, the interrupts do what the session does.
-/

namespace PulseTrain

variable {n : Nat}

/-! ## The steps of one axis -/

namespace Axis

/-- `emit`, where the emitted steps must not pass the largest number. -/
def emitGuarded (a : Axis) : Except Trap (Axis × Bool) :=
  let a := a.keepMoving
  let carry := a.carry + a.rate
  if carry < 1 then .ok ({ a with carry }, false)
  else do
    let emitted ← countUp a.emitted
    let target := if emitted = a.target then 0 else a.target
    return ({ a with carry := carry - 1, emitted, target }, true)

def tickGuarded (a : Axis) (tick : UInt32) (p : Profile) (tickRate : Float32) :
    Except Trap (Axis × Bool) :=
  (a.accelerate.switchPhase tick p tickRate).emitGuarded

/-- An axis with room for one more step counts it up without a trap. -/
theorem emitGuarded_eq {a : Axis} (h : a.emitted.toNat + 1 < 2 ^ 32) :
    a.emitGuarded = .ok a.emit := by
  have hcount : countUp a.keepMoving.emitted = .ok (a.keepMoving.emitted + 1) := by
    rw [keepMoving_emitted]
    exact countUp_eq h
  unfold emitGuarded emit
  dsimp only
  rw [hcount]
  split <;> rfl

/-- An axis with room for one more step has its tick without a trap. -/
theorem tickGuarded_eq {a : Axis} (h : a.emitted.toNat + 1 < 2 ^ 32) (tick : UInt32) (p : Profile)
    (tickRate : Float32) : a.tickGuarded tick p tickRate = .ok (a.tick tick p tickRate) := by
  have hroom : (a.accelerate.switchPhase tick p tickRate).emitted.toNat + 1 < 2 ^ 32 := by
    rw [switchPhase_emitted, accelerate_emitted]
    exact h
  exact emitGuarded_eq hroom

/-- An active axis has room for one more step, whatever the number of its steps. -/
theorem Tallies.emitted_lt {a : Axis} {steps : UInt32} (h : a.Tallies steps)
    (hactive : a.isActive = true) : a.emitted.toNat + 1 < 2 ^ 32 :=
  Nat.lt_of_le_of_lt (h.toNat_emitted_succ hactive).2 steps.toNat_lt

end Axis

/-- Takes finished blocks out until none is left, and counts them on from a number. -/
def Backlog.drainGuarded (b : Backlog) (reported : UInt32) : Except Trap (UInt32 × Backlog) :=
  match _ : b.take? with
  | none => .ok (reported, b)
  | some rest =>
    match countUp reported with
    | .ok more => rest.drainGuarded more
    | .error trap => .error trap
termination_by b.pending.toNat
decreasing_by
  have := Backlog.toNat_pending_of_take? ‹_›
  omega

/-- The report counts each block that waits to be reported, and has no more to count. -/
theorem Backlog.drainGuarded_eq {b : Backlog} {reported : UInt32}
    (h : reported.toNat + b.pending.toNat < 2 ^ 32) :
    b.drainGuarded reported = .ok (reported + b.pending, {}) := by
  -- induction along the loop; each turn moves one block from the backlog to the count
  fun_induction Backlog.drainGuarded b reported with
  | case1 b reported htake =>
    have hzero := (Backlog.take?_eq_none_iff b).mp htake
    cases b
    simp_all
  | case2 b reported rest htake more hcount ih =>
    have hpending := Backlog.toNat_pending_of_take? htake
    rw [countUp_eq (show reported.toNat + 1 < 2 ^ 32 by omega)] at hcount
    cases hcount
    have hmore : (reported + 1).toNat = reported.toNat + 1 := by
      rw [UInt32.toNat_add, UInt32.toNat_one, Nat.mod_eq_of_lt (by omega)]
    rw [ih (by omega)]
    have hsum : b.pending = rest.pending + 1 := by
      apply UInt32.toNat_inj.mp
      rw [UInt32.toNat_add, UInt32.toNat_one, hpending, Nat.mod_eq_of_lt (by omega)]
    rw [hsum, UInt32.add_assoc, UInt32.add_comm 1]
  | case3 b reported rest htake trap hcount =>
    have hpending := Backlog.toNat_pending_of_take? htake
    rw [countUp_eq (show reported.toNat + 1 < 2 ^ 32 by omega)] at hcount
    cases hcount

namespace Session

/-! ## The tick -/

/-- What the motors up to one have done on a tick. -/
structure Sweep (n : Nat) where
  axes : Vector Axis n
  flagged : SlotSet
  stepped : List Signal := []
  moving : Bool := false

/-- The axes with another one in a slot. -/
def putAxis (axes : Vector Axis n) (slot : Fin n) (a : Axis) : Vector Axis n :=
  axes.set slot.val a slot.isLt

/-- The tick of one slot: it is skipped unless it is active, and a step that is due is emitted and
flagged. -/
def sweep (s : Session n) (done : Sweep n) (i : Nat) : Except Trap (Sweep n) := do
  let slot ← access n i
  let axis := done.axes.get slot
  if axis.isActive then
    let (next, due) ← axis.tickGuarded (s.elapsed + 1) s.profile s.rate
    let axes := putAxis done.axes slot next
    let moving := done.moving || next.isActive
    if due then
      let flagged ← done.flagged.flag i
      return { axes, flagged, stepped := done.stepped ++ [.step i], moving }
    else return { done with axes, moving }
  else return done

/-- Moves every slot that has a motor by one tick, and tells whether one of them still moves. -/
def advanceGuarded (s : Session n) : Except Trap (Session n × List Signal × Bool) := do
  let done ← (List.range s.motors.size).foldlM s.sweep { axes := s.axes, flagged := s.flagged }
  let moved := { s with elapsed := s.elapsed + 1, axes := done.axes, flagged := done.flagged }
  if done.stepped.isEmpty then return (moved, [], done.moving)
  else
    return ({ moved with pulseTimer := s.pulseTimer.restart },
      done.stepped ++ [.restart .pulse], done.moving)

/-- Selects the direction of one slot, if it moves in the block. -/
def selectGuarded (b : Block n) (axes : Vector Axis n) (sent : List Signal) (i : Nat) :
    Except Trap (List Signal) := do
  let slot ← access n i
  if (axes.get slot).isActive then
    let bit ← access n i
    return sent ++ [.direction i (b.direction bit)]
  else return sent

/-- Begins a block. The number of steps of each slot is looked up, also of those without a motor. -/
def beginGuarded (s : Session n) (b : Block n) : Except Trap (Session n × List Signal) := do
  let rate := s.timing.tickRate.value
  let axes ← Vector.ofFnM fun i : Fin n => do
    let slot ← access n i.val
    return Axis.ofBlock b slot rate
  let directions ← (List.range s.motors.size).foldlM (selectGuarded b axes) []
  return ({ s with executing := some b, busy := true, profile := b.toProfile, axes, rate },
    directions)

def beginNextGuarded (s : Session n) : Except Trap (Session n × List Signal) :=
  match s.mailbox with
  | some next => { s with mailbox := none }.beginGuarded next
  | none => .ok ({ s with executing := none, busy := false }, [])

def finishGuarded (s : Session n) : Except Trap (Session n × List Signal) := do
  let (next, begun) ← { s with elapsed := 0 }.beginNextGuarded
  return ({ next with backlog := next.backlog.add }, begun ++ [.pend])

def executeTickGuarded (s : Session n) : Except Trap (Outcome (Session n) (Option (Block n))) := do
  let (moved, stepped, moving) ← s.advanceGuarded
  if moving then return ⟨moved, none, stepped⟩
  else
    let (next, finished) ← moved.finishGuarded
    return ⟨next, s.executing, stepped ++ finished⟩

/-- The tick of the tick timer, with traps. -/
def tickGuarded (s : Session n) : Except Trap (Outcome (Session n) (Option (Block n))) :=
  if s.isActive then s.executeTickGuarded
  else if s.isReady then .ok ⟨s, none, []⟩
  else do
    let (begun, directions) ← s.beginNextGuarded
    let o ← begun.executeTickGuarded
    return { o with signals := directions ++ o.signals }

/-! ## The pulse timer and the report -/

/-- The end of the countdown, with a trap at a flagged slot that has no motor. -/
def expireGuarded (s : Session n) : Except Trap (Outcome (Session n) Unit) := do
  let released ← s.flagged.drain.mapM fun i => do
    let motor ← access s.motors.size i
    return Signal.unstep motor
  return ⟨{ s with flagged := .empty }, (), released⟩

/-- The report, with a trap if it reports more blocks than it can count. -/
def reportGuarded (s : Session n) : Except Trap (Outcome (Session n) Nat) := do
  let (count, backlog) ← s.backlog.drainGuarded 0
  return ⟨{ s with backlog }, count.toNat,
    match s.listener with
    | some listener => List.replicate count.toNat (.report listener)
    | none => []⟩

/-! ## The loop over the motors -/

/-- The registered slots among the first ones. -/
theorem filter_lt_range {k m : Nat} (h : k ≤ m) :
    (List.range m).filter (· < k) = List.range k := by
  obtain ⟨more, rfl⟩ := Nat.exists_eq_add_of_le h
  have hall : (List.range k).filter (· < k) = List.range k :=
    List.filter_eq_self.mpr fun i hi => decide_eq_true (List.mem_range.mp hi)
  have hnone : ((List.range more).map (k + ·)).filter (· < k) = [] := by
    apply List.filter_eq_nil_iff.mpr
    intro i hi
    obtain ⟨_, -, rfl⟩ := List.mem_map.mp hi
    simp
  rw [List.range_add, List.filter_append, hall, hnone, List.append_nil]

/-- The numbers of the slots that have a motor, when there is a slot for every motor. -/
theorem map_val_slots {s : Session n} (hsize : s.motors.size ≤ n) :
    s.slots.map Fin.val = List.range s.motors.size := by
  calc s.slots.map Fin.val
      = ((List.finRange n).map Fin.val).filter (· < s.motors.size) := by
        rw [List.filter_map]
        rfl
    _ = List.range s.motors.size := by
        rw [List.map_coe_finRange_eq_range, filter_lt_range hsize]

/-- A loop over the numbers of the motors is a loop over their slots. -/
theorem foldlM_range {s : Session n} (hsize : s.motors.size ≤ n) {β : Type}
    (f : β → Nat → Except Trap β) (init : β) :
    (List.range s.motors.size).foldlM f init =
      s.slots.foldlM (fun done (slot : Fin n) => f done slot) init := by
  rw [← map_val_slots hsize, List.foldlM_map]

/-- There is a bit to flag the slot with, and as long as it is active it can count one more step. -/
def Roomy (s : Session n) (slot : Fin n) : Prop :=
  slot.val < 32 ∧ ((s.axes.get slot).isActive = true → (s.axes.get slot).emitted.toNat + 1 < 2 ^ 32)

theorem putAxis_get (axes : Vector Axis n) (slot : Fin n) :
    putAxis axes slot (axes.get slot) = axes :=
  Vector.set_getElem_self _

theorem get_putAxis (axes : Vector Axis n) (slot : Fin n) (a : Axis) :
    (putAxis axes slot a).get slot = a :=
  Vector.getElem_set_self _

theorem get_putAxis_ne {slot other : Fin n} (h : other ≠ slot) (v : Vector Axis n) (a : Axis) :
    (putAxis v slot a).get other = v.get other :=
  Vector.getElem_set_ne _ _ fun heq => h (Fin.ext heq.symm)

/-- **One turn of the loop over the slots** does not trap where the slot has room, and does what the
tick of the slot does. -/
theorem sweep_eq {s : Session n} {slot : Fin n} (hslot : slot.val < s.motors.size)
    (hroomy : s.Roomy slot) {done : Sweep n} (hsame : done.axes.get slot = s.axes.get slot) :
    s.sweep done slot = .ok
      { axes := putAxis done.axes slot (s.tickedAxes.get slot).1
        flagged := if (s.tickedAxes.get slot).2 then done.flagged.insert slot else done.flagged
        stepped := done.stepped ++ if (s.tickedAxes.get slot).2 then [.step slot] else []
        moving := done.moving || (s.tickedAxes.get slot).1.isActive } := by
  obtain ⟨hflag, hroom⟩ := hroomy
  unfold sweep
  rw [access_val, tickedAxes_get]
  dsimp only [bind, Except.bind]
  rw [hsame]
  -- an inactive slot is passed over, and keeps its axis
  by_cases hactive : (s.axes.get slot).isActive = true
  · rw [if_pos hactive, if_pos ⟨hslot, hactive⟩, Axis.tickGuarded_eq (hroom hactive)]
    dsimp only
    cases ((s.axes.get slot).tick (s.elapsed + 1) s.profile s.rate).2 with
    | false => simp [pure, Except.pure]
    | true => simp [pure, Except.pure, SlotSet.flag_eq hflag]
  · have hskipped : ¬ (slot.val < s.motors.size ∧ (s.axes.get slot).isActive = true) :=
      fun h => hactive h.2
    rw [if_neg hactive, if_neg hskipped, ← hsame, putAxis_get]
    simp [pure, Except.pure, hsame, hactive]

/-- **What the loop over some slots comes to**: each of them has its tick, and the others stay as
they are. -/
theorem sweep_slots {s : Session n} {slots : List (Fin n)} (hnodup : slots.Nodup)
    (hslots : ∀ slot ∈ slots, slot.val < s.motors.size ∧ s.Roomy slot) (done : Sweep n)
    (hsame : ∀ slot ∈ slots, done.axes.get slot = s.axes.get slot) :
    slots.foldlM (fun done (slot : Fin n) => s.sweep done slot) done = .ok
      { axes := Vector.ofFn fun slot =>
          if slot ∈ slots then (s.tickedAxes.get slot).1 else done.axes.get slot
        flagged := (slots.filter fun slot => (s.tickedAxes.get slot).2).foldl
          (fun set (slot : Fin n) => set.insert slot) done.flagged
        stepped := done.stepped ++ (slots.filter fun slot => (s.tickedAxes.get slot).2).map
          fun slot : Fin n => Signal.step slot
        moving := done.moving || slots.any fun slot => (s.tickedAxes.get slot).1.isActive } := by
  -- induction on the slots, with what earlier ones have done in `done`
  induction slots generalizing done with
  | nil =>
    have hstays : (Vector.ofFn fun slot => done.axes.get slot) = done.axes := by
      ext i hi
      rw [Vector.getElem_ofFn]
      rfl
    simp [hstays, pure, Except.pure]
  | cons slot rest ih =>
    obtain ⟨hfresh, hrest⟩ := List.nodup_cons.mp hnodup
    obtain ⟨hslot, hroomy⟩ := hslots slot List.mem_cons_self
    rw [List.foldlM_cons, sweep_eq hslot hroomy (hsame slot List.mem_cons_self)]
    dsimp only [bind, Except.bind]
    -- the slots still to come are not touched by this one
    have hother : ∀ other ∈ rest, (putAxis done.axes slot (s.tickedAxes.get slot).1).get other =
        s.axes.get other := by
      intro other hother
      have hne : other ≠ slot := fun heq => hfresh (heq ▸ hother)
      rw [get_putAxis_ne hne, hsame other (List.mem_cons_of_mem _ hother)]
    rw [ih hrest (fun other h => hslots other (List.mem_cons_of_mem _ h)) _ hother]
    refine congrArg Except.ok ((Sweep.mk.injEq ..).mpr ⟨?axes, ?flagged, ?stepped, ?moving⟩)
    case axes =>
      refine congrArg Vector.ofFn (funext fun other => ?_)
      by_cases heq : other = slot
      · subst heq
        rw [if_neg hfresh, if_pos List.mem_cons_self, get_putAxis]
      · simp [heq, get_putAxis_ne heq]
    case flagged =>
      cases hdue : (s.tickedAxes.get slot).2 <;> simp [hdue]
    case stepped =>
      cases hdue : (s.tickedAxes.get slot).2 <;> simp [hdue]
    case moving => rw [List.any_cons, Bool.or_assoc]

/-- A slot without a motor stays as it is, whether or not the loop comes to it. -/
theorem ofFn_slots (s : Session n) :
    (Vector.ofFn fun slot =>
      if slot ∈ s.slots then (s.tickedAxes.get slot).1 else s.axes.get slot) =
      s.tickedAxes.map (·.1) := by
  ext i hi
  rw [Vector.getElem_ofFn, Vector.getElem_map]
  split
  · rfl
  · rename_i hslot
    have hskipped := s.tickedAxes_get ⟨i, hi⟩
    rw [if_neg fun h => hslot (mem_slots.mpr h.1)] at hskipped
    exact (congrArg Prod.fst hskipped).symm

/-- Something moves after a tick exactly if the loop has met an axis that moves on. -/
theorem isMoving_advance (s : Session n) :
    s.advance.1.isMoving = s.slots.any fun slot => (s.tickedAxes.get slot).1.isActive := by
  have hslots : s.advance.1.slots = s.slots := by
    rw [advance_fst]
    rfl
  unfold isMoving
  rw [hslots]
  simp only [advance_axes_get]

/-- The loop over the slots does what `Session.advance` does. -/
theorem advanceGuarded_eq {s : Session n} (hsize : s.motors.size ≤ n)
    (hroomy : ∀ slot ∈ s.slots, s.Roomy slot) :
    s.advanceGuarded = .ok (s.advance.1, s.advance.2, s.advance.1.isMoving) := by
  have hloop := sweep_slots s.nodup_slots
    (fun slot hslot => ⟨mem_slots.mp hslot, hroomy slot hslot⟩)
    { axes := s.axes, flagged := s.flagged } fun _ _ => rfl
  rw [ofFn_slots] at hloop
  unfold advanceGuarded
  rw [foldlM_range hsize, hloop, isMoving_advance]
  dsimp only [bind, Except.bind]
  rw [List.nil_append, List.isEmpty_map, Bool.false_or]
  unfold advance
  dsimp only
  -- the timer is restarted in both if anything stepped, and in neither otherwise
  by_cases hnone : (s.slots.filter fun slot => (s.tickedAxes.get slot).2).isEmpty = true
  · rw [if_pos hnone, if_pos hnone]
    rfl
  · rw [if_neg hnone, if_neg hnone]
    rfl

/-! ## The interrupts -/

/-- The loop over the active slots selects their directions, without a trap. -/
theorem selectGuarded_slots (b : Block n) (axes : Vector Axis n) (slots : List (Fin n))
    (sent : List Signal) :
    slots.foldlM (fun sent (slot : Fin n) => selectGuarded b axes sent slot) sent =
      .ok (sent ++ (slots.filter fun slot => (axes.get slot).isActive).map fun slot : Fin n =>
        Signal.direction slot (b.direction slot)) := by
  -- induction on the slots, with the directions selected so far in `sent`
  induction slots generalizing sent with
  | nil => simp [pure, Except.pure]
  | cons slot rest ih =>
    have hselect : selectGuarded b axes sent slot = .ok (sent ++
        if (axes.get slot).isActive then [.direction slot (b.direction slot)] else []) := by
      unfold selectGuarded
      rw [access_val]
      dsimp only [bind, Except.bind]
      split <;> simp [pure, Except.pure]
    rw [List.foldlM_cons, hselect]
    dsimp only [bind, Except.bind]
    rw [ih]
    cases hactive : (axes.get slot).isActive <;> simp [hactive]

theorem beginGuarded_eq {s : Session n} (hsize : s.motors.size ≤ n) (b : Block n) :
    s.beginGuarded b = .ok (s.begin b) := by
  have haxes : (Vector.ofFnM fun i : Fin n => do
      let slot ← access n i.val
      return Axis.ofBlock b slot s.timing.tickRate.value) =
        Except.ok (b.axes s.timing.tickRate.value) := by
    simp only [access_val]
    exact Vector.ofFnM_pure
  unfold beginGuarded
  dsimp only
  rw [haxes]
  dsimp only [bind, Except.bind]
  rw [foldlM_range hsize, selectGuarded_slots]
  rfl

theorem beginNextGuarded_eq {s : Session n} (hsize : s.motors.size ≤ n) :
    s.beginNextGuarded = .ok s.beginNext := by
  unfold beginNextGuarded beginNext
  cases s.mailbox with
  | none => rfl
  | some b => exact beginGuarded_eq (s := { s with mailbox := none }) hsize b

theorem finishGuarded_eq {s : Session n} (hsize : s.motors.size ≤ n) :
    s.finishGuarded = .ok s.finish := by
  unfold finishGuarded
  rw [beginNextGuarded_eq (s := { s with elapsed := 0 }) hsize]
  rfl

theorem executeTickGuarded_eq {s : Session n} (hsize : s.motors.size ≤ n)
    (hroomy : ∀ slot ∈ s.slots, s.Roomy slot) : s.executeTickGuarded = .ok s.executeTick := by
  have hsize' : s.advance.1.motors.size ≤ n := by
    rw [advance_fst]
    exact hsize
  unfold executeTickGuarded
  rw [advanceGuarded_eq hsize hroomy]
  dsimp only [bind, Except.bind]
  cases hmoving : s.advance.1.isMoving with
  | true =>
    rw [if_pos rfl, executeTick_of_moving hmoving]
    rfl
  | false =>
    rw [if_neg Bool.false_ne_true, finishGuarded_eq hsize', executeTick_of_still hmoving]
    rfl

/-- The slots of a block that executes have room, since none of them has emitted all its steps. -/
theorem Sound.roomy {s : Session n} (h : s.Sound) {b : Block n} (hexec : s.executing = some b)
    (hn : n ≤ 32) (slot : Fin n) : s.Roomy slot :=
  ⟨Nat.lt_of_lt_of_le slot.isLt hn, fun hactive => (h.tallies b hexec slot).emitted_lt hactive⟩

/-- **A tick does not trap**, whether it moves a block, picks one up or finds nothing to do. -/
theorem tickGuarded_eq {s : Session n} (hn : n ≤ 32) (hsize : s.motors.size ≤ n)
    (hsound : s.Sound) : s.tickGuarded = .ok s.tick := by
  cases hexec : s.executing with
  | some b =>
    have hactive := isActive_of_executing hexec
    rw [tickGuarded, tick, if_pos hactive, if_pos hactive]
    exact executeTickGuarded_eq hsize fun slot _ => hsound.roomy hexec hn slot
  | none =>
    have hidle : ¬ s.isActive = true := Bool.eq_false_iff.mp (isActive_of_none hexec)
    rw [tickGuarded, tick, if_neg hidle, if_neg hidle]
    cases hbox : s.mailbox with
    | none =>
      have hready : s.isReady = true := by rw [isReady, hbox]; rfl
      rw [if_pos hready, if_pos hready]
    | some b =>
      have hready : ¬ s.isReady = true := by rw [isReady, hbox]; exact Bool.false_ne_true
      -- the block that is picked up has its first tick at once, and is sound by then
      have hbegun := hsound.pickUp hbox
      have hsize' : (s.pickUp b).1.motors.size ≤ n := hsize
      rw [if_neg hready, if_neg hready, beginNextGuarded_eq hsize, beginNext_of_waiting hbox]
      dsimp only [bind, Except.bind]
      rw [executeTickGuarded_eq hsize' fun slot _ => hbegun.roomy rfl hn slot]
      rfl

/-- A loop that never traps collects what each of its turns gives. -/
theorem mapM_of_ok {α β : Type} {f : α → Except Trap β} {g : α → β} {l : List α}
    (h : ∀ x ∈ l, f x = .ok (g x)) : l.mapM f = .ok (l.map g) := by
  induction l with
  | nil => rfl
  | cons x rest ih =>
    rw [List.mapM_cons, h x List.mem_cons_self, ih fun y hy => h y (List.mem_cons_of_mem _ hy)]
    rfl

/-- An expiry does not trap while only registered slots are flagged. -/
theorem expireGuarded_eq {s : Session n}
    (hwired : ∀ slot, s.flagged.contains slot = true → slot < s.motors.size) :
    s.expireGuarded = .ok s.expire := by
  have hwired' : ∀ slot ∈ s.flagged.drain, slot < s.motors.size := fun slot hslot =>
    hwired slot ((SlotSet.mem_drain _ slot).mp hslot)
  -- nothing is filtered out, as every flagged slot is registered
  have hall : s.flagged.drain.filter (· < s.motors.size) = s.flagged.drain :=
    List.filter_eq_self.mpr fun slot hslot => decide_eq_true (hwired' slot hslot)
  unfold expireGuarded expire
  rw [hall, mapM_of_ok (g := Signal.unstep)]
  · rfl
  · intro slot hslot
    rw [access, dif_pos (hwired' slot hslot)]
    rfl

/-- A report never traps: its count starts from zero and cannot pass the backlog. -/
theorem reportGuarded_eq (s : Session n) : s.reportGuarded = .ok s.report := by
  have hfew : (0 : UInt32).toNat + s.backlog.pending.toNat < 2 ^ 32 := by
    rw [UInt32.toNat_zero, Nat.zero_add]
    exact s.backlog.pending.toNat_lt
  have hdrain := Backlog.drainGuarded_eq hfew
  unfold reportGuarded report
  rw [hdrain, Backlog.drain_eq, UInt32.zero_add]
  rfl

end Session

namespace Machine

/-! ## The motors fit -/

/-- A registration that is refused keeps the motors, and one that is taken has made room for its
own. -/
theorem size_le_enroll {c : Controller n} (hsize : c.motors.size ≤ n)
    {made : Except RegistryFault (Registry MotorNumber n)}
    (hmade : ∀ r, made = .ok r → r.size ≤ n) (taken : Nat) :
    let result := (made.mapError Fault.registry).map fun motors =>
      ({ c with motors }, ([] : List Signal))
    (c.attempt result taken).state.motors.size ≤ n := by
  cases made with
  | error f => exact hsize
  | ok r => exact hmade r rfl

/-- A registry never holds more than its capacity. -/
theorem size_le_append {r r' : Registry MotorNumber n} {name : Option String}
    {motor : MotorNumber} (h : r.append name motor = .ok r') : r'.size ≤ n := by
  obtain ⟨hroom, hmotors, -⟩ := Registry.append_eq_ok h
  rw [Registry.size, hmotors, Array.size_push]
  exact hroom

/-- No call of the setup makes for more motors than slots. -/
theorem size_le_setup {c : Controller n} (hsize : c.motors.size ≤ n) (ask : Call n) :
    ((Machine.setup c).call ask).state.controller.motors.size ≤ n := by
  cases ask with
  | register motor => exact size_le_enroll hsize (fun _ => size_le_append) _
  | registerNamed name motor =>
    refine size_le_enroll hsize (fun r hr => ?_) _
    exact size_le_append (Registry.append_of_registerNamed hr)
  -- what does not register anything keeps the registry, whether or not it succeeds
  | setTickRate rate =>
    show (c.setTickRate rate).state.motors.size ≤ n
    rw [c.motors_setTickRate]
    exact hsize
  | setPulseWidth width =>
    show (c.setPulseWidth width).state.motors.size ≤ n
    rw [c.motors_setPulseWidth]
    exact hsize
  | setCounter timer counts => cases timer <;> exact hsize
  | listen _ | start | submit _ | tick | expire | report | stop => exact hsize

/-- **No machine has more motors than slots.** -/
theorem Reachable.size_le {m : Machine n} (h : Reachable m) : m.controller.motors.size ≤ n := by
  -- induction on how the machine was reached; only the setup registers motors
  induction h with
  | created hcreated =>
    rw [Controller.create_eq_ok hcreated]
    exact Nat.zero_le n
  | @called m reachable ask ih =>
    cases m with
    | setup c => exact size_le_setup ih ask
    | running s =>
      by_cases hstop : ask = .stop
      · subst hstop
        exact ih
      · obtain ⟨s', hstate, hmotors⟩ := call_running s hstop
        rw [hstate]
        show s'.motors.size ≤ n
        rw [hmotors]
        exact ih

/-! ## The interrupts of a session -/

/-- **The interrupts do not trap.** Let a machine with at most 32 slots be brought into a session by
any calls. Run by a processor, the three interrupts come through without a trap, and do what the
session does. Every flagged slot has a motor and a bit, and every slot that is active when a tick
moves the axes has a motor and can count one more step, however many steps its block has. -/
theorem interrupts_do_not_trap (hn : n ≤ 32) {s : Session n} (h : Reachable (.running s)) :
    s.tickGuarded = .ok s.tick ∧ s.expireGuarded = .ok s.expire ∧ s.reportGuarded = .ok s.report ∧
      s.motors.size ≤ n ∧
      (∀ slot, s.flagged.contains slot = true → slot < s.motors.size ∧ slot < 32) ∧
      ∀ b, Session.WakeCase s b → ∀ slot, (s.awake.1.axes.get slot).isActive = true →
        slot.val < s.motors.size ∧ (s.awake.1.axes.get slot).emitted.toNat + 1 < 2 ^ 32 := by
  obtain ⟨t, hreleases⟩ := h.releases hn
  have hsound : s.Sound := h.sound
  have hsize : s.motors.size ≤ n := h.size_le
  have hwired : ∀ slot, s.flagged.contains slot = true → slot < s.motors.size :=
    fun slot hslot => (hreleases.wired slot hslot).2
  refine ⟨Session.tickGuarded_eq hn hsize hsound, Session.expireGuarded_eq hwired,
    Session.reportGuarded_eq s, hsize, fun slot hslot => ⟨hwired slot hslot,
      SlotSet.lt_of_contains hslot⟩, ?_⟩
  intro b hwake slot hactive
  have hawake := hsound.awake hwake
  refine ⟨?_, (hawake.tallies b hwake.executing_awake slot).emitted_lt hactive⟩
  rw [← hwake.motors_awake]
  exact hawake.lt_of_isActive hwake.executing_awake hactive

/-- As many steps as a block can have, one a tick. -/
def mostSteps : Block 2 :=
  { twoSteps with startRate := 100000, referenceSteps := 4294967295, steps := #v[4294967295, 0] }

/-- The block waits through a stop, and a motor is registered before it begins. -/
def laterMotor : List (Call 2) :=
  [.start, .submit mostSteps, .stop, .register 1, .start, .tick]

/-- A slot with as many steps as a block can have, and a motor that is registered between two
sessions. -/
theorem interrupts_do_not_trap_laterMotor :
    2 ≤ 32 ∧ ∃ s, Reachable (.running s) ∧ s.executing = some mostSteps ∧ s.motors.size = 2 ∧
      s.flagged.contains 0 = true ∧ s.tickGuarded = .ok s.tick ∧
      s.expireGuarded = .ok s.expire ∧ s.expire.signals = [.unstep 0] := by
  obtain ⟨s, hrun⟩ : ∃ s, ((Machine.setup oneMotor).run laterMotor).1 = .running s := ⟨_, rfl⟩
  have hreach : Reachable (.running s) := hrun ▸ reachable_oneMotor.run laterMotor
  obtain ⟨htick, hexpire, -⟩ := interrupts_do_not_trap (by decide) hreach
  have hstate : ((Machine.setup oneMotor).run laterMotor).1.executing = some mostSteps ∧
      ((Machine.setup oneMotor).run laterMotor).1.controller.motors.size = 2 ∧
      ((Machine.setup oneMotor).run laterMotor).1.controller.flagged.contains 0 = true := by
    decide +kernel
  have hreleased : (((Machine.setup oneMotor).run laterMotor).1.call .expire).signals =
      [.unstep 0] := by decide +kernel
  rw [hrun] at hstate hreleased
  exact ⟨by decide, s, hreach, hstate.1, hstate.2.1, hstate.2.2, htick, hexpire, hreleased⟩

end Machine

end PulseTrain
