import PulseTrain.Proofs.Bench.Wiring
import PulseTrain.Proofs.Session.Conservation
import PulseTrain.Proofs.Session.Release
import PulseTrain.Waveform

/-!
# Every step is one pulse

A step drives the step pin of a motor to its active level, and a release drives it back. Two steps
without a release between them make a single pulse. If an expiry follows every tick before the next
one, that does not happen: as long as the step pin does not fail, it goes active once for each step.

* **`Signal.onsets`**: how often signals for one motor drive its step output active;
  **`onsets_of_held`**: without a release, that is at most once.
* **`StepDir.Works.obeyAll`**: the step pin goes to its active level as often.
* **`Prompt`**: after every tick comes an expiry before the next tick.
* **`Pulsed`**: the invariant of such a session; **`Pulsed.tick`**, **`Pulsed.expire`** and
  **`Pulsed.other`**: what keeps it.
* **`steps_are_pulses`**: the pulses of a session, moment by moment.
-/

namespace PulseTrain

variable {n : Nat}

/-! ## Signals for one motor -/

namespace Signal

/-- Whether the step output of a motor is active after a signal for it. -/
def activeAfter (active : Bool) : Signal → Bool
  | .step _ => true
  | .unstep _ => false
  | _ => active

/-- How often signals for one motor drive its step output active. -/
def onsets (active : Bool) : List Signal → Nat
  | [] => 0
  | signal :: rest => (!active && signal.isStep).toNat + onsets (activeAfter active signal) rest

/-- Further signals find the output as the first ones have left it. -/
theorem onsets_append (active : Bool) (signals more : List Signal) :
    onsets active (signals ++ more) =
      onsets active signals + onsets (signals.foldl activeAfter active) more := by
  induction signals generalizing active with
  | nil => simp [onsets]
  | cons signal rest ih => simp [onsets, ih, Nat.add_assoc]

/-- An output that nothing releases stays active from the first step on. -/
theorem active_of_held {signals : List Signal} (h : ∀ i, .unstep i ∉ signals) (active : Bool) :
    signals.foldl activeAfter active = (active || signals.any isStep) := by
  -- induction on the signals; without a release nothing makes the output inactive
  induction signals generalizing active with
  | nil => simp
  | cons signal rest ih =>
    have hrest : ∀ i, .unstep i ∉ rest := fun i hmem => h i (List.mem_cons_of_mem _ hmem)
    rw [List.foldl_cons, ih hrest, List.any_cons]
    cases signal with
    | unstep i => exact absurd List.mem_cons_self (h i)
    | step _ => simp [activeAfter, isStep]
    | limit _ _ | restart _ | enable _ | pend | direction _ _ | report _ =>
      simp [activeAfter, isStep]

/-- An output that nothing releases is driven active once, by the first step. -/
theorem onsets_of_held {signals : List Signal} (h : ∀ i, .unstep i ∉ signals) (active : Bool) :
    onsets active signals = (!active && signals.any isStep).toNat := by
  -- induction on the signals; only the first step finds the output inactive
  induction signals generalizing active with
  | nil => simp [onsets]
  | cons signal rest ih =>
    have hrest : ∀ i, .unstep i ∉ rest := fun i hmem => h i (List.mem_cons_of_mem _ hmem)
    rw [onsets, ih hrest, List.any_cons]
    cases signal with
    | unstep i => exact absurd List.mem_cons_self (h i)
    | step _ => simp [activeAfter, isStep]
    | limit _ _ | restart _ | enable _ | pend | direction _ _ | report _ =>
      simp [activeAfter, isStep]

end Signal

/-! ## The step pin of one motor -/

/-- The level of the step output of an active or an inactive motor. -/
def Polarity.stepLevel (p : Polarity) (active : Bool) : Bool := p.pulseLevel == active

@[simp] theorem Polarity.stepLevel_true (p : Polarity) : p.stepLevel true = p.pulseLevel := by
  simp [stepLevel]

@[simp] theorem Polarity.stepLevel_false (p : Polarity) : p.stepLevel false = !p.pulseLevel := by
  simp [stepLevel]

theorem Polarity.stepLevel_eq_iff (p : Polarity) (active : Bool) :
    p.stepLevel active = p.pulseLevel ↔ active = true := by
  cases active <;> simp

namespace StepDir

/-- The step pin does not fail. The direction pin may. -/
structure Works (m : StepDir) (p : Polarity) : Prop where
  polarity : m.polarity = p
  works : m.pins.stepFails = false

/-- A pin that works is put at the level written, and goes active if it was not. -/
theorem Works.writeStep {m : StepDir} {p : Polarity} (h : m.Works p) (high level : Bool) :
    (m.writeStep high).1.Works p ∧ Line.step.level level (m.writeStep high).2 = high ∧
      Line.step.edges p.pulseLevel level (m.writeStep high).2 =
        (level != p.pulseLevel && high == p.pulseLevel).toNat := by
  have hwrite : (m.writeStep high).2 = [⟨.step, high, true⟩] := by
    rw [StepDir.writeStep, h.works]
    rfl
  rw [hwrite]
  refine ⟨⟨h.polarity, h.works⟩, rfl, ?_⟩
  simp only [Line.edges, Line.levelAfter]
  cases level <;> cases high <;> cases p.pulseLevel <;> rfl

/-- To select a direction writes nothing to the step pin. -/
theorem Works.setDirection {m : StepDir} {p : Polarity} (h : m.Works p) (d : Direction)
    (level : Bool) :
    (m.setDirection d).1.Works p ∧ Line.step.level level (m.setDirection d).2 = level ∧
      Line.step.edges p.pulseLevel level (m.setDirection d).2 = 0 := by
  unfold StepDir.setDirection
  dsimp only
  split
  · exact ⟨h, rfl, rfl⟩
  · split <;>
    · refine ⟨⟨h.polarity, h.works⟩, rfl, ?_⟩
      simp [Line.edges, Line.levelAfter]

/-- One signal moves the step pin as it moves the output. -/
theorem Works.obey {m : StepDir} {p : Polarity} (h : m.Works p) (active : Bool) (signal : Signal) :
    (m.obey signal).1.Works p ∧
      Line.step.level (p.stepLevel active) (m.obey signal).2 =
        p.stepLevel (signal.activeAfter active) ∧
      Line.step.edges p.pulseLevel (p.stepLevel active) (m.obey signal).2 =
        (!active && signal.isStep).toNat := by
  -- only steps and releases write the step pin
  cases signal with
  | step _ =>
    obtain ⟨hworks, hlevel, hedges⟩ := h.writeStep p.pulseLevel (p.stepLevel active)
    rw [StepDir.obey, StepDir.step, h.polarity, hlevel, hedges]
    refine ⟨hworks, by simp [Signal.activeAfter], ?_⟩
    cases active <;> simp [Signal.isStep]
  | unstep _ =>
    obtain ⟨hworks, hlevel, hedges⟩ := h.writeStep (!p.pulseLevel) (p.stepLevel active)
    rw [StepDir.obey, StepDir.unstep, h.polarity, hlevel, hedges]
    refine ⟨hworks, by simp [Signal.activeAfter], ?_⟩
    cases active <;> simp [Signal.isStep]
  | direction _ d =>
    obtain ⟨hworks, hlevel, hedges⟩ := h.setDirection d (p.stepLevel active)
    exact ⟨hworks, hlevel, hedges.trans (by simp [Signal.isStep])⟩
  | limit _ _ | restart _ | enable _ | pend | report _ =>
    exact ⟨h, rfl, by simp [StepDir.obey, Line.edges, Signal.isStep]⟩

/-- **The step pin does what the signals say**, for any polarity. -/
theorem Works.obeyAll {m : StepDir} {p : Polarity} (h : m.Works p) (active : Bool)
    (signals : List Signal) :
    Line.step.level (p.stepLevel active) (m.obeyAll signals).2 =
        p.stepLevel (signals.foldl Signal.activeAfter active) ∧
      Line.step.edges p.pulseLevel (p.stepLevel active) (m.obeyAll signals).2 =
        Signal.onsets active signals := by
  induction signals generalizing m active with
  | nil => exact ⟨rfl, rfl⟩
  | cons signal rest ih =>
    obtain ⟨hworks, hlevel, hedges⟩ := h.obey active signal
    obtain ⟨hlast, hothers⟩ := ih hworks (signal.activeAfter active)
    rw [obeyAll_cons, Line.level_append, Line.edges_append, hlevel, hedges, hlast, hothers]
    exact ⟨rfl, rfl⟩

end StepDir

/-! ## Prompt expiry -/

/-- There is an expiry among the calls, and no tick before it. -/
def ExpiresFirst (calls : List (Call n)) : Prop :=
  ∃ soon later, calls = soon ++ .expire :: later ∧ .tick ∉ soon

/-- An expiry comes before any tick if it is the first call, or if the first call is no tick and the
rest goes on so. -/
theorem expiresFirst_cons {ask : Call n} {calls : List (Call n)} :
    ExpiresFirst (ask :: calls) ↔ ask = .expire ∨ ask ≠ .tick ∧ ExpiresFirst calls := by
  constructor
  · rintro ⟨soon, later, heq, hsoon⟩
    cases soon with
    | nil => exact .inl (List.cons.inj heq).1
    | cons first soon =>
      obtain ⟨rfl, rfl⟩ := List.cons.inj heq
      rw [List.mem_cons, not_or] at hsoon
      exact .inr ⟨Ne.symm hsoon.1, soon, later, rfl, hsoon.2⟩
  · rintro (rfl | ⟨hask, soon, later, rfl, hsoon⟩)
    · exact ⟨[], calls, rfl, List.not_mem_nil⟩
    · exact ⟨ask :: soon, later, rfl, List.not_mem_cons_of_ne_of_not_mem hask.symm hsoon⟩

/-- After every tick an expiry comes before the next tick. -/
def Prompt (calls : List (Call n)) : Prop := ∀ rest, .tick :: rest <:+ calls → ExpiresFirst rest

theorem prompt_nil : Prompt ([] : List (Call n)) := by
  intro rest hsuffix
  cases List.suffix_nil.mp hsuffix

/-- Calls are prompt if the rest is, and if an expiry follows a tick at their head. -/
theorem prompt_cons {ask : Call n} {calls : List (Call n)} :
    Prompt (ask :: calls) ↔ (ask = .tick → ExpiresFirst calls) ∧ Prompt calls := by
  constructor
  · intro h
    refine ⟨?_, fun rest hsuffix => h rest (hsuffix.trans (List.suffix_cons ask calls))⟩
    rintro rfl
    exact h calls (List.suffix_refl _)
  · rintro ⟨hhead, htail⟩ rest hsuffix
    rcases List.suffix_cons_iff.mp hsuffix with heq | hsuffix
    · obtain ⟨rfl, rfl⟩ := List.cons.inj heq
      exact hhead rfl
    · exact htail rest hsuffix

namespace Transcript

/-- The calls that were made. -/
def calls (t : Transcript n) : List (Call n) := t.map (·.call)

@[simp] theorem calls_append (t u : Transcript n) : calls (t ++ u) = t.calls ++ u.calls :=
  List.map_append

end Transcript

/-- Whenever a tick comes next, or nothing, there was no tick since the last expiry. -/
theorem Prompt.tick_not_mem {t : Transcript n} {more : List (Call n)}
    (h : Prompt (t.calls ++ more)) (hexpiry : ∀ e ∈ t, e.call = .expire → e.isExpiry = true)
    (hmore : ∀ ask ∈ more.head?, ask = .tick) : .tick ∉ t.sinceExpiry.calls := by
  intro hmem
  obtain ⟨past, hpast⟩ := List.rtakeWhile_suffix (p := fun e : Exchange n => !e.isExpiry) (l := t)
  obtain ⟨before, rest, hsplit⟩ := List.append_of_mem hmem
  -- what came after the tick holds no expiry
  have hnone : .expire ∉ rest := by
    intro hrest
    have hmem' : .expire ∈ t.sinceExpiry.calls := by
      rw [hsplit]
      exact List.mem_append_right _ (List.mem_cons_of_mem _ hrest)
    obtain ⟨e, he, hcall⟩ := List.mem_map.mp hmem'
    have hquiet := List.mem_rtakeWhile_imp (p := fun e : Exchange n => !e.isExpiry) he
    have het : e ∈ t := by rw [← hpast]; exact List.mem_append_right _ he
    rw [hexpiry e het hcall] at hquiet
    exact Bool.false_ne_true hquiet
  have hsuffix : .tick :: (rest ++ more) <:+ t.calls ++ more := by
    refine ⟨Transcript.calls past ++ before, ?_⟩
    have hcalls : t.calls = Transcript.calls past ++ t.sinceExpiry.calls := by
      rw [← Transcript.calls_append]
      exact congrArg Transcript.calls hpast.symm
    rw [hcalls, hsplit]
    simp
  obtain ⟨soon, later, heq, hsoon⟩ := h _ hsuffix
  rcases List.append_eq_append_iff.mp heq with ⟨gap, hgap, hlater⟩ | ⟨gap, hgap, hlater⟩
  · -- the expiry would come after the rest, where the next call is a tick
    cases gap with
    | nil =>
      have hhead := hmore .expire (by rw [List.nil_append] at hlater; rw [hlater]; rfl)
      cases hhead
    | cons ask gap =>
      have hhead := hmore ask (by rw [hlater]; rfl)
      rw [hgap, hhead] at hsoon
      exact hsoon (List.mem_append_right _ List.mem_cons_self)
  · -- the expiry would be in the rest
    cases gap with
    | nil =>
      have hhead := hmore .expire (by rw [List.nil_append] at hlater; rw [← hlater]; rfl)
      cases hhead
    | cons ask gap =>
      obtain ⟨rfl, -⟩ := List.cons.inj hlater
      rw [hgap] at hnone
      exact hnone (List.mem_append_right _ List.mem_cons_self)

/-! ## The signals for one slot -/

theorem Signal.isFor_step {slot i : Nat} :
    (Signal.step i).isFor slot = true ↔ Signal.step i = .step slot := by
  simp [Signal.slot?]

/-- A slot gets a step exactly if its step is among the signals. -/
theorem any_isStep_isFor {signals : List Signal} {slot : Nat} :
    (signals.filter (Signal.isFor slot)).any Signal.isStep = true ↔ .step slot ∈ signals := by
  rw [List.any_eq_true]
  constructor
  · rintro ⟨signal, hmem, hstep⟩
    obtain ⟨hmem, hfor⟩ := List.mem_filter.mp hmem
    cases signal with
    | step i => rwa [Signal.isFor_step.mp hfor] at hmem
    | limit _ _ | restart _ | enable _ | pend | unstep _ | direction _ _ | report _ =>
      cases hstep
  · intro hmem
    exact ⟨.step slot, List.mem_filter.mpr ⟨hmem, Signal.isFor_iff.mpr rfl⟩, rfl⟩

namespace Session

/-- A tick steps a slot at most once. -/
theorem count_step_tick_le (s : Session n) (slot : Fin n) :
    s.tick.signals.count (.step slot) ≤ 1 := by
  cases tick_cases s with
  | idle _ _ htick => rw [htick]; exact Nat.zero_le 1
  | runs b hwake _ _ | ends b hwake _ _ =>
    rw [hwake.steps_tick]
    exact Bool.toNat_le _

end Session

namespace Machine

/-! ## A session with prompt expiry -/

/-- What is true of a slot at every moment of a session with prompt expiry: its output is active
from a step on to the next expiry, and it has become active once for each step. -/
structure Pulsed (slot : Fin n) (t : Transcript n) : Prop where
  active_iff : (t.signals.filter (Signal.isFor slot)).foldl Signal.activeAfter false = true ↔
    .step slot ∈ t.sinceExpiry.signals
  onsets_eq : Signal.onsets false (t.signals.filter (Signal.isFor slot)) = t.steps slot

/-- What a slot gets of one more exchange comes last. -/
theorem filter_isFor_concat (t : Transcript n) (e : Exchange n) (slot : Nat) :
    (Transcript.signals (t ++ [e])).filter (Signal.isFor slot) =
      t.signals.filter (Signal.isFor slot) ++ e.signals.filter (Signal.isFor slot) := by
  rw [Transcript.signals_concat, List.filter_append]

/-- **A tick makes a pulse where it makes a step**, if the output is not active before. -/
theorem Pulsed.tick {slot : Fin n} {t : Transcript n} (h : Pulsed slot t) (s : Session n)
    (hidle : .step slot.val ∉ t.sinceExpiry.signals) :
    Pulsed slot (t ++ [(Machine.running s).exchange .tick]) := by
  have hexpiry : ((Machine.running s).exchange .tick).isExpiry = false := rfl
  have hinactive : (t.signals.filter (Signal.isFor slot)).foldl Signal.activeAfter false = false :=
    Bool.eq_false_iff.mpr fun hactive => hidle (h.active_iff.mp hactive)
  have hheld : ∀ i, .unstep i ∉ s.tick.signals.filter (Signal.isFor slot) := by
    intro i hmem
    cases Session.byTick_tick (List.mem_filter.mp hmem).1
  have hsignals : ((Machine.running s).exchange .tick).signals = s.tick.signals := rfl
  constructor
  case active_iff =>
    rw [filter_isFor_concat, List.foldl_append, hinactive, hsignals, Signal.active_of_held hheld,
      Bool.false_or, any_isStep_isFor, Transcript.mem_signals_sinceExpiry_concat hexpiry, hsignals]
    exact ⟨.inr, fun hmem => hmem.resolve_left hidle⟩
  case onsets_eq =>
    rw [filter_isFor_concat, Signal.onsets_append, h.onsets_eq, hinactive, hsignals,
      Signal.onsets_of_held hheld, Transcript.steps_concat, hsignals, Bool.not_false, Bool.true_and]
    -- one step at most, which makes one onset as nothing is active before
    have hle := s.count_step_tick_le slot
    congr 1
    by_cases hstep : .step slot.val ∈ s.tick.signals
    · have hpos := List.count_pos_iff.mpr hstep
      rw [any_isStep_isFor.mpr hstep, Bool.toNat_true]
      omega
    · rw [Bool.eq_false_iff.mpr fun hany => hstep (any_isStep_isFor.mp hany),
        List.count_eq_zero.mpr hstep]
      rfl

/-- **An expiry ends the pulse**: every slot that was stepped is among those that it releases. -/
theorem Pulsed.expire {slot : Fin n} {t : Transcript n} (h : Pulsed slot t) {s : Session n}
    (hflagged : ∀ i, s.flagged.contains i = true → i < s.motors.size)
    (hstepped : .step slot.val ∈ t.sinceExpiry.signals → s.flagged.contains slot = true) :
    Pulsed slot (t ++ [(Machine.running s).exchange .expire]) := by
  have hsignals : ((Machine.running s).exchange .expire).signals =
      s.flagged.toList.map Signal.unstep := by
    show s.expire.signals = _
    rw [Session.expire_eq hflagged]
  have hsteps : .step slot.val ∉ ((Machine.running s).exchange .expire).signals := by
    rw [hsignals]
    simp
  have hsince : (Transcript.sinceExpiry (t ++ [(Machine.running s).exchange .expire])).signals =
      [] := by
    rw [Transcript.sinceExpiry_concat]
    rfl
  have hreleases : ((Machine.running s).exchange .expire).signals.filter (Signal.isFor slot) =
      List.replicate (s.flagged.contains slot).toNat (.unstep slot) := by
    have hfilter : (s.flagged.toList.map Signal.unstep).filter (Signal.isFor slot) =
        (s.flagged.toList.map Signal.unstep).filter (· == .unstep slot.val) := by
      refine List.filter_congr fun signal hmem => ?_
      obtain ⟨i, -, rfl⟩ := List.mem_map.mp hmem
      rw [Bool.eq_iff_iff]
      simp [Signal.slot?]
    rw [hsignals, hfilter, List.filter_beq, Session.count_unstep_toList]
  constructor
  case active_iff =>
    rw [filter_isFor_concat, List.foldl_append, hreleases, hsince]
    refine iff_of_false ?_ List.not_mem_nil
    cases hslot : s.flagged.contains slot with
    | true => simp [Signal.activeAfter]
    | false =>
      -- a slot that is not released has not been stepped either
      intro hactive
      rw [hstepped (h.active_iff.mp hactive)] at hslot
      cases hslot
  case onsets_eq =>
    rw [filter_isFor_concat, Signal.onsets_append, h.onsets_eq, hreleases, Transcript.steps_concat,
      List.count_eq_zero.mpr hsteps]
    cases s.flagged.contains slot with
    | true => simp [Signal.onsets, Signal.isStep]
    | false => simp [Signal.onsets]

/-- What is neither a tick nor an expiry does nothing to the outputs. -/
theorem Pulsed.other {slot : Fin n} {t : Transcript n} (h : Pulsed slot t) {e : Exchange n}
    (hexpiry : e.isExpiry = false) (hnone : ∀ signal ∈ e.signals, signal.slot? = none) :
    Pulsed slot (t ++ [e]) := by
  -- no signal of the exchange is for a slot
  have hfilter : e.signals.filter (Signal.isFor slot) = [] := by
    refine List.filter_eq_nil_iff.mpr fun signal hmem hfor => ?_
    rw [Signal.isFor_iff, hnone signal hmem] at hfor
    cases hfor
  have hstep : .step slot.val ∉ e.signals := by
    intro hmem
    cases hnone _ hmem
  constructor
  case active_iff =>
    rw [filter_isFor_concat, hfilter, List.append_nil,
      Transcript.mem_signals_sinceExpiry_concat hexpiry, or_iff_left hstep]
    exact h.active_iff
  case onsets_eq =>
    rw [filter_isFor_concat, hfilter, List.append_nil, Transcript.steps_concat,
      List.count_eq_zero.mpr hstep]
    exact h.onsets_eq

/-! ## The whole session -/

theorem calls_run (m : Machine n) (calls : List (Call n)) : (m.run calls).2.calls = calls := by
  induction calls generalizing m with
  | nil => rfl
  | cons ask rest ih => exact congrArg (ask :: ·) (ih _)

/-- Only ticks step. -/
theorem tick_mem_of_step {m : Machine n} {calls : List (Call n)} {t : Transcript n}
    (ht : ∀ e ∈ t, e ∈ (m.run calls).2) {slot : Nat} (hstep : .step slot ∈ t.signals) :
    .tick ∈ t.calls := by
  obtain ⟨e, he, hmem⟩ := List.mem_flatMap.mp hstep
  have hall := forall_mem_run (P := fun e => .step slot ∈ e.signals → e.call = .tick)
    (fun _ _ hmem => ask_eq_tick hmem rfl) m calls
  exact List.mem_map.mpr ⟨e, he, hall e (ht e he) hmem⟩

/-- Every machine that can be reached has a past that explains its flags. -/
theorem Reachable.releases (hn : n ≤ 32) {m : Machine n} (h : Reachable m) :
    ∃ t, m.Releases t := by
  -- induction on how the machine was reached, with a transcript that grows along
  induction h with
  | created hcreated =>
    refine ⟨[], releases_of_empty ?_⟩
    rw [Controller.create_eq_ok hcreated]
    rfl
  | called _ ask ih =>
    obtain ⟨t, ht⟩ := ih
    exact ⟨_, ht.call hn ask⟩

/-- What came since the last expiry of a part came since the last expiry of the whole. -/
theorem mem_sinceExpiry_append {past t : Transcript n} {signal : Signal}
    (h : signal ∈ t.sinceExpiry.signals) :
    signal ∈ (Transcript.sinceExpiry (past ++ t)).signals := by
  induction t using List.reverseRecOn with
  | nil => cases h
  | append_singleton t e ih =>
    rw [← List.append_assoc]
    cases hexpiry : e.isExpiry with
    | true =>
      rw [Transcript.sinceExpiry_concat, hexpiry, if_pos rfl] at h
      cases h
    | false =>
      rw [Transcript.mem_signals_sinceExpiry_concat hexpiry] at h ⊢
      exact h.imp_left ih

/-- A session as the outputs of a slot see it, after all that happened before its start. -/
structure Outputs (slot : Fin n) (past : Transcript n) (s : Session n) (t : Transcript n) :
    Prop where
  releases : (Machine.running s).Releases (past ++ t)
  expiries : ∀ e ∈ t, e.call = .expire → e.isExpiry = true
  pulsed : Pulsed slot t

/-- Every call keeps the pulses at the steps, if a tick comes only while the output is inactive. -/
theorem Outputs.pulsed_call {slot : Fin n} {past t : Transcript n} {s : Session n}
    (h : Outputs slot past s t) {ask : Call n}
    (hprompt : ask = .tick → .step slot.val ∉ t.sinceExpiry.signals) :
    Pulsed slot (t ++ [(Machine.running s).exchange ask]) := by
  -- a tick may step, an expiry releases, and no other call drives an output
  cases effect_cases (.running s) ask with
  | ticked s' hm hask =>
    cases hm
    subst hask
    exact h.pulsed.tick s (hprompt rfl)
  | expired s' hm hask =>
    cases hm
    subst hask
    refine h.pulsed.expire (fun i hi => (h.releases.wired i hi).2) fun hstep => ?_
    exact (h.releases.flagged_iff slot).mpr (mem_sinceExpiry_append hstep)
  | reported s' hm hask =>
    cases hm
    subst hask
    refine h.pulsed.other rfl fun signal hmem => ?_
    obtain ⟨_, rfl⟩ := Session.eq_report_of_report hmem
    rfl
  | other _ _ _ htiming hexpiry _ _ =>
    exact h.pulsed.other hexpiry fun signal hmem => Signal.slot?_of_isTiming (htiming signal hmem)

/-- Every call of a session keeps the invariant of its outputs. -/
theorem Outputs.call {slot : Fin n} {past t : Transcript n} {s s' : Session n}
    (h : Outputs slot past s t) (hn : n ≤ 32) {ask : Call n}
    (hstate : ((Machine.running s).call ask).state = .running s')
    (hprompt : ask = .tick → .step slot.val ∉ t.sinceExpiry.signals) :
    Outputs slot past s' (t ++ [(Machine.running s).exchange ask]) where
  releases := by
    rw [← hstate, ← List.append_assoc]
    exact h.releases.call hn ask
  expiries e hmem hcall := by
    rcases List.mem_append.mp hmem with hmem | hmem
    · exact h.expiries e hmem hcall
    · cases List.mem_singleton.mp hmem
      have hask : ask = .expire := hcall
      rw [hask]
      rfl
  pulsed := h.pulsed_call hprompt

/-- A session starts with its outputs inactive. -/
theorem outputs_start {c : Controller n} {past : Transcript n} (h : (Machine.setup c).Releases past)
    (hn : n ≤ 32) (slot : Fin n) :
    Outputs slot past (Session.start c).state [(Machine.setup c).exchange .start] where
  releases := h.call hn .start
  expiries e hmem hcall := by
    rw [List.mem_singleton.mp hmem] at hcall
    cases hcall
  pulsed := by
    have hnil : Pulsed slot ([] : Transcript n) :=
      ⟨iff_of_false Bool.false_ne_true List.not_mem_nil, rfl⟩
    refine hnil.other rfl fun signal hmem => ?_
    exact Signal.slot?_of_isTiming (setup_timing c .start signal hmem)

/-- **At every moment of a session with prompt expiry** its pulses are the steps, and when a tick
comes next, or nothing, no step waits for its release. -/
theorem outputs_session (hn : n ≤ 32) {c : Controller n} (hc : Reachable (.setup c))
    {calls : List (Call n)} (hcalls : .stop ∉ calls) (hprompt : Prompt calls) (slot : Fin n)
    {before after : List (Call n)} (heq : calls = before ++ after) :
    ∃ s t, (Machine.setup c).run (.start :: before) = (.running s, t) ∧ s.motors = c.motors ∧
      Pulsed slot t ∧
      ((∀ ask ∈ after.head?, ask = .tick) → .step slot.val ∉ t.sinceExpiry.signals) := by
  obtain ⟨past, hpast⟩ := hc.releases hn
  -- a moment at which a tick comes next is settled by what was called up to it
  have hsettled {before after : List (Call n)} (heq : calls = before ++ after) {s : Session n}
      {t : Transcript n} (hrun : (Machine.setup c).run (.start :: before) = (.running s, t))
      (hout : Outputs slot past s t) (hnext : ∀ ask ∈ after.head?, ask = .tick) :
      .step slot.val ∉ t.sinceExpiry.signals := by
    intro hstep
    have htcalls : t.calls = .start :: before := by
      rw [← calls_run (.setup c) (.start :: before), hrun]
    have hall : Prompt (t.calls ++ after) := by
      rw [htcalls, List.cons_append, ← heq]
      exact prompt_cons.mpr ⟨nofun, hprompt⟩
    refine hall.tick_not_mem hout.expiries hnext ?_
    have hrecent : ∀ e ∈ t.sinceExpiry, e ∈ ((Machine.setup c).run (.start :: before)).2 := by
      rw [hrun]
      exact (List.rtakeWhile_suffix (fun e : Exchange n => !e.isExpiry) t).subset
    exact tick_mem_of_step hrecent hstep
  suffices hmoment : ∃ s t, (Machine.setup c).run (.start :: before) = (.running s, t) ∧
      s.motors = c.motors ∧ Outputs slot past s t by
    obtain ⟨s, t, hrun, hmotors, hout⟩ := hmoment
    exact ⟨s, t, hrun, hmotors, hout.pulsed, hsettled heq hrun hout⟩
  -- induction from the last call on, so that the moment before it is settled first
  induction before using List.reverseRecOn generalizing after with
  | nil => exact ⟨_, _, rfl, rfl, outputs_start hpast hn slot⟩
  | append_singleton before ask ih =>
    rw [List.append_assoc] at heq
    obtain ⟨s, t, hrun, hmotors, hout⟩ := ih heq
    have hask : ask ≠ .stop := by
      rintro rfl
      rw [heq] at hcalls
      exact hcalls (List.mem_append_right _ List.mem_cons_self)
    obtain ⟨s', hstate, hmotors'⟩ := call_running s hask
    refine ⟨s', t ++ [(Machine.running s).exchange ask], ?_, hmotors'.trans hmotors,
      hout.call hn hstate fun htick => hsettled heq hrun hout ?_⟩
    · rw [← List.cons_append, run_concat, hrun, hstate]
    · rintro next hnext
      cases hnext
      exact htick

/-- What a motor on the bench writes to its pins from the start of a session on. -/
def sessionWrites (c : Controller n) (b : Bench) (motor : MotorNumber) (calls : List (Call n)) :
    List PinWrite :=
  Trace.writes motor ((Machine.setup c).runOn b (.start :: calls)).2

/-- The pin of a motor shows what its slot has got. -/
theorem Pulsed.writes {slot : Fin n} {t : Transcript n} (h : Pulsed slot t) {c : Controller n}
    {calls : List (Call n)} {s : Session n}
    (hrun : (Machine.setup c).run (.start :: calls) = (.running s, t)) {motor : MotorNumber}
    (hwired : s.motors.WiredTo slot motor) {bench : Bench} {pins : StepDir}
    (hpins : bench.pins? motor = some pins) (hworks : pins.pins.stepFails = false) :
    Line.step.edges pins.polarity.pulseLevel (!pins.polarity.pulseLevel)
        (sessionWrites c bench motor calls) = t.steps slot ∧
      (Line.step.level (!pins.polarity.pulseLevel) (sessionWrites c bench motor calls) =
        pins.polarity.pulseLevel ↔ .step slot.val ∈ t.sinceExpiry.signals) := by
  have hwired' : ((Machine.setup c).run (.start :: calls)).1.controller.motors.WiredTo slot
      motor := by
    rw [hrun]
    exact hwired
  have hmotor : pins.Works pins.polarity := ⟨rfl, hworks⟩
  obtain ⟨hlevel, hedges⟩ := hmotor.obeyAll false (t.signals.filter (Signal.isFor slot))
  rw [Polarity.stepLevel_false] at hlevel hedges
  rw [sessionWrites, writes_runOn hwired' hpins, hrun, hlevel, hedges, h.onsets_eq,
    Polarity.stepLevel_eq_iff, h.active_iff]
  exact ⟨rfl, Iff.rfl⟩

/-- An output that is active at one moment and not at a later one was released in between. -/
theorem Pulsed.unstep_mem {slot : Fin n} {t u : Transcript n} (h : Pulsed slot t)
    (hlater : Pulsed slot (t ++ u)) (hstep : .step slot.val ∈ t.sinceExpiry.signals)
    (hsettled : .step slot.val ∉ (Transcript.sinceExpiry (t ++ u)).signals) :
    .unstep slot.val ∈ u.signals := by
  by_contra hnone
  have hheld : ∀ i, .unstep i ∉ u.signals.filter (Signal.isFor slot) := by
    intro i hmem
    obtain ⟨hmem, hfor⟩ := List.mem_filter.mp hmem
    cases Signal.isFor_iff.mp hfor
    exact hnone hmem
  refine hsettled (hlater.active_iff.mp ?_)
  rw [Transcript.signals_append, List.filter_append, List.foldl_append, h.active_iff.mpr hstep,
    Signal.active_of_held hheld, Bool.true_or]

/-- In a session the steps of a slot are those of its finished blocks and of the executing one. -/
theorem steps_of_start {c : Controller n} (hc : Reachable (.setup c)) {calls : List (Call n)}
    (hcalls : .stop ∉ calls) {s : Session n} {t : Transcript n}
    (hrun : (Machine.setup c).run (.start :: calls) = (.running s, t)) (slot : Fin n) :
    t.steps slot = totalSteps t.finished slot + s.progress slot := by
  have hcalls' : .stop ∉ .start :: calls := List.not_mem_cons_of_ne_of_not_mem nofun hcalls
  have hall := hc.sound.balance_run hcalls' slot
  rw [hrun] at hall
  exact (Nat.zero_add _).symm.trans hall

/-- **Every step is one pulse.** Let a session be started on any machine that can be reached, and
let an expiry follow every tick before the next one and before the end. Consider a slot whose motor
is on pins and wired to no other slot, with a step pin that does not fail and is inactive at first.
At every moment, its step pin has become active once for each step of the slot; these are the steps
of the finished blocks, and as many as the executing block has come to; and it is active exactly
from a step on to the next expiry. So it is inactive after every expiry, before every tick and at
the end; where it is active after a tick, it is released before the next one; and from one moment
to another it becomes active as often as the block asks for that was executed in between. -/
theorem steps_are_pulses (hn : n ≤ 32) {c : Controller n} (hc : Reachable (.setup c))
    {calls : List (Call n)} (hcalls : .stop ∉ calls) (hprompt : Prompt calls) {slot : Fin n}
    {motor : MotorNumber} (hwired : c.motors.WiredTo slot motor) {bench : Bench} {pins : StepDir}
    (hpins : bench.pins? motor = some pins) (hworks : pins.pins.stepFails = false) :
    let pulse := !pins.polarity.invertedStep
    let writes := sessionWrites c bench motor
    (∀ before after, calls = before ++ after →
      ∃ s t, (Machine.setup c).run (.start :: before) = (.running s, t) ∧
        Line.step.edges pulse (!pulse) (writes before) = t.steps slot ∧
        t.steps slot = totalSteps t.finished slot + s.progress slot ∧
        (Line.step.level (!pulse) (writes before) = pulse ↔
          .step slot.val ∈ t.sinceExpiry.signals)) ∧
      (∀ before after, calls = before ++ after →
        (before.getLast? = some .expire ∨ ∀ ask ∈ after.head?, ask = .tick) →
        Line.step.level (!pulse) (writes before) = !pulse) ∧
      (∀ before between after, calls = before ++ [.tick] ++ between ++ after →
        (∀ ask ∈ after.head?, ask = .tick) →
        Line.step.level (!pulse) (writes (before ++ [.tick])) = pulse →
        .unstep slot.val ∈ (((Machine.setup c).run (.start :: (before ++ [.tick]))).1.run
          between).2.signals) ∧
      (∀ before during after s t s' t' b, calls = before ++ during ++ after →
        (Machine.setup c).run (.start :: before) = (.running s, t) →
        (Machine.setup c).run (.start :: (before ++ during)) = (.running s', t') →
        t'.finished = t.finished ++ [b] → s.progress slot = 0 → s'.progress slot = 0 →
        Line.step.edges pulse (!pulse) (writes (before ++ during)) =
          Line.step.edges pulse (!pulse) (writes before) + (b.steps.get slot).toNat) := by
  intro pulse writes
  have hmoment {before after : List (Call n)} (heq : calls = before ++ after) :
      ∃ s t, (Machine.setup c).run (.start :: before) = (.running s, t) ∧ Pulsed slot t ∧
        Line.step.edges pulse (!pulse) (writes before) = t.steps slot ∧
        t.steps slot = totalSteps t.finished slot + s.progress slot ∧
        (Line.step.level (!pulse) (writes before) = pulse ↔
          .step slot.val ∈ t.sinceExpiry.signals) ∧
        ((∀ ask ∈ after.head?, ask = .tick) → .step slot.val ∉ t.sinceExpiry.signals) := by
    obtain ⟨s, t, hrun, hmotors, hpulsed, hsettled⟩ :=
      outputs_session hn hc hcalls hprompt slot heq
    have hbefore : .stop ∉ before := by
      rw [heq, List.mem_append, not_or] at hcalls
      exact hcalls.1
    obtain ⟨hedges, hlevel⟩ := hpulsed.writes hrun (hmotors ▸ hwired) hpins hworks
    exact ⟨s, t, hrun, hpulsed, hedges, steps_of_start hc hbefore hrun slot, hlevel, hsettled⟩
  refine ⟨?_, ?_, ?_, ?_⟩
  · intro before after heq
    obtain ⟨s, t, hrun, -, hedges, hsteps, hlevel, -⟩ := hmoment heq
    exact ⟨s, t, hrun, hedges, hsteps, hlevel⟩
  · intro before after heq hquiet
    obtain ⟨s, t, hrun, -, -, -, hlevel, hsettled⟩ := hmoment heq
    refine Bool.eq_not_of_ne fun hactive => ?_
    have hstep := hlevel.mp hactive
    rcases hquiet with hexpire | hnext
    · -- the last exchange is an expiry, so nothing came since
      obtain ⟨earlier, rfl⟩ := List.getLast?_eq_some_iff.mp hexpire
      rw [List.append_assoc] at heq
      obtain ⟨s₀, t₀, hrun₀, -⟩ := hmoment heq
      rw [← List.cons_append, run_concat, hrun₀] at hrun
      obtain ⟨-, rfl⟩ := Prod.mk.inj hrun
      rw [Transcript.sinceExpiry_concat] at hstep
      cases hstep
    · exact hsettled hnext hstep
  · intro before between after heq hnext hactive
    obtain ⟨s', t', hrun', hpulsed', -, -, -, hsettled⟩ := hmoment heq
    rw [List.append_assoc _ between after] at heq
    obtain ⟨s, t, hrun, hpulsed, -, -, hlevel, -⟩ := hmoment heq
    have ht' : t' = t ++ ((Machine.running s).run between).2 := by
      rw [← List.cons_append, run_append, hrun] at hrun'
      exact (Prod.mk.inj hrun').2.symm
    rw [ht'] at hpulsed' hsettled
    rw [hrun]
    exact hpulsed.unstep_mem hpulsed' (hlevel.mp hactive) (hsettled hnext)
  · intro before during after s t s' t' b heq hrun hrun' hfinished hprogress hprogress'
    obtain ⟨s₂, t₂, hrun₂, -, hedges₂, hsteps₂, -⟩ := hmoment heq
    rw [List.append_assoc] at heq
    obtain ⟨s₁, t₁, hrun₁, -, hedges₁, hsteps₁, -⟩ := hmoment heq
    obtain ⟨⟨⟩, rfl⟩ := Prod.mk.inj (hrun₁.symm.trans hrun)
    obtain ⟨⟨⟩, rfl⟩ := Prod.mk.inj (hrun₂.symm.trans hrun')
    have hblock : totalSteps [b] slot = (b.steps.get slot).toNat := Nat.add_zero _
    rw [hedges₂, hsteps₂, hfinished, totalSteps_append, hprogress', hblock, hedges₁, hsteps₁,
      hprogress, Nat.add_zero, Nat.add_zero]

/-- Two blocks in a row with an expiry after every tick, and other calls between them. -/
def promptly : List (Call 2) :=
  [.submit twoSteps, .tick, .expire, .tick, .report, .expire, .submit twoSteps, .tick, .expire,
    .setTickRate ⟨20000⟩, .tick, .expire, .tick, .expire, .expire, .tick, .expire]

/-- A bench with one motor on pins, whose pulses are at the low level. -/
def oneInverted : Bench := { motors := #[{ pins := some { polarity.invertedStep := true } }] }

/-- A bench with one motor on pins, whose pulses are at the high level. -/
def oneUpright : Bench := { motors := #[{ pins := some {} }] }

/-- An expiry follows every tick, now and then after other calls. -/
theorem prompt_promptly : Prompt promptly := by
  simp [promptly, prompt_cons, prompt_nil, expiresFirst_cons]

/-- The one motor is wired to the first slot. -/
theorem wiredTo_oneMotor : oneMotor.motors.WiredTo (0 : Fin 2) 0 := by
  refine ⟨rfl, fun other hother => ?_⟩
  cases other with
  | zero => rfl
  | succ _ => cases hother

/-- The second block has begun and made one of its steps: three pulses, low ones on a motor that is
inverted and high ones on a motor that is not. -/
theorem steps_are_pulses_promptly :
    2 ≤ 32 ∧ Reachable (.setup oneMotor) ∧ .stop ∉ promptly ∧ Prompt promptly ∧
      oneMotor.motors.WiredTo (0 : Fin 2) 0 ∧
      oneInverted.pins? 0 = some { polarity.invertedStep := true } ∧
      oneUpright.pins? 0 = some {} ∧
      ∃ s t, (Machine.setup oneMotor).run (.start :: promptly) = (.running s, t) ∧
        t.finished = [twoSteps] ∧ s.progress 0 = 1 ∧
        Line.step.edges false true (sessionWrites oneMotor oneInverted 0 promptly) = 3 ∧
        Line.step.level true (sessionWrites oneMotor oneInverted 0 promptly) = true ∧
        Line.step.edges true false (sessionWrites oneMotor oneUpright 0 promptly) = 3 ∧
        Line.step.level false (sessionWrites oneMotor oneUpright 0 promptly) = false := by
  have hcalls : .stop ∉ promptly := by simp [promptly]
  have hinverted : oneInverted.pins? 0 = some { polarity.invertedStep := true } := rfl
  have hupright : oneUpright.pins? 0 = some {} := rfl
  obtain ⟨hmoments, hlevels, -, -⟩ := steps_are_pulses (by decide) reachable_oneMotor hcalls
    prompt_promptly wiredTo_oneMotor hinverted rfl
  obtain ⟨hmoments', hlevels', -, -⟩ := steps_are_pulses (by decide) reachable_oneMotor hcalls
    prompt_promptly wiredTo_oneMotor hupright rfl
  obtain ⟨s, t, hrun, hedges, hsteps, -⟩ := hmoments promptly [] (List.append_nil _).symm
  obtain ⟨s', t', hrun', hedges', -⟩ := hmoments' promptly [] (List.append_nil _).symm
  -- the session does not depend on what is on the bench
  obtain ⟨⟨⟩, rfl⟩ := Prod.mk.inj (hrun'.symm.trans hrun)
  have hfinished : ((Machine.setup oneMotor).run (.start :: promptly)).2.finished =
      [twoSteps] := by decide +kernel
  have hprogress : ((Machine.setup oneMotor).run (.start :: promptly)).1.progress 0 = 1 := by
    decide +kernel
  rw [hrun] at hfinished hprogress
  have hprogress' : s.progress 0 = 1 := hprogress
  rw [hfinished, hprogress'] at hsteps
  exact ⟨by decide, reachable_oneMotor, hcalls, prompt_promptly, wiredTo_oneMotor, hinverted,
    hupright, s, t', hrun, hfinished, hprogress', hedges.trans hsteps,
    hlevels promptly [] (List.append_nil _).symm (.inl rfl), hedges'.trans hsteps,
    hlevels' promptly [] (List.append_nil _).symm (.inl rfl)⟩

end Machine

end PulseTrain
