import PulseTrain.Proofs.Axis.Rest
import PulseTrain.Proofs.Session.Course
import PulseTrain.Proofs.Session.Delivery

/-!
# Which blocks end

The tick context has an agenda: the course of the executing block, and behind it that of the block
that waits. Ticks in a row work it off from its front, one block after the other. So a block ends
unless it, or the block before it, has a slot that comes to rest.

* **`Session.agenda`**: what is to be run, in order; **`OnAgenda.tick`**: what one tick makes of it.
* **`Course.RunsOut`**: a course that comes to its end; **`all_finish_iff`**: an agenda is worked
  off exactly if all its courses do.
* **`Course.runsOut_iff`**: a course runs out exactly if no slot comes to rest.
* **`ends_unless_at_rest`**: the same for a block that is taken in a session;
  **`creeping_never_ends`**: a block that does come to rest.
-/

namespace PulseTrain

variable {n : Nat}

namespace Course

/-- The course after so many more ticks. -/
def later (j : Course n) (count : Nat) : Course n := { j with ticks := j.ticks + count }

/-- Every slot is through. -/
def Through (j : Course n) : Prop := ∀ slot, (j.axis slot).isActive = false

/-- The course comes to its end, with a tick at least. -/
def RunsOut (j : Course n) : Prop := ∃ count, (j.later (count + 1)).Through

/-- No slot comes to rest. -/
def NeverRests (j : Course n) : Prop :=
  ∀ slot t, j.block.rampDownStart.toNat ≤ t → ¬ (j.block.axisAlone j.rate slot t).Rests

theorem later_next (j : Course n) (count : Nat) : j.next.later count = j.later (count + 1) := by
  unfold next later
  rw [Nat.add_assoc, Nat.add_comm 1 count]

/-- A course runs out if the string of every slot ends. -/
theorem runsOut_iff_ends (j : Course n) :
    j.RunsOut ↔ ∀ slot, ∃ length, j.block.SoloEnds j.rate slot length := by
  constructor
  · rintro ⟨count, hthrough⟩ slot
    exact Block.exists_soloEnds_iff.mpr ⟨_, hthrough slot⟩
  · intro hends
    -- by then even the longest string is through
    choose length hlength using hends
    refine ⟨Finset.univ.sup length, fun slot => Bool.eq_false_iff.mpr fun hactive => ?_⟩
    have hlt : j.ticks + (Finset.univ.sup length + 1) < length slot :=
      ((hlength slot).isActive_iff _).mp hactive
    have hle : length slot ≤ Finset.univ.sup length := Finset.le_sup (Finset.mem_univ slot)
    omega

/-- **A course runs out unless a slot comes to rest.** -/
theorem runsOut_iff {j : Course n} {registered : Nat} (hpass : j.block.fault? registered = none) :
    j.RunsOut ↔ j.NeverRests := by
  rw [runsOut_iff_ends]
  exact forall_congr' fun slot => Block.ends_iff_never_rests hpass j.rate slot

end Course

namespace Session

/-! ## The agenda -/

/-- What is to be run: the course of the executing block, and the one that the waiting block will
take. -/
def agenda (s : Session n) (k : Option (Course n)) : List (Course n) :=
  k.toList ++ (s.upcoming none).toList

/-- The session has come to where it has this agenda. -/
def OnAgenda (s : Session n) (agenda : List (Course n)) : Prop :=
  s.Sound ∧ ∃ k, s.Tracks k ∧ s.agenda k = agenda

variable {s : Session n} {j : Course n} {rest : List (Course n)}

/-- The course at the front of the agenda is the upcoming one, and the rest waits behind it. -/
theorem agenda_eq_cons {k : Option (Course n)} (h : s.agenda k = j :: rest) :
    s.upcoming k = some j ∧ (k.bind fun _ => s.upcoming none).toList = rest := by
  unfold agenda at h
  cases k with
  | some j' =>
    obtain ⟨hhead, htail⟩ := List.cons.inj h
    exact ⟨congrArg some hhead, htail⟩
  | none =>
    cases hup : s.upcoming none with
    | none => rw [hup] at h; cases h
    | some j' =>
      rw [hup] at h
      obtain ⟨hhead, htail⟩ := List.cons.inj h
      exact ⟨congrArg some hhead, htail⟩

/-- **One tick of an agenda.** It finishes the course at the front if no slot of that moves after
it, and otherwise it is one more tick of that course. -/
theorem OnAgenda.tick (h : s.OnAgenda (j :: rest)) :
    j.next.Through ∧ s.tick.answer = some j.block ∧ s.tick.state.OnAgenda rest ∨
      ¬ j.next.Through ∧ s.tick.answer = none ∧ s.tick.state.OnAgenda (j.next :: rest) := by
  obtain ⟨hs, k, htracks, hagenda⟩ := h
  obtain ⟨hup, hbehind⟩ := agenda_eq_cons hagenda
  have htracks' := htracks.tick hs
  obtain ⟨hwake, -, -⟩ := htracks.awake hup
  have hends := htracks.ends_iff hs hup
  -- the tick ends the block exactly if it leaves no slot moving
  cases hmoving : s.moved.isMoving with
  | true =>
    have htick := hwake.tick_of_moving hmoving
    have hanswer : s.tick.answer = none := by rw [htick]
    have hthrough : ¬ j.next.Through := by
      intro hthrough
      rw [hends.mpr hthrough] at hanswer
      cases hanswer
    rw [courseAfterTick_of_none hanswer, hup] at htracks'
    refine .inr ⟨hthrough, hanswer, hs.tick, some j.next, htracks', ?_⟩
    have hwaiting : s.tick.state.upcoming none = k.bind fun _ => s.upcoming none := by
      rw [htick]
      exact htracks.upcoming_moved hwake
    show j.next :: (s.tick.state.upcoming none).toList = j.next :: rest
    rw [hwaiting, hbehind]
  | false =>
    have htick := hwake.tick_of_still hmoving
    have hanswer : s.tick.answer = some j.block := by rw [htick]
    rw [courseAfterTick_of_some hanswer] at htracks'
    refine .inl ⟨hends.mp hanswer, hanswer, hs.tick, _, htracks', ?_⟩
    -- the mailbox is empty at the end of a block
    have hempty : s.tick.state.upcoming none = none := by
      have hbox : s.tick.state.mailbox = none := by
        rw [htick]
        exact mailbox_finish s.moved
      rw [upcoming, hbox]
      rfl
    unfold agenda
    rw [hempty, hbehind]
    exact List.append_nil rest

end Session

namespace Machine

variable {s : Session n} {j : Course n} {rest : List (Course n)}

/-! ## Ticks in a row -/

/-- So many ticks. -/
def ticks (n count : Nat) : List (Call n) := List.replicate count .tick

theorem run_tick (s : Session n) (calls : List (Call n)) :
    (Machine.running s).run (.tick :: calls) =
      (((Machine.running s.tick.state).run calls).1,
        ⟨.tick, .ticked s.tick.answer, s.tick.signals⟩ ::
          ((Machine.running s.tick.state).run calls).2) := rfl

theorem finished_tick (s : Session n) (calls : List (Call n)) :
    ((Machine.running s).run (.tick :: calls)).2.finished =
      s.tick.answer.toList ++ ((Machine.running s.tick.state).run calls).2.finished := by
  rw [run_tick, Transcript.finished_cons]
  rfl

/-- As long as the course at the front does not come to its end, ticks finish nothing. -/
theorem finished_ticks_of_moving (count : Nat) {j : Course n} {s : Session n}
    (h : s.OnAgenda (j :: rest)) (hmoves : ∀ i < count, ¬ (j.later (i + 1)).Through) :
    ((Machine.running s).run (ticks n count)).2.finished = [] ∧
      ∃ s', ((Machine.running s).run (ticks n count)).1 = .running s' ∧
        s'.OnAgenda (j.later count :: rest) := by
  -- induction on the ticks; the course at the front is one tick further each time
  induction count generalizing s j with
  | zero => exact ⟨rfl, s, rfl, h⟩
  | succ count ih =>
    obtain ⟨hthrough, -⟩ | ⟨-, hanswer, hnext⟩ := h.tick
    · exact absurd hthrough (hmoves 0 (Nat.zero_lt_succ count))
    · obtain ⟨hfinished, s', hrun, hagenda⟩ := ih hnext fun i hi => by
        rw [Course.later_next]
        exact hmoves (i + 1) (Nat.succ_lt_succ hi)
      show ((Machine.running s).run (.tick :: ticks n count)).2.finished = [] ∧ _
      rw [finished_tick, hanswer, hfinished]
      rw [Course.later_next] at hagenda
      exact ⟨rfl, s', hrun, hagenda⟩

/-- Ticks in a row finish what the first of them finish and then what the others do. -/
theorem finished_ticks_add {s s' : Session n} {count : Nat}
    (h : ((Machine.running s).run (ticks n count)).1 = .running s') (more : Nat) :
    ((Machine.running s).run (ticks n (count + more))).2.finished =
      ((Machine.running s).run (ticks n count)).2.finished ++
        ((Machine.running s').run (ticks n more)).2.finished := by
  unfold ticks at h ⊢
  rw [← List.replicate_append_replicate, run_append, h]
  exact Transcript.finished_append _ _

/-- Where the course at the front comes to its end, ticks up to there finish its block. -/
theorem finished_ticks_of_runsOut (h : s.OnAgenda (j :: rest)) (hends : j.RunsOut) :
    ∃ count s', (∀ i ≤ count, ((Machine.running s).run (ticks n i)).2.finished = []) ∧
      ((Machine.running s).run (ticks n (count + 1))).2.finished = [j.block] ∧
      ((Machine.running s).run (ticks n (count + 1))).1 = .running s' ∧ s'.OnAgenda rest := by
  classical
  -- before the first tick after which nothing moves, nothing is finished
  have hmoves (i : Nat) (hi : i ≤ Nat.find hends) :=
    finished_ticks_of_moving i h fun i' hi' => Nat.find_min hends (hi'.trans_le hi)
  obtain ⟨hfinished, s', hrun, hagenda⟩ := hmoves (Nat.find hends) le_rfl
  have hthrough : (j.later (Nat.find hends)).next.Through := Nat.find_spec hends
  obtain ⟨-, hanswer, hrest⟩ | ⟨hmoving, -⟩ := hagenda.tick
  · refine ⟨Nat.find hends, s'.tick.state, fun i hi => (hmoves i hi).1, ?_, ?_, hrest⟩
    · rw [finished_ticks_add hrun, hfinished]
      show [] ++ ((Machine.running s').run [.tick]).2.finished = _
      rw [finished_tick, hanswer]
      rfl
    · unfold ticks at hrun ⊢
      rw [List.replicate_add, run_append, hrun]
      rfl
  · exact absurd hthrough hmoving

/-- A course that does not run out keeps everything behind it from beginning. -/
theorem finished_ticks_of_not_runsOut (h : s.OnAgenda (j :: rest)) (hstays : ¬ j.RunsOut)
    (count : Nat) : ((Machine.running s).run (ticks n count)).2.finished = [] :=
  (finished_ticks_of_moving count h fun i _ hthrough => hstays ⟨i, hthrough⟩).1

/-- **An agenda is worked off if all its courses come to their ends**, and only then. The induction
is on the agenda. -/
theorem all_finish_iff {agenda : List (Course n)} (h : s.OnAgenda agenda) :
    (∃ count, ((Machine.running s).run (ticks n count)).2.finished = agenda.map Course.block) ↔
      ∀ j ∈ agenda, j.RunsOut := by
  -- induction on the agenda, whose front has to run out before the rest begins
  induction agenda generalizing s with
  | nil => exact iff_of_true ⟨0, rfl⟩ (List.forall_mem_nil _)
  | cons j rest ih =>
    rw [List.forall_mem_cons]
    by_cases hends : j.RunsOut
    · obtain ⟨first, s', hbefore, hfinished, hrun, hrest⟩ := finished_ticks_of_runsOut h hends
      rw [← ih hrest, and_iff_right hends]
      constructor
      · rintro ⟨count, hall⟩
        -- the whole agenda is finished only after its first block
        have hlt : first < count := by
          by_contra hle
          rw [hbefore count (Nat.le_of_not_lt hle)] at hall
          cases hall
        obtain ⟨more, rfl⟩ := Nat.exists_eq_add_of_lt hlt
        refine ⟨more, ?_⟩
        rw [Nat.add_right_comm, finished_ticks_add hrun, hfinished] at hall
        exact (List.cons.inj hall).2
      · rintro ⟨more, hall⟩
        refine ⟨first + 1 + more, ?_⟩
        rw [finished_ticks_add hrun, hfinished, hall]
        rfl
    · refine iff_of_false ?_ fun hall => hends hall.1
      rintro ⟨count, hall⟩
      rw [finished_ticks_of_not_runsOut h hends] at hall
      cases hall

/-! ## A block that is taken -/

/-- A submission that is taken only fills the mailbox. -/
theorem call_submit {b : Block n} (htaken : (s.submit b).answer = .ok ()) :
    (Machine.running s).call (.submit b) = ⟨.running { s with mailbox := some b }, .done, []⟩ := by
  show ofSession .ofSubmission (s.submit b) = _
  rw [(s.submit_spec b).taken htaken]
  rfl

/-- A block that is taken comes last on the agenda. -/
theorem onAgenda_submit {k : Option (Course n)} (hs : s.Sound) (htracks : s.Tracks k)
    {b : Block n} (htaken : (s.submit b).answer = .ok ()) :
    Session.OnAgenda { s with mailbox := some b }
      (k.toList ++ [⟨b, s.timing.tickRate.value, 0⟩]) := by
  have hsound := Sound.call (m := .running s) hs (.submit b)
  have htracks' := Tracks.call (m := .running s) htracks hs (.submit b)
  rw [call_submit htaken] at hsound htracks'
  exact ⟨hsound, k, htracks', rfl⟩

/-- A submission that is taken finishes nothing itself. -/
theorem finished_submit {b : Block n} (htaken : (s.submit b).answer = .ok ())
    (calls : List (Call n)) :
    ((Machine.running s).run (.submit b :: calls)).2.finished =
      ((Machine.running { s with mailbox := some b }).run calls).2.finished := by
  rw [run_cons_exchange, Transcript.finished_cons, exchange, call_submit htaken]
  rfl

/-- **A block ends unless a slot comes to rest.** Let a session be started on any machine that can
be reached, any calls but a stop be made in it, and then a block be taken. Ticks in a row finish the
executing block and then this one, unless a slot of one of them comes to rest, and only then. No
slot of a block whose rates fall steeply does so, and in any block only one with a rate of `2 ^
(-25)` steps per tick or less. -/
theorem ends_unless_at_rest {c : Controller n} (hc : Reachable (.setup c))
    {before : List (Call n)} (hbefore : .stop ∉ before) :
    ∃ s t k, (Machine.setup c).run (.start :: before) = (.running s, t) ∧
      (Machine.setup c).course none (.start :: before) = k ∧
      ∀ b, (s.submit b).answer = .ok () →
        ((∃ count, ((Machine.running s).run (.submit b :: ticks n count)).2.finished =
            s.executing.toList ++ [b]) ↔
          ∀ j ∈ k.toList ++ [⟨b, s.timing.tickRate.value, 0⟩], j.NeverRests) ∧
        ∀ j ∈ k.toList ++ [⟨b, s.timing.tickRate.value, 0⟩],
          (j.block.FallsSteeply → j.NeverRests) ∧
            ∀ slot t, (j.block.axisAlone j.rate slot t).Rests →
              Single.value (j.block.axisAlone j.rate slot t).rate ≤ 1 / 2 ^ 25 := by
  obtain ⟨s, t, hrun, -⟩ := run_start c hbefore
  obtain ⟨k, hk⟩ : ∃ k, (Machine.setup c).course none (.start :: before) = k := ⟨_, rfl⟩
  have hs : s.Sound := hc.sound_session hrun
  have htracks : s.Tracks k := by
    have hlast := Tracks.run (m := .setup c) rfl hc.sound (.start :: before)
    rwa [hrun, hk] at hlast
  refine ⟨s, t, k, hrun, hk, fun b htaken => ?_⟩
  have hagenda := onAgenda_submit hs htracks htaken
  generalize hqueue : k.toList ++ [⟨b, s.timing.tickRate.value, 0⟩] = agenda at hagenda ⊢
  have hblocks : agenda.map Course.block = s.executing.toList ++ [b] := by
    rw [← hqueue, htracks.executing, List.map_append, Option.toList_map]
    rfl
  -- the blocks on the agenda have all passed the check when they were submitted
  have hpass (j : Course n) (hj : j ∈ agenda) : j.block.fault? s.motors.size = none := by
    rw [← hqueue, List.mem_append, Option.mem_toList, List.mem_singleton] at hj
    obtain hj | rfl := hj
    · refine hs.executing_fits j.block ?_
      rw [htracks.executing, hj]
      rfl
    · exact (b.fault?_eq_none_iff _).mpr ((s.submit_spec b).taken_iff.mp htaken).1
  refine ⟨?_, fun j hj => ⟨?_, fun slot t hrests => (Block.bounds_of_rests hrests).1⟩⟩
  · simp only [finished_submit htaken]
    rw [← hblocks, all_finish_iff hagenda]
    exact forall₂_congr fun j hj => Course.runsOut_iff (hpass j hj)
  · exact fun hsteep slot t hlate => hsteep.not_rests (hpass j hj) hlate

/-- A block behind one that has one step left. -/
theorem ends_unless_at_rest_halfway :
    Reachable (.setup oneMotor) ∧ .stop ∉ halfway ∧
      ∃ s t, (Machine.setup oneMotor).run (.start :: halfway) = (.running s, t) ∧
        (s.submit twoSteps).answer = .ok () ∧
        ((Machine.running s).run (.submit twoSteps :: ticks 2 5)).2.finished =
          s.executing.toList ++ [twoSteps] ∧
        Course.NeverRests (⟨twoSteps, s.timing.tickRate.value, 0⟩ : Course 2) := by
  have hbefore : .stop ∉ halfway := by simp [halfway]
  obtain ⟨s, t, k, hrun, -, hends⟩ := ends_unless_at_rest reachable_oneMotor hbefore
  have hwaiting : ((Machine.setup oneMotor).run (.start :: halfway)).1.executing = some twoSteps ∧
      ((Machine.setup oneMotor).run (.start :: halfway)).1.controller.mailbox = none ∧
      ((Machine.setup oneMotor).run (.start :: halfway)).1.controller.motors.size = 1 := by
    decide +kernel
  have hfinished : (((Machine.setup oneMotor).run (.start :: halfway)).1.run
      (.submit twoSteps :: ticks 2 5)).2.finished = [twoSteps, twoSteps] := by decide +kernel
  rw [hrun] at hwaiting hfinished
  obtain ⟨hexec, hbox, hsize⟩ := hwaiting
  have hfits : twoSteps.Fits s.motors.size := by
    rw [show s.motors.size = 1 from hsize]
    exact (twoSteps.fault?_eq_none_iff 1).mp (by decide)
  have htaken : (s.submit twoSteps).answer = .ok () :=
    (s.submit_spec twoSteps).taken_iff.mpr ⟨hfits, hbox⟩
  have hall : ((Machine.running s).run (.submit twoSteps :: ticks 2 5)).2.finished =
      s.executing.toList ++ [twoSteps] := by
    rw [show s.executing = some twoSteps from hexec]
    exact hfinished
  -- five ticks finish both blocks, so neither of them ever comes to rest
  have hnever := (hends twoSteps htaken).1.mp ⟨5, hall⟩
  exact ⟨reachable_oneMotor, hbefore, s, t, hrun, htaken, hall,
    hnever _ (List.mem_append_right _ (List.mem_singleton_self _))⟩

/-! ## A block that does not end -/

/-- A machine with one slot and its motor, at 65536 ticks per second. -/
def slowMotor : Controller 1 :=
  { timing := { tickRate := ⟨65536⟩ }, motors := ⟨#[0], #[none]⟩, tickTimer := ⟨381, 0⟩
    pulseTimer := ⟨25, 0⟩ }

/-- The same machine before its motor is registered. -/
def noSlowMotor : Controller 1 := { slowMotor with motors := {} }

theorem create_noSlowMotor :
    (Controller.create { tickRate := ⟨65536⟩ } 0 0).1 = .ok noSlowMotor := rfl

theorem reachable_slowMotor : Reachable (.setup slowMotor) :=
  (Reachable.created create_noSlowMotor).called (.register 0)

/-- One step, all but `2 ^ (-24)` of which is made on the first tick. From the second tick on, the
rate is `2 ^ (-26)` steps per tick. -/
def creeping : Block 1 :=
  { rampUpEnd := 2, rampDownStart := 6, duration := 8, rampUp := 0.99999994
    cruiseRate := 0.0009765625, rampDown := 1e-18, referenceSteps := 1, steps := #v[1] }

/-- After its last tick the slot has a rate that its accumulator absorbs. -/
theorem rests_creeping : (creeping.axisAlone 65536 0 8).Rests where
  active := by decide +kernel
  rate := by decide +kernel
  steady := by decide +kernel
  absorbed := by decide +kernel
  below := by decide +kernel

/-- **A block that never ends**, with rates that are finite and not below zero: its accumulator
stays `2 ^ (-24)` below a whole step, which the sums would reach on the fifth tick. -/
theorem creeping_never_ends :
    Reachable (.setup slowMotor) ∧ slowMotor.timing.check = .ok () ∧
      (∀ rate ∈ [creeping.startRate, creeping.cruiseRate, creeping.rampUp, creeping.rampDown],
        rate.isFinite = true ∧ 0 ≤ rate) ∧
      ∃ s t, (Machine.setup slowMotor).run [.start] = (.running s, t) ∧
        (s.submit creeping).answer = .ok () ∧
        ∀ count, ((Machine.running s).run (.submit creeping :: ticks 1 count)).2.finished = [] := by
  have hpass : creeping.fault? 1 = none := by decide
  have hs : (Session.start slowMotor).state.Sound :=
    reachable_slowMotor.sound_session (show (Machine.setup slowMotor).run [.start] = _ from rfl)
  have htaken : ((Session.start slowMotor).state.submit creeping).answer = .ok () :=
    ((Session.start slowMotor).state.submit_spec creeping).taken_iff.mpr
      ⟨(creeping.fault?_eq_none_iff 1).mp hpass, rfl⟩
  refine ⟨reachable_slowMotor, ?_, by decide +kernel, _, _, rfl, htaken, fun count => ?_⟩
  · rw [Timing.check_eq_ok_iff]
    decide +kernel
  · have hagenda := onAgenda_submit hs (.idle rfl rfl) htaken
    -- the one slot is at rest after tick 8, which is later than its ramp down begins
    have hstays : ¬ Course.RunsOut (⟨creeping, 65536, 0⟩ : Course 1) := by
      rw [Course.runsOut_iff hpass]
      exact fun hnever => hnever 0 8 (by decide) rests_creeping
    rw [finished_submit htaken]
    exact finished_ticks_of_not_runsOut hagenda hstays count

end Machine

end PulseTrain
