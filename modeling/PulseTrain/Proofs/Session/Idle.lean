import PulseTrain.Proofs.Session.Run
import PulseTrain.Proofs.Session.Sound

/-!
# When the planner sees an idle engine

That a block executes is known twice. The tick context knows it by itself and forgets it at a stop;
the planner reads a mark that outlives the session. The two agree as long as blocks come to their
ends. A stop that cuts a block short leaves the mark set, and in the sessions after it the planner
takes the engine for busy until a block has come to its end again.

* **`Transcript.cutShort`**: what the mark remembers beyond the executing block.
* **`Session.busy_tick`**, **`Machine.busy_call`**, **`Machine.busy_run`**: the exact value of the
  mark, over a tick, a call and a run.
* **`isIdle_iff`**: when the planner sees an idle engine.
-/

namespace PulseTrain

variable {n : Nat}

/-- Whether the exchange has cut a block short, if it has ended one. -/
def Exchange.cut? (e : Exchange n) : Option Bool := e.ended?.map fun _ => e.finished?.isNone

/-- The block that ended last was cut short. -/
def Transcript.cutShort (t : Transcript n) : Bool :=
  (t.filterMap Exchange.cut?).getLast?.getD false

namespace Session

/-- What moves on a tick is marked as busy. -/
theorem WakeCase.busy_moved {s : Session n} {b : Block n} (h : WakeCase s b) {cut : Bool}
    (hbusy : s.busy = (s.isActive || cut)) : s.moved.busy = true := by
  cases h with
  | already hexec hawake =>
    rw [moved, advance_fst, hawake]
    show s.busy = true
    rw [hbusy, isActive_of_executing hexec, Bool.true_or]
  | pickedUp _ _ hawake => rw [moved, advance_fst, hawake]; rfl

/-- The end of a block sets the mark right. -/
theorem busy_finish (s : Session n) : s.finish.1.busy = s.finish.1.isActive := by
  cases handover_cases s with
  | rests _ hfinish => rw [hfinish]; rfl
  | handsOver next _ hfinish => rw [hfinish]; rfl

/-- **A tick keeps the mark**, and if it ends a block, the mark is right after it. -/
theorem busy_tick {s : Session n} {cut : Bool} (hbusy : s.busy = (s.isActive || cut)) :
    s.tick.state.busy = (s.tick.state.isActive || (cut && s.tick.answer.isNone)) := by
  cases tick_cases s with
  | idle _ _ htick =>
    rw [htick]
    show s.busy = (s.isActive || (cut && true))
    rw [hbusy, Bool.and_true]
  | runs b hwake _ htick =>
    rw [htick]
    show s.moved.busy = (s.moved.isActive || _)
    rw [hwake.busy_moved hbusy, isActive_of_executing hwake.executing_moved, Bool.true_or]
  | ends b hwake _ htick =>
    rw [htick]
    show s.moved.finish.1.busy = (s.moved.finish.1.isActive || (cut && false))
    rw [busy_finish, Bool.and_false, Bool.or_false]

/-- A planner that sees a busy engine is refused before anything else. -/
theorem setTickRate_of_not_idle {s : Session n} (h : s.isIdle = false) (rate : Hertz) :
    s.setTickRate rate = ⟨s, .error (.engine .busy), []⟩ := by
  rw [setTickRate, h, if_pos (by decide)]

/-- The tick rate is refused to a planner that does not see an idle engine, and never else for
this reason. -/
theorem setTickRate_busy_iff (s : Session n) (rate : Hertz) :
    (s.setTickRate rate).answer = .error (.engine .busy) ↔ s.isIdle = false := by
  cases hidle : s.isIdle with
  | false =>
    rw [setTickRate_of_not_idle hidle]
    exact iff_of_true rfl rfl
  | true =>
    rw [setTickRate, hidle, if_neg (by decide)]
    split
    · exact iff_of_false nofun nofun
    · exact iff_of_false nofun nofun

end Session

namespace Machine

/-- **Every call keeps the mark**: it is set if a block executes, or if the block that ended last
was cut short. -/
theorem busy_call {m : Machine n} {cut : Bool}
    (hbusy : m.controller.busy = (m.executing.isSome || cut)) (ask : Call n) :
    (m.call ask).state.controller.busy =
      ((m.call ask).state.executing.isSome || (m.exchange ask).cut?.getD cut) := by
  cases m with
  | setup c =>
    have hmark : c.busy = cut := hbusy
    cases setup_cases c ask with
    | started _ hstate hquiet =>
      rw [Exchange.cut?, hquiet.ended, hstate]
      exact hmark
    | kept c' hstate hupkeep hquiet =>
      rw [Exchange.cut?, hquiet.ended, hstate]
      exact hupkeep.busy.trans hmark
  | running s =>
    have hmark : s.busy = (s.isActive || cut) := hbusy
    cases session_cases s ask with
    | taken b hask _ _ hcall =>
      rw [exchange, hcall, hask]
      exact hmark
    | ticked hask hcall =>
      have htick := Session.busy_tick hmark
      rw [exchange, hcall, hask]
      cases hanswer : s.tick.answer with
      | none =>
        rw [hanswer, Option.isNone_none, Bool.and_true] at htick
        exact htick
      | some b =>
        rw [hanswer, Option.isNone_some, Bool.and_false] at htick
        exact htick
    -- a stop leaves the mark, which is then wrong if a block was executing
    | stopped hask hcall =>
      rw [exchange, hcall, hask]
      cases hexec : s.executing with
      | none =>
        rw [Session.isActive_of_none hexec] at hmark
        exact hmark
      | some b =>
        rw [Session.isActive_of_executing hexec] at hmark
        exact hmark
    | aside s' _ _ hstate haside hquiet =>
      rw [Exchange.cut?, hquiet.ended, hstate]
      show s'.busy = (s'.executing.isSome || cut)
      rw [haside.busy, haside.executing]
      exact hmark

/-- **Every run keeps the mark.** -/
theorem busy_run {m : Machine n} {cut : Bool}
    (hbusy : m.controller.busy = (m.executing.isSome || cut)) (calls : List (Call n)) :
    (m.run calls).1.controller.busy = ((m.run calls).1.executing.isSome ||
      ((m.run calls).2.filterMap Exchange.cut?).getLast?.getD cut) := by
  -- induction on the calls, with how the last ended block ended in `cut`
  induction calls generalizing m cut with
  | nil => exact hbusy
  | cons ask rest ih =>
    have hrest := ih (busy_call hbusy ask)
    rw [run_cons_exchange, List.filterMap_cons]
    cases hcut : (m.exchange ask).cut? with
    | none =>
      rw [hcut] at hrest
      exact hrest
    | some last =>
      -- the rest of the run starts from how this exchange has ended its block
      rw [hcut] at hrest
      show _ = (_ || (last :: _).getLast?.getD cut)
      rw [List.getLast?_cons]
      exact hrest

/-- **When the planner sees an idle engine.** After any calls from a creation on, stops and new
starts among them, a session looks idle exactly if no block executes, none waits, and the block that
ended last was not cut short by a stop; and the tick rate is refused as busy in all other cases. So
both tell whether a block executes or waits, unless there is none and the block that ended last was
cut short. -/
theorem isIdle_iff {timing : Timing} {tickCounter pulseCounter : TimerCounts} {c₀ : Controller n}
    (hc₀ : (Controller.create timing tickCounter pulseCounter).1 = .ok c₀) {calls : List (Call n)}
    {s : Session n} {t : Transcript n} (hrun : (Machine.setup c₀).run calls = (.running s, t)) :
    (s.isIdle = true ↔ (s.isActive = false ∧ s.isReady = true) ∧ t.cutShort = false) ∧
      (∀ rate, (s.setTickRate rate).answer = .error (.engine .busy) ↔
        (s.isActive = true ∨ s.isReady = false) ∨ t.cutShort = true) ∧
      (((s.isIdle = true ↔ s.isActive = false ∧ s.isReady = true) ∧
          ∀ rate, (s.setTickRate rate).answer = .error (.engine .busy) ↔
            s.isActive = true ∨ s.isReady = false) ↔
        ¬ (s.isActive = false ∧ s.isReady = true ∧ t.cutShort = true)) := by
  have hbusy : s.busy = (s.isActive || t.cutShort) := by
    have hcreated : (Machine.setup c₀).controller.busy =
        ((Machine.setup c₀).executing.isSome || false) := (mailbox_of_create hc₀).2
    have hall := busy_run hcreated calls
    rwa [hrun] at hall
  have hidle : s.isIdle = (s.isReady && !(s.isActive || t.cutShort)) := by
    rw [Session.isIdle, hbusy]
  simp only [Session.setTickRate_busy_iff, hidle]
  -- what remains is a table of the three marks
  cases s.isActive <;> cases s.isReady <;> cases t.cutShort <;> simp

/-- A block that has come to its end leaves the engine idle. -/
theorem isIdle_iff_finished :
    (Controller.create {} 0 0).1 = .ok noMotor ∧
      ∃ s t, (Machine.setup noMotor).run (.register 0 :: .start :: (halfway ++ [.tick])) =
        (.running s, t) ∧ t.finished = [twoSteps] ∧ s.isIdle = true := by
  obtain ⟨s, t, hrun⟩ : ∃ s t, (Machine.setup noMotor).run
      (.register 0 :: .start :: (halfway ++ [.tick])) = (.running s, t) := ⟨_, _, rfl⟩
  have hexec : ((Machine.setup noMotor).run
      (.register 0 :: .start :: (halfway ++ [.tick]))).1.executing = none := by decide +kernel
  have hbox : ((Machine.setup noMotor).run
      (.register 0 :: .start :: (halfway ++ [.tick]))).1.controller.mailbox = none := by
    decide +kernel
  -- the one block of the run has been finished by a tick, not cut short
  have hlast : ((Machine.setup noMotor).run
      (.register 0 :: .start :: (halfway ++ [.tick]))).2.finished = [twoSteps] ∧
      ((Machine.setup noMotor).run
        (.register 0 :: .start :: (halfway ++ [.tick]))).2.cutShort = false := by
    decide +kernel
  rw [hrun] at hexec hbox hlast
  have hready : s.isReady = true := Option.isNone_iff_eq_none.mpr hbox
  exact ⟨create_noMotor, s, t, hrun, hlast.1, (isIdle_iff create_noMotor hrun).1.mpr
    ⟨⟨Session.isActive_of_none hexec, hready⟩, hlast.2⟩⟩

/-- A session after a stop in the middle of a block looks busy, though nothing executes and nothing
waits. -/
theorem not_isIdle_of_cutShort :
    ∃ s t, (Machine.setup noMotor).run
        [.register 0, .start, .submit twoSteps, .tick, .stop, .start] = (.running s, t) ∧
      s.isActive = false ∧ s.isReady = true ∧ s.isIdle = false ∧
      (s.setTickRate ⟨20000⟩).answer = .error (.engine .busy) := by
  refine ⟨_, _, rfl, ?_⟩
  decide +kernel

end Machine

end PulseTrain
