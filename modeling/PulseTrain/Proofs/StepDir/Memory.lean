import Mathlib.Data.Bool.Basic
import Mathlib.Data.List.Induction
import Mathlib.Tactic.ByContra
import PulseTrain.Waveform

/-!
# What a motor knows of its direction pin

A motor on pins remembers the direction that it last wrote with success, and writes a direction only
if it remembers another one. A write that fails may have reached the pin all the same, and leaves no
trace in what is remembered. So the motor knows its pin only as long as no write has failed since,
and what it remembers can keep it from writing when it should.

* **`Line.last?`**, **`Line.lastTaken?`**: the last write of a pin, and the last one that it took.
* **`Line.MayShow`**: the levels that a pin may be at, if a write that fails may have reached it.
* **`StepDir.run`**: any calls on a motor, while its pins fail now and then.
* **`Remembers.call`**: what is remembered is the last direction that was taken, and a write that
  has failed since was of the other one.
* **`StepDir.direction_known_iff`**: when the pin is known to show a direction that was selected;
  **`StepDir.direction_left_astray`**: when it is not.
-/

namespace PulseTrain

/-! ## The last write of a pin -/

namespace Line

/-- The last write of a pin. -/
def last? (line : Line) (writes : List PinWrite) : Option PinWrite :=
  (writes.filter (·.line = line)).getLast?

/-- The last write that a pin took. -/
def lastTaken? (line : Line) (writes : List PinWrite) : Option PinWrite :=
  (writes.filter fun w => w.line = line ∧ w.taken).getLast?

/-- The levels that a pin may be at after writes. One that the pin does not take may have reached it
or not. -/
inductive MayShow (line : Line) (start : Bool) : List PinWrite → Bool → Prop where
  | start : MayShow line start [] start
  | other {writes : List PinWrite} {level : Bool} (w : PinWrite)
      (h : MayShow line start writes level) (hother : w.line ≠ line) :
      MayShow line start (writes ++ [w]) level
  | reached {writes : List PinWrite} {level : Bool} (w : PinWrite)
      (h : MayShow line start writes level) (hline : w.line = line) :
      MayShow line start (writes ++ [w]) w.high
  | missed {writes : List PinWrite} {level : Bool} (w : PinWrite)
      (h : MayShow line start writes level) (hline : w.line = line) (hfailed : w.taken = false) :
      MayShow line start (writes ++ [w]) level

variable {line : Line} {start level : Bool} {writes : List PinWrite} {w : PinWrite}

/-- One more write is the last one of its pin, and leaves those of the other pin. -/
theorem last?_concat (line : Line) (writes : List PinWrite) (w : PinWrite) :
    line.last? (writes ++ [w]) = if w.line = line then some w else line.last? writes := by
  by_cases hline : w.line = line <;> simp [last?, hline]

/-- One more write is the last one taken if it was taken, and of this pin. -/
theorem lastTaken?_concat (line : Line) (writes : List PinWrite) (w : PinWrite) :
    line.lastTaken? (writes ++ [w]) =
      if w.line = line ∧ w.taken then some w else line.lastTaken? writes := by
  by_cases hline : w.line = line <;> by_cases htaken : w.taken = true <;>
    simp [lastTaken?, hline, htaken]

/-- A last write that was taken is the last one taken. -/
theorem lastTaken?_eq_of_last? (h : line.last? writes = some w) (htaken : w.taken = true) :
    line.lastTaken? writes = some w := by
  -- induction from the last write on, which is where both are found
  induction writes using List.reverseRecOn with
  | nil => cases h
  | append_singleton writes w' ih =>
    rw [last?_concat] at h
    rw [lastTaken?_concat]
    by_cases hline : w'.line = line
    · rw [if_pos hline] at h
      cases h
      rw [if_pos ⟨hline, htaken⟩]
    · rw [if_neg hline] at h
      rw [if_neg fun htaken => hline htaken.1, ih h]

/-- Where a write was taken there is a last write. -/
theorem exists_last?_of_lastTaken? (h : line.lastTaken? writes = some w) :
    ∃ w', line.last? writes = some w' := by
  -- induction from the last write on: a later write of the pin only takes its place
  induction writes using List.reverseRecOn with
  | nil => cases h
  | append_singleton writes w' ih =>
    rw [lastTaken?_concat] at h
    rw [last?_concat]
    by_cases hline : w'.line = line
    · exact ⟨w', if_pos hline⟩
    · rw [if_neg fun htaken => hline htaken.1] at h
      rw [if_neg hline]
      exact ih h

/-! ## What a pin may show -/

/-- A pin that keeps its level when a write fails is one of those. -/
theorem mayShow_level (line : Line) (start : Bool) (writes : List PinWrite) :
    line.MayShow start writes (line.level start writes) := by
  induction writes using List.reverseRecOn with
  | nil => exact .start
  | append_singleton writes w ih =>
    have hlevel : line.level start (writes ++ [w]) =
        line.levelAfter (line.level start writes) w := level_append line start writes [w]
    rw [hlevel, levelAfter]
    split
    · rename_i htaken
      exact .reached w ih htaken.1
    · rename_i hkept
      by_cases hline : w.line = line
      · exact .missed w ih hline (Bool.not_eq_true _ ▸ fun htaken => hkept ⟨hline, htaken⟩)
      · exact .other w ih hline

/-- The last write may have reached the pin, taken or not. -/
theorem mayShow_last (start : Bool) (h : line.last? writes = some w) :
    line.MayShow start writes w.high := by
  induction writes using List.reverseRecOn with
  | nil => cases h
  | append_singleton writes w' ih =>
    rw [last?_concat] at h
    by_cases hline : w'.line = line
    · rw [if_pos hline] at h
      cases h
      exact .reached w (mayShow_level line start writes) hline
    · rw [if_neg hline] at h
      exact .other w' (ih h) hline

/-- A last write that was taken is what the pin shows. -/
theorem MayShow.eq_of_taken (hshow : line.MayShow start writes level)
    (h : line.last? writes = some w) (htaken : w.taken = true) : level = w.high := by
  -- induction on how the pin came to its level; writes of the other pin do not count
  induction hshow with
  | start => cases h
  | other w' _ hother ih =>
    rw [last?_concat, if_neg hother] at h
    exact ih h
  | reached w' _ hline _ =>
    rw [last?_concat, if_pos hline] at h
    cases h
    rfl
  | missed w' _ hline hfailed _ =>
    rw [last?_concat, if_pos hline] at h
    cases h
    rw [hfailed] at htaken
    cases htaken

end Line

namespace Polarity

/-- The write by which a direction is selected, where the pin takes it. -/
def selecting (p : Polarity) (d : Direction) : PinWrite := ⟨.direction, p.directionLevel d, true⟩

theorem last?_selecting (p : Polarity) (d : Direction) (writes : List PinWrite) :
    Line.direction.last? (writes ++ [p.selecting d]) = some (p.selecting d) :=
  (Line.last?_concat .direction writes _).trans (if_pos rfl)

/-- The two directions are at opposite levels, for any polarity. -/
theorem directionLevel_of_ne (p : Polarity) {d d' : Direction} (h : d ≠ d') :
    p.directionLevel d' = !p.directionLevel d := by
  cases d <;> cases d' <;> simp_all [directionLevel, Direction.bit]

/-- Different directions are written differently. -/
theorem selecting_inj (p : Polarity) {d d' : Direction} (h : p.selecting d = p.selecting d') :
    d = d' := by
  by_contra hne
  have hlevel := congrArg PinWrite.high h
  simp [selecting, p.directionLevel_of_ne hne] at hlevel

end Polarity

/-! ## Selecting a direction -/

namespace StepDir

/-- What it is to select a direction: nothing if it is remembered, and else one write, which is
remembered if the pin takes it. -/
inductive SelectCase (m : StepDir) (d : Direction) : StepDir × List PinWrite → Prop where
  | skipped (hheading : m.heading = some d) : SelectCase m d (m, [])
  | failed (hheading : m.heading ≠ some d) (hfails : m.pins.directionFails = true) :
      SelectCase m d
        ({ m with fault := true }, [⟨.direction, m.polarity.directionLevel d, false⟩])
  | taken (hheading : m.heading ≠ some d) (hworks : m.pins.directionFails = false) :
      SelectCase m d ({ m with heading := some d }, [m.polarity.selecting d])

/-- Selecting a direction skips the write, fails at it, or gets it done. -/
theorem select_cases (m : StepDir) (d : Direction) : SelectCase m d (m.setDirection d) := by
  unfold setDirection
  split
  · rename_i hheading
    exact .skipped hheading
  · rename_i hheading
    dsimp only
    split
    · rename_i hfails
      exact .failed hheading hfails
    · rename_i hworks
      exact .taken hheading (Bool.not_eq_true _ ▸ hworks)

/-! ## What the motor remembers -/

variable {m : StepDir} {p : Polarity} {writes : List PinWrite}

/-- What a motor remembers after writes: the direction that its pin took last. If a write has failed
since, it was one of the other direction, since this one would not have been written. -/
structure Remembers (m : StepDir) (p : Polarity) (writes : List PinWrite) : Prop where
  polarity : m.polarity = p
  taken : Line.direction.lastTaken? writes = m.heading.map p.selecting
  failed : ∀ d w, m.heading = some d → Line.direction.last? writes = some w → w.taken = false →
    w.high = !p.directionLevel d

/-- A write of the step pin changes nothing that is remembered of the direction. -/
theorem Remembers.writeStep (h : m.Remembers p writes) (high : Bool) :
    (m.writeStep high).1.Remembers p (writes ++ (m.writeStep high).2) := by
  have hlast := Line.last?_concat .direction writes ⟨.step, high, !m.pins.stepFails⟩
  have htaken := Line.lastTaken?_concat .direction writes ⟨.step, high, !m.pins.stepFails⟩
  refine ⟨h.polarity, htaken.trans h.taken, fun d w hheading hw => ?_⟩
  exact h.failed d w hheading (hlast.symm.trans hw)

/-- Selecting a direction keeps what is remembered, whether or not the write is taken. -/
theorem Remembers.setDirection (h : m.Remembers p writes) (d : Direction) :
    (m.setDirection d).1.Remembers p (writes ++ (m.setDirection d).2) := by
  have hcase := m.select_cases d
  generalize m.setDirection d = o at hcase
  cases hcase with
  | skipped _ =>
    rw [List.append_nil]
    exact h
  | failed hheading _ =>
    refine ⟨h.polarity, ?_, fun d' w hheading' hw _ => ?_⟩
    · rw [Line.lastTaken?_concat, if_neg fun htaken => Bool.false_ne_true htaken.2]
      exact h.taken
    · -- what was written is not what is remembered
      rw [Line.last?_concat, if_pos rfl] at hw
      cases hw
      rw [h.polarity]
      exact p.directionLevel_of_ne fun hsame => hheading (hsame ▸ hheading')
  | taken _ _ =>
    refine ⟨h.polarity, ?_, fun d' w _ hw hfailed => ?_⟩
    · rw [Line.lastTaken?_eq_of_last? (m.polarity.last?_selecting d writes) rfl, h.polarity]
      rfl
    · rw [m.polarity.last?_selecting d writes] at hw
      cases hw
      cases hfailed

/-- **Every call keeps what is remembered**, and so does every failure. -/
theorem Remembers.call (h : m.Remembers p writes) (c : PinCall) :
    (m.call c).1.Remembers p (writes ++ (m.call c).2) := by
  cases c with
  | step | unstep => exact h.writeStep _
  | setDirection d => exact h.setDirection d
  | clearFault | failStep _ | failDirection _ =>
    show StepDir.Remembers _ p (writes ++ [])
    rw [List.append_nil]
    exact ⟨h.polarity, h.taken, h.failed⟩

/-- Any calls keep what is remembered. -/
theorem Remembers.run (h : m.Remembers p writes) (calls : List PinCall) :
    (m.run calls).1.Remembers p (writes ++ (m.run calls).2) := by
  -- induction on the calls, with the writes made before them in `writes`
  induction calls generalizing m writes with
  | nil =>
    show m.Remembers p (writes ++ [])
    rwa [List.append_nil]
  | cons c rest ih =>
    rw [run_cons, ← List.append_assoc]
    exact ih (h.call c)

/-- A new motor remembers nothing, and nothing has been written. -/
theorem remembers_new (p : Polarity) (pins : Pins) :
    ({ pins, polarity := p } : StepDir).Remembers p [] := ⟨rfl, rfl, nofun⟩

/-- Nothing is written exactly where the direction is the one that was taken last. -/
theorem Remembers.skips_iff (h : m.Remembers p writes) (d : Direction) :
    (m.setDirection d).2 = [] ↔ Line.direction.lastTaken? writes = some (p.selecting d) := by
  have hheading : Line.direction.lastTaken? writes = some (p.selecting d) ↔ m.heading = some d := by
    rw [h.taken, Option.map_eq_some_iff]
    constructor
    · rintro ⟨d', hd', hsame⟩
      rw [hd', p.selecting_inj hsame]
    · exact fun hd => ⟨d, hd, rfl⟩
  rw [hheading]
  have hcase := m.select_cases d
  generalize m.setDirection d = o at hcase
  cases hcase with
  | skipped hheading => exact iff_of_true rfl hheading
  | failed hheading _ | taken hheading _ => exact iff_of_false (List.cons_ne_nil _ _) hheading

/-- The pin of a motor is astray for a direction: the direction is not written, since it is the one
that was taken last, but a write has failed since. -/
def Astray (writes own : List PinWrite) : Prop :=
  own = [] ∧ ∃ w, Line.direction.last? writes = some w ∧ w.taken = false

/-- The last write is of the direction that was selected unless the write was skipped after a failed
one. -/
theorem Remembers.last?_eq_iff (h : m.Remembers p writes) {d : Direction} {next : StepDir}
    {own : List PinWrite} (hset : m.setDirection d = (next, own))
    (htaken : ∀ w ∈ own, w.taken = true) :
    Line.direction.last? (writes ++ own) = some (p.selecting d) ↔ ¬ Astray writes own := by
  have hskips := h.skips_iff d
  rw [hset] at hskips
  have hcase := m.select_cases d
  rw [hset] at hcase
  cases hcase with
  | skipped _ =>
    rw [List.append_nil]
    -- the write was skipped, so this direction was the last one taken
    have hlastTaken := hskips.mp rfl
    obtain ⟨w, hw⟩ := Line.exists_last?_of_lastTaken? hlastTaken
    constructor
    · rintro hlast ⟨-, w', hw', hfailed⟩
      rw [hlast] at hw'
      cases hw'
      cases hfailed
    · intro hknown
      have hwtaken : w.taken = true := by
        by_contra hfailed
        exact hknown ⟨rfl, w, hw, Bool.not_eq_true _ ▸ hfailed⟩
      rw [hw, ← Line.lastTaken?_eq_of_last? hw hwtaken, hlastTaken]
  | failed _ _ => cases htaken _ (List.mem_singleton_self _)
  | taken _ _ =>
    rw [h.polarity, p.last?_selecting]
    exact iff_of_true rfl fun hastray => List.cons_ne_nil _ _ hastray.1

/-- The pin is sure to show the direction that was selected in the same cases. -/
theorem Remembers.shows_iff (h : m.Remembers p writes) {d : Direction} {next : StepDir}
    {own : List PinWrite} (hset : m.setDirection d = (next, own))
    (htaken : ∀ w ∈ own, w.taken = true) :
    (∀ start level, Line.direction.MayShow start (writes ++ own) level →
      level = p.directionLevel d) ↔ ¬ Astray writes own := by
  constructor
  · rintro hshows ⟨rfl, w, hw, hfailed⟩
    -- the write that failed may have reached the pin, and it was of the other direction
    have hlevel := hshows false w.high (by rw [List.append_nil]; exact Line.mayShow_last false hw)
    have hcase := m.select_cases d
    rw [hset] at hcase
    cases hcase with
    | skipped hheading =>
      rw [h.failed d w hheading hw hfailed] at hlevel
      exact Bool.not_ne_self _ hlevel
  · intro hknown start level hshow
    exact hshow.eq_of_taken ((h.last?_eq_iff hset htaken).mpr hknown) rfl

/-- **When the pin is known to show a direction that was selected.** After any calls on a new motor,
whichever of its writes fail, let a direction be selected without a write of its own that fails.
Then the last write that the direction pin took is one of that direction. It is the last write of
all, and the pin shows the direction whatever the writes that failed have done to it, unless the
direction was not written at all though the last write before had failed. It is not written exactly
where the pin took it last. -/
theorem direction_known_iff (p : Polarity) (pins : Pins) (calls : List PinCall) (d : Direction)
    {next : StepDir} {own : List PinWrite}
    (hrun : ({ pins, polarity := p } : StepDir).run calls = (m, writes))
    (hset : m.setDirection d = (next, own)) (htaken : ∀ w ∈ own, w.taken = true) :
    let selecting : PinWrite := ⟨.direction, d.bit != p.invertedDirection, true⟩
    Line.direction.lastTaken? (writes ++ own) = some selecting ∧
      (own = [] ↔ Line.direction.lastTaken? writes = some selecting) ∧
      (Line.direction.last? (writes ++ own) = some selecting ↔ ¬ Astray writes own) ∧
      ((∀ start level, Line.direction.MayShow start (writes ++ own) level →
        level = (d.bit != p.invertedDirection)) ↔ ¬ Astray writes own) := by
  have h : m.Remembers p writes := by
    have hremembers := (remembers_new p pins).run calls
    rwa [hrun] at hremembers
  have hskips := h.skips_iff d
  rw [hset] at hskips
  refine ⟨?_, hskips, h.last?_eq_iff hset htaken, h.shows_iff hset htaken⟩
  -- nothing is written because the direction was taken before, or it is taken now
  by_cases hown : own = []
  · rw [hown, List.append_nil]
    exact hskips.mp hown
  · have hlast := (h.last?_eq_iff hset htaken).mpr fun hastray => hown hastray.1
    exact Line.lastTaken?_eq_of_last? hlast rfl

/-- Forward is taken, and then reverse fails. -/
def halfTurned : List PinCall :=
  [.setDirection .forward, .failDirection true, .setDirection .reverse, .failDirection false]

/-- To select reverse once more writes it again, at the high level on a motor that is not inverted
and at the low one on a motor that is. -/
theorem direction_known_iff_retried :
    (∃ m writes next, ({} : StepDir).run halfTurned = (m, writes) ∧
      m.setDirection .reverse = (next, [⟨.direction, true, true⟩]) ∧
      ∀ start level,
        Line.direction.MayShow start (writes ++ [⟨.direction, true, true⟩]) level →
          level = true) ∧
      ∃ m writes next,
        ({ polarity.invertedDirection := true } : StepDir).run halfTurned = (m, writes) ∧
          m.setDirection .reverse = (next, [⟨.direction, false, true⟩]) ∧
          ∀ start level,
            Line.direction.MayShow start (writes ++ [⟨.direction, false, true⟩]) level →
              level = false := by
  constructor
  · refine ⟨_, _, _, rfl, rfl, ?_⟩
    have hknown := direction_known_iff {} {} halfTurned .reverse rfl rfl (by decide)
    exact hknown.2.2.2.mpr fun hastray => List.cons_ne_nil _ _ hastray.1
  · refine ⟨_, _, _, rfl, rfl, ?_⟩
    have hknown := direction_known_iff { invertedDirection := true } {} halfTurned .reverse rfl
      rfl (by decide)
    exact hknown.2.2.2.mpr fun hastray => List.cons_ne_nil _ _ hastray.1

/-- **What the motor remembers can keep it from writing.** After reverse has failed, forward is not
written again, since it was taken before; the last write of the direction pin is the one of reverse
that has failed, and the pin may be at either level. -/
theorem direction_left_astray :
    ∃ m writes, ({} : StepDir).run halfTurned = (m, writes) ∧
      m.setDirection .forward = (m, []) ∧
      Line.direction.last? writes = some ⟨.direction, true, false⟩ ∧
      ∀ level, Line.direction.MayShow false writes level := by
  refine ⟨_, _, rfl, rfl, rfl, fun level => ?_⟩
  cases level with
  | false => exact Line.mayShow_level .direction false _
  | true => exact Line.mayShow_last (w := ⟨.direction, true, false⟩) false rfl

end StepDir

end PulseTrain
