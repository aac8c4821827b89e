import PulseTrain.StepDir

/-!
# What a pin shows

The level that a pin of a motor is at after some writes, and how often it has gone to a level on the
way. A write that the pin does not take leaves it where it is. Both functions split along an append,
so the waveform of a run is that of its parts.
-/

namespace PulseTrain.Line

/-- The level of a pin after one write. -/
def levelAfter (line : Line) (level : Bool) (w : PinWrite) : Bool :=
  if w.line = line ∧ w.taken then w.high else level

/-- The level of a pin after writes. -/
def level (line : Line) (start : Bool) (writes : List PinWrite) : Bool :=
  writes.foldl line.levelAfter start

/-- How often a pin goes from the other level to a given one. -/
def edges (line : Line) (target start : Bool) : List PinWrite → Nat
  | [] => 0
  | w :: rest =>
    let next := line.levelAfter start w
    (if start ≠ target ∧ next = target then 1 else 0) + line.edges target next rest

/-- Later writes go on from the level that the earlier ones leave. -/
theorem level_append (line : Line) (start : Bool) (writes more : List PinWrite) :
    line.level start (writes ++ more) = line.level (line.level start writes) more :=
  List.foldl_append

/-- The changes of level split with the writes: the later ones are counted from the level that the
earlier ones leave. -/
theorem edges_append (line : Line) (target start : Bool) (writes more : List PinWrite) :
    line.edges target start (writes ++ more) =
      line.edges target start writes + line.edges target (line.level start writes) more := by
  -- on the writes: each may move the level that the others start from
  induction writes generalizing start with
  | nil => simp [edges, level]
  | cons w rest ih =>
    show _ + line.edges target _ (rest ++ more) = _ + line.edges target _ rest + _
    rw [ih, Nat.add_assoc]
    rfl

end PulseTrain.Line
