/-!
# Shortest decimals

A finite binary value is identified by any decimal that lies among the reals rounding to it. This
module finds the decimal with the fewest digits that does so: for one digit, two digits and so on it
looks at the two neighbours of the value on that decimal grid, in exact integer arithmetic, and
takes the first grid with a hit. Of two hits the nearer is taken, and the upper one if they are
equally near.

Main definitions:

* `Binary`: a positive value `significand * 2 ^ exponent` of a binary format.
* `Scaled`: a decimal `coefficient * 10 ^ exponent`.
* `Binary.identifiedBy`: whether a decimal rounds to the value.
* `Binary.shortest`: the decimal with the fewest digits.
-/

namespace PulseTrain.Decimal

open Float.Model (Format)

/-- A decimal `coefficient * 10 ^ exponent`. -/
structure Scaled where
  coefficient : Nat
  exponent : Int
deriving DecidableEq, Repr

/-- A positive value `significand * 2 ^ exponent` of a binary format. -/
structure Binary where
  significand : Nat
  exponent : Int
  /-- The value below is half as far away as the value above: so it is just above a power of two,
  where the spacing of the format changes. -/
  narrowBelow : Bool
deriving DecidableEq, Repr

/-- A canonical significand and exponent of a format, with the spacing below them. -/
def Binary.ofFormat (format : Format) (significand : Nat) (exponent : Int) : Binary where
  significand
  exponent
  narrowBelow :=
    significand == Nat.pow 2 format.mantissaBitsWithoutImplicit && format.minExponent < exponent

namespace Scaled

/-- How the decimal compares with `significand * 2 ^ exponent`, by cross-multiplication. -/
def compareBinary (d : Scaled) (significand : Nat) (exponent : Int) : Ordering :=
  compare (d.coefficient * Nat.pow 10 d.exponent.toNat * Nat.pow 2 (-exponent).toNat)
    (significand * Nat.pow 2 exponent.toNat * Nat.pow 10 (-d.exponent).toNat)

/-- The same decimal without trailing zeros in its coefficient, as far as `fuel` zeros. -/
def stripZeros (d : Scaled) : Nat → Scaled
  | 0 => d
  | fuel + 1 =>
    if d.coefficient ≠ 0 ∧ d.coefficient % 10 = 0 then
      stripZeros ⟨d.coefficient / 10, d.exponent + 1⟩ fuel
    else d

end Scaled

namespace Binary

/-- Whether a decimal is among the reals that round to the value. The interval ends half-way to each
neighbour; its ends round to the value exactly when the significand is even. -/
def identifiedBy (x : Binary) (d : Scaled) : Bool :=
  let below := 4 * x.significand - (if x.narrowBelow then 1 else 2)
  let above := 4 * x.significand + 2
  let endsIncluded := x.significand % 2 == 0
  let low := d.compareBinary below (x.exponent - 2)
  let high := d.compareBinary above (x.exponent - 2)
  (low == .gt || (endsIncluded && low == .eq)) && (high == .lt || (endsIncluded && high == .eq))

/-- The least `k` with `x < 10 ^ k`: the position before the leading digit. The binary logarithm
gives it up to a step or two, which exact comparisons settle. -/
def leadingPosition (x : Binary) : Int :=
  let guess := ((x.significand.log2 + x.exponent) * 30103).fdiv 100000 - 1
  let above (k : Int) : Bool := Scaled.compareBinary ⟨1, k⟩ x.significand x.exponent == .gt
  ((List.range 5).map fun step : Nat => guess + step).find? above |>.getD (guess + 5)

/-- The largest multiple of `10 ^ grid` not above the value, as a count of grid steps. -/
def stepsBelow (x : Binary) (grid : Int) : Nat :=
  (x.significand * Nat.pow 2 x.exponent.toNat * Nat.pow 10 (-grid).toNat)
    / (Nat.pow 2 (-x.exponent).toNat * Nat.pow 10 grid.toNat)

/-- The neighbour of the value on a decimal grid that identifies it, if one does. -/
def hitOn (x : Binary) (grid : Int) : Option Scaled :=
  let steps := x.stepsBelow grid
  let lower : Scaled := ⟨steps, grid⟩
  let upper : Scaled := ⟨steps + 1, grid⟩
  match x.identifiedBy lower, x.identifiedBy upper with
  | false, false => none
  | true, false => some lower
  | false, true => some upper
  | true, true =>
    -- The value is below the middle of the two neighbours exactly when the lower one is nearer.
    let middle : Scaled := ⟨2 * steps + 1, grid⟩
    if middle.compareBinary (2 * x.significand) x.exponent == .gt then some lower else some upper

/-- The value written out in full: every binary value has a finite decimal expansion. -/
def exact (x : Binary) : Scaled :=
  ⟨x.significand * Nat.pow 2 x.exponent.toNat * Nat.pow 5 (-x.exponent).toNat, min x.exponent 0⟩

/-- The decimal with the fewest digits that identifies the value. Seventeen digits are enough for
every value of the formats in use. -/
def shortest (x : Binary) : Scaled :=
  let position := x.leadingPosition
  let hit := (List.range 17).findSome? fun n : Nat => x.hitOn (position - (n + 1))
  (hit.getD x.exact).stripZeros 400

end Binary

end PulseTrain.Decimal
