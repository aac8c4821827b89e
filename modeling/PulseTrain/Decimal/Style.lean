import PulseTrain.Decimal.Shortest

/-!
# Written form of binary floating-point numbers

The shortest decimal of a value, written positionally however large or small it is. The only
decision left open is what follows a whole number, which is the one field of `Style`.
-/

namespace PulseTrain.Decimal

open Float.Model (Format UnpackedFloat)

/-- How numbers are laid out. -/
structure Style where
  /-- Written after a whole number. -/
  afterWhole : String
deriving DecidableEq, Repr

namespace Style

/-- Whole numbers stand alone: `100000`, `-0`. -/
def plain : Style := ⟨""⟩

/-- Whole numbers show that they are fractional numbers: `100000.0`, `-0.0`. -/
def pointed : Style := ⟨".0"⟩

def zeros (n : Nat) : String := String.ofList (List.replicate n '0')

/-- A decimal in positional form: the point stands inside the digits or zeros fill the way to it. -/
def positional (style : Style) (d : Scaled) : String :=
  let digits := (toString d.coefficient).toList
  let shift := (-d.exponent).toNat
  if 0 ≤ d.exponent then String.ofList digits ++ zeros d.exponent.toNat ++ style.afterWhole
  else if shift < digits.length then
    let whole := digits.length - shift
    String.ofList (digits.take whole) ++ "." ++ String.ofList (digits.drop whole)
  else "0." ++ zeros (shift - digits.length) ++ String.ofList digits

def sign (negative : Bool) : String := if negative then "-" else ""

def write (style : Style) (format : Format) : UnpackedFloat → String
  | .notANumber => "NaN"
  | .infinity s => sign (s == .negative) ++ "inf"
  | .zero s => sign (s == .negative) ++ "0" ++ style.afterWhole
  | .finite s m e _ =>
    sign (s == .negative) ++ style.positional (Binary.ofFormat format m e).shortest

def single (style : Style) (x : Float32) : String := style.write .binary32 x.toModel.unpack

def double (style : Style) (x : Float) : String := style.write .binary64 x.toModel.unpack

end Style

end PulseTrain.Decimal
