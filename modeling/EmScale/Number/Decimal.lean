/-
  EmScale/Number/Decimal.lean
  ===========================
  **Decimal numbers and their nearest floating point numbers.**

  A decimal is a sign, a natural coefficient and an exponent of ten.  Its value as a
  floating point number is the nearest one, a tie going to the even mantissa.
-/
import EmScale.Number.Digits

namespace EmScale

def floatInfinity : Float := Float.ofBits 0x7FF0000000000000

/-- What no number is. -/
def floatNan : Float := Float.ofBits 0x7FF8000000000000

/-- A floating point number with its sign turned around if `negative` holds. -/
def signedFloat (negative : Bool) (x : Float) : Float :=
  if negative then -x else x

/-- The number `±coefficient * 10 ^ exponent`. -/
structure Decimal where
  negative : Bool
  coefficient : Nat
  exponent : Int
deriving DecidableEq, Repr, Inhabited

namespace Decimal

/-- The decimal with the given digits on both sides of its point, times a power of ten. -/
def ofDigits (negative : Bool) (whole fraction : Text) (exponent : Int) : Decimal :=
  ⟨negative, naturalOfDigits (whole ++ fraction), exponent - fraction.length⟩

/-- About the exponent of ten of the first digit. -/
def magnitude (d : Decimal) : Int :=
  d.exponent + (Nat.log2 d.coefficient : Int) * 30103 / 100000

/-- The nearest floating point number.  Where the magnitude is far outside the range of
    floating point numbers, that is zero or an infinity and no power of ten is computed. -/
def toFloat (d : Decimal) : Float :=
  signedFloat d.negative <|
    if d.coefficient = 0 || d.magnitude < -400 then 0.0
    else if d.magnitude > 400 then floatInfinity
    else
      match d.exponent with
      | .ofNat e => Float.ofScientific d.coefficient false e
      | .negSucc e => Float.ofScientific d.coefficient true (e + 1)

end Decimal

end EmScale
