/-
  EmScale/Number/Rounding.lean
  ============================
  **Rounding a length to a number of decimal places.**

  A number is first cut down to one place more than asked for, and then rounded to the
  places asked for, a half going up.  The rule is stated over any numbers with the four
  operations and a floor, so that the arithmetic that runs and exact arithmetic are two
  readings of one formula.
-/
import EmScale.Number.Binary64
import EmScale.Number.Shortest

namespace EmScale

/-- The largest number of places that is kept. -/
def maxUnitPrecision : Nat := 15

/-- Rounds `x` to `precision` places, or to the largest number of places if that is less,
    with the given floor and the given reading of natural numbers. -/
def toFixedBy {α : Type} [Add α] [Mul α] [Div α] [OfScientific α] (floor : α → α)
    (ofNat : Nat → α) (x : α) (precision : Nat) : α :=
  let scale := ofNat (Nat.pow 10 (min precision maxUnitPrecision + 1))
  let whole := floor (x * scale)
  floor (whole / 10.0 + 0.5) * 10.0 / scale

/-- The rule over floating point numbers (`to_fixed`). -/
def toFixed (x : Float) (precision : Nat) : Float :=
  toFixedBy Binary64.floor Float.ofNat x precision

/-- A converted number as it is written in a stylesheet: shortest digits, and no sign on
    zero (`format_number`). -/
def formatNumber (x : Float) : Text :=
  if x == 0.0 then ['0'] else printShortest x

end EmScale
