/-
  EmScale/Number/Binary64.lean
  ============================
  **Floating point numbers as exact values.**

  A finite number is a sign, a natural mantissa and an exponent of two.  Rounding down and
  printing are done on these three in exact arithmetic, so nothing about them rests on the
  machine's own rounding or printing.
-/

namespace EmScale

/-- What a binary64 number stands for: `±mantissa * 2 ^ exponent`, an infinity, or nothing. -/
inductive Binary64 where
  | finite (negative : Bool) (mantissa : Nat) (exponent : Int)
  | infinite (negative : Bool)
  | nan
deriving DecidableEq, Repr, Inhabited

namespace Binary64

/-- Reads the sign bit, the eleven exponent bits and the fraction of a number. -/
def decode (x : Float) : Binary64 :=
  let bits : Nat := x.toBits.toNat
  let negative := decide (Nat.pow 2 63 ≤ bits)
  let field : Nat := bits / Nat.pow 2 52 % Nat.pow 2 11
  let fraction : Nat := bits % Nat.pow 2 52
  if field = 2047 then if fraction = 0 then infinite negative else nan
  else if field = 0 then finite negative fraction (-1074)
  else finite negative (Nat.pow 2 52 + fraction) ((field : Int) - 1075)

/-- The largest integer that is not above a number.  Integers, infinities and NaN stay as
    they are, and so does the sign of zero. -/
def floor (x : Float) : Float :=
  match decode x with
  | finite negative mantissa (.negSucc e) =>
    let unit := Nat.pow 2 (e + 1)
    if mantissa % unit = 0 then x
    else if negative then -Float.ofNat (mantissa / unit + 1)
    else Float.ofNat (mantissa / unit)
  | _ => x

end Binary64

end EmScale
