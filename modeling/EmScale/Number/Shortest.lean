/-
  EmScale/Number/Shortest.lean
  ============================
  **The fewest digits that identify a floating point number.**

  All real numbers between the midpoints towards its two neighbours round to a floating
  point number, the midpoints themselves if its mantissa is even.  A number is written with
  the decimal of this interval that has the fewest digits, and of those with the nearest
  one; which of two that are equally near is a matter of the format.  The search goes over
  the grids of multiples of a power of ten, coarse grids first: if any point of a grid lies
  in the interval, one of the two grid points around the number does.  At the grid of the
  number's own last binary place the number is a grid point, so the search ends.
-/
import EmScale.Number.Binary64
import EmScale.Text

namespace EmScale

/-- Which of two decimals that are equally near to a number stands for it. -/
inductive Tie where
  | up
  /-- The one whose last digit is even. -/
  | toEven
deriving DecidableEq, Repr, Inhabited

namespace Shortest

/-! ### Grids

The number is `mantissa * 2 ^ exponent`, the grid the multiples of `10 ^ place`.  Both sides
of a comparison are multiplied by the powers that make them natural. -/

/-- The factor of the mantissa when number and grid are made natural. -/
def scale (exponent place : Int) : Nat :=
  Nat.pow 2 exponent.toNat * Nat.pow 10 (-place).toNat

/-- The factor of the grid point when number and grid are made natural. -/
def unit (exponent place : Int) : Nat :=
  Nat.pow 2 (-exponent).toNat * Nat.pow 10 place.toNat

/-- Whether `n * 10 ^ place` rounds to `mantissa * 2 ^ exponent`.  The neighbour below is
    nearer where the mantissa is the least with its number of bits. -/
def inside (mantissa : Nat) (exponent place : Int) (n : Nat) : Bool :=
  let gap := if mantissa = Nat.pow 2 52 then 1 else 2
  let low := (4 * mantissa - gap) * scale exponent place
  let high := (4 * mantissa + 2) * scale exponent place
  let point := 4 * n * unit exponent place
  if mantissa % 2 = 0 then low ≤ point && point ≤ high else low < point && point < high

/-- The grid point in the interval that is nearest to the number. -/
def onGrid? (tie : Tie) (mantissa : Nat) (exponent place : Int) : Option Nat :=
  let above := mantissa * scale exponent place
  let below := above / unit exponent place
  let rest := 2 * (above % unit exponent place)
  let tieUp := tie = .up ∨ below % 2 = 1
  let upper := unit exponent place < rest ∨ (rest = unit exponent place ∧ tieUp)
  match inside mantissa exponent place below, inside mantissa exponent place (below + 1) with
  | true, true => some (if upper then below + 1 else below)
  | true, false => some below
  | false, true => some (below + 1)
  | false, false => none

/-- Looks through the grids from `place` downwards, `steps` of them before the last. -/
def search (tie : Tie) (mantissa : Nat) (exponent : Int) : Nat → Int → Nat × Int
  | 0, place => (mantissa * scale exponent place / unit exponent place, place)
  | steps + 1, place =>
    match onGrid? tie mantissa exponent place with
    | some n => (n, place)
    | none => search tie mantissa exponent steps (place - 1)

/-- The shortest decimal of a positive number: its digits as a number, and the place of the
    last one. -/
def digits (tie : Tie) (mantissa : Nat) (exponent : Int) : Nat × Int :=
  let coarse := (Nat.log2 mantissa + 1 + exponent) * 30103 / 100000 + 2
  let fine := min exponent 0
  search tie mantissa exponent (coarse - fine).toNat (max coarse fine)

end Shortest

/-! ### Positional notation -/

/-- The number `n * 10 ^ place` with all its digits written out: without a point if it is an
    integer, and with a zero in front of a leading point. -/
def positional (n : Nat) (place : Int) : Text :=
  let digits := Nat.toDigits 10 n
  match place with
  | .ofNat zeros => digits ++ List.replicate zeros '0'
  | .negSucc p =>
    let places := p + 1
    if places < digits.length then
      digits.take (digits.length - places) ++ '.' :: digits.drop (digits.length - places)
    else '0' :: '.' :: (List.replicate (places - digits.length) '0' ++ digits)

/-- The shortest decimal of a number in positional notation, the upper one of two that are
    equally near.  Zero keeps its sign. -/
def printShortest (x : Float) : Text :=
  let sign (negative : Bool) : Text := if negative then ['-'] else []
  match Binary64.decode x with
  | .nan => "NaN".toList
  | .infinite negative => sign negative ++ "inf".toList
  | .finite negative 0 _ => sign negative ++ ['0']
  | .finite negative mantissa exponent =>
    let (n, place) := Shortest.digits .up mantissa exponent
    sign negative ++ positional n place

end EmScale
