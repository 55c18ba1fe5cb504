/-
  EmScale/Number/Numeral.lean
  ===========================
  **Numbers as they are written.**

  A numeral is an optional sign and decimal digits with an optional point; there is at
  least one digit, on either side of the point.  Reading takes the longest numeral that a
  text starts with, and printing gives back what was read.
-/
import EmScale.Number.Decimal

namespace EmScale

def splitSign : Text → Text × Text
  | '+' :: rest => (['+'], rest)
  | '-' :: rest => (['-'], rest)
  | t => ([], t)

/-- A number as it is written: sign, digits, and the point with the digits behind it. -/
structure Numeral where
  sign : Text
  whole : Text
  point : Text
  fraction : Text
deriving DecidableEq, Repr, Inhabited

namespace Numeral

def print (n : Numeral) : Text :=
  n.sign ++ n.whole ++ n.point ++ n.fraction

def toDecimal (n : Numeral) (exponent : Int) : Decimal :=
  Decimal.ofDigits (n.sign == ['-']) n.whole n.fraction exponent

def toFloat (n : Numeral) : Float :=
  (n.toDecimal 0).toFloat

/-- Cuts off a point and the digits behind it. -/
def splitFraction : Text → Text × Text × Text
  | '.' :: rest => (['.'], rest.takeWhile Char.isDigit, rest.dropWhile Char.isDigit)
  | t => ([], [], t)

/-- Reads the numeral that a text starts with. -/
def read? (t : Text) : Option (Numeral × Text) :=
  let (sign, unsigned) := splitSign t
  let whole := unsigned.takeWhile Char.isDigit
  let (point, fraction, rest) := splitFraction (unsigned.dropWhile Char.isDigit)
  if whole.isEmpty && fraction.isEmpty then none
  else some (⟨sign, whole, point, fraction⟩, rest)

end Numeral

/-! ### Nothing is lost -/

theorem splitSign_append (t : Text) : (splitSign t).1 ++ (splitSign t).2 = t := by
  unfold splitSign
  split <;> rfl

namespace Numeral

theorem splitFraction_append (t : Text) :
    (splitFraction t).1 ++ (splitFraction t).2.1 ++ (splitFraction t).2.2 = t := by
  unfold splitFraction
  split
  · simp [List.takeWhile_append_dropWhile]
  · rfl

/-- A numeral that is read is what the text starts with. -/
theorem print_append_of_read? {t rest : Text} {n : Numeral} (h : read? t = some (n, rest)) :
    n.print ++ rest = t := by
  simp only [read?] at h
  split at h
  · cases h
  · cases h
    have parts := splitFraction_append ((splitSign t).2.dropWhile Char.isDigit)
    simp only [print, List.append_assoc] at parts ⊢
    rw [parts, List.takeWhile_append_dropWhile, splitSign_append]

theorem print_ne_nil_of_read? {t rest : Text} {n : Numeral} (h : read? t = some (n, rest)) :
    n.print ≠ [] := by
  simp only [read?] at h
  split at h
  · cases h
  · rename_i digits
    cases h
    intro empty
    simp_all [print]

end Numeral

/-! ### Floating point numbers -/

/-- Reads an exponent that makes up a whole text: nothing, or an `e` with a signed run of
    digits. -/
def readExponent? : Text → Option Int
  | [] => some 0
  | c :: t =>
    let (sign, digits) := splitSign t
    if (c == 'e' || c == 'E') && !digits.isEmpty && digits.all Char.isDigit then
      let n : Int := naturalOfDigits digits
      some (if sign = ['-'] then -n else n)
    else none

/-- Reads a floating point number that makes up a whole text: a numeral with an optional
    exponent, or an infinity or NaN by name in any case. -/
def readFloat? (t : Text) : Option Float :=
  let (sign, unsigned) := splitSign t
  let name := unsigned.map Char.toLower
  if name = "inf".toList || name = "infinity".toList then
    some (signedFloat (sign == ['-']) floatInfinity)
  else if name = "nan".toList then some floatNan
  else do
    let (numeral, rest) ← Numeral.read? t
    let exponent ← readExponent? rest
    return (numeral.toDecimal exponent).toFloat

end EmScale
