/-
  EmScale/Number/Digits.lean
  ==========================
  **Natural numbers by their digits.**
-/
import EmScale.Text

namespace EmScale

def naturalOfDigits (digits : Text) : Nat :=
  digits.foldl (fun n c => 10 * n + (c.toNat - '0'.toNat)) 0

def hexDigit? (c : Char) : Option Nat :=
  if c.isDigit then some (c.toNat - '0'.toNat)
  else if 'a' ≤ c ∧ c ≤ 'f' then some (c.toNat - 'a'.toNat + 10)
  else if 'A' ≤ c ∧ c ≤ 'F' then some (c.toNat - 'A'.toNat + 10)
  else none

def naturalOfHex? (digits : Text) : Option Nat :=
  digits.foldl (fun value c => do return 16 * (← value) + (← hexDigit? c)) (some 0)

end EmScale
