/-
  EmScale/Proofs/Converter/Plain.lean
  ===================================
  **Converted lengths are written plainly.**

  The quotient of a length may be an infinity or NaN, by a divisor of zero, by a number too
  large or in the rounding, and it may be a zero with a sign.  Whatever it is, a converted
  value holds in the place of a length the length itself, a `0`, or a plain numeral in the
  target unit (`Converter.exists_writes_convertValue`).
-/
import EmScale.Proofs.Converter.Value
import EmScale.Proofs.Number.Plain

namespace EmScale.Converter

/-- What may be written in the place of a segment: a character that belongs to no length as it
    is, a marked length without its marker, a length that stays as it is, and for any other one
    a zero or, with nothing superfluous, its quotient in the target unit. -/
def Writes (converter : Converter) : Segment → Text → Prop
  | .other c, t => t = [c]
  | .token token, t =>
    if token.isIgnored then t = token.length
    else if token.numeral.toFloat.abs < converter.options.minPixelValue ∨
        ¬ (converter.quotient token).isFinite then t = token.print
    else if converter.quotient token == 0.0 then t = ['0']
    else t = printShortest (converter.quotient token) ++ targetUnit ∧
      ∃ n : Numeral, n.IsPlain ∧ n.print = printShortest (converter.quotient token)

section Token

variable {converter : Converter} {token : Token}

theorem scale?_eq_some (h : (converter.quotient token).isFinite) :
    converter.scale? token.numeral.toFloat token.unit.divisor =
      some (if converter.quotient token == 0.0 then ['0']
        else printShortest (converter.quotient token) ++ targetUnit) := by
  unfold scale? formatNumber
  dsimp only
  unfold quotient at h ⊢
  generalize toFixed (token.numeral.toFloat / token.unit.divisor)
    converter.options.unitPrecision = x at h ⊢
  by_cases hzero : x == 0.0
  · simp [h, hzero]
  · simp [h, hzero]

/-- **A length is replaced by what may be written in its place.** -/
theorem writes_convertToken (converter : Converter) (token : Token) :
    converter.Writes (.token token) (converter.convertToken token) := by
  unfold Writes convertToken
  dsimp only
  by_cases hignored : token.isIgnored
  · rw [if_pos hignored, if_pos hignored]
  rw [if_neg hignored, if_neg hignored]
  by_cases hbelow : token.numeral.toFloat.abs < converter.options.minPixelValue
  · rw [if_pos (Or.inl hbelow), if_pos (isBelowMinimum_iff.mpr hbelow)]
  have hreached := mt isBelowMinimum_iff.mp hbelow
  by_cases hfinite : (converter.quotient token).isFinite
  · rw [if_neg (not_or.mpr ⟨hbelow, not_not.mpr hfinite⟩), if_neg hreached,
      scale?_eq_some hfinite, Option.getD_some]
    by_cases hzero : converter.quotient token == 0.0
    · rw [if_pos hzero, if_pos hzero]
    · rw [if_neg hzero, if_neg hzero]
      exact ⟨rfl, exists_isPlain_printShortest hfinite (by simpa using hzero)⟩
  · have hnone := scale?_eq_none_iff.mpr (Bool.not_eq_true _ ▸ hfinite)
    rw [if_pos (Or.inr hfinite), if_neg hreached, hnone, Option.getD_none]

end Token

/-- **A converted value is written plainly.**  Segment by segment, it holds what may be written
    in the place of the segments of the value. -/
theorem exists_writes_convertValue (converter : Converter) (value : Text) :
    ∃ texts,
      List.Forall₂ converter.Writes (Value.scan converter.units converter.marker value).1 texts ∧
        converter.convertValue value = texts.flatten := by
  refine ⟨(Value.scan converter.units converter.marker value).1.map converter.convertSegment,
    ?_, List.flatMap_def ..⟩
  rw [List.forall₂_map_right_iff, List.forall₂_same]
  intro segment _
  cases segment with
  | other c => rfl
  | token token => exact writes_convertToken converter token

/-- A quotient below zero keeps its sign, one of zero loses it, and a length stays where the
    quotient is infinite, be it by a divisor of zero or in the rounding. -/
example :
    let converter := ofOptions {
      rootValue := .perUnit (Divisors.ofList
        [⟨['p', 'x'], 16.0⟩, ⟨['q'], 1e-305⟩, ⟨['x'], 0.0⟩]) }
    converter.convertValue "-24px 0px -0px 5q -05.x".toList = "-1.5em 0 0 5q -05.x".toList := by
  decide +kernel

end EmScale.Converter
