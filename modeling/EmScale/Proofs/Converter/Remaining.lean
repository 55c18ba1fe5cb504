/-
  EmScale/Proofs/Converter/Remaining.lean
  =======================================
  **Which lengths remain in a converted value.**

  A length remains if it is small or if its conversion is no finite number
  (`Converter.convertToken_eq_print_iff`).  Any other one becomes a zero or a number in the
  target unit, which is no length of the table.  So the lengths of a converted value are those
  of the value that remain, in their order, and there is no other
  (`Converter.tokens_convertValue`).
-/
import EmScale.Proofs.Converter.Edits
import EmScale.Proofs.Converter.Rescan

namespace EmScale.Converter

variable {converter : Converter}

/-- Whether a length without a marker remains: its number is small, or the converted one is not
    finite. -/
def retains (converter : Converter) (token : Token) : Bool :=
  token.numeral.toFloat.abs < converter.options.minPixelValue ||
    !(converter.quotient token).isFinite

/-- **A length is left as it is exactly if it is retained.** -/
theorem convertToken_eq_print_iff (htarget : ∀ unit ∈ converter.units, unit.name ≠ targetUnit)
    {token : Token} (h : token.IsListed converter.units []) :
    converter.convertToken token = token.print ↔ converter.retains token = true := by
  have hmarker : token.marker = [] := h.marker.elim id And.left
  have hprint : token.print = token.numeral.print ++ token.unit.name := by
    simp [Token.print, Token.length, hmarker]
  have hignored : ¬ token.isIgnored = true := by
    simp [Token.isIgnored, hmarker]
  unfold convertToken
  rw [if_neg hignored]
  by_cases hbelow : converter.isBelowMinimum token = true
  · rw [if_pos hbelow]
    simp [retains, isBelowMinimum_iff.mp hbelow]
  rw [if_neg hbelow]
  have hreached := mt isBelowMinimum_iff.mpr hbelow
  rcases hscale : converter.scale? token.numeral.toFloat token.unit.divisor with _ | result
  · refine iff_of_true rfl ?_
    simp [retains, quotient, scale?_eq_none_iff.mp hscale]
  · have hfinite : ¬ converter.retains token = true := by
      intro hretains
      simp only [retains, hreached, decide_false, Bool.false_or, Bool.not_eq_true'] at hretains
      rw [scale?_eq_none_iff.mpr hretains] at hscale
      cases hscale
    refine iff_of_false ?_ hfinite
    have hconverted := isConverted_of_scale? hscale
    rw [Option.getD_some, hprint]
    exact (hconverted.ne_length converter.isNamed_units htarget (Or.inl rfl) h.numeral
      h.unit).symm

theorem isListed_of_mem_tokens {marker value : Text} {token : Token}
    (h : token ∈ Value.tokens converter.units marker value) :
    token.IsListed converter.units marker :=
  Value.isListed_of_mem_scanFrom converter.isNamed_units (Segment.mem_filterMap_token?.mp h)

/-- **The lengths of a converted value are the retained ones of the value.** -/
theorem tokens_convertValue (hmarker : converter.marker = [])
    (htarget : ∀ unit ∈ converter.units, unit.name ≠ targetUnit) (value : Text) :
    Value.tokens converter.units converter.marker (converter.convertValue value) =
      (Value.tokens converter.units converter.marker value).filter converter.retains := by
  have hscan := congrArg Prod.fst (scanFrom_convertFrom hmarker htarget .start value)
  have hkept := congrArg (List.filterMap Segment.token?) hscan
  rw [filterMap_flatMap_resegment] at hkept
  rw [hmarker]
  refine hkept.trans ?_
  apply List.filter_congr
  intro token htoken
  rw [Bool.eq_iff_iff, decide_eq_true_iff]
  exact convertToken_eq_print_iff htarget (isListed_of_mem_tokens htoken)

/-- A small length and an infinite one remain around a converted one. -/
theorem tokens_convertValue_infinite :
    let converter := ofOptions {
      rootValue := .perUnit (Divisors.ofList [⟨['p', 'x'], 100.0⟩, ⟨['x'], 0.0⟩])
      minPixelValue := 3.0 }
    let value := "-2px 5px+7x".toList
    (converter.marker = [] ∧ ∀ unit ∈ converter.units, unit.name ≠ targetUnit) ∧
      converter.convertValue value = "-2px 0.05em+7x".toList ∧
        (Value.tokens converter.units converter.marker value).map Token.print =
          ["-2px".toList, "5px".toList, "7x".toList] ∧
        Value.tokens converter.units converter.marker (converter.convertValue value) =
          (Value.tokens converter.units converter.marker value).filter converter.retains := by
  intro converter value
  have htarget : ∀ unit ∈ converter.units, unit.name ≠ targetUnit := by decide +kernel
  exact ⟨⟨rfl, htarget⟩, by decide +kernel, by decide +kernel,
    tokens_convertValue rfl htarget value⟩

end EmScale.Converter
