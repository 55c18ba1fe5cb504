/-
  EmScale/Proofs/Converter/Decision.lean
  ======================================
  **A value without the name of a unit is no case of its own.**

  A decision keeps a declaration at once if no unit is named in its value, and looks at the
  converted value otherwise.  Every length, marked or not, ends with the name of its unit, so a
  value in which none is named has no lengths and is copied (`Converter.convertValue_eq_self`).
  The decision is the same without the first look (`Converter.decide_eq`).
-/
import EmScale.Converter.Decision
import EmScale.Proofs.Converter.Remaining
import EmScale.Proofs.Converter.Settled

namespace EmScale

theorem Token.name_infix_print (token : Token) : token.unit.name <:+: token.print :=
  ⟨token.marker ++ token.numeral.print, [], by simp [print, length]⟩

theorem Value.print_infix_of_mem_scan {units : UnitTable} {marker t : Text} {token : Token}
    (h : .token token ∈ (scan units marker t).1) : token.print <:+: t := by
  rw [← print_scan units marker t]
  exact List.infix_of_mem_flatten (List.mem_map_of_mem h)

namespace Converter

variable {converter : Converter}

/-- **A value in which no unit is named is copied.** -/
theorem convertValue_eq_self {value : Text}
    (h : ∀ unit ∈ converter.units, ¬ unit.name <:+: value) :
    converter.convertValue value = value := by
  apply convertFrom_eq_self
  intro token htoken
  have hunit := (Value.isListed_of_mem_scanFrom converter.isNamed_units htoken).unit
  have hname := token.name_infix_print.trans (Value.print_infix_of_mem_scan htoken)
  exact absurd hname (h token.unit hunit)

theorem mentionsUnit_of_convertValue_ne {value : Text}
    (h : converter.convertValue value ≠ value) : converter.mentionsUnit value = true := by
  by_contra hmentions
  apply h
  apply convertValue_eq_self
  intro unit hunit hinfix
  apply hmentions
  exact List.any_eq_true.mpr ⟨unit, hunit, Text.includes_iff.mpr hinfix⟩

/-- **The decision without the look for names of units**, which is no restriction: a value
    without one is not changed. -/
theorem decide_eq (converter : Converter) (context : DeclarationContext) :
    let converted := converter.convertValue context.value
    converter.decide context =
        (if converter.isBlacklisted context = true ∨ converter.isEligible context = false ∨
            converted = context.value then .keep
        else if converter.options.replace = true then .replace converted
        else .append converted) ∧
      ∀ value, (∀ unit ∈ converter.units, ¬ unit.name <:+: value) →
        converter.convertValue value = value := by
  intro converted
  refine ⟨?_, fun value => convertValue_eq_self⟩
  split
  · rename_i hkept
    by_contra hne
    obtain ⟨⟨hlisted, heligible, -⟩, hvalue⟩ := decide_ne_keep_iff.mp hne
    rcases hkept with hlisted' | heligible' | hvalue'
    · rw [hlisted] at hlisted'
      cases hlisted'
    · rw [heligible] at heligible'
      cases heligible'
    · exact hvalue hvalue'
  · rename_i hkept
    simp only [not_or, Bool.not_eq_true, Bool.not_eq_false] at hkept
    obtain ⟨hlisted, heligible, hvalue⟩ := hkept
    have hne := decide_ne_keep_iff.mpr
      ⟨⟨hlisted, heligible, mentionsUnit_of_convertValue_ne hvalue⟩, hvalue⟩
    exact (decide_eq_of_ne_keep hne).2

/-- A length is kept in a rule or a property that is left alone and where it is quoted, a marked
    one is not kept elsewhere, and markers, quotes and numbers alone change nothing. -/
theorem decide_eq_marked :
    let converter := ofOptions {
      selectorBlackList := [.text ".a".toList], propWhiteList := [['p'], ['q']],
      propBlackList := [['q']], ignoreIdentifier := some "00".toList, replace := false }
    let unnamed := "00 005pt '00\"5 00".toList
    let marked (prop selector : Text) : DeclarationContext :=
      { prop, value := "-005px".toList, selector }
    converter.decide (marked ['p'] "b .a:c".toList) = .keep ∧
      converter.decide (marked ['q'] ['b']) = .keep ∧
        converter.decide (marked ['r'] ['b']) = .keep ∧
          converter.decide (marked ['p'] ['b']) = .append "-5px".toList ∧
            converter.decide { prop := ['p'], value := "'5px' 5pt".toList } = .keep ∧
              (∀ unit ∈ converter.units, ¬ unit.name <:+: unnamed) ∧
                converter.convertValue unnamed = unnamed := by
  intro converter unnamed marked
  have hunnamed : ∀ unit ∈ converter.units, ¬ unit.name <:+: unnamed := by decide +kernel
  refine ⟨?_, ?_, ?_, ?_, ?_, hunnamed, (decide_eq converter default).2 unnamed hunnamed⟩
  · exact (decide_eq converter _).1.trans (by decide +kernel)
  · exact (decide_eq converter _).1.trans (by decide +kernel)
  · exact (decide_eq converter _).1.trans (by decide +kernel)
  · exact (decide_eq converter _).1.trans (by decide +kernel)
  · exact (decide_eq converter _).1.trans (by decide +kernel)

end Converter

end EmScale
