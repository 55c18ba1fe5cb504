/-
  EmScale/Proofs/Value/Unit.lean
  ==============================
  **Taking the first unit loses nothing.**

  Behind a number the first unit of the table that fits is taken, and if the word does not end
  behind it no shorter one is tried.  None need be: names of units are letters, and a word goes
  on with a letter.  So where the word ends behind the name of a unit, no longer unit stands
  there, and that unit is the one that is taken (`SourceUnit.Fits.startOf?`).
-/
import EmScale.Proofs.Value.Length

namespace EmScale

open Text (StartsOff)

/-- A text starts with the name of the unit, and the word ends behind it. -/
def SourceUnit.Fits (unit : SourceUnit) (t : Text) : Prop :=
  ∃ rest, unit.name ++ rest = t ∧ StartsOff continuesWord rest

theorem SourceUnit.Fits.startsWith {unit : SourceUnit} {t : Text} (h : unit.Fits t) :
    unit.name <+: t := by
  obtain ⟨rest, hrest, -⟩ := h
  exact ⟨rest, hrest⟩

section Table

variable {units : UnitTable} (hnamed : units.IsNamed) (hordered : units.IsOrdered)

include hnamed hordered

/-- **A unit that fits is the one that is taken.** -/
theorem SourceUnit.Fits.startOf? {unit : SourceUnit} {t : Text} (h : unit.Fits t)
    (hunit : unit ∈ units) : units.startOf? t = some unit := by
  obtain ⟨rest, rfl, hrest⟩ := h
  have hletters : StartsOff Char.isAlpha rest := hrest.mono fun _ => continuesWord_of_isAlpha
  rw [UnitTable.startOf?_append hnamed hletters, UnitTable.startOf?_name_iff hordered]
  exact hunit

theorem SourceUnit.Fits.eq {a b : SourceUnit} {t : Text} (ha : a.Fits t) (hb : b.Fits t)
    (haunits : a ∈ units) (hbunits : b ∈ units) : a = b := by
  have hstart := ha.startOf? hnamed hordered haunits
  rw [hb.startOf? hnamed hordered hbunits] at hstart
  exact (Option.some.inj hstart).symm

theorem SourceUnit.Fits.length_lt {unit other : SourceUnit} {t : Text} (h : unit.Fits t)
    (hunit : unit ∈ units) (hother : other ∈ units) (hstarts : other.name <+: t)
    (hne : other ≠ unit) : other.name.length < unit.name.length := by
  have hstart := h.startOf? hnamed hordered hunit
  apply Nat.lt_of_le_of_ne (UnitTable.length_le_of_startOf? hordered hstart hother hstarts)
  intro hlength
  exact hne (hordered.eq_of_length_eq hother hunit hstarts h.startsWith hlength)

end Table

namespace Token

/-- Behind a number that is read a length needs a unit that fits. -/
theorem readLength?_of_numeral {units : UnitTable} {t behind : Text} {n : Numeral}
    (h : Numeral.read? t = some (n, behind)) {n' : Numeral} {unit : SourceUnit} {rest : Text} :
    readLength? units t = some (n', unit, rest) ↔
      n = n' ∧ units.startOf? behind = some unit ∧ unit.Fits behind ∧
        behind.drop unit.name.length = rest := by
  simp only [readLength?, h, Option.bind_eq_bind, Option.bind_some, Option.bind_eq_some_iff]
  constructor
  · rintro ⟨found, hfound, hread⟩
    split at hread
    · rename_i hends
      cases hread
      obtain ⟨rest, rfl⟩ := UnitTable.prefix_of_startOf? hfound
      rw [List.drop_left] at hends
      exact ⟨rfl, hfound, ⟨rest, rfl, endsBefore_iff.mp hends⟩, rfl⟩
    · cases hread
  · rintro ⟨rfl, hfound, ⟨rest', rfl, hends⟩, rfl⟩
    refine ⟨unit, hfound, ?_⟩
    rw [List.drop_left, if_pos (endsBefore_iff.mpr hends)]

/-- **Taking the first unit loses nothing.**  Behind a number there is a length if and only if
    some unit of the table fits there.  That unit is the only one that does, the length has it
    with its own divisor, and it is longer than every other unit that stands there. -/
theorem exists_length_iff_exists_fits (root : RootValue) {t behind : Text} {n : Numeral}
    (h : Numeral.read? t = some (n, behind)) :
    ((readLength? root.resolve t).isSome = true ↔ ∃ unit ∈ root.resolve, unit.Fits behind) ∧
      ∀ unit ∈ root.resolve, unit.Fits behind →
        readLength? root.resolve t = some (n, unit, behind.drop unit.name.length) ∧
          root.resolve.divisor? unit.name = some unit.divisor ∧
          (∀ other ∈ root.resolve, other.Fits behind → other = unit) ∧
          ∀ other ∈ root.resolve, other.name <+: behind → other ≠ unit →
            other.name.length < unit.name.length := by
  have hnamed := root.isNamed_resolve
  have hordered := root.isOrdered_resolve
  have hread : ∀ unit ∈ root.resolve, unit.Fits behind →
      readLength? root.resolve t = some (n, unit, behind.drop unit.name.length) := by
    intro unit hunit hfits
    exact (readLength?_of_numeral h).mpr ⟨rfl, hfits.startOf? hnamed hordered hunit, hfits, rfl⟩
  constructor
  · constructor
    · intro hsome
      obtain ⟨⟨n', unit, rest⟩, hlength⟩ := Option.isSome_iff_exists.mp hsome
      obtain ⟨-, hstart, hfits, -⟩ := (readLength?_of_numeral h).mp hlength
      exact ⟨unit, UnitTable.mem_of_startOf? hstart, hfits⟩
    · rintro ⟨unit, hunit, hfits⟩
      rw [hread unit hunit hfits]
      rfl
  · intro unit hunit hfits
    refine ⟨hread unit hunit hfits,
      (UnitTable.divisor?_eq_some_iff hordered.distinct).mpr hunit, ?_, ?_⟩
    · intro other hother hfits'
      exact hfits'.eq hnamed hordered hfits hother hunit
    · intro other hother hstarts hne
      exact hfits.length_lt hnamed hordered hunit hother hstarts hne

/-- Of units whose names start and end alike the longest one fits, and none does where the word
    goes on behind it. -/
theorem exists_length_of_overlapping_units :
    let root : RootValue := .perUnit (Divisors.ofList
      [⟨"p".toList, 1.0⟩, ⟨"px".toList, 2.0⟩, ⟨"pxp".toList, 3.0⟩, ⟨"xp".toList, 4.0⟩])
    let n : Numeral := ⟨['-'], ['1'], ['.'], ['5']⟩
    (Numeral.read? "-1.5pxp,px".toList = some (n, "pxp,px".toList) ∧
      Numeral.read? "-1.5pxp-".toList = some (n, "pxp-".toList)) ∧
      (∃ unit ∈ root.resolve, unit.name = "pxp".toList ∧
        readLength? root.resolve "-1.5pxp,px".toList = some (n, unit, ",px".toList) ∧
        ∀ other ∈ root.resolve, other.Fits "pxp,px".toList → other = unit) ∧
      ¬ ∃ unit ∈ root.resolve, unit.Fits "pxp-".toList := by
  intro root n
  have hends : Numeral.read? "-1.5pxp,px".toList = some (n, "pxp,px".toList) := by decide
  have hgoes : Numeral.read? "-1.5pxp-".toList = some (n, "pxp-".toList) := by decide
  refine ⟨⟨hends, hgoes⟩, ?_, ?_⟩
  · obtain ⟨unit, hunit, hname⟩ : ∃ unit ∈ root.resolve, unit.name = "pxp".toList := by
      decide +kernel
    have hfits : unit.Fits "pxp,px".toList := ⟨",px".toList, by rw [hname]; rfl, by decide⟩
    obtain ⟨hlength, -, hunique, -⟩ :=
      (exists_length_iff_exists_fits root hends).2 unit hunit hfits
    rw [hname] at hlength
    exact ⟨unit, hunit, hname, hlength, hunique⟩
  · have hnone : (readLength? root.resolve "-1.5pxp-".toList).isSome = false := by
      decide +kernel
    rw [← (exists_length_iff_exists_fits root hgoes).1, hnone]
    exact Bool.false_ne_true

end Token

end EmScale
